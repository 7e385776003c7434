import PeerLink.Datagram.Link
import PeerLink.Framing
import PeerLink.ReplyTable

/-!
One end of a connection. Frames leave in the order in which they are queued, one at a time. Closing
happens once: from then on nothing is queued, and the callbacks that still wait are dropped without
being run.
-/
namespace PeerLink

inductive ConnectionEvent where
  | connected (id : UInt24)
  | disconnected (id : UInt24)
  /-- A message came for a head without an action. -/
  | unregistered (id : UInt24) (head : UInt16)
  deriving DecidableEq

/-- One end of a connection, with callbacks in `κ`. -/
structure Connection (κ : Type) where
  id : UInt24
  peer : Option SocketAddress
  pipeline : Pipeline
  nonces : NonceSource
  metrics : Metrics
  /-- Frames that wait to be written, the oldest first. -/
  outbound : List Bytes
  /-- Frames that wait or are being written. -/
  pending : UInt64
  replies : ReplyTable κ
  /-- Broadcasts go to the members of the sender's group. -/
  group : Option UInt32
  datagrams : Option DatagramLink
  isClosed : Bool

/-- How the wait for an answer ended. -/
inductive Wait where
  | answered (answer : Message)
  /-- The callback was dropped. -/
  | dropped
  | late

namespace Connection

variable {κ : Type}

/-- An open connection that has sent nothing. -/
def new (role : Role) (id : UInt24) (pipeline : Pipeline) (nonces : NonceSource)
    (peer : Option SocketAddress) (datagrams : Option DatagramLink) : Connection κ :=
  { id, peer, pipeline, nonces, metrics := {}, outbound := [], pending := 0, replies := .new role,
    group := none, datagrams, isClosed := false }

def role (c : Connection κ) : Role := c.replies.role

def close (c : Connection κ) : Connection κ :=
  if c.isClosed then c
  else { c with isClosed := true, replies := c.replies.clear, metrics := c.metrics.connectionClosed }

/-! ### Sending -/

/-- The frame of a message, the message that keeps it, and the connection behind the draw for it. -/
def frameOf (c : Connection κ) (m : Message) : Except Fault (Bytes × Message × Connection κ) :=
  let (drawn, nonces) := c.nonces.next
  match m.serialize c.pipeline drawn with
  | .ok (frame, m) => .ok (frame, m, { c with nonces })
  | .error e => .error e

def sendFrame (c : Connection κ) (frame : Bytes) : Except Fault (Connection κ) :=
  if c.isClosed then .error .connectionClosed
  else .ok { c with pending := c.pending + 1, outbound := c.outbound ++ [frame] }

def send (c : Connection κ) (m : Message) : Except Fault (Connection κ) := do
  let (frame, _, c) ← c.frameOf m
  c.sendFrame frame

/-- Queues a message whose answer the callback waits for, in the slot that comes with it. If it cannot be
queued, the slot is given back. While no slot is free, nothing happens. -/
def sendWithReply? (c : Connection κ) (m : Message) (callback : κ) :
    Option (Except Fault Nat × Connection κ) :=
  match c.replies.register? callback with
  | none => none
  | some (slot, replies) =>
    let c := { c with replies }
    match m.setReplySlot slot >>= c.send with
    | .ok c => some (.ok slot, c)
    | .error e => some (.error e, { c with replies := c.replies.erase slot })

/-- The outcome of a request whose wait has ended. A slot that was waited for in vain is given back, so
that an answer that comes later belongs to nobody. -/
def finish (c : Connection κ) (slot : Nat) : Wait → Except Fault Message × Connection κ
  | .answered answer => (.ok answer, c)
  | .dropped => (.error .replyDropped, { c with replies := c.replies.erase slot })
  | .late => (.error .timeout, { c with replies := c.replies.erase slot })

def sendDatagram (c : Connection κ) (m : Message) : Except Fault (Connection κ) :=
  if c.isClosed then .error .connectionClosed
  else
    match c.datagrams with
    | none => .error .noDatagramChannel
    | some link => do
      let (frame, _, c) ← c.frameOf m
      let (replaced, link) := link.enqueue m.head frame
      return { c with
        datagrams := some link
        metrics := if replaced then c.metrics.datagramShed else c.metrics }

/-! ### Writing and reading -/

def nextFrame? (c : Connection κ) : Option (Bytes × Connection κ) :=
  match c.outbound with
  | [] => none
  | frame :: rest => some (frame, { c with outbound := rest })

def takeFrames (c : Connection κ) : List Bytes × Connection κ :=
  (c.outbound, { c with outbound := [] })

/-- What the end of a write leaves; a write that failed closes the connection. -/
def written (c : Connection κ) (frame : Bytes) (done : Except Fault Unit) : Connection κ :=
  let c := { c with pending := c.pending - 1 }
  match done with
  | .ok () => { c with metrics := c.metrics.messageSent frame.length }
  | .error _ => c.close

/-- How the peer's stream is cut into frames. -/
def framing (c : Connection κ) (maxFrame : Nat) : Framing := .within c.pipeline.minFrameSize maxFrame

/-- The message of one frame. A frame without one is dropped, and those after it are not touched. -/
def accept (c : Connection κ) (frame : Bytes) : Option Message × Connection κ :=
  match Message.ofFrame c.pipeline frame with
  | .ok m => (some m, { c with metrics := c.metrics.messageReceived frame.length })
  | .error _ => (none, { c with metrics := c.metrics.protocolError })

def acceptAll (c : Connection κ) : List Bytes → List Message × Connection κ
  | [] => ([], c)
  | frame :: frames =>
    let (m, c) := c.accept frame
    let (ms, c) := c.acceptAll frames
    (m.toList ++ ms, c)

/-- The messages of bytes that have arrived, and the bytes that wait for more. Nothing can be read behind
a length that is refused, so it closes the connection. -/
def receive (c : Connection κ) (maxFrame : Nat) (buffer : Bytes) : List Message × Bytes × Connection κ :=
  if c.isClosed then ([], buffer, c)
  else
    let cut := (c.framing maxFrame).cut buffer
    let (ms, c) := c.acceptAll cut.frames
    match cut.fault with
    | none => (ms, cut.rest, c)
    | some _ => (ms, cut.rest, { c with metrics := c.metrics.protocolError }.close)

/-- The peer has ended its stream, perhaps inside a frame. -/
def endOfStream (c : Connection κ) (buffer : Bytes) : Connection κ :=
  if c.isClosed then c
  else if buffer.isEmpty then c.close
  else { c with metrics := c.metrics.protocolError }.close

def describeOption : Option String → String
  | none => "None"
  | some s => s!"Some({s})"

def describe (c : Connection κ) : String :=
  let peer := describeOption (c.peer.map SocketAddress.render)
  let group := describeOption (c.group.map toString)
  s!"Connection \x7b id: UInt24({c.id}), peer: {peer}, group: {group}, " ++
    s!"pending: {c.pending}, closed: {c.isClosed} \x7d"

end Connection

end PeerLink
