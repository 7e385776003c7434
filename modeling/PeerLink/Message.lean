import PeerLink.Block
import PeerLink.Pipeline

/-!
Messages: a header of ten bytes and a body of blocks.

    [0, 2)   length of the whole message
    [2, 5)   client: the connection it comes from or goes to
    [5, 7)   head: which action it calls
    [7, 10)  type: 0 direct, 1 broadcast, 2 synchronization, 10 + n reply in slot n
    [10, …)  body

Blocks are appended at the end and read from a cursor. Once a message has been turned into a frame, the
frame is kept and used again until the header or the body changes.
-/
namespace PeerLink

/-- What a type says about a message. -/
inductive MessageKind where
  | direct
  | broadcast
  | sync
  /-- A request that waits in this slot, or the answer to it. -/
  | reply (slot : Nat)
  /-- Left to applications. -/
  | other (type : Nat)
  deriving DecidableEq

/-- The least type that carries a reply slot. -/
abbrev replyBase : Nat := 10

def MessageKind.ofType (type : UInt24) : MessageKind :=
  match type.toNat with
  | 0 => .direct
  | 1 => .broadcast
  | 2 => .sync
  | n => if replyBase ≤ n then .reply (n - replyBase) else .other n

def MessageKind.describe : MessageKind → String
  | .direct => "direct"
  | .broadcast => "broadcast"
  | .sync => "sync"
  | .reply slot => s!"reply:{slot}"
  | .other type => s!"other:{type}"

/-- A message with a cursor in it. -/
structure Message where
  client : UInt24
  head : UInt16
  type : UInt24
  body : Bytes
  /-- Where the next block is read, counted from the start of the header. -/
  cursor : Nat
  /-- The frame made of the message or that it came in, while it is still right. -/
  frame : Option Bytes
  deriving DecidableEq, Inhabited

namespace Message

variable {α : Type}

/-- A message without blocks. -/
def withHeader (client : UInt24) (head : UInt16) (type : UInt24) : Message :=
  ⟨client, head, type, [], headerSize, none⟩

def new (head : UInt16) : Message := withHeader 0 head 0

/-- An answer without blocks: it has the header of the request, and so its reply slot. -/
def replyTo (request : Message) : Message :=
  withHeader request.client request.head request.type

def kind (m : Message) : MessageKind := .ofType m.type

def replySlot (m : Message) : Option Nat :=
  match m.kind with
  | .reply slot => some slot
  | _ => none

def size (m : Message) : Nat := headerSize + m.body.length

def isEmpty (m : Message) : Bool := m.body.isEmpty

def isPacked (m : Message) : Bool := m.frame.isSome

def remaining (m : Message) : Nat := m.size - m.cursor

def rewind (m : Message) : Message := { m with cursor := headerSize }

/-! ### Changing -/

def setClient (m : Message) (client : UInt24) : Message :=
  if m.client = client then m else { m with client, frame := none }

def setHead (m : Message) (head : UInt16) : Message :=
  if m.head = head then m else { m with head, frame := none }

def setType (m : Message) (type : UInt24) : Message :=
  if m.type = type then m else { m with type, frame := none }

/-- Puts a reply slot into the type. A slot that is too large even before the base is added is reported
as it is, any other with the base. -/
def setReplySlot (m : Message) (slot : Nat) : Except Fault Message :=
  if 0xffffffff < slot + replyBase then .error (.valueOutOfRange slot)
  else m.setType <$> UInt24.check (slot + replyBase)

/-- Appends a block, unless it has no encoding or the message would outgrow a frame. -/
def set (m : Message) (block : Block α) (v : α) : Except Fault Message :=
  match block.encode v with
  | .error e => .error e
  | .ok bs =>
    let size := m.size + bs.length
    if maxFrameSize < size then .error (.oversizedFrame size)
    else .ok { m with body := m.body ++ bs, frame := none }

/-! ### Reading -/

def unread (m : Message) : Bytes := m.body.drop (m.cursor - headerSize)

/-- Reads the next block and moves the cursor behind it. -/
def get (m : Message) (block : Block α) : Except Fault (α × Message) :=
  match block.decode m.unread with
  | .ok (v, rest) => .ok (v, { m with cursor := m.size - rest.length })
  | .error e => .error e

def canGet (m : Message) (block : Block α) : Bool :=
  (block.decode m.unread).isOk

/-! ### Bytes and frames -/

def header (m : Message) : Bytes :=
  Bytes.ofNat 2 m.size ++ m.client.toBytes ++ Bytes.ofNat 2 m.head.toNat ++ m.type.toBytes

def toBytes (m : Message) : Except Fault Bytes :=
  if maxFrameSize < m.size then .error (.oversizedFrame m.size) else .ok (m.header ++ m.body)

/-- The frame that is kept, or else the one that the pipeline makes, and the message that keeps it. -/
def serialize (m : Message) (p : Pipeline) (drawn : Draw) : Except Fault (Bytes × Message) :=
  match m.frame with
  | some frame => .ok (frame, m)
  | none => do
    let frame ← p.encode drawn (← m.toBytes)
    return (frame, { m with frame := some frame })

/-- The header fields in front of a body: length, client, head, type. -/
def readHeader : Reader (Nat × UInt24 × UInt16 × UInt24) := do
  let declared ← Reader.nat 2
  let client ← Reader.u24
  let head ← Reader.nat 2
  let type ← Reader.u24
  return (declared, client, UInt16.ofNat head, type)

/-- The length that the first bytes declare; fewer than two declare none. -/
def declaredLength (bs : Bytes) : Nat :=
  match bs with
  | low :: high :: _ => Bytes.toNat [low, high]
  | _ => 0

/-- The message that bytes without a pipeline spell. -/
def ofBytes (bs : Bytes) : Except Fault Message :=
  if bs.length < headerSize then .error (.lengthMismatch (declaredLength bs) bs.length)
  else do
    let ((declared, client, head, type), body) ← readHeader bs
    if declared = bs.length then return ⟨client, head, type, body, headerSize, none⟩
    else throw (.lengthMismatch declared bs.length)

/-- The message of a frame, which is kept. -/
def ofFrame (p : Pipeline) (frame : Bytes) : Except Fault Message := do
  let m ← ofBytes (← p.decode frame)
  return { m with frame := some frame }

def describe (m : Message) : String :=
  s!"Message \x7b client_id: UInt24({m.client}), head_id: {m.head}, type_id: UInt24({m.type}), " ++
    s!"body_len: {m.body.length}, cursor: {m.cursor}, packed: {m.isPacked} \x7d"

end Message

end PeerLink
