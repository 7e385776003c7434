import PeerLink.Address
import PeerLink.Datagram.Slots
import PeerLink.Metrics

/-!
The datagram channel beside a connection. Whoever adds a datagram or learns the peer's address leaves a
permit, of which one at most is kept. The sender waits for the permit, and then sends what waits if it
knows where to.
-/
namespace PeerLink

/-- The head of the datagram that tells a server where a client's datagrams come from. -/
def registerHead : UInt16 := 0xffff

def Fault.datagramPeerUnknown : Fault := .transport "UDP peer address not yet known"

/-- Whether a datagram comes from the host that the connection goes to. Its port may be another one. -/
def checkSource (peer : Option SocketAddress) (source : SocketAddress) : Except Fault Unit :=
  match peer with
  | none => .error .datagramPeerUnknown
  | some peer =>
    if peer.ip = source.ip then .ok ()
    else .error (.transport s!"datagram from {source.render} does not match the TCP peer")

structure DatagramLink where
  peer : Option SocketAddress
  slots : DatagramSlots
  permit : Bool

/-- Hands a datagram to the network: whether it went out, and the network after that. -/
abbrev DatagramSocket (σ : Type) := SocketAddress → Bytes → σ → Except Fault Unit × σ

namespace DatagramLink

variable {σ : Type}

def new (peer : Option SocketAddress) : DatagramLink := ⟨peer, ∅, false⟩

def pending (l : DatagramLink) : Nat := l.slots.size

def notify (l : DatagramLink) : DatagramLink := { l with permit := true }

def learnPeer (l : DatagramLink) (peer : SocketAddress) : DatagramLink :=
  { l with peer := some peer }.notify

/-- Adds a datagram, and tells whether it took the place of another. -/
def enqueue (l : DatagramLink) (head : UInt16) (frame : Bytes) : Bool × DatagramLink :=
  let (replaced, slots) := l.slots.push head frame
  (replaced, { l with slots }.notify)

/-- Sends waiting datagrams until none is left or one does not go out; that one is lost. The count
bounds the datagrams. -/
def sendAll (send : DatagramSocket σ) (peer : SocketAddress) :
    Nat → DatagramSlots → Metrics → σ → Except Fault Unit × DatagramSlots × Metrics × σ
  | 0, slots, metrics, net => (.ok (), slots, metrics, net)
  | n + 1, slots, metrics, net =>
    match slots.pop? with
    | none => (.ok (), slots, metrics, net)
    | some ((_, frame), slots) =>
      match send peer frame net with
      | (.error e, net) => (.error e, slots, metrics, net)
      | (.ok (), net) => sendAll send peer n slots (metrics.datagramSent frame.length) net

/-- One turn of the sender, if there is a permit: it takes the permit and sends what waits. -/
def run (l : DatagramLink) (send : DatagramSocket σ) (metrics : Metrics) (net : σ) :
    Except Fault Unit × DatagramLink × Metrics × σ :=
  if l.permit then
    let l := { l with permit := false }
    match l.peer with
    | none => (.ok (), l, metrics, net)
    | some peer =>
      let (done, slots, metrics, net) := sendAll send peer l.slots.order.length l.slots metrics net
      (done, { l with slots }, metrics, net)
  else (.ok (), l, metrics, net)

end DatagramLink

end PeerLink
