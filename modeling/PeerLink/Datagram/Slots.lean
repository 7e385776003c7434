import PeerLink.Bytes
import Std.Data.HashMap

/-!
Datagrams that wait to be sent. Of all datagrams with one head only the newest counts: it takes the
place of the one before, and so keeps its turn. `toList` shows the waiting datagrams in the order in
which they are sent.
-/
namespace PeerLink

/-- The newest datagram of every head, and the turns of the heads. -/
structure DatagramSlots where
  newest : Std.HashMap UInt16 Bytes
  order : List UInt16

namespace DatagramSlots

instance : EmptyCollection DatagramSlots := ⟨⟨∅, []⟩⟩

instance : Inhabited DatagramSlots := ⟨∅⟩

def size (s : DatagramSlots) : Nat := s.newest.size

def isEmpty (s : DatagramSlots) : Bool := s.newest.isEmpty

/-- Adds a datagram, and tells whether it took the place of another. -/
def push (s : DatagramSlots) (head : UInt16) (frame : Bytes) : Bool × DatagramSlots :=
  if s.newest.contains head then (true, ⟨s.newest.insert head frame, s.order⟩)
  else (false, ⟨s.newest.insert head frame, s.order ++ [head]⟩)

def popFrom (newest : Std.HashMap UInt16 Bytes) :
    List UInt16 → Option ((UInt16 × Bytes) × DatagramSlots)
  | [] => none
  | head :: order =>
    match newest[head]? with
    | some frame => some ((head, frame), ⟨newest.erase head, order⟩)
    | none => popFrom newest order

/-- Takes the datagram whose turn it is. -/
def pop? (s : DatagramSlots) : Option ((UInt16 × Bytes) × DatagramSlots) :=
  popFrom s.newest s.order

/-- Waiting datagrams with their heads, next one first. -/
def toList (s : DatagramSlots) : List (UInt16 × Bytes) :=
  s.order.filterMap fun head => (s.newest[head]?).map (head, ·)

end DatagramSlots

end PeerLink
