import PeerLink.Fault
import PeerLink.UInt24

/-!
How the id of an admitted connection is written: in the three bytes that it needs, or in four with a
zero at the end. Both peers have to choose alike.
-/
namespace PeerLink

/-- Bytes of an id at the end of a handshake. -/
inductive IdWidth where
  | three
  | four
  deriving DecidableEq, Inhabited, Repr

namespace IdWidth

def all : List IdWidth := [three, four]

def name : IdWidth → String
  | three => "three"
  | four => "four"

/-- The width with a name from a configuration file. -/
def ofName? (s : String) : Option IdWidth := all.find? (·.name = s)

def size : IdWidth → Nat
  | three => 3
  | four => 4

def encode (w : IdWidth) (id : UInt24) : Bytes := Bytes.ofNat w.size id.toNat

/-- The id that exactly as many bytes spell. -/
def decode (w : IdWidth) (bs : Bytes) : Except Fault UInt24 :=
  if bs.length = w.size then UInt24.check (Bytes.toNat bs)
  else .error (.handshake s!"expected {w.size} id bytes, got {bs.length}")

theorem length_encode (w : IdWidth) (id : UInt24) : (w.encode id).length = w.size := by
  simp [encode]

/-- An id comes back from either width. -/
theorem decode_encode (w : IdWidth) (id : UInt24) : w.decode (w.encode id) = .ok id := by
  have hlt := id.toNat_lt
  have hn : Bytes.toNat (w.encode id) = id.toNat := by
    rw [encode, Bytes.toNat_ofNat]
    cases w <;> simp only [size, Bytes.capacity] <;> omega
  rw [decode, if_pos (length_encode w id), hn, UInt24.check_toNat]

end IdWidth

end PeerLink
