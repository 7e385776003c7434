import PeerLink.Bytes
import PeerLink.Fault

/-!
Three-byte unsigned integers: connection ids and message types. Construction from a wider number is
either checked (`ofNat?`, `check`) or keeps the low 24 bits (`truncate`).
-/
namespace PeerLink

/-- A number below 2^24. -/
structure UInt24 where
  toNat : Nat
  toNat_lt : toNat < 0x1000000
  deriving DecidableEq

namespace UInt24

abbrev size : Nat := 0x1000000

abbrev width : Nat := 3

instance : Inhabited UInt24 := ⟨⟨0, by decide⟩⟩

instance : Ord UInt24 := ⟨fun a b => compare a.toNat b.toNat⟩

instance : LE UInt24 := ⟨fun a b => a.toNat ≤ b.toNat⟩

instance : LT UInt24 := ⟨fun a b => a.toNat < b.toNat⟩

instance : ToString UInt24 := ⟨fun a => toString a.toNat⟩

def ofNat? (n : Nat) : Option UInt24 :=
  if h : n < size then some ⟨n, h⟩ else none

/-- The value `n`; one that needs more than 24 bits is reported as far as 32 bits can name it. -/
def check (n : Nat) : Except Fault UInt24 :=
  match ofNat? n with
  | some a => .ok a
  | none => .error (.valueOutOfRange (min n 0xffffffff))

/-- The low 24 bits of `n`. -/
def truncate (n : Nat) : UInt24 :=
  ⟨n % size, Nat.mod_lt n (by decide)⟩

instance (n : Nat) : OfNat UInt24 n := ⟨truncate n⟩

def wrappingAdd (a : UInt24) (n : Nat) : UInt24 :=
  truncate (a.toNat + n)

def toBytes (a : UInt24) : Bytes :=
  Bytes.ofNat width a.toNat

def ofBytes (bs : Bytes) : UInt24 :=
  truncate (Bytes.toNat bs)

@[ext] theorem ext {a b : UInt24} (h : a.toNat = b.toNat) : a = b := by
  cases a; cases b; cases h; rfl

theorem toNat_truncate (n : Nat) : (truncate n).toNat = n % size := rfl

theorem truncate_toNat (a : UInt24) : truncate a.toNat = a := by
  ext
  exact Nat.mod_eq_of_lt a.toNat_lt

theorem ofNat?_toNat (a : UInt24) : ofNat? a.toNat = some a := by
  simp [ofNat?, a.toNat_lt]

theorem check_toNat (a : UInt24) : check a.toNat = .ok a := by
  simp only [check, ofNat?_toNat]

theorem ofNat?_eq_none_iff {n : Nat} : ofNat? n = none ↔ size ≤ n := by
  unfold ofNat?
  split <;> simp <;> omega

@[simp] theorem length_toBytes (a : UInt24) : a.toBytes.length = 3 := by
  simp [toBytes]

/-- Every value comes back from its bytes. -/
theorem ofBytes_toBytes (a : UInt24) : ofBytes a.toBytes = a := by
  ext
  have h := a.toNat_lt
  rw [ofBytes, toBytes, toNat_truncate, Bytes.toNat_ofNat]
  change a.toNat % 0x1000000 % 0x1000000 = a.toNat
  omega

theorem toNat_ofBytes {bs : Bytes} (h : bs.length = width) : (ofBytes bs).toNat = Bytes.toNat bs := by
  have bound := Bytes.toNat_lt bs
  rw [h] at bound
  exact Nat.mod_eq_of_lt bound

/-- No two runs of three bytes spell the same value. -/
theorem toBytes_ofBytes {bs : Bytes} (h : bs.length = width) : (ofBytes bs).toBytes = bs := by
  rw [toBytes, toNat_ofBytes h, ← h, Bytes.ofNat_toNat]

end UInt24

end PeerLink
