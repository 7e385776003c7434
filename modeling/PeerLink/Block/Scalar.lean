import PeerLink.Reader

/-!
Scalars: the fixed-width values a message body is made of, little-endian. Each scalar type is tied to
the Lean type of its values, to a width, and to a numbering of its values within the capacity of that width; the
encoding writes that number. Only characters leave some numbers unused.
-/
namespace PeerLink

/-- A single-precision number by its IEEE-754 bits, so that the payload of a NaN survives. -/
structure Single where
  bits : UInt32
  deriving DecidableEq, Inhabited

/-- A double-precision number by its IEEE-754 bits, so that the payload of a NaN survives. -/
structure Double where
  bits : UInt64
  deriving DecidableEq, Inhabited

/-- The types of fixed width, indexed by the type of their values. -/
inductive Scalar : Type → Type where
  | u8 : Scalar UInt8
  | i8 : Scalar Int8
  | u16 : Scalar UInt16
  | i16 : Scalar Int16
  | u24 : Scalar UInt24
  | u32 : Scalar UInt32
  | i32 : Scalar Int32
  | u64 : Scalar UInt64
  | i64 : Scalar Int64
  | bool : Scalar Bool
  | f32 : Scalar Single
  | f64 : Scalar Double
  | char : Scalar Char

namespace Scalar

variable {α : Type}

def name : Scalar α → String
  | u8 => "u8"
  | i8 => "i8"
  | u16 => "u16"
  | i16 => "i16"
  | u24 => "u24"
  | u32 => "u32"
  | i32 => "i32"
  | u64 => "u64"
  | i64 => "i64"
  | bool => "bool"
  | f32 => "f32"
  | f64 => "f64"
  | char => "char"

def all : List ((α : Type) × Scalar α) :=
  [⟨_, u8⟩, ⟨_, i8⟩, ⟨_, u16⟩, ⟨_, i16⟩, ⟨_, u24⟩, ⟨_, u32⟩, ⟨_, i32⟩, ⟨_, u64⟩, ⟨_, i64⟩, ⟨_, bool⟩,
    ⟨_, f32⟩, ⟨_, f64⟩, ⟨_, char⟩]

def ofName? (s : String) : Option ((α : Type) × Scalar α) := all.find? (·.2.name = s)

def width : Scalar α → Nat
  | u8 | i8 | bool => 1
  | u16 | i16 => 2
  | u24 => 3
  | u32 | i32 | f32 | char => 4
  | u64 | i64 | f64 => 8

/-- The number that stands for a value on the wire. -/
def toNat : Scalar α → α → Nat
  | u8, v => v.toNat
  | i8, v => v.toUInt8.toNat
  | u16, v => v.toNat
  | i16, v => v.toUInt16.toNat
  | u24, v => v.toNat
  | u32, v => v.toNat
  | i32, v => v.toUInt32.toNat
  | u64, v => v.toNat
  | i64, v => v.toUInt64.toNat
  | bool, v => v.toNat
  | f32, v => v.bits.toNat
  | f64, v => v.bits.toNat
  | char, v => v.toNat

/-- The value that a number stands for. Any number but 0 is true; a number that is no Unicode scalar
value is no character. -/
def ofNat? : Scalar α → Nat → Option α
  | u8, n => some (UInt8.ofNat n)
  | i8, n => some (UInt8.ofNat n).toInt8
  | u16, n => some (UInt16.ofNat n)
  | i16, n => some (UInt16.ofNat n).toInt16
  | u24, n => some (UInt24.truncate n)
  | u32, n => some (UInt32.ofNat n)
  | i32, n => some (UInt32.ofNat n).toInt32
  | u64, n => some (UInt64.ofNat n)
  | i64, n => some (UInt64.ofNat n).toInt64
  | bool, n => some (n != 0)
  | f32, n => some ⟨UInt32.ofNat n⟩
  | f64, n => some ⟨UInt64.ofNat n⟩
  | char, n => if n.isValidChar then some (Char.ofNat n) else none

def encode (t : Scalar α) (v : α) : Bytes :=
  Bytes.ofNat t.width (t.toNat v)

def decode (t : Scalar α) : Reader α := fun bs =>
  match Reader.nat t.width bs with
  | .error e => .error e
  | .ok (n, rest) =>
    match t.ofNat? n with
    | some v => .ok (v, rest)
    | none => .error .invalidChar

theorem toNat_lt (t : Scalar α) (v : α) : t.toNat v < Bytes.capacity t.width := by
  cases t with
  | u8 | u16 | u32 | u64 => exact v.toNat_lt
  | i8 => exact v.toUInt8.toNat_lt
  | i16 => exact v.toUInt16.toNat_lt
  | i32 => exact v.toUInt32.toNat_lt
  | i64 => exact v.toUInt64.toNat_lt
  | u24 => exact v.toNat_lt
  | f32 => exact v.bits.toNat_lt
  | f64 => exact v.bits.toNat_lt
  | bool => cases v <;> decide
  | char =>
    have h : v.toNat < 0x110000 := v.valid.elim (fun h => Nat.lt_trans h (by decide)) fun h => h.2
    exact Nat.lt_trans h (by decide)

/-- The number that stands for a value means that value. -/
theorem ofNat?_toNat (t : Scalar α) (v : α) : t.ofNat? (t.toNat v) = some v := by
  cases t with
  | u24 =>
    simp only [ofNat?, toNat, Option.some.injEq]
    ext
    exact Nat.mod_eq_of_lt v.toNat_lt
  | bool => cases v <;> rfl
  | char =>
    have h : v.toNat.isValidChar := v.valid
    simp [ofNat?, toNat, h]
  | _ => simp [ofNat?, toNat]

theorem length_encode (t : Scalar α) (v : α) : (t.encode v).length = t.width :=
  Bytes.length_ofNat _ _

/-- A value is read back, whatever follows it. -/
theorem decode_encode (t : Scalar α) (v : α) (rest : Bytes) :
    t.decode (t.encode v ++ rest) = .ok (v, rest) := by
  simp only [decode, encode, Reader.nat_ofNat_append, Nat.mod_eq_of_lt (t.toNat_lt v), t.ofNat?_toNat]

end Scalar

end PeerLink
