import PeerLink.Block.Scalar

/-!
Formats of nested objects. A format writes a value as a run of bytes without names or tags and reads it
back: fixed-width little-endian fields, eight-byte counts in front of texts and lists, one byte for
the presence of an optional part, four bytes for the choice of a variant. `Lossless` says that a
format reads back all that it writes.
-/
namespace PeerLink

/-- Takes the value of an object off the front of a byte string, if there is one. -/
abbrev ObjectReader (α : Type) := StateT Bytes Option α

/-- How values of a type travel as a nested object. Some values may have no written form. -/
structure ObjectFormat (α : Type) where
  write : α → Option Bytes
  read : ObjectReader α

namespace ObjectFormat

variable {α β : Type}

/-- Whatever is written reads back, whatever follows it. -/
def Lossless (f : ObjectFormat α) : Prop :=
  ∀ v out rest, f.write v = some out → f.read (out ++ rest) = some (v, rest)

def number (width : Nat) : ObjectFormat Nat where
  write n := if n < Bytes.capacity width then some (Bytes.ofNat width n) else none
  read bs := (Reader.nat width bs).toOption

def scalar (t : Scalar α) : ObjectFormat α where
  write v := some (t.encode v)
  read bs := (t.decode bs).toOption

/-- A truth value: one byte that is 0 or 1. -/
def flag : ObjectFormat Bool where
  write b := some [if b then 1 else 0]
  read
    | 0 :: bs => some (false, bs)
    | 1 :: bs => some (true, bs)
    | _ => none

def bytes : ObjectFormat Bytes where
  write v := (number 8).write v.length |>.map (· ++ v)
  read bs := do
    let (n, rest) ← (number 8).read bs
    Bytes.split? n rest

def text : ObjectFormat String where
  write s := bytes.write s.toUTF8.toList
  read bs := do
    let (raw, rest) ← bytes.read bs
    let s ← String.fromUTF8? raw.toByteArray
    return (s, rest)

def pair (f : ObjectFormat α) (g : ObjectFormat β) : ObjectFormat (α × β) where
  write v := do
    let a ← f.write v.1
    let b ← g.write v.2
    return a ++ b
  read := do
    let a ← f.read
    let b ← g.read
    return (a, b)

/-- A byte that tells whether the value follows. -/
def option (f : ObjectFormat α) : ObjectFormat (Option α) where
  write
    | none => flag.write false
    | some v => do return (← flag.write true) ++ (← f.write v)
  read := do
    if ← flag.read then return some (← f.read) else return none

/-- The written forms of some values, one after the other. -/
def writeAll (f : ObjectFormat α) : List α → Option Bytes
  | [] => some []
  | v :: vs => do return (← f.write v) ++ (← writeAll f vs)

def readMany (f : ObjectFormat α) : Nat → ObjectReader (List α)
  | 0 => return []
  | n + 1 => do
    let v ← f.read
    let vs ← readMany f n
    return v :: vs

def list (f : ObjectFormat α) : ObjectFormat (List α) where
  write vs := do return (← (number 8).write vs.length) ++ (← f.writeAll vs)
  read := do f.readMany (← (number 8).read)

/-- A format for `β` from one for `α`: every `β` is written as an `α`, and some `α` are read as a `β`. -/
def along (f : ObjectFormat α) (toBase : β → α) (ofBase? : α → Option β) : ObjectFormat β where
  write v := f.write (toBase v)
  read := do
    match ofBase? (← f.read) with
    | some v => return v
    | none => failure

/-- A three-byte number, held in four bytes of which the last must be 0. -/
def u24 : ObjectFormat UInt24 :=
  (number 4).along UInt24.toNat UInt24.ofNat?

end ObjectFormat

end PeerLink
