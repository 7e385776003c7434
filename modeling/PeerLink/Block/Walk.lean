import PeerLink.Block

/-!
Blocks read with a cursor in hand. A walk takes one step after the other, and when it fails the cursor stands
where it stopped. Where several steps make one value, they are taken with a copy of the cursor, which is followed only
if all of them succeed.
-/
namespace PeerLink

/-- Reads and moves a cursor. A walk that fails has still moved it as far as it came. -/
abbrev Walk (α : Type) := ExceptT Fault (StateM Cursor) α

namespace Walk

variable {α : Type}

def take (n : Nat) : Walk Bytes := fun c =>
  if c.remaining < n then (.error (.bufferUnderrun n c.remaining), c)
  else (.ok (c.rest.take n), ⟨c.position + n, c.rest.drop n⟩)

def nat (width : Nat) : Walk Nat := do
  return Bytes.toNat (← take width)

def u24 : Walk UInt24 := do
  return UInt24.ofBytes (← take UInt24.width)

/-- Walks with a copy of the cursor. -/
def ahead (walk : Walk α) : Walk α := fun c =>
  match walk c with
  | (.ok a, copy) => (.ok a, copy)
  | (.error e, _) => (.error e, c)

/-- A two-byte length and as many bytes as it says. The cursor goes back to the length if they are not there. -/
def prefixed : Walk Bytes := fun c =>
  match nat 2 c with
  | (.error e, c) => (.error e, c)
  | (.ok n, behind) =>
    match take n behind with
    | (.ok run, behind) => (.ok run, behind)
    | (.error e, _) => (.error e, c)

/-- The value that a run behind its length stands for. -/
def enclosed (value : Bytes → Except Fault α) : Walk α :=
  ahead do
    let run ← prefixed
    match value run with
    | .ok a => return a
    | .error e => throw e

def manyOnto (item : Walk α) : Nat → List α → Walk (List α)
  | 0, read => return read.reverse
  | n + 1, read => do manyOnto item n ((← item) :: read)

end Walk

variable {α : Type}

/-- A number and the value that it stands for. -/
def Scalar.numberWalk (t : Scalar α) : Walk α := do
  match t.ofNat? (← Walk.nat t.width) with
  | some v => return v
  | none => throw .invalidChar

/-- Only a character may turn out not to be one behind its number. -/
def Scalar.walk : Scalar α → Walk α
  | .char => .ahead (numberWalk .char)
  | t => t.numberWalk

namespace Block

def textOf (run : Bytes) : Except Fault String :=
  match String.fromUTF8? run.toByteArray with
  | some s => .ok s
  | none => .error .invalidUtf8

def wideTextOf (run : Bytes) : Except Fault String :=
  match ofWideUnits? run with
  | some s => .ok s
  | none => .error .invalidUtf32

def objectOf (f : ObjectFormat α) (run : Bytes) : Except Fault α :=
  match f.read run with
  | some (v, _) => .ok v
  | none => .error (.serialization "bytes are no written form")

/-- The items of an array, if there are bytes for all of them. `start` is where its count begins. -/
def itemsWalk (t : Scalar α) (start : Cursor) : Walk (List α) := do
  let n ← Walk.nat 2
  let here ← get
  if here.remaining < n * t.width then throw (.bufferUnderrun (n * t.width + 2) start.remaining)
  else Walk.manyOnto t.walk n []

def walk : Block α → Walk α
  | scalar t => t.walk
  | text => .enclosed textOf
  | wideText => .enclosed wideTextOf
  | bytes => .prefixed
  | array t => fun start => Walk.ahead (itemsWalk t start) start
  | object f => .enclosed (objectOf f)

end Block

end PeerLink
