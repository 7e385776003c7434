import PeerLink.Compression.Zstd.PrefixCode
import PeerLink.Compression.Zstd.Sequence

/-!
Compressed blocks: a section of literals, given as they are, as one byte repeated, or under a prefix code,
and a section of sequences that say where the literals go and what to repeat between them.
-/
namespace PeerLink.Zstd

/-- What a block leaves to the next one of its frame. -/
structure Carry where
  code : Option PrefixCode
  tables : Option Tables
  recent : Recent

/-- What the first block of a frame finds. -/
def Carry.start : Carry := ⟨none, none, .start⟩

/-- The most bytes that a block may unfold to. -/
abbrev blockLimit : Nat := 0x20000

/-- Fields of a header of `width` bytes: `skip` bits first, then counts of bits. -/
def headerFields (width skip : Nat) (bits : List Nat) (bs : Bytes) : Option (List Nat × Bytes) :=
  match Bytes.split? width bs with
  | none => none
  | some (head, rest) =>
    let word := Bytes.toNat head >>> skip
    let step := fun ((word, fields) : Nat × List Nat) bits => (word >>> bits, fields ++ [word % (1 <<< bits)])
    some ((bits.foldl step (word, [])).2, rest)

/-- Literals under a prefix code: the one described in front of them, or else the last one. -/
def codedLiterals? (described : Bool) (form size stored : Nat) (bs : Bytes) (last : Option PrefixCode) :
    Option (Array UInt8 × Option PrefixCode × Bytes) := do
  let (section_, rest) ← Bytes.split? stored bs
  let (code, streams) ←
    if described then PrefixCode.read? section_
    else last.map (·, section_)
  if size = 0 then none
  let literals ← if form = 0 then code.stream? size streams #[] else code.fourStreams? size streams
  return (literals, some code, rest)

/-- The literals of a block of at most `limit` bytes, with the code in force after it. -/
def literals? (limit : Nat) (last : Option PrefixCode) (bs : Bytes) :
    Option (Array UInt8 × Option PrefixCode × Bytes) := do
  let head ← bs.head?
  let kind := head.toNat % 4
  let form := head.toNat / 4 % 4
  if kind < 2 then
    let (fields, rest) ←
      match form with
      | 1 => headerFields 2 4 [12] bs
      | 3 => headerFields 3 4 [20] bs
      | _ => headerFields 1 3 [5] bs
    let size := fields.headD 0
    if limit < size then none
    if kind = 0 then
      let (run, rest) ← Bytes.split? size rest
      return (run.toArray, last, rest)
    else
      match rest with
      | [] => none
      | b :: rest => return (Array.replicate size b, last, rest)
  else
    let (fields, rest) ←
      match form with
      | 2 => headerFields 4 4 [14, 14] bs
      | 3 => headerFields 5 4 [18, 18] bs
      | _ => headerFields 3 4 [10, 10] bs
    match fields with
    | [size, stored] => if limit < size then none else codedLiterals? (kind = 2) form size stored rest last
    | _ => none

def sequenceCount? : Bytes → Option (Nat × Bytes)
  | [] => none
  | a :: bs =>
    if a.toNat < 128 then some (a.toNat, bs)
    else if a.toNat < 255 then
      match bs with
      | b :: bs => some ((a.toNat - 128) * 256 + b.toNat, bs)
      | [] => none
    else
      match bs with
      | b :: c :: bs => some (Bytes.toNat [b, c] + 0x7f00, bs)
      | _ => none

/-- The tables of a block behind the byte that says how each is given. -/
def tables? (last : Option Tables) : Bytes → Option (Tables × Bytes)
  | [] => none
  | modes :: bs => do
    let m := modes.toNat
    if m % 4 ≠ 0 then none
    let (tl, bs) ← Role.literal.table? (m / 64) (last.bind (·.literal)) bs
    let (td, bs) ← Role.distance.table? (m / 16 % 4) (last.bind (·.distance)) bs
    let (tr, bs) ← Role.length.table? (m / 4 % 4) (last.bind (·.length)) bs
    return (⟨some tl, some td, some tr⟩, bs)

/-- The stack of bits and the states at its top. -/
def states? (tl td tr : StateTable) (bs : Bytes) : Option (States × BitStack) := do
  let bits ← BitStack.ofBytes? bs
  let (l, bits) ← bits.pop? tl.log
  let (d, bits) ← bits.pop? td.log
  let (r, bits) ← bits.pop? tr.log
  return (⟨l, d, r⟩, bits)

/-- Unfolds a compressed block behind `out` to at most `limit` more bytes. -/
def unfoldBlock (limit : Nat) (carry : Carry) (bs : Bytes) (out : Array UInt8) :
    Option (Array UInt8 × Carry) := do
  let (literals, code, bs) ← literals? limit carry.code bs
  let (n, bs) ← sequenceCount? bs
  let most := out.size + limit
  if n = 0 then
    if ¬bs.isEmpty ∨ most < out.size + literals.size then none
    return (out ++ literals, { carry with code })
  else
    let (tables, bs) ← tables? carry.tables bs
    let tl ← tables.literal
    let td ← tables.distance
    let tr ← tables.length
    let (states, bits) ← states? tl td tr bs
    let p ← runSequences tl td tr literals most n states bits ⟨out, 0, carry.recent⟩
    let out := p.out ++ literals.extract p.used literals.size
    if most < out.size then none
    return (out, ⟨code, some tables, p.recent⟩)

end PeerLink.Zstd
