import PeerLink.Block.Object

/-!
Blocks: the typed values that a message body is a concatenation of. A scalar is written as it is; a
text, a byte run and a nested object are written behind their length in bytes; an array is written
behind the count of its items. A reader must ask for blocks in the order in which they were written,
since nothing on the wire names them.
-/
namespace PeerLink

/-- The types of blocks, indexed by the type of their values. -/
inductive Block : Type → Type 1 where
  /-- A value of fixed width. -/
  | scalar {α : Type} (item : Scalar α) : Block α
  /-- A text as UTF-8. -/
  | text : Block String
  /-- A text as UTF-32, four bytes to a character. -/
  | wideText : Block String
  /-- A run of bytes. -/
  | bytes : Block Bytes
  | array {α : Type} (item : Scalar α) : Block (List α)
  | object {α : Type} (format : ObjectFormat α) : Block α

namespace Block

variable {α : Type}

def wideUnits (s : String) : Bytes :=
  s.toList.flatMap Scalar.char.encode

/-- The text of a run of code units, if all of them are scalar values and none is cut short. -/
def ofWideUnits? (bs : Bytes) : Option String :=
  if bs.length % 4 = 0 then
    match Reader.many Scalar.char.decode (bs.length / 4) bs with
    | .ok (cs, _) => some (String.ofList cs)
    | .error _ => none
  else none

def encode : Block α → α → Except Fault Bytes
  | scalar t, v => .ok (t.encode v)
  | text, s => Bytes.withPrefix s.toUTF8.toList
  | wideText, s => Bytes.withPrefix (wideUnits s)
  | bytes, v => Bytes.withPrefix v
  | array t, vs =>
    if vs.length < 0x10000 then .ok (Bytes.ofNat 2 vs.length ++ vs.flatMap t.encode)
    else .error (.oversizedFrame (vs.length * t.width))
  | object f, v =>
    match f.write v with
    | some out => Bytes.withPrefix out
    | none => .error (.serialization "value has no written form")

/-- Reads one block. An array that does not fit is refused before any of its items is read. -/
def decode : Block α → Reader α
  | scalar t => t.decode
  | text => fun bs =>
    match Reader.prefixed bs with
    | .error e => .error e
    | .ok (raw, rest) =>
      match String.fromUTF8? raw.toByteArray with
      | some s => .ok (s, rest)
      | none => .error .invalidUtf8
  | wideText => fun bs =>
    match Reader.prefixed bs with
    | .error e => .error e
    | .ok (raw, rest) =>
      match ofWideUnits? raw with
      | some s => .ok (s, rest)
      | none => .error .invalidUtf32
  | bytes => Reader.prefixed
  | array t => fun bs =>
    match Reader.nat 2 bs with
    | .error e => .error e
    | .ok (n, rest) =>
      if n * t.width ≤ rest.length then Reader.many t.decode n rest
      else .error (.bufferUnderrun (n * t.width + 2) bs.length)
  | object f => fun bs =>
    match Reader.prefixed bs with
    | .error e => .error e
    | .ok (raw, rest) =>
      match f.read raw with
      | some (v, _) => .ok (v, rest)
      | none => .error (.serialization "bytes are no written form")

end Block

end PeerLink
