import PeerLink.Block

/-!
Blocks written at the end of a buffer that is in use, one piece after the other. A length or a count that cannot be told
is found out in front of the first piece.
-/
namespace PeerLink

/-- Writes at the end of a buffer. A writing that fails has still written what it came to. -/
abbrev Writing := ExceptT Fault (StateM Bytes) Unit

variable {α : Type}

namespace Writing

def put (bs : Bytes) : Writing := fun buffer => (.ok (), buffer ++ bs)

def putPrefixed (run : Bytes) : Writing :=
  if run.length < 0x10000 then do
    put (Bytes.ofNat 2 run.length)
    put run
  else throw (.oversizedFrame run.length)

def putEach (t : Scalar α) : List α → Writing
  | [] => return
  | v :: vs => do
    put (t.encode v)
    putEach t vs

end Writing

namespace Block

open Writing

def write : Block α → α → Writing
  | scalar t, v => put (t.encode v)
  | text, s => putPrefixed s.toUTF8.toList
  | wideText, s =>
    let length := s.toList.length * 4
    if length < 0x10000 then do
      put (Bytes.ofNat 2 length)
      putEach .char s.toList
    else throw (.oversizedFrame length)
  | bytes, v => putPrefixed v
  | array t, vs =>
    if vs.length < 0x10000 then do
      put (Bytes.ofNat 2 vs.length)
      putEach t vs
    else throw (.oversizedFrame (vs.length * t.width))
  | object f, v =>
    match f.write v with
    | some out => putPrefixed out
    | none => throw (.serialization "value has no written form")

end Block

end PeerLink
