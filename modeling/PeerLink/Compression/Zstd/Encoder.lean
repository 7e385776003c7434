import PeerLink.Compression.Zstd.Frame

/-!
Writing Zstandard frames. A message becomes one frame whose blocks are stored as they are, given as one byte
repeated, or compressed: the literals as they are, the repeats under the standard tables. States are
found by searching the table that the reader uses, from the last sequence to the first. A message is
stored without compression if its frame does not read back or is no shorter.
-/
namespace PeerLink.Zstd

/-- Header of every frame written: no size announced, no checksum, a window of 512 KiB. -/
def frameStart : Bytes := magic ++ [0x00, 0x48]

def blockHead (last : Bool) (kind size : Nat) : Bytes :=
  Bytes.ofNat 3 (8 * size + 2 * kind + if last then 1 else 0)

def storedBlock (last : Bool) (bs : Bytes) : Bytes :=
  blockHead last 0 bs.length ++ bs

def literalSection (bs : Bytes) : Bytes :=
  let n := bs.length
  (if n < 32 then Bytes.ofNat 1 (8 * n)
    else if n < 4096 then Bytes.ofNat 2 (16 * n + 4)
    else Bytes.ofNat 3 (16 * n + 12)) ++ bs

def countBytes (n : Nat) : Bytes :=
  if n < 128 then [UInt8.ofNat n]
  else if n < 0x7f00 then [UInt8.ofNat (n / 256 + 128), UInt8.ofNat n]
  else 255 :: Bytes.ofNat 2 (n - 0x7f00)

/-- A value in one of the three roles: its code and its further bits. -/
structure Coded where
  code : Nat
  extra : Nat × Nat

/-- The code and the further bits of a value. -/
def Role.encode (role : Role) (value : Nat) : Coded :=
  let code := role.code value
  let (base, bits) := role.ranges.getD code (0, 0)
  ⟨code, (value - base, bits)⟩

/-- States for a row of codes, found from its end: each state has the right symbol and leads to the next. -/
def chooseStates (t : StateTable) : List Nat → Option (List Nat)
  | [] => some []
  | code :: codes =>
    match chooseStates t codes with
    | none => none
    | some later =>
      match t.stateFor? code later.head? with
      | none => none
      | some state => some (state :: later)

/-- The bits that lead from a state to the next. -/
def moveBits (t : StateTable) (state next : Nat) : Nat × Nat :=
  let c := t.cell state
  (next - c.base, c.bits)

/-- All bits of a block's sequences in the order in which they are read: the further bits of a sequence,
then the three moves to the next one. -/
def sequenceFields (tl td tr : StateTable) : List (Coded × Coded × Coded) → List Nat → List Nat →
    List Nat → List (Nat × Nat)
  | (l, d, r) :: rest, sl :: sls, sd :: sds, sr :: srs =>
    let own := [d.extra, r.extra, l.extra]
    match sls.head?, sds.head?, srs.head? with
    | some nl, some nd, some nr =>
      own ++ [moveBits tl sl nl, moveBits tr sr nr, moveBits td sd nd] ++
        sequenceFields tl td tr rest sls sds srs
    | _, _, _ => own
  | _, _, _, _ => []

/-- The sequences of repeats under the standard tables. -/
def sequenceSection (rs : List Repeat) : Option Bytes :=
  if rs.isEmpty then some (countBytes 0)
  else do
    let coded := rs.map fun r =>
      (Role.literal.encode r.literals.length, Role.distance.encode (r.distance + 3), Role.length.encode r.length)
    let tl := Role.literal.standard
    let td := Role.distance.standard
    let tr := Role.length.standard
    let sl ← chooseStates tl (coded.map (·.1.code))
    let sd ← chooseStates td (coded.map (·.2.1.code))
    let sr ← chooseStates tr (coded.map (·.2.2.code))
    let start := [(sl.headD 0, tl.log), (sd.headD 0, td.log), (sr.headD 0, tr.log)]
    return countBytes rs.length ++ [0] ++ packBits (start ++ sequenceFields tl td tr coded sl sd sr)

def compressedContent (bs : Bytes) : Option Bytes :=
  let data := bs.toArray
  let (repeats, tail) := Repeat.factor data data.size data.size
  (sequenceSection repeats).map (literalSection (repeats.flatMap (·.literals) ++ tail) ++ ·)

/-- A block in the shortest of its forms. -/
def shortBlock (last : Bool) (bs : Bytes) : Bytes :=
  match bs with
  | b :: rest =>
    if rest.all (· = b) then blockHead last 1 bs.length ++ [b]
    else
      match compressedContent bs with
      | some content =>
        if content.length < bs.length then blockHead last 2 content.length ++ content
        else storedBlock last bs
      | none => storedBlock last bs
  | [] => storedBlock last bs

/-- Blocks of a message, the last of them marked; `block` gives the form of each. -/
def writeBlocks (block : Bool → Bytes → Bytes) : List Bytes → Bytes
  | [] => block true []
  | [bs] => block true bs
  | bs :: rest => block false bs ++ writeBlocks block rest

def store (bs : Bytes) : Bytes :=
  frameStart ++ writeBlocks storedBlock (Bytes.runs (blockLimit - 1) bs)

/-- A frame of blocks in their shortest form. -/
def shorten (bs : Bytes) : Bytes :=
  frameStart ++ writeBlocks shortBlock (Bytes.runs (blockLimit - 1) bs)

/-- A frame that decodes to the message: the short one if reading it back proves it right. -/
def encode (bs : Bytes) : Bytes :=
  let out := shorten bs
  if decode bs.length out = some bs then out else store bs

end PeerLink.Zstd
