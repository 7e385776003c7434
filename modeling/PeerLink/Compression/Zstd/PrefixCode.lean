import PeerLink.Compression.Zstd.StateTable

/-!
Prefix codes for literal bytes. A code is described by a weight for each byte: a weight of `w` > 0 means a
share of 2 ^ (w - 1) in the table of all bit patterns, and the last weight is the one that makes the
shares a power of two. Weights are given as half bytes or are themselves entropy-coded.
-/
namespace PeerLink.Zstd

/-- A byte and the bits of its code. -/
structure CodeWord where
  symbol : UInt8
  bits : Nat
  deriving Inhabited, DecidableEq

/-- The code word that each pattern of `log` bits begins with. -/
structure PrefixCode where
  log : Nat
  words : Array CodeWord

namespace PrefixCode

/-- The longest code word. -/
abbrev maxBits : Nat := 12

/-- The weight that brings a sum of shares to the next power of two, and the exponent of that power. The
missing share must itself be a power of two. -/
def lastWeight? (sum : Nat) : Option (Nat × Nat) :=
  if sum = 0 then none
  else
    let log := sum.log2 + 1
    let missing := (1 <<< log) - sum
    if log ≤ maxBits ∧ 1 <<< missing.log2 = missing then some (missing.log2 + 1, log) else none

/-- The code of the given weights, to which the last is still to be added. Patterns are given out by
rising weight, and in the order of the bytes for equal weights. -/
def ofWeights? (weights : List Nat) : Option PrefixCode := do
  if weights.any (maxBits < ·) then none
  let (last, log) ← lastWeight? (weights.foldl (fun sum w => sum + (1 <<< w) / 2) 0)
  let all := (weights ++ [last]).zipIdx
  let lightest := (all.filter (·.1 = 1)).length
  if lightest < 2 ∨ lightest % 2 = 1 then none
  let words := (List.range log).flatMap fun i =>
    (all.filter (·.1 = i + 1)).flatMap fun (_, symbol) =>
      List.replicate (1 <<< i) ⟨UInt8.ofNat symbol, log - i⟩
  return ⟨log, words.toArray⟩

/-- Two states take turns to give a symbol and move on. When the bits run out, the state that did not move
gives the last symbol. -/
def turns (t : StateTable) : (fuel state other : Nat) → BitStack → (given : Nat) → List Nat →
    Option (List Nat)
  | 0, _, _, _, _, _ => none
  | fuel + 1, state, other, bits, given, symbols =>
    if 253 < given then none
    else
      let c := t.cell state
      match bits.pop? c.bits with
      | none => some ((t.cell other).symbol :: c.symbol :: symbols).reverse
      | some (n, bits) => turns t fuel other (c.base + n) bits (given + 1) (c.symbol :: symbols)

/-- Entropy-coded weights: the description of a table and a stack of bits. -/
def codedWeights? (bs : Bytes) : Option (List Nat) := do
  let (t, rest) ← StateTable.read? 256 6 bs
  let bits ← BitStack.ofBytes? rest
  let (first, bits) ← bits.pop? t.log
  let (second, bits) ← bits.pop? t.log
  turns t 256 first second bits 0 []

def read? : Bytes → Option (PrefixCode × Bytes)
  | [] => none
  | head :: bs => do
    let head := head.toNat
    if head < 128 then
      let (coded, rest) ← Bytes.split? head bs
      return (← ofWeights? (← codedWeights? coded), rest)
    else
      let count := head - 127
      let (halves, rest) ← Bytes.split? ((count + 1) / 2) bs
      let weights := (halves.flatMap fun b => [b.toNat / 16, b.toNat % 16]).take count
      return (← ofWeights? weights, rest)

/-- Reads `n` bytes behind `out`. -/
def decodeOnto (code : PrefixCode) : Nat → BitStack → Array UInt8 → Option (Array UInt8)
  | 0, bits, out => if bits.left = 0 then some out else none
  | n + 1, bits, out =>
    let w := code.words.getD (bits.peek code.log) default
    if bits.left < w.bits then none
    else decodeOnto code n { bits with left := bits.left - w.bits } (out.push w.symbol)

/-- A stream of `n` bytes, which must use up all bits. -/
def stream? (code : PrefixCode) (n : Nat) (bs : Bytes) (out : Array UInt8) : Option (Array UInt8) := do
  decodeOnto code n (← BitStack.ofBytes? bs) out

/-- Four streams behind the lengths of the first three; they share `n` bytes as evenly as four equal parts
rounded up allow. -/
def fourStreams? (code : PrefixCode) (n : Nat) (bs : Bytes) : Option (Array UInt8) := do
  let part := (n + 3) / 4
  if n < 6 ∨ n < 3 * part then none
  let (lengths, bs) ← Bytes.split? 6 bs
  let (one, bs) ← Bytes.split? (Bytes.toNat (lengths.take 2)) bs
  let (two, bs) ← Bytes.split? (Bytes.toNat ((lengths.drop 2).take 2)) bs
  let (three, four) ← Bytes.split? (Bytes.toNat (lengths.drop 4)) bs
  let out ← code.stream? part one #[]
  let out ← code.stream? part two out
  let out ← code.stream? part three out
  code.stream? (n - 3 * part) four out

end PrefixCode

end PeerLink.Zstd
