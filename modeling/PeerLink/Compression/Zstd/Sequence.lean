import PeerLink.Compression.Repeats
import PeerLink.Compression.Zstd.StateTable

/-!
Sequences of a compressed block: how many literals to copy, how far back to reach, how much to repeat.
Lengths and distances are written as a code, which fixes a base, and some further bits. A distance
may also be one of the three used last.
-/
namespace PeerLink.Zstd

/-- The smallest value of a code and its count of further bits. -/
abbrev CodeRange := Nat × Nat

def literalRanges : Array CodeRange :=
  (Array.range 16).map (·, 0) ++
    #[(16, 1), (18, 1), (20, 1), (22, 1), (24, 2), (28, 2), (32, 3), (40, 3), (48, 4), (64, 6), (128, 7),
      (256, 8), (512, 9), (1024, 10), (2048, 11), (4096, 12), (8192, 13), (16384, 14), (32768, 15),
      (65536, 16)]

/-- Codes of repeat lengths, the shortest of which is 3. -/
def lengthRanges : Array CodeRange :=
  (Array.range 32).map (· + 3, 0) ++
    #[(35, 1), (37, 1), (39, 1), (41, 1), (43, 2), (47, 2), (51, 3), (59, 3), (67, 4), (83, 4), (99, 5),
      (131, 7), (259, 8), (515, 9), (1027, 10), (2051, 11), (4099, 12), (8195, 13), (16387, 14),
      (32771, 15), (65539, 16)]

/-- Codes of distances: the code is the count of further bits. -/
def distanceRanges : Array CodeRange :=
  (Array.range 32).map fun n => (1 <<< n, n)

/-- What the three tables of a block are for. -/
structure Role where
  ranges : Array CodeRange
  /-- The largest exponent of a table's size. -/
  maxLog : Nat
  /-- The table that needs no description. -/
  standard : StateTable

namespace Role

def literal : Role where
  ranges := literalRanges
  maxLog := 9
  standard := .ofCounts 6 [4, 3, 2, 2, 2, 2, 2, 2, 2, 2, 2, 2, 2, 1, 1, 1, 2, 2, 2, 2, 2, 2, 2, 2, 2, 3, 2, 1,
    1, 1, 1, 1, -1, -1, -1, -1]

def distance : Role where
  ranges := distanceRanges
  maxLog := 8
  standard := .ofCounts 5 [1, 1, 1, 1, 1, 1, 2, 2, 2, 1, 1, 1, 1, 1, 1, 1, 1, 1, 1, 1, 1, 1, 1, 1, -1, -1, -1,
    -1, -1]

def length : Role where
  ranges := lengthRanges
  maxLog := 9
  standard := .ofCounts 6 [1, 4, 3, 2, 2, 2, 2, 2, 2, 1, 1, 1, 1, 1, 1, 1, 1, 1, 1, 1, 1, 1, 1, 1, 1, 1, 1, 1,
    1, 1, 1, 1, 1, 1, 1, 1, 1, 1, 1, 1, 1, 1, 1, 1, 1, 1, -1, -1, -1, -1, -1, -1, -1]

/-- The table of a block: the standard one, that of a single code, one with a description, or the last. -/
def table? (role : Role) (mode : Nat) (last : Option StateTable) (bs : Bytes) :
    Option (StateTable × Bytes) :=
  match mode with
  | 0 => some (role.standard, bs)
  | 1 =>
    match bs with
    | [] => none
    | b :: bs => if b.toNat < role.ranges.size then some (.constant b.toNat, bs) else none
  | 2 => StateTable.read? role.ranges.size role.maxLog bs
  | _ => last.map (·, bs)

/-- The code of a value: the last one that does not begin above it. -/
def code (role : Role) (value : Nat) : Nat :=
  (role.ranges.filter (·.1 ≤ value)).size - 1

end Role

/-- The tables of a block, which the next one may use again. -/
structure Tables where
  literal : Option StateTable
  distance : Option StateTable
  length : Option StateTable

/-- The three distances used last, the latest first. -/
structure Recent where
  first : Nat
  second : Nat
  third : Nat

/-- The distances at the start of a frame. -/
def Recent.start : Recent := ⟨1, 4, 8⟩

/-- The distance that a value means, and the recent ones after it. Values above 3 are distances less 3.
The others pick a recent one, the next in order if no literal stands before the repeat, and then the
third is the first less 1. A distance of 0 means nothing. -/
def Recent.pick? (r : Recent) (value literals : Nat) : Option (Nat × Recent) :=
  if 3 < value then some (value - 3, ⟨value - 3, r.first, r.second⟩)
  else
    match (if literals = 0 then value + 1 else value) with
    | 1 => some (r.first, r)
    | 2 => some (r.second, ⟨r.second, r.first, r.third⟩)
    | 3 => some (r.third, ⟨r.third, r.first, r.second⟩)
    | 4 => if r.first ≤ 1 then none else some (r.first - 1, ⟨r.first - 1, r.first, r.second⟩)
    | _ => none

structure States where
  literal : Nat
  distance : Nat
  length : Nat

/-- A block as it unfolds: what it has become, the literals not yet used, and the recent distances. -/
structure Progress where
  out : Array UInt8
  used : Nat
  recent : Recent

/-- Carries out `n` sequences. A frame's output starts at the front of `out`; `limit` bounds it. -/
def runSequences (tl td tr : StateTable) (literals : Array UInt8) (limit : Nat) :
    (n : Nat) → States → BitStack → Progress → Option Progress
  | 0, _, bits, p => if bits.left = 0 then some p else none
  | n + 1, s, bits, p => do
    let cl := tl.cell s.literal
    let cd := td.cell s.distance
    let cr := tr.cell s.length
    let (dBase, dBits) := distanceRanges.getD cd.symbol (0, 0)
    let (rBase, rBits) := lengthRanges.getD cr.symbol (0, 0)
    let (lBase, lBits) := literalRanges.getD cl.symbol (0, 0)
    let (d, bits) ← bits.pop? dBits
    let (r, bits) ← bits.pop? rBits
    let (l, bits) ← bits.pop? lBits
    let count := lBase + l
    let length := rBase + r
    let (distance, recent) ← p.recent.pick? (dBase + d) count
    if literals.size < p.used + count ∨ limit < p.out.size + count + length then none
    let out := p.out ++ literals.extract p.used (p.used + count)
    if out.size < distance then none
    let p : Progress := ⟨Repeat.extend out distance length, p.used + count, recent⟩
    if n = 0 then runSequences tl td tr literals limit 0 s bits p
    else
      let (l, bits) ← bits.pop? cl.bits
      let (r, bits) ← bits.pop? cr.bits
      let (d, bits) ← bits.pop? cd.bits
      runSequences tl td tr literals limit n ⟨cl.base + l, cd.base + d, cr.base + r⟩ bits p

end PeerLink.Zstd
