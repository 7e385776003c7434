import PeerLink.Compression.Zstd.Bits

/-!
Tables of states for entropy-coded symbols. Each state stands for a symbol; the next state is a base plus
some bits of the stream. A symbol has as many states as its count says, and a count of -1 stands for
one state that remembers nothing. Tables are built from counts, and counts are read from a
description of their own.
-/
namespace PeerLink.Zstd

/-- One state: its symbol, and the next state as a base and a count of bits to add. -/
structure Cell where
  symbol : Nat
  bits : Nat
  base : Nat
  deriving Inhabited, DecidableEq

/-- A table of 2 ^ `log` states. -/
structure StateTable where
  log : Nat
  cells : Array Cell

namespace StateTable

/-- The table of a single symbol, which takes no bits. -/
def constant (symbol : Nat) : StateTable := ⟨0, #[⟨symbol, 0, 0⟩]⟩

def cell (t : StateTable) (state : Nat) : Cell := t.cells.getD state default

/-- The symbols that have a single state without memory, in order. -/
def rare (counts : List Int) : List Nat :=
  (counts.zipIdx.filter (·.1 = -1)).map (·.2)

/-- The other symbols in order, each as often as it has states. -/
def common (counts : List Int) : List Nat :=
  counts.zipIdx.flatMap fun (n, symbol) => List.replicate n.toNat symbol

/-- The symbol of each state. Rare symbols take states from the last one down; the others are dealt out
in steps that visit every state once. -/
def spread (log : Nat) (counts : List Int) : Array Nat :=
  let size := 1 <<< log
  let step := size / 2 + size / 8 + 3
  let rares := rare counts
  let places := ((List.range size).map (· * step % size)).filter (· + rares.length < size)
  let cells := (rares.zipIdx).foldl (fun cells (symbol, i) => cells.setIfInBounds (size - 1 - i) symbol)
    (Array.replicate size 0)
  (places.zip (common counts)).foldl (fun cells (i, symbol) => cells.setIfInBounds i symbol) cells

/-- The table of the given counts, whose absolute values add up to 2 ^ `log`. The states of a symbol are
numbered from its count on, in order; the number decides bits and base. -/
def ofCounts (log : Nat) (counts : List Int) : StateTable :=
  let size := 1 <<< log
  let (_, cells) := (spread log counts).foldl
    (fun ((next, cells) : Array Nat × Array Cell) symbol =>
      let n := next.getD symbol 1
      let bits := log - n.log2
      (next.setIfInBounds symbol (n + 1), cells.push ⟨symbol, bits, (n <<< bits) - size⟩))
    ((counts.map Int.natAbs).toArray, #[])
  ⟨log, cells⟩

/-- Zero counts that follow one another: two bits tell how many, and 3 means that more follow. -/
def readZeros (data : Array UInt8) : (fuel place : Nat) → Nat × Nat
  | 0, place => (0, place)
  | fuel + 1, place =>
    let n := bitsAt data place 2
    if n = 3 then
      let (more, place) := readZeros data fuel (place + 2)
      (n + more, place)
    else (n, place + 2)

/-- Reads counts until nothing remains to be given out. `remaining` is one more than the states left. A
count takes just the bits that the values still possible need, one more for the larger of them. At most
`room` counts may follow. -/
def readCounts (data : Array UInt8) : (room place remaining : Nat) → List Int → Option (List Int × Nat)
  | 0, _, _, _ => none
  | room + 1, place, remaining, counts =>
    let threshold := 1 <<< remaining.log2
    let spare := 2 * threshold - 1 - remaining
    let wide := bitsAt data place (remaining.log2 + 1)
    let narrow := wide % threshold
    let (value, bits) :=
      if narrow < spare then (narrow, remaining.log2)
      else (if threshold ≤ wide then wide - spare else wide, remaining.log2 + 1)
    let count : Int := (value : Int) - 1
    let taken := count.natAbs
    let place := place + bits
    let counts := count :: counts
    if remaining ≤ taken then none
    else if remaining - taken = 1 then some (counts.reverse, place)
    else if count = 0 then
      let (zeros, place) := readZeros data data.size place
      if room ≤ zeros then none
      else readCounts data (room - zeros) place (remaining - taken) (List.replicate zeros 0 ++ counts)
    else readCounts data room place (remaining - taken) counts
termination_by room => room
decreasing_by all_goals omega

/-- Reads the description of a table for symbols below `symbols`, with at most 2 ^ `maxLog` states. -/
def read? (symbols maxLog : Nat) (bs : Bytes) : Option (StateTable × Bytes) :=
  let data := bs.toArray
  let log := bitsAt data 0 4 + 5
  if maxLog < log then none
  else
    match readCounts data symbols 4 ((1 <<< log) + 1) [] with
    | none => none
    | some (counts, place) =>
      let used := (place + 7) / 8
      if data.size < used then none else some (ofCounts log counts, bs.drop used)

/-- The first state that stands for `symbol` and from which `next` can be reached. -/
def stateFor? (t : StateTable) (symbol : Nat) (next : Option Nat) : Option Nat :=
  t.cells.findIdx? fun c => c.symbol = symbol &&
    match next with
    | none => true
    | some n => c.base ≤ n && n < c.base + (1 <<< c.bits)

end StateTable

end PeerLink.Zstd
