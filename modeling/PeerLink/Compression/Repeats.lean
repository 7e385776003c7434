import PeerLink.Bytes

/-!
Repeats inside a byte string: a string is cut into runs of literal bytes, each followed by a stretch that
repeats what stands some distance back. Both dictionary formats write a message down in this form, and
`unfold` says what a form stands for. The stretch may reach into itself, which repeats its own start.
-/
namespace PeerLink

/-- Literal bytes and then `length` bytes that repeat those `distance` places back. -/
structure Repeat where
  literals : Bytes
  distance : Nat
  length : Nat

namespace Repeat

/-- Appends `n` bytes, each a copy of the one `distance` places back. -/
def extend (out : Array UInt8) (distance : Nat) : Nat → Array UInt8
  | 0 => out
  | n + 1 => extend (out.push (out.getD (out.size - distance) 0)) distance n

def append (out : Array UInt8) (r : Repeat) : Array UInt8 :=
  extend (out ++ r.literals.toArray) r.distance r.length

/-- The string that repeats and a tail of literal bytes stand for. -/
def unfold (rs : List Repeat) (tail : Bytes) : Array UInt8 :=
  rs.foldl append #[] ++ tail.toArray

/-- How far the bytes at `i` and `j` agree, up to `n` of them. -/
def agreement (data : Array UInt8) : (i j n : Nat) → Nat
  | _, _, 0 => 0
  | i, j, n + 1 => if data.getD i 0 = data.getD j 0 then agreement data (i + 1) (j + 1) n + 1 else 0

/-- Slots of the table of places seen. -/
def slots : Nat := 8192

def slot (data : Array UInt8) (i : Nat) : Nat :=
  let b (k : Nat) : UInt32 := (data.getD (i + k) 0).toUInt32
  let w := b 0 ||| (b 1 <<< 8) ||| (b 2 <<< 16) ||| (b 3 <<< 24)
  ((w * 2654435761) >>> 19).toNat % slots

/-- Finds repeats from place `i` on. `start` is where the literal bytes not yet used begin; a repeat
begins before `lastStart`, ends at `lastEnd` at the latest and reaches back less than 65536 bytes. The
table holds one more than the last place of each slot. -/
def search (data : Array UInt8) (lastStart lastEnd : Nat) :
    (fuel start i : Nat) → (table : Array Nat) → Array Repeat → Array Repeat × Nat
  | 0, start, _, _, found => (found, start)
  | fuel + 1, start, i, table, found =>
    if lastStart ≤ i then (found, start)
    else
      let s := slot data i
      let seen := table.getD s 0
      let table := table.setIfInBounds s (i + 1)
      let j := seen - 1
      let n := if seen = 0 ∨ 0xffff < i - j then 0 else agreement data i j (lastEnd - i)
      if n < 4 then search data lastStart lastEnd fuel start (i + 1) table found
      else
        let r : Repeat := ⟨(data.extract start i).toList, i - j, n⟩
        search data lastStart lastEnd fuel (i + n) (i + n) table (found.push r)

/-- Repeats of a string and the literal bytes behind the last one. -/
def factor (data : Array UInt8) (lastStart lastEnd : Nat) : List Repeat × Bytes :=
  let (found, start) := search data lastStart lastEnd data.size 0 0 (Array.replicate slots 0) #[]
  (found.toList, (data.extract start data.size).toList)

end Repeat

end PeerLink
