import PeerLink.Bytes

/-!
Numbers of any count of bits inside bytes. The bits of a byte string are numbered from the lowest of the
first byte. Tables are described by bits read upwards; entropy-coded data is a stack of bits read
downwards from the highest bit that is set, which only marks the top.
-/
namespace PeerLink.Zstd

/-- The number that bits `low`, …, `low + n - 1` spell; bits past the end are 0. -/
def bitsAt (data : Array UInt8) (low n : Nat) : Nat :=
  let first := low / 8
  let count := (low % 8 + n + 7) / 8
  let word := Nat.fold count (fun i _ sum => sum + (data.getD (first + i) 0).toNat <<< (8 * i)) 0
  (word >>> (low % 8)) % (1 <<< n)

/-- Bits that are read from the top down. -/
structure BitStack where
  data : Array UInt8
  /-- Bits not yet read. -/
  left : Nat

namespace BitStack

/-- The stack below the highest bit set in the last byte. A last byte of 0 marks no top. -/
def ofBytes? (bs : Bytes) : Option BitStack :=
  match bs.getLast? with
  | none => none
  | some last =>
    if last = 0 then none
    else some ⟨bs.toArray, 8 * (bs.length - 1) + last.toNat.log2⟩

def pop? (s : BitStack) (n : Nat) : Option (Nat × BitStack) :=
  if n ≤ s.left then some (bitsAt s.data (s.left - n) n, { s with left := s.left - n }) else none

/-- The `n` topmost bits without reading them; where fewer are left, zeros follow. -/
def peek (s : BitStack) (n : Nat) : Nat :=
  if n ≤ s.left then bitsAt s.data (s.left - n) n
  else bitsAt s.data 0 s.left <<< (n - s.left)

end BitStack

/-- Packs fields, each a number and its count of bits, so that they are read back from the top in order. -/
def packBits (fields : List (Nat × Nat)) : Bytes :=
  let (word, count, out) := fields.reverse.foldl
    (fun (word, count, out) (value, bits) =>
      let word : Nat := word + value <<< count
      let count := count + bits
      let whole := count / 8
      (word >>> (8 * whole), count % 8, out ++ (Bytes.ofNat whole word).toArray))
    ((0, 0, #[]) : Nat × Nat × Array UInt8)
  out.toList ++ [UInt8.ofNat (word + 1 <<< count)]

end PeerLink.Zstd
