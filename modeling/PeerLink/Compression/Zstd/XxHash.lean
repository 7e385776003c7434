import PeerLink.Bytes

/-!
The checksum XXH64 with seed 0, of which frames carry the low half.
-/
namespace PeerLink.XxHash

def prime1 : UInt64 := 0x9e3779b185ebca87
def prime2 : UInt64 := 0xc2b2ae3d27d4eb4f
def prime3 : UInt64 := 0x165667b19e3779f9
def prime4 : UInt64 := 0x85ebca77c2b2ae63
def prime5 : UInt64 := 0x27d4eb2f165667c5

@[inline] def rotate (x n : UInt64) : UInt64 := (x <<< n) ||| (x >>> (64 - n))

/-- A lane with eight more bytes mixed in. -/
def mix (lane input : UInt64) : UInt64 := rotate (lane + input * prime2) 31 * prime1

def merge (sum lane : UInt64) : UInt64 := (sum ^^^ mix 0 lane) * prime1 + prime4

def word (bs : Bytes) : UInt64 := UInt64.ofNat (Bytes.toNat bs)

/-- Four lanes, each fed with every fourth group of eight bytes. -/
structure Lanes where
  v1 : UInt64
  v2 : UInt64
  v3 : UInt64
  v4 : UInt64

def Lanes.absorb (l : Lanes) (stripe : Bytes) : Lanes :=
  ⟨mix l.v1 (word (stripe.take 8)), mix l.v2 (word ((stripe.drop 8).take 8)),
   mix l.v3 (word ((stripe.drop 16).take 8)), mix l.v4 (word (stripe.drop 24))⟩

def Lanes.sum (l : Lanes) : UInt64 :=
  let s := rotate l.v1 1 + rotate l.v2 7 + rotate l.v3 12 + rotate l.v4 18
  merge (merge (merge (merge s l.v1) l.v2) l.v3) l.v4

/-- Mixes in what the stripes leave over: groups of eight bytes, then one of four, then single bytes. -/
def finish (sum : UInt64) (rest : Bytes) : UInt64 :=
  let eights := rest.length / 8
  let tail := rest.drop (8 * eights)
  let sum := (Bytes.runs 7 (rest.take (8 * eights))).foldl
    (fun h run => rotate (h ^^^ mix 0 (word run)) 27 * prime1 + prime4) sum
  let (sum, tail) := if tail.length < 4 then (sum, tail) else
    (rotate (sum ^^^ (word (tail.take 4) * prime1)) 23 * prime2 + prime3, tail.drop 4)
  tail.foldl (fun h b => rotate (h ^^^ (b.toUInt64 * prime5)) 11 * prime1) sum

def avalanche (h : UInt64) : UInt64 :=
  let h := (h ^^^ (h >>> 33)) * prime2
  let h := (h ^^^ (h >>> 29)) * prime3
  h ^^^ (h >>> 32)

def hash (bs : Bytes) : UInt64 :=
  let n := bs.length
  let striped := n / 32 * 32
  let start : UInt64 :=
    if n < 32 then prime5
    else
      ((Bytes.runs 31 (bs.take striped)).foldl Lanes.absorb
        ⟨prime1 + prime2, prime2, 0, 0 - prime1⟩).sum
  avalanche (finish (start + UInt64.ofNat n) (bs.drop striped))

end PeerLink.XxHash
