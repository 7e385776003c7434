import PeerLink.Bytes

/-!
The hash function SHA-256. A message is padded to whole blocks of 64 bytes, and each block is mixed into
eight words by `State.absorb`.
-/
namespace PeerLink.Sha256

/-- The eight words that the blocks of a message are mixed into. -/
structure State where
  a : UInt32
  b : UInt32
  c : UInt32
  d : UInt32
  e : UInt32
  f : UInt32
  g : UInt32
  h : UInt32

def start : State :=
  ⟨0x6a09e667, 0xbb67ae85, 0x3c6ef372, 0xa54ff53a, 0x510e527f, 0x9b05688c, 0x1f83d9ab, 0x5be0cd19⟩

def roundConstants : List UInt32 :=
  [0x428a2f98, 0x71374491, 0xb5c0fbcf, 0xe9b5dba5, 0x3956c25b, 0x59f111f1, 0x923f82a4, 0xab1c5ed5,
   0xd807aa98, 0x12835b01, 0x243185be, 0x550c7dc3, 0x72be5d74, 0x80deb1fe, 0x9bdc06a7, 0xc19bf174,
   0xe49b69c1, 0xefbe4786, 0x0fc19dc6, 0x240ca1cc, 0x2de92c6f, 0x4a7484aa, 0x5cb0a9dc, 0x76f988da,
   0x983e5152, 0xa831c66d, 0xb00327c8, 0xbf597fc7, 0xc6e00bf3, 0xd5a79147, 0x06ca6351, 0x14292967,
   0x27b70a85, 0x2e1b2138, 0x4d2c6dfc, 0x53380d13, 0x650a7354, 0x766a0abb, 0x81c2c92e, 0x92722c85,
   0xa2bfe8a1, 0xa81a664b, 0xc24b8b70, 0xc76c51a3, 0xd192e819, 0xd6990624, 0xf40e3585, 0x106aa070,
   0x19a4c116, 0x1e376c08, 0x2748774c, 0x34b0bcb5, 0x391c0cb3, 0x4ed8aa4a, 0x5b9cca4f, 0x682e6ff3,
   0x748f82ee, 0x78a5636f, 0x84c87814, 0x8cc70208, 0x90befffa, 0xa4506ceb, 0xbef9a3f7, 0xc67178f2]

@[inline] def rotate (x : UInt32) (n : UInt32) : UInt32 :=
  (x >>> n) ||| (x <<< (32 - n))

/-- The word that follows the words so far: it depends on those 2, 7, 15 and 16 places back. -/
def nextWord (ws : Array UInt32) : UInt32 :=
  let n := ws.size
  let x := ws.getD (n - 15) 0
  let y := ws.getD (n - 2) 0
  let s0 := rotate x 7 ^^^ rotate x 18 ^^^ (x >>> 3)
  let s1 := rotate y 17 ^^^ rotate y 19 ^^^ (y >>> 10)
  ws.getD (n - 16) 0 + s0 + ws.getD (n - 7) 0 + s1

/-- The 64 words of a block: its own sixteen and those that follow from them. -/
def schedule (block : Array UInt32) : Array UInt32 :=
  Nat.fold 48 (fun _ _ ws => ws.push (nextWord ws)) block

@[inline] def State.round (s : State) (w k : UInt32) : State :=
  let s1 := rotate s.e 6 ^^^ rotate s.e 11 ^^^ rotate s.e 25
  let choice := (s.e &&& s.f) ^^^ (~~~s.e &&& s.g)
  let t1 := s.h + s1 + choice + k + w
  let s0 := rotate s.a 2 ^^^ rotate s.a 13 ^^^ rotate s.a 22
  let majority := (s.a &&& s.b) ^^^ (s.a &&& s.c) ^^^ (s.b &&& s.c)
  ⟨t1 + (s0 + majority), s.a, s.b, s.c, s.d + t1, s.e, s.f, s.g⟩

/-- The rounds of a block, one for each constant. -/
def State.rounds (ws : Array UInt32) : Nat → List UInt32 → State → State
  | _, [], s => s
  | i, k :: ks, s => rounds ws (i + 1) ks (s.round (ws.getD i 0) k)

def State.absorb (s : State) (block : Array UInt32) : State :=
  let t := State.rounds (schedule block) 0 roundConstants s
  ⟨s.a + t.a, s.b + t.b, s.c + t.c, s.d + t.d, s.e + t.e, s.f + t.f, s.g + t.g, s.h + t.h⟩

/-- The number that four bytes spell, most significant first. -/
def word (bs : Bytes) : UInt32 :=
  bs.foldl (fun w b => (w <<< 8) ||| b.toUInt32) 0

/-- The four bytes of a word, most significant first. -/
def wordBytes (w : UInt32) : Bytes :=
  [(w >>> 24).toUInt8, (w >>> 16).toUInt8, (w >>> 8).toUInt8, w.toUInt8]

def blockWords (bs : Bytes) : Array UInt32 :=
  ((Bytes.runs 3 bs).map word).toArray

/-- What is put behind a message of `n` bytes to fill its last block: a single bit, zeros, and the
length in bits as eight bytes, most significant first. -/
def padding (n : Nat) : Bytes :=
  0x80 :: (List.replicate ((119 - n % 64) % 64) 0 ++ (Bytes.ofNat 8 (8 * n)).reverse)

/-- Mixes in the blocks of `bs`, whose length is a multiple of 64. -/
def State.absorbAll (s : State) (bs : Bytes) : State :=
  (Bytes.runs 63 bs).foldl (fun s block => s.absorb (blockWords block)) s

def State.toBytes (s : State) : Bytes :=
  [s.a, s.b, s.c, s.d, s.e, s.f, s.g, s.h].flatMap wordBytes

/-- The state as the words of the first half of a block. -/
def State.toWords (s : State) : Array UInt32 :=
  #[s.a, s.b, s.c, s.d, s.e, s.f, s.g, s.h]

def hash (bs : Bytes) : Bytes :=
  (start.absorbAll (bs ++ padding bs.length)).toBytes

end PeerLink.Sha256
