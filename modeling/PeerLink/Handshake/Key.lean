import PeerLink.Bytes

/-!
The key of a handshake: four bytes mixed from the two numbers of the challenge. Both ends derive it
alike. It shows that the peer speaks the protocol and is no secret.
-/
namespace PeerLink

/-- What the server asks with. -/
structure Challenge where
  first : Int32
  second : Int32
  deriving DecidableEq

/-- Four bytes of a word, least significant first. -/
structure Quad where
  a : UInt8
  b : UInt8
  c : UInt8
  d : UInt8
  deriving DecidableEq

namespace Quad

def ofWord (w : UInt32) : Quad :=
  ⟨w.toUInt8, (w >>> 8).toUInt8, (w >>> 16).toUInt8, (w >>> 24).toUInt8⟩

def toWord (q : Quad) : UInt32 :=
  q.a.toUInt32 ||| q.b.toUInt32 <<< 8 ||| q.c.toUInt32 <<< 16 ||| q.d.toUInt32 <<< 24

def toBytes (q : Quad) : Bytes := [q.a, q.b, q.c, q.d]

/-- A byte absorbs its neighbour. -/
def absorb (b neighbour salt : UInt8) : UInt8 :=
  let sum := b * 31 + (neighbour ^^^ salt)
  sum <<< 3 ||| sum >>> 5

/-- Every byte absorbs the next one, the last byte the new first one. -/
def stir (salt : UInt8) (q : Quad) : Quad :=
  let a := absorb q.a q.b salt
  let b := absorb q.b q.c (salt + 1)
  let c := absorb q.c q.d (salt + 2)
  ⟨a, b, c, absorb q.d a (salt + 3)⟩

end Quad

namespace Challenge

abbrev size : Nat := 8

/-- The number that the key is mixed from. Both operations wrap. -/
def seed (c : Challenge) : Int32 :=
  if 0 ≤ c.first then c.first + c.second else c.first - c.second

/-- The key as bytes: three rounds, each with its own salt. -/
def keyQuad (c : Challenge) : Quad :=
  Quad.stir 118 (Quad.stir 59 (Quad.stir 0 (.ofWord c.seed.toUInt32)))

/-- The key as a number. -/
def key (c : Challenge) : Int32 := c.keyQuad.toWord.toInt32

/-- The answer that the key is sent as. -/
def answer (c : Challenge) : Bytes := c.keyQuad.toBytes

def toBytes (c : Challenge) : Bytes :=
  Bytes.ofNat 4 c.first.toUInt32.toNat ++ Bytes.ofNat 4 c.second.toUInt32.toNat

def ofBytes (bs : Bytes) : Challenge :=
  ⟨(UInt32.ofNat (Bytes.toNat (bs.take 4))).toInt32, (UInt32.ofNat (Bytes.toNat (bs.drop 4))).toInt32⟩

end Challenge

abbrev answerSize : Nat := 4

end PeerLink
