import PeerLink.Bytes

/-!
The stream cipher ChaCha20 with nonces of 24 bytes. A first run of the rounds turns the key and the first
sixteen bytes of the nonce into a key for this one message; the last eight bytes of the nonce then
select its stream. Combining a message with the stream twice gives it back.
-/
namespace PeerLink.ChaCha

structure Row where
  w0 : UInt32
  w1 : UInt32
  w2 : UInt32
  w3 : UInt32

namespace Row

@[inline] def add (r s : Row) : Row := ⟨r.w0 + s.w0, r.w1 + s.w1, r.w2 + s.w2, r.w3 + s.w3⟩

@[inline] def rotateWord (x n : UInt32) : UInt32 := (x <<< n) ||| (x >>> (32 - n))

/-- Exclusive or, then each word rotated to the left. -/
@[inline] def xorRotate (r s : Row) (n : UInt32) : Row :=
  ⟨rotateWord (r.w0 ^^^ s.w0) n, rotateWord (r.w1 ^^^ s.w1) n, rotateWord (r.w2 ^^^ s.w2) n,
   rotateWord (r.w3 ^^^ s.w3) n⟩

/-- The words moved one place to the left, the first to the end. -/
@[inline] def turn (r : Row) : Row := ⟨r.w1, r.w2, r.w3, r.w0⟩

def toBytes (r : Row) : Bytes :=
  [r.w0, r.w1, r.w2, r.w3].flatMap fun w => Bytes.ofNat 4 w.toNat

def ofBytes (bs : Bytes) : Row :=
  let word (i : Nat) : UInt32 := UInt32.ofNat (Bytes.toNat ((bs.drop (4 * i)).take 4))
  ⟨word 0, word 1, word 2, word 3⟩

end Row

structure State where
  a : Row
  b : Row
  c : Row
  d : Row

namespace State

/-- The quarter round on all four columns at once. -/
@[inline] def quarter (s : State) : State :=
  let a := s.a.add s.b
  let d := s.d.xorRotate a 16
  let c := s.c.add d
  let b := s.b.xorRotate c 12
  let a := a.add b
  let d := d.xorRotate a 8
  let c := c.add d
  let b := b.xorRotate c 7
  ⟨a, b, c, d⟩

/-- A round on the columns and one on the diagonals. -/
def doubleRound (s : State) : State :=
  let s := s.quarter
  let s := quarter ⟨s.a, s.b.turn, s.c.turn.turn, s.d.turn.turn.turn⟩
  ⟨s.a, s.b.turn.turn.turn, s.c.turn.turn, s.d.turn⟩

def rounds (s : State) : State :=
  Nat.repeat doubleRound 10 s

end State

def constants : Row := ⟨0x61707865, 0x3320646e, 0x79622d32, 0x6b206574⟩

structure Key where
  b : Row
  c : Row

def Key.ofBytes (bs : Bytes) : Key :=
  ⟨.ofBytes (bs.take 16), .ofBytes (bs.drop 16)⟩

/-- The key for messages whose nonce begins with these sixteen bytes. -/
def Key.forNonce (k : Key) (nonce : Bytes) : Key :=
  let s := State.rounds ⟨constants, k.b, k.c, .ofBytes nonce⟩
  ⟨s.a, s.d⟩

/-- The bytes of the stream in the block with the given number. -/
def Key.block (k : Key) (nonce : Bytes) (number : Nat) : Bytes :=
  let n : Row := .ofBytes (List.replicate 8 0 ++ nonce)
  let s : State := ⟨constants, k.b, k.c, ⟨UInt32.ofNat number, 0, n.w2, n.w3⟩⟩
  let t := s.rounds
  (t.a.add s.a).toBytes ++ (t.b.add s.b).toBytes ++ (t.c.add s.c).toBytes ++ (t.d.add s.d).toBytes

/-- The stream from the block with the given number on, at least `n` bytes of it. -/
def Key.stream (k : Key) (nonce : Bytes) (number n : Nat) : Bytes :=
  (List.range ((n + 63) / 64)).flatMap fun i => k.block nonce (number + i)

/-- A message combined with the stream. -/
def Key.apply (k : Key) (nonce : Bytes) (number : Nat) (bs : Bytes) : Bytes :=
  List.zipWith (· ^^^ ·) bs (k.stream nonce number bs.length)

end PeerLink.ChaCha
