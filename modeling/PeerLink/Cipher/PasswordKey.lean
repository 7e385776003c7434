import PeerLink.Cipher.Sha256

/-!
Key material from passwords: PBKDF2 with HMAC-SHA-256. A password is turned once into the two hash states
that every message authentication under it starts from, so that each of the many rounds costs two
hash blocks.
-/
namespace PeerLink.PasswordKey

open Sha256

/-- The hash states after the inner and the outer pad of a key. -/
structure Hmac where
  inner : State
  outer : State

/-- A key as one block: hashed first if it is longer, then filled up with zeros. -/
def keyBlock (key : Bytes) : Bytes :=
  let key := if key.length > 64 then Sha256.hash key else key
  key ++ List.replicate (64 - key.length) 0

/-- The states that authentication under a key starts from. -/
def Hmac.ofKey (key : Bytes) : Hmac :=
  let block := keyBlock key
  ⟨start.absorbAll (block.map (· ^^^ 0x36)), start.absorbAll (block.map (· ^^^ 0x5c))⟩

/-- A hash state of eight words as the last block behind one pad block. -/
def digestBlock (s : State) : Array UInt32 :=
  s.toWords ++ #[0x80000000, 0, 0, 0, 0, 0, 0, 768]

def Hmac.tag (m : Hmac) (message : Bytes) : State :=
  m.outer.absorb (digestBlock (m.inner.absorbAll (message ++ padding (64 + message.length))))

def Hmac.retag (m : Hmac) (s : State) : State :=
  m.outer.absorb (digestBlock (m.inner.absorb (digestBlock s)))

def xorState (s t : State) : State :=
  ⟨s.a ^^^ t.a, s.b ^^^ t.b, s.c ^^^ t.c, s.d ^^^ t.d, s.e ^^^ t.e, s.f ^^^ t.f, s.g ^^^ t.g, s.h ^^^ t.h⟩

/-- `n` more rounds: each authenticates the last authenticator and is added to the sum. -/
def stretch (m : Hmac) : Nat → (last sum : State) → State
  | 0, _, sum => sum
  | n + 1, last, sum =>
    let next := m.retag last
    stretch m n next (xorState sum next)

/-- The rounds that go into each block of key material. -/
def rounds : Nat := 4096

def block (m : Hmac) (salt : Bytes) (i : Nat) : Bytes :=
  let first := m.tag (salt ++ (Bytes.ofNat 4 i).reverse)
  (stretch m (rounds - 1) first first).toBytes

/-- What every salt begins with. -/
def saltBase : Bytes := "gamewire/codec-pipeline/v1".toUTF8.toList

/-- `n` bytes of key material from a password for one purpose, named by `context`. -/
def derive (password : Bytes) (context : String) (n : Nat) : Bytes :=
  let m := Hmac.ofKey password
  let salt := saltBase ++ context.toUTF8.toList
  ((List.range ((n + 31) / 32)).flatMap fun i => block m salt (i + 1)).take n

end PeerLink.PasswordKey
