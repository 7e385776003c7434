import PeerLink.Cipher.Aes
import PeerLink.Cipher.PasswordKey
import PeerLink.Cipher.Sealed

/-!
What the two real ciphers are made of. `Ciphers.own` are the ciphers of this library.
-/
namespace PeerLink

/-- Ciphers of any make: how a password becomes key material for a purpose, what a key does to one block, how a
message is filled up to whole blocks, and how a key seals messages. -/
structure Ciphers where
  derive : (password : Bytes) → (purpose : String) → (n : Nat) → Bytes
  blockCipher : (key : Bytes) → Aes.BlockCipher
  pad : Bytes → Bytes
  unpad? : Bytes → Option Bytes
  sealer : (key : Bytes) → Sealer

namespace Ciphers

def own : Ciphers where
  derive := PasswordKey.derive
  blockCipher key := (Aes.Keys.ofBytes key).cipher
  pad := Aes.pad
  unpad? := Aes.unpad?
  sealer key := Sealed.sealer (.ofBytes key)

/-- Key and initial block both come from the password, so that equal messages give equal results. -/
def chained (c : Ciphers) (password : Bytes) : Aes.Chained :=
  let material := c.derive password "aes256-cbc" 48
  { cipher := c.blockCipher (material.take 32)
    pad := c.pad
    unpad? := c.unpad?
    initial := .ofBytes (material.drop 32) }

def sealerOf (c : Ciphers) (password : Bytes) : Sealer :=
  c.sealer (c.derive password "xchacha20-poly1305" 32)

end Ciphers

end PeerLink
