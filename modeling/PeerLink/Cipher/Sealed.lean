import PeerLink.Cipher.ChaCha
import PeerLink.Cipher.Nonce
import PeerLink.Cipher.Poly1305

/-!
Authenticated messages: the message combined with the stream of its nonce, and sixteen bytes that
authenticate it. A sealed message opens under the same key and nonce only if nothing in it was changed.
-/
namespace PeerLink

/-- What a key locks and unlocks, under a nonce each. -/
structure Sealer where
  lock : (nonce bs : Bytes) → Option Bytes
  unlock? : (nonce bs : Bytes) → Option Bytes

namespace Sealed

open ChaCha

/-- Bytes of the authenticator. -/
abbrev tagLength : Nat := 16

/-- What is authenticated: the message filled up to runs of sixteen bytes, the length of the data that is
not encrypted, which is none, and the length of the message. -/
def authenticated (bs : Bytes) : Bytes :=
  bs ++ List.replicate ((16 - bs.length % 16) % 16) 0 ++ Bytes.ofNat 8 0 ++ Bytes.ofNat 8 bs.length

/-- The authenticator of an encrypted message: the stream's block 0 is its one-time key. -/
def tag (k : Key) (nonce : Bytes) (hidden : Bytes) : Bytes :=
  Poly1305.tag ((k.block nonce 0).take 32) (authenticated hidden)

def lock (key : Key) (nonce bs : Bytes) : Bytes :=
  let k := key.forNonce (nonce.take 16)
  let n := nonce.drop 16
  let hidden := k.apply n 1 bs
  hidden ++ tag k n hidden

/-- The message in a sealed form, unless its authenticator is wrong. -/
def unlock? (key : Key) (nonce bs : Bytes) : Option Bytes :=
  let k := key.forNonce (nonce.take 16)
  let n := nonce.drop 16
  let hidden := bs.take (bs.length - tagLength)
  if tag k n hidden = bs.drop (bs.length - tagLength) then some (k.apply n 1 hidden) else none

def sealer (key : Key) : Sealer where
  lock nonce bs := some (lock key nonce bs)
  unlock? := unlock? key

end Sealed

end PeerLink
