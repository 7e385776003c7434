import PeerLink.Cipher.Ciphers
import PeerLink.Fault

/-!
Encryption strategies: reversible transformations of a serialized message. Most of them only disguise
the bytes; AES-256-CBC and XChaCha20-Poly1305 are real ciphers whose keys come from a password. Both
ends of a connection must choose the same strategy and key, since nothing on the wire names them.
-/
namespace PeerLink

/-- A strategy for one direction and back. A strategy that takes no nonce ignores what has been drawn. -/
structure Encryptor where
  name : String
  /-- What the strategy is made of, without the key. -/
  description : String
  encrypt : Draw → Bytes → Except Fault Bytes
  decrypt : Bytes → Except Fault Bytes
  /-- Whether both directions leave every message as it is. -/
  isIdentity : Bool

inductive EncryptionKind where
  | none
  | reverse
  | bitFlip
  | xor
  | substitution
  | substitutionShift
  | aes256Cbc
  | xchacha20Poly1305
  deriving DecidableEq, Inhabited, Repr

namespace EncryptionKind

def all : List EncryptionKind :=
  [none, reverse, bitFlip, xor, substitution, substitutionShift, aes256Cbc, xchacha20Poly1305]

def name : EncryptionKind → String
  | none => "none"
  | reverse => "reverse"
  | bitFlip => "bit_flip"
  | xor => "xor"
  | substitution => "substitution"
  | substitutionShift => "substitution_shift"
  | aes256Cbc => "aes256_cbc"
  | xchacha20Poly1305 => "xchacha20_poly1305"

/-- The name in configuration files, which cuts before each capital of the last strategy's name. -/
def configName : EncryptionKind → String
  | xchacha20Poly1305 => "x_cha_cha20_poly1305"
  | kind => kind.name

def ofConfigName? (s : String) : Option EncryptionKind :=
  all.find? (·.configName = s)

def requiresKey : EncryptionKind → Bool
  | none | reverse | bitFlip => false
  | _ => true

end EncryptionKind

namespace Encryptor

/-- Bytes of a repeated key, as many as `n`; an empty key repeats to nothing. -/
def cycle (key : Bytes) (n : Nat) : Bytes :=
  ((List.replicate ((n + key.length - 1) / key.length) key).flatten).take n

/-- Adds the bytes of a repeated key, or subtracts them; `alternating` turns the direction around at
every odd position. -/
def shift (key : Bytes) (alternating forward : Bool) (bs : Bytes) : Bytes :=
  let signs := List.zip (cycle key bs.length) (List.range bs.length)
  List.zipWith (fun b (k, i) => if forward ^^ (alternating && i % 2 == 1) then b + k else b - k) bs signs

def identity : Encryptor where
  name := EncryptionKind.none.name
  description := "NoEncryption"
  encrypt _ bs := .ok bs
  decrypt bs := .ok bs
  isIdentity := true

def reverse : Encryptor where
  name := EncryptionKind.reverse.name
  description := "ReverseCipher"
  encrypt _ bs := .ok bs.reverse
  decrypt bs := .ok bs.reverse
  isIdentity := false

def bitFlip : Encryptor where
  name := EncryptionKind.bitFlip.name
  description := "BitFlipCipher"
  encrypt _ bs := .ok (bs.map (~~~·))
  decrypt bs := .ok (bs.map (~~~·))
  isIdentity := false

def xor (key : Bytes) : Encryptor where
  name := EncryptionKind.xor.name
  description := s!"XorCipher \x7b key_len: {key.length} \x7d"
  encrypt _ bs := .ok (List.zipWith (· ^^^ ·) bs (cycle key bs.length))
  decrypt bs := .ok (List.zipWith (· ^^^ ·) bs (cycle key bs.length))
  isIdentity := false

/-- Adds the repeated key to a message byte by byte, at odd positions of the alternating form subtracts. -/
def substitution (key : Bytes) (alternating : Bool) : Encryptor where
  name := (if alternating then EncryptionKind.substitutionShift else .substitution).name
  description := s!"SubstitutionCipher \x7b key_len: {key.length}, alternating: {alternating} \x7d"
  encrypt _ bs := .ok (shift key alternating true bs)
  decrypt bs := .ok (shift key alternating false bs)
  isIdentity := false

end Encryptor

namespace Ciphers

def aes (c : Ciphers) (password : Bytes) : Encryptor :=
  let chained := c.chained password
  { name := EncryptionKind.aes256Cbc.name
    description := "AesCbcCipher"
    encrypt := fun _ bs => .ok (chained.encrypt bs)
    decrypt := fun bs =>
      match chained.decrypt? bs with
      | some plain => .ok plain
      | none => .error .decryptionFailure
    isIdentity := false }

/-- XChaCha20-Poly1305 with the nonce in front of the sealed message. -/
def xchacha (c : Ciphers) (password : Bytes) : Encryptor :=
  let sealer := c.sealerOf password
  { name := EncryptionKind.xchacha20Poly1305.name
    description := "XChaChaCipher"
    encrypt := fun drawn bs =>
      match drawn with
      | none => .error .encryptionFailure
      | some nonce =>
        match sealer.lock nonce.bytes bs with
        | some sealed => .ok (nonce.bytes ++ sealed)
        | none => .error .encryptionFailure
    decrypt := fun bs =>
      if bs.length < 24 + Sealed.tagLength then .error .decryptionFailure
      else
        match sealer.unlock? (bs.take 24) (bs.drop 24) with
        | some plain => .ok plain
        | none => .error .decryptionFailure
    isIdentity := false }

/-- The strategy of a kind. An empty key counts as none; a strategy that requires one refuses to go
without. -/
def build (c : Ciphers) (kind : EncryptionKind) (key : Option Bytes) : Except Fault Encryptor :=
  let key := key.getD []
  if kind.requiresKey && key.isEmpty then .error (.missingKey kind.name)
  else
    .ok <| match kind with
      | .none => .identity
      | .reverse => .reverse
      | .bitFlip => .bitFlip
      | .xor => .xor key
      | .substitution => .substitution key false
      | .substitutionShift => .substitution key true
      | .aes256Cbc => c.aes key
      | .xchacha20Poly1305 => c.xchacha key

end Ciphers

/-! The strategies with the ciphers of this library. -/

def Encryptor.aes (password : Bytes) : Encryptor := Ciphers.own.aes password

def Encryptor.xchacha (password : Bytes) : Encryptor := Ciphers.own.xchacha password

def EncryptionKind.build (kind : EncryptionKind) (key : Option Bytes) : Except Fault Encryptor :=
  Ciphers.own.build kind key

end PeerLink
