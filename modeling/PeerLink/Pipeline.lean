import PeerLink.Cipher
import PeerLink.Compression

/-!
The codec pipeline: an encryption strategy followed by a compression strategy, shared by all connections of
one engine. If both leave messages alone, a serialized message is its own frame. Otherwise the frame
is the transformed message behind the length of the frame in two bytes.
-/
namespace PeerLink

/-- Bytes of the length that every frame begins with. -/
abbrev lengthPrefix : Nat := 2

/-- The largest frame that its length can describe. -/
abbrev maxFrameSize : Nat := 0xffff

/-- Bytes in front of the body of a message. -/
abbrev headerSize : Nat := 10

/-- How messages become frames and back. -/
structure Pipeline where
  encryptor : Encryptor
  compressor : Compressor

namespace Pipeline

def passthrough : Pipeline := ⟨.identity, CompressionKind.none.build⟩

/-- The pipeline of two named strategies; fails if the encryption needs a key and has none. -/
def build (encryption : EncryptionKind) (key : Option Bytes) (compression : CompressionKind) :
    Except Fault Pipeline := do
  return ⟨← encryption.build key, compression.build⟩

def isPassthrough (p : Pipeline) : Bool :=
  p.encryptor.isIdentity && p.compressor.isIdentity

/-- The least length that a peer can declare for a frame that holds a message. -/
def minFrameSize (p : Pipeline) : Nat :=
  if p.isPassthrough then headerSize else lengthPrefix + 1

/-- A transformed message behind the length of the frame. -/
def enclose (bs : Bytes) : Except Fault Bytes :=
  let total := lengthPrefix + bs.length
  if maxFrameSize < total then .error (.oversizedFrame total) else .ok (Bytes.ofNat 2 total ++ bs)

/-- What a frame encloses, if its length is the declared one. -/
def disclose (frame : Bytes) : Except Fault Bytes :=
  match Bytes.split? lengthPrefix frame with
  | none => .error (.lengthMismatch 0 frame.length)
  | some (head, rest) =>
    if Bytes.toNat head = frame.length then .ok rest
    else .error (.lengthMismatch (Bytes.toNat head) frame.length)

def encode (p : Pipeline) (drawn : Draw) (message : Bytes) : Except Fault Bytes :=
  if p.isPassthrough then .ok message
  else do enclose (← p.compressor.compress (← p.encryptor.encrypt drawn message))

def decode (p : Pipeline) (frame : Bytes) : Except Fault Bytes :=
  if p.isPassthrough then .ok frame
  else do p.encryptor.decrypt (← p.compressor.decompress (← disclose frame))

end Pipeline

end PeerLink
