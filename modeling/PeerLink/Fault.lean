/-!
What can go wrong with a message, a connection or the configuration. A fault belongs to one message or
one connection and is named by its cause; its wording is in `Fault.message` alone.
-/
namespace PeerLink

inductive Fault where
  | io (text : String)
  /-- A nested object has no encoding, or bytes that encode none. -/
  | serialization (text : String)
  /-- A read wanted more bytes than were left. -/
  | bufferUnderrun (needed remaining : Nat)
  /-- A length field disagrees with the bytes it describes. -/
  | lengthMismatch (declared actual : Nat)
  /-- More bytes than one frame can hold. -/
  | oversizedFrame (size : Nat)
  /-- A block holds no value of its type. -/
  | malformedBlock (reason : String)
  /-- A number needs more than 24 bits. -/
  | valueOutOfRange (value : Nat)
  /-- Messages that cannot be packed together. -/
  | invalidPack (reason : String)
  /-- A keyed strategy was chosen without a key. -/
  | missingKey (strategy : String)
  | decryptionFailure
  | encryptionFailure
  | compressionFailure
  | decompressionFailure
  /-- An action for this head is already registered. -/
  | duplicateAction (head : UInt16)
  | handshake (reason : String)
  /-- The peer gave a wrong, early or late key. -/
  | handshakeRejected
  | connectionClosed
  | transport (reason : String)
  | timeout
  | config (reason : String)
  | custom (text : String)
  deriving DecidableEq, Inhabited

namespace Fault

def message : Fault → String
  | .io text => s!"I/O error: {text}"
  | .serialization text => s!"Object serialization error: {text}"
  | .bufferUnderrun needed remaining =>
    s!"Buffer underrun: needed {needed} bytes, {remaining} remaining"
  | .lengthMismatch declared actual =>
    s!"Length mismatch: header declares {declared} bytes, frame has {actual}"
  | .oversizedFrame size => s!"Frame too large: {size} bytes"
  | .malformedBlock reason => s!"Malformed block: {reason}"
  | .valueOutOfRange value => s!"Value {value} does not fit in 24 bits"
  | .invalidPack reason => s!"Invalid packed message: {reason}"
  | .missingKey strategy => s!"Encryption strategy '{strategy}' requires a key"
  | .decryptionFailure => "Decryption failed"
  | .encryptionFailure => "Encryption failed"
  | .compressionFailure => "Compression failed"
  | .decompressionFailure => "Decompression failed"
  | .duplicateAction head => s!"Head action {head} is already registered"
  | .handshake reason => s!"Handshake failed: {reason}"
  | .handshakeRejected => "Handshake rejected"
  | .connectionClosed => "Connection closed"
  | .transport reason => s!"Transport error: {reason}"
  | .timeout => "Timeout occurred"
  | .config reason => s!"Configuration error: {reason}"
  | .custom text => s!"Custom error: {text}"

/-- Whether the fault means that the peer sent bytes that cannot be trusted. -/
def isPeerMisbehaving : Fault → Bool
  | .bufferUnderrun .. | .lengthMismatch .. | .malformedBlock _ | .invalidPack _ => true
  | _ => false

def invalidUtf8 : Fault := .malformedBlock "String block is not valid UTF-8"

def invalidUtf32 : Fault := .malformedBlock "String block is not valid UTF-32"

def invalidChar : Fault := .malformedBlock "Char block is not a valid scalar value"

def mixedHeads : Fault := .invalidPack "Packed messages must share one HeadID"

def noDatagramChannel : Fault := .transport "Connection has no UDP companion channel"

def idSpaceExhausted : Fault := .handshake "No free connection identifiers"

def serverFull : Fault := .handshake "Server is at its connection limit"

def replyDropped : Fault := .custom "Reply callback dropped before a response arrived"

end Fault

end PeerLink
