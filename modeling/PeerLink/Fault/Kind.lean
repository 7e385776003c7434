import PeerLink.Fault

/-!
Names for the kinds of faults, for reports that programs read. A kind, a text and two numbers say
everything there is to say about a fault.
-/
namespace PeerLink

namespace Fault

def kind : Fault → String
  | .io _ => "Io"
  | .serialization _ => "Serialization"
  | .bufferUnderrun .. => "BufferUnderrun"
  | .lengthMismatch .. => "LengthMismatch"
  | .oversizedFrame _ => "OversizedFrame"
  | .malformedBlock _ => "MalformedBlock"
  | .valueOutOfRange _ => "ValueOutOfRange"
  | .invalidPack _ => "InvalidPack"
  | .missingKey _ => "MissingKey"
  | .decryptionFailure => "DecryptionFailure"
  | .encryptionFailure => "EncryptionFailure"
  | .compressionFailure => "CompressionFailure"
  | .decompressionFailure => "DecompressionFailure"
  | .duplicateAction _ => "DuplicateAction"
  | .handshake _ => "HandshakeError"
  | .handshakeRejected => "HandshakeRejected"
  | .connectionClosed => "ConnectionClosed"
  | .transport _ => "TransportError"
  | .timeout => "Timeout"
  | .config _ => "ConfigError"
  | .custom _ => "Custom"

/-- Faults of all kinds with the same text and numbers. -/
def samples (text : String) (a b : Nat) : List Fault :=
  [.io text, .serialization text, .bufferUnderrun a b, .lengthMismatch a b, .oversizedFrame a,
    .malformedBlock text, .valueOutOfRange a, .invalidPack text, .missingKey text, .decryptionFailure,
    .encryptionFailure, .compressionFailure, .decompressionFailure, .duplicateAction (.ofNat a),
    .handshake text, .handshakeRejected, .connectionClosed, .transport text, .timeout, .config text,
    .custom text]

/-- The fault of a kind; text and numbers that it has no place for are left out. -/
def ofKind? (kind text : String) (a b : Nat) : Option Fault :=
  (samples text a b).find? (·.kind = kind)

end Fault

end PeerLink
