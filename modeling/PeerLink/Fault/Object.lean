import PeerLink.Block.Object

/-!
Faults as nested objects. A fault is written as the position of its constructor among all faults and
then its fields; it is read as a position among those faults that can be read at all, which leaves
out stream failures and object failures. These two come first, so that a position read means the
constructor two places further on.
-/
namespace PeerLink.Fault

def position : Fault → Nat
  | .io _ => 0
  | .serialization _ => 1
  | .bufferUnderrun .. => 2
  | .lengthMismatch .. => 3
  | .oversizedFrame _ => 4
  | .malformedBlock _ => 5
  | .valueOutOfRange _ => 6
  | .invalidPack _ => 7
  | .missingKey _ => 8
  | .decryptionFailure => 9
  | .encryptionFailure => 10
  | .compressionFailure => 11
  | .decompressionFailure => 12
  | .duplicateAction _ => 13
  | .handshake _ => 14
  | .handshakeRejected => 15
  | .connectionClosed => 16
  | .transport _ => 17
  | .timeout => 18
  | .config _ => 19
  | .custom _ => 20

/-- Constructors that cannot be read; they hold the first positions. -/
def unreadable : Nat := 2

/-- The fields of a fault in order. Stream and object failures have no written form. -/
def writeFields : Fault → Option Bytes
  | .io _ | .serialization _ => none
  | .bufferUnderrun a b | .lengthMismatch a b =>
    ((ObjectFormat.number 8).pair (ObjectFormat.number 8)).write (a, b)
  | .oversizedFrame n => (ObjectFormat.number 8).write n
  | .valueOutOfRange n => (ObjectFormat.number 4).write n
  | .duplicateAction head => (ObjectFormat.scalar .u16).write head
  | .malformedBlock s | .invalidPack s | .missingKey s | .handshake s | .transport s | .config s
  | .custom s => ObjectFormat.text.write s
  | .decryptionFailure | .encryptionFailure | .compressionFailure | .decompressionFailure
  | .handshakeRejected | .connectionClosed | .timeout => some []

/-- Reads the fields of the fault whose constructor has the given position among all. -/
def readFields : Nat → ObjectReader Fault
  | 2 => do return .bufferUnderrun (← (ObjectFormat.number 8).read) (← (ObjectFormat.number 8).read)
  | 3 => do return .lengthMismatch (← (ObjectFormat.number 8).read) (← (ObjectFormat.number 8).read)
  | 4 => do return .oversizedFrame (← (ObjectFormat.number 8).read)
  | 5 => do return .malformedBlock (← ObjectFormat.text.read)
  | 6 => do return .valueOutOfRange (← (ObjectFormat.number 4).read)
  | 7 => do return .invalidPack (← ObjectFormat.text.read)
  | 8 => do return .missingKey (← ObjectFormat.text.read)
  | 9 => return .decryptionFailure
  | 10 => return .encryptionFailure
  | 11 => return .compressionFailure
  | 12 => return .decompressionFailure
  | 13 => do return .duplicateAction (← (ObjectFormat.scalar .u16).read)
  | 14 => do return .handshake (← ObjectFormat.text.read)
  | 15 => return .handshakeRejected
  | 16 => return .connectionClosed
  | 17 => do return .transport (← ObjectFormat.text.read)
  | 18 => return .timeout
  | 19 => do return .config (← ObjectFormat.text.read)
  | 20 => do return .custom (← ObjectFormat.text.read)
  | _ => failure

def format : ObjectFormat Fault where
  write e := do return (← (ObjectFormat.number 4).write e.position) ++ (← e.writeFields)
  read := do readFields (unreadable + (← (ObjectFormat.number 4).read))

end PeerLink.Fault
