import PeerLink.Cipher
import PeerLink.Compression
import PeerLink.Handshake.IdWidth
import PeerLink.Pipeline

/-!
The settings of servers and clients. Durations are in nanoseconds. Encryption and compression are not
negotiated, so both ends of a connection have to agree on the transport settings.
-/
namespace PeerLink

def millisecond : Nat := 1000000

def second : Nat := 1000 * millisecond

def milliseconds (duration : Nat) : Nat := duration / millisecond

def seconds (duration : Nat) : Nat := duration / second

inductive LogLevel where
  | error
  | warn
  | info
  | debug
  | trace
  deriving DecidableEq, Inhabited, Repr

namespace LogLevel

def all : List LogLevel := [error, warn, info, debug, trace]

def name : LogLevel → String
  | error => "error"
  | warn => "warn"
  | info => "info"
  | debug => "debug"
  | trace => "trace"

end LogLevel

structure ServerConfig where
  /-- Where to listen; datagrams go to the next port. -/
  address : String := "127.0.0.1:7777"
  maxConnections : Nat := 1000
  /-- The time for the whole handshake. -/
  handshakeTimeout : Nat := 30 * second
  /-- The time that a server takes to send what is waiting before it stops. -/
  shutdownTimeout : Nat := 10 * second
  udpEnabled : Bool := false
  idWidth : IdWidth := .three
  deriving DecidableEq, Inhabited

structure ClientConfig where
  address : String := "127.0.0.1:7777"
  /-- The time for connecting and the handshake. -/
  connectionTimeout : Nat := 5 * second
  /-- How long a request waits for its answer. -/
  responseTimeout : Nat := 30 * second
  udpEnabled : Bool := false
  idWidth : IdWidth := .three
  deriving DecidableEq, Inhabited

structure TransportConfig where
  encryption : EncryptionKind := .none
  /-- The password of strategies that need one. -/
  encryptionKey : Option String := none
  compression : CompressionKind := .none
  /-- The largest frame that is accepted from a peer. -/
  maxFrame : Nat := maxFrameSize
  deriving DecidableEq, Inhabited

structure QueueConfig where
  workers : Nat := 4
  /-- The time between two looks for the shortest queue. -/
  scanInterval : Nat := 5 * millisecond
  deriving DecidableEq, Inhabited

structure LoggingConfig where
  appName : String := "gamewire"
  logLevel : LogLevel := .info
  jsonFormat : Bool := false
  deriving DecidableEq, Inhabited

structure Config where
  server : ServerConfig := {}
  client : ClientConfig := {}
  transport : TransportConfig := {}
  queue : QueueConfig := {}
  logging : LoggingConfig := {}
  deriving DecidableEq, Inhabited

def TransportConfig.pipeline (c : TransportConfig) : Except Fault Pipeline :=
  Pipeline.build c.encryption (c.encryptionKey.map fun key => key.toUTF8.toList) c.compression

def unknownName (name : String) (known : List String) : String :=
  let quoted := known.map fun k => s!"`{k}`"
  let choice := match quoted with
    | [a] => a
    | [a, b] => s!"{a} or {b}"
    | _ => "one of " ++ ", ".intercalate quoted
  s!"unknown variant `{name}`, expected {choice}"

/-- Reads a count without blanks that fits in 64 bits; a plus may stand in front. -/
def parseCount? (s : String) : Option Nat :=
  let ds : List Char := match s.toList with
    | '+' :: ds => ds
    | ds => ds
  let n := ds.foldl (fun n c => 10 * n + (c.toNat - '0'.toNat)) 0
  if ds.isEmpty ∨ !ds.all Char.isDigit ∨ 0xffffffffffffffff < n then none else some n

end PeerLink
