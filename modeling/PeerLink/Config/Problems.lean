import PeerLink.Address.Scan
import PeerLink.Config

/-!
What is wrong with settings, in words for people. Nothing is wrong if the list is empty; a setting that
works but is dangerous is in the list as a warning.
-/
namespace PeerLink

def problemIf (bad : Bool) (text : String) : List String := if bad then [text] else []

namespace ServerConfig

def addressProblems (c : ServerConfig) : List String :=
  if c.address.isEmpty then ["Server address cannot be empty"]
  else
    match SocketAddress.ofString? c.address with
    | none => [s!"Invalid server address format: '{c.address}' (expected format: '0.0.0.0:7777')"]
    | some a =>
      problemIf (c.udpEnabled && a.port == 0xffff)
        "UDP companion needs TCP port + 1; port 65535 leaves no room"

def limitProblems (c : ServerConfig) : List String :=
  if c.maxConnections = 0 then ["Max connections must be greater than 0"]
  else
    problemIf (0xffffff < c.maxConnections)
      s!"Max connections {c.maxConnections} exceeds the 24-bit id space (16777215)"

def handshakeProblems (c : ServerConfig) : List String :=
  if milliseconds c.handshakeTimeout < 100 then ["Handshake timeout too short (minimum: 100ms)"]
  else problemIf (300 < seconds c.handshakeTimeout) "Handshake timeout too long (maximum: 300s)"

def shutdownProblems (c : ServerConfig) : List String :=
  if seconds c.shutdownTimeout < 1 then ["Shutdown timeout too short (minimum: 1s)"]
  else problemIf (60 < seconds c.shutdownTimeout) "Shutdown timeout too long (maximum: 60s)"

def problems (c : ServerConfig) : List String :=
  c.addressProblems ++ c.limitProblems ++ c.handshakeProblems ++ c.shutdownProblems

end ServerConfig

namespace ClientConfig

def addressProblems (c : ClientConfig) : List String :=
  if c.address.isEmpty then ["Client address cannot be empty"]
  else
    problemIf (SocketAddress.ofString? c.address).isNone
      s!"Invalid client address format: '{c.address}' (expected format: '127.0.0.1:7777')"

def problems (c : ClientConfig) : List String :=
  c.addressProblems ++
    problemIf (milliseconds c.connectionTimeout < 100) "Connection timeout too short (minimum: 100ms)" ++
    problemIf (milliseconds c.responseTimeout < 100) "Response timeout too short (minimum: 100ms)"

end ClientConfig

namespace TransportConfig

def frameProblems (c : TransportConfig) : List String :=
  if c.maxFrame < headerSize then [s!"Max frame size too small: {c.maxFrame} (minimum: one header)"]
  else
    problemIf (maxFrameSize < c.maxFrame)
      s!"Max frame size too large: {c.maxFrame} bytes (the length field caps it at {maxFrameSize})"

/-- Everybody on the way can read what is sent. -/
def plainWarning : String := "WARNING: Encryption is disabled - traffic is readable on the wire"

def problems (c : TransportConfig) : List String :=
  c.frameProblems ++
    problemIf (c.encryption.requiresKey && (c.encryptionKey.getD "").isEmpty)
      s!"Encryption '{c.encryption.name}' requires encryption_key" ++
    problemIf (c.encryption == .none) plainWarning

end TransportConfig

namespace QueueConfig

def problems (c : QueueConfig) : List String :=
  (if c.workers = 0 then ["Queue workers must be greater than 0"]
    else problemIf (256 < c.workers) s!"Too many queue workers: {c.workers} (maximum: 256)") ++
  (if c.scanInterval = 0 then ["Scan interval must be greater than 0"]
    else problemIf (1 < seconds c.scanInterval) "Scan interval too long (maximum: 1s)")

end QueueConfig

namespace LoggingConfig

/-- The length of a name is that of its UTF-8. -/
def problems (c : LoggingConfig) : List String :=
  if c.appName.isEmpty then ["Application name cannot be empty"]
  else
    problemIf (64 < c.appName.utf8ByteSize)
      s!"Application name too long: {c.appName.utf8ByteSize} characters (maximum: 64)"

end LoggingConfig

namespace Config

def problems (c : Config) : List String :=
  c.server.problems ++ c.client.problems ++ c.transport.problems ++ c.queue.problems ++
    c.logging.problems

def check (c : Config) : Except Fault Unit :=
  if c.problems.isEmpty then .ok ()
  else .error (.config ("Configuration validation failed:\n  - " ++ "\n  - ".intercalate c.problems))

end Config

end PeerLink
