import PeerLink.Config

/-!
Settings from the environment of a program. A count that is no number leaves its setting alone, while a
strategy that is not known is a fault.
-/
namespace PeerLink.Config

abbrev Environment := String → Option String

/-- The strategy that a variable names. -/
def parseStrategy {α : Type} (known : List String) (find : String → Option α) (name : String) :
    Except Fault α :=
  match find name with
  | some kind => .ok kind
  | none => .error (.config s!"Unknown strategy '{name}': {unknownName name known}")

/-- The default settings with what the environment says instead. -/
def ofEnvironment (env : Environment) : Except Fault Config := do
  let count (name : String) (default : Nat) : Nat := ((env name).bind parseCount?).getD default
  let duration (name : String) (default : Nat) : Nat :=
    (((env name).bind parseCount?).map (· * millisecond)).getD default
  let strategy {α : Type} (name : String) (known : List String) (find : String → Option α)
      (default : α) : Except Fault α :=
    match env name with
    | some text => parseStrategy known find text
    | none => .ok default
  let d : Config := {}
  let encryption ← strategy "GAMEWIRE_ENCRYPTION" (EncryptionKind.all.map (·.configName))
    EncryptionKind.ofConfigName? d.transport.encryption
  let compression ← strategy "GAMEWIRE_COMPRESSION" (CompressionKind.all.map (·.name))
    CompressionKind.ofName? d.transport.compression
  let address := env "GAMEWIRE_SERVER_ADDRESS"
  return { d with
    server := { d.server with
      address := address.getD d.server.address
      maxConnections := count "GAMEWIRE_MAX_CONNECTIONS" d.server.maxConnections
      handshakeTimeout := duration "GAMEWIRE_HANDSHAKE_TIMEOUT_MS" d.server.handshakeTimeout }
    client := { d.client with
      address := address.getD d.client.address
      responseTimeout := duration "GAMEWIRE_RESPONSE_TIMEOUT_MS" d.client.responseTimeout }
    transport := { d.transport with
      encryption
      encryptionKey := env "GAMEWIRE_ENCRYPTION_KEY"
      compression }
    queue := { d.queue with workers := count "GAMEWIRE_QUEUE_WORKERS" d.queue.workers } }

end PeerLink.Config
