import PeerLink.Config
import PeerLink.Toml.Document
import PeerLink.Toml.Printer

/-!
Settings from a TOML document. A section is a table by the names of its settings or an array of their
values in order; unknown settings are ignored. The entries of a table are read in the order in which they
stand, and only after that a missing one is reported.
-/
namespace PeerLink.Config

/-- Why a document holds no settings. -/
inductive DocumentFault where
  | document (e : Toml.Fault)
  | missing (name : String)
  | unknown (name : String) (known : List String)
  | logLevel (text : String)
  /-- A value of the wrong kind or size. -/
  | mistyped
  deriving DecidableEq

def DocumentFault.message : DocumentFault → String
  | document e => e.message
  | missing name => s!"missing field `{name}`"
  | unknown name known => unknownName name known
  | logLevel text => s!"Invalid log level: {text}"
  | mistyped => "invalid type"

def isSpace (c : Char) : Bool :=
  let n := c.toNat
  (9 ≤ n && n ≤ 13) || n == 0x20 || n == 0x85 || n == 0xa0 || n == 0x1680 ||
    (0x2000 ≤ n && n ≤ 0x200a) || n == 0x2028 || n == 0x2029 || n == 0x202f || n == 0x205f || n == 0x3000

/-- The last line of a text without the white space at its end. -/
def lastLine (s : String) : String :=
  String.ofList ((s.toList.reverse.dropWhile isSpace).takeWhile (· != '\n')).reverse

/-- The fault as it is reported: its last line if that tells which setting to mend, and otherwise only
that something is wrong. -/
def DocumentFault.report (e : DocumentFault) : Fault :=
  let last := lastLine e.message
  let telling := ["missing field", "unknown variant", "Invalid log level"].any fun start =>
    start.toList.isPrefixOf last.toList
  .config ("Failed to parse TOML" ++ if telling then ": " ++ last else "")

abbrev Decoder (α : Type) := Toml.Value → Except DocumentFault α

def text : Decoder String
  | .string s => .ok s
  | _ => .error .mistyped

def truth : Decoder Bool
  | .boolean b => .ok b
  | _ => .error .mistyped

def count : Decoder Nat
  | .integer n => if 0 ≤ n then .ok n.toNat else .error .mistyped
  | _ => .error .mistyped

def duration : Decoder Nat := fun v => do return (← count v) * millisecond

def isNothing : Toml.Value → Bool
  | .array vs => vs.isEmpty
  | .tables ts => ts.isEmpty
  | .table _ es => es.isEmpty
  | _ => false

/-- One of several names, as a string or as the only key of a table, and then for nothing. -/
def choice {α : Type} (known : List String) (find : String → Option α) (v : Toml.Value) :
    Except DocumentFault α :=
  let look (name : String) : Except DocumentFault α :=
    match find name with
    | some a => .ok a
    | none => .error (.unknown name known)
  match v with
  | .string name => look name
  | .table _ [(name, v)] => do
    let a ← look name
    if isNothing v then return a else throw .mistyped
  | _ => .error .mistyped

/-- A level by its name in any case, or by its place from one on. -/
def level (v : Toml.Value) : Except DocumentFault LogLevel := do
  let s ← text v
  let found := match parseCount? s with
    | some n => if n = 0 then none else LogLevel.all[n - 1]?
    | none => none
  match found <|> LogLevel.all.find? (fun l => s.map Char.toLower = l.name) with
  | some l => return l
  | none => throw (.logLevel s)

/-- A setting of a section: its name, whether it must be there, and what a value of it changes. -/
structure Field (σ : Type) where
  name : String
  isRequired : Bool
  store : Toml.Value → σ → Except DocumentFault σ

def Field.of {σ α : Type} (name : String) (decode : Decoder α) (set : α → σ → σ) : Field σ :=
  ⟨name, true, fun v s => do return set (← decode v) s⟩

def Field.optional {σ α : Type} (name : String) (decode : Decoder α) (set : α → σ → σ) : Field σ :=
  { Field.of name decode set with isRequired := false }

/-- Reads the entries of a section over its default settings. -/
def byName {σ : Type} (fields : List (Field σ)) (default : σ) (es : Toml.Entries) :
    Except DocumentFault σ := do
  let s ← es.foldlM (fun s (key, v) =>
    match fields.find? (·.name = key) with
    | some f => f.store v s
    | none => pure s) default
  match fields.find? fun f => f.isRequired && (es.get? f.name).isNone with
  | some f => throw (.missing f.name)
  | none => return s

/-- Reads the values of a section in the order of its settings. -/
def byPlace {σ : Type} : List (Field σ) → σ → List Toml.Value → Except DocumentFault σ
  | [], s, _ => .ok s
  | f :: fields, s, [] => if f.isRequired then .error .mistyped else byPlace fields s []
  | f :: fields, s, v :: vs => do byPlace fields (← f.store v s) vs

/-- Reads a section. A date counts as a table without any setting that is known. -/
def fields {σ : Type} (fs : List (Field σ)) (default : σ) : Decoder σ
  | .table _ es => byName fs default es
  | .date _ => byName fs default []
  | .array vs => byPlace fs default vs
  | .tables ts => byPlace fs default (ts.map (.table .header))
  | _ => .error .mistyped

def idWidth : Decoder IdWidth := choice (IdWidth.all.map (·.name)) IdWidth.ofName?

def encryption : Decoder EncryptionKind :=
  choice (EncryptionKind.all.map (·.configName)) EncryptionKind.ofConfigName?

def compression : Decoder CompressionKind :=
  choice (CompressionKind.all.map (·.name)) CompressionKind.ofName?

def serverFields : List (Field ServerConfig) :=
  [.of "address" text fun v s => { s with address := v },
    .of "max_connections" count fun v s => { s with maxConnections := v },
    .of "handshake_timeout" duration fun v s => { s with handshakeTimeout := v },
    .of "shutdown_timeout" duration fun v s => { s with shutdownTimeout := v },
    .of "udp_enabled" truth fun v s => { s with udpEnabled := v },
    .of "id_width" idWidth fun v s => { s with idWidth := v }]

def clientFields : List (Field ClientConfig) :=
  [.of "address" text fun v s => { s with address := v },
    .of "connection_timeout" duration fun v s => { s with connectionTimeout := v },
    .of "response_timeout" duration fun v s => { s with responseTimeout := v },
    .of "udp_enabled" truth fun v s => { s with udpEnabled := v },
    .of "id_width" idWidth fun v s => { s with idWidth := v }]

def transportFields : List (Field TransportConfig) :=
  [.of "encryption" encryption fun v s => { s with encryption := v },
    .optional "encryption_key" text fun v s => { s with encryptionKey := some v },
    .of "compression" compression fun v s => { s with compression := v },
    .of "max_frame_size" count fun v s => { s with maxFrame := v }]

def queueFields : List (Field QueueConfig) :=
  [.of "workers" count fun v s => { s with workers := v },
    .of "scan_interval" duration fun v s => { s with scanInterval := v }]

def loggingFields : List (Field LoggingConfig) :=
  [.of "app_name" text fun v s => { s with appName := v },
    .of "log_level" level fun v s => { s with logLevel := v },
    .of "json_format" truth fun v s => { s with jsonFormat := v }]

def sections : List (Field Config) :=
  [.optional "server" (fields serverFields {}) fun v c => { c with server := v },
    .optional "client" (fields clientFields {}) fun v c => { c with client := v },
    .optional "transport" (fields transportFields {}) fun v c => { c with transport := v },
    .optional "queue" (fields queueFields {}) fun v c => { c with queue := v },
    .optional "logging" (fields loggingFields {}) fun v c => { c with logging := v }]

def ofToml (s : String) : Except Fault Config :=
  match Toml.parse s with
  | .error e => .error (DocumentFault.document e).report
  | .ok es =>
    match byName sections {} es with
    | .error e => .error e.report
    | .ok c => .ok c

/-- Gives one setting of a section another value. -/
def store (c : Config) (section_ name : String) (v : Toml.Value) : Except DocumentFault Config :=
  let one {σ : Type} (fs : List (Field σ)) (s : σ) : Except DocumentFault σ :=
    match fs.find? (·.name = name) with
    | some f => f.store v s
    | none => .error .mistyped
  match section_ with
  | "server" => return { c with server := ← one serverFields c.server }
  | "client" => return { c with client := ← one clientFields c.client }
  | "transport" => return { c with transport := ← one transportFields c.transport }
  | "queue" => return { c with queue := ← one queueFields c.queue }
  | "logging" => return { c with logging := ← one loggingFields c.logging }
  | _ => throw .mistyped

/-- All settings by section and name. A password that is not set is left out. -/
def entries (c : Config) : List (String × Toml.Entries) :=
  [("server",
    [("address", .string c.server.address), ("max_connections", .integer c.server.maxConnections),
      ("handshake_timeout", .integer (milliseconds c.server.handshakeTimeout)),
      ("shutdown_timeout", .integer (milliseconds c.server.shutdownTimeout)),
      ("udp_enabled", .boolean c.server.udpEnabled), ("id_width", .string c.server.idWidth.name)]),
  ("client",
    [("address", .string c.client.address),
      ("connection_timeout", .integer (milliseconds c.client.connectionTimeout)),
      ("response_timeout", .integer (milliseconds c.client.responseTimeout)),
      ("udp_enabled", .boolean c.client.udpEnabled), ("id_width", .string c.client.idWidth.name)]),
  ("transport",
    [("encryption", .string c.transport.encryption.configName)] ++
      (c.transport.encryptionKey.map fun key => ("encryption_key", .string key)).toList ++
      [("compression", .string c.transport.compression.name),
        ("max_frame_size", .integer c.transport.maxFrame)]),
  ("queue",
    [("workers", .integer c.queue.workers), ("scan_interval", .integer (milliseconds c.queue.scanInterval))]),
  ("logging",
    [("app_name", .string c.logging.appName), ("log_level", .string c.logging.logLevel.name),
      ("json_format", .boolean c.logging.jsonFormat)])]

def toToml (c : Config) : String := Toml.render c.entries

end PeerLink.Config
