import PeerLink.Config
import PeerLink.Endpoint
import PeerLink.Handshake.Exchange
import PeerLink.Registry
import PeerLink.WorkQueues

/-!
The listening side. A peer is admitted once its handshake is done; what it sends is stamped with the id of
its connection, so that no peer can speak as another, and waits for a worker.

Admitting and closing take several steps, between which other connections take theirs: `establish`,
`enroll` and `confirm` on the one side, `Connection.close` and `retire` on the other. A connection may be
closed before it is enrolled.
-/
namespace PeerLink

/-- What a host does for a server. -/
structure Host where
  /-- Listens for streams on an address; tells which one it is. -/
  listen : String → Except Fault SocketAddress
  /-- Takes datagrams on an address. -/
  bind : SocketAddress → Except Fault Unit

def Fault.noDatagramPort : Fault := .config "UDP companion needs TCP port + 1"

def Fault.noConnection (id : UInt24) : Fault := .transport s!"no connection {id}"

structure Server (β κ σ : Type) where
  config : Config
  pipeline : Pipeline
  nonces : NonceSource
  registry : Registry κ
  /-- Closed connections, which may have sent messages that still wait. -/
  departed : List (Connection κ)
  dispatcher : Dispatcher β
  metrics : Metrics
  events : List ConnectionEvent
  /-- Calls that the host has been handed and has not made. -/
  parked : List (UInt24 × Job β)
  /-- Messages that wait for a worker; there are no queues once the server has stopped. -/
  queues : Option (WorkQueues (UInt24 × Message))
  app : σ

namespace Server

variable {α β κ σ : Type}

def start (host : Host) (config : Config) (pipeline : Pipeline) (nonces : NonceSource)
    (dispatcher : Dispatcher β) (app : σ) : Except Fault (Server β κ σ) := do
  let address ← host.listen config.server.address
  if config.server.udpEnabled then
    if address.port = 0xffff then throw .noDatagramPort
    host.bind address.datagramAddress
  let queues ← WorkQueues.new "server" config.queue.workers
  return {
    config, pipeline, nonces, registry := .new config.server.maxConnections, departed := [], dispatcher,
    metrics := {}, events := [], parked := [], queues := some queues, app }

def count (s : Server β κ σ) (f : Metrics → Metrics) : Server β κ σ := { s with metrics := f s.metrics }

def publish (s : Server β κ σ) (event : ConnectionEvent) : Server β κ σ :=
  { s with events := s.events ++ [event] }

/-! ### Admitting and closing -/

def establish (s : Server β κ σ) (id : UInt24) (peer : SocketAddress) (nonces : NonceSource) :
    Connection κ × Server β κ σ :=
  let datagrams := if s.config.server.udpEnabled then some (DatagramLink.new none) else none
  (.new .server id s.pipeline nonces (some peer) datagrams, s.count Metrics.connectionEstablished)

def enroll (s : Server β κ σ) (c : Connection κ) : Server β κ σ :=
  { s with registry := s.registry.insert c }

/-- Makes a connection known, unless it was closed before it was enrolled. -/
def confirm (s : Server β κ σ) (c : Connection κ) : Server β κ σ :=
  if c.isClosed then { s with registry := s.registry.erase c.id } else s.publish (.connected c.id)

/-- Takes a connection that has been closed out of the registry. -/
def retire (s : Server β κ σ) (c : Connection κ) : Server β κ σ :=
  { s with registry := s.registry.erase c.id, departed := c :: s.departed }.publish (.disconnected c.id)

/-- Admits the peer at the other end of a stream. -/
def accept (s : Server β κ σ) (asked : Challenge) (nonces : NonceSource) (peer : SocketAddress)
    (stream : Stream) : Except Fault UInt24 × Stream × Server β κ σ :=
  let s := s.count Metrics.handshakeAttempt
  let settings := s.config.server
  match Handshake.serve asked settings.handshakeTimeout settings.idWidth Registry.allocate
      (stream, s.registry) with
  | (.error e, stream, registry) => (.error e, stream, { s with registry }.count Metrics.handshakeFailed)
  | (.ok id, stream, registry) =>
    let (c, s) := ({ s with registry }.count Metrics.handshakeSuccess).establish id peer nonces
    (.ok id, stream, (s.enroll c).confirm c)

/-- Puts a connection back that something was done with, or retires it if that has closed it. One that was
closed before stays as it was. -/
def putBack (s : Server β κ σ) (before after : Connection κ) : Server β κ σ :=
  if before.isClosed then s
  else if after.isClosed then s.retire after
  else s.enroll after

/-- Does something with a live connection; the server's counters are those of all its connections. -/
def withConnection (s : Server β κ σ) (c : Connection κ) (f : Connection κ → α × Connection κ) :
    α × Server β κ σ :=
  let (r, after) := f { c with metrics := s.metrics }
  (r, { s with metrics := after.metrics }.putBack c after)

/-- Does something with a live connection that may fail. -/
def attempt (s : Server β κ σ) (id : UInt24) (f : Connection κ → Except Fault (Connection κ)) :
    Except Fault (Server β κ σ) :=
  match s.registry.get? id with
  | none => .error (.noConnection id)
  | some c =>
    match f { c with metrics := s.metrics } with
    | .ok after => .ok ({ s with metrics := after.metrics }.putBack c after)
    | .error e => .error e

def close (s : Server β κ σ) (id : UInt24) : Bool × Server β κ σ :=
  match s.registry.get? id with
  | none => (false, s)
  | some c => (true, (s.withConnection c fun c => ((), c.close)).2)

/-! ### Messages that come in -/

/-- Stamps the sender's id on a message and queues it for a worker. -/
def deliver (s : Server β κ σ) (id : UInt24) (m : Message) : Server β κ σ :=
  match s.queues with
  | none => s
  | some queues =>
    match queues.push (id, m.setClient id) with
    | .ok (_, queues) => { s with queues := some queues }
    | .error _ => s

def receive (s : Server β κ σ) (id : UInt24) (buffer : Bytes) : Bytes × Server β κ σ :=
  match s.registry.get? id with
  | none => (buffer, s)
  | some c =>
    let ((ms, rest), s) := s.withConnection c fun c =>
      let (ms, rest, c) := c.receive s.config.transport.maxFrame buffer
      ((ms, rest), c)
    (rest, ms.foldl (·.deliver id ·) s)

/-- Takes in a datagram. The id inside says which connection it belongs to, and it must come from the host
at the other end of that one; its answers then go where it came from. -/
def receiveDatagram (s : Server β κ σ) (source : SocketAddress) (bytes : Bytes) : Server β κ σ :=
  let s := s.count (·.datagramReceived bytes.length)
  match Message.ofFrame s.pipeline bytes with
  | .error _ => s.count Metrics.protocolError
  | .ok m =>
    match s.registry.get? m.client with
    | none => s
    | some c =>
      match checkSource c.peer source with
      | .error _ => s
      | .ok () =>
        let s := s.enroll { c with datagrams := c.datagrams.map (·.learnPeer source) }
        if m.head = registerHead then s else s.deliver c.id m

/-- An application beside the registry, whose groups its broadcasts go to. -/
def relaying (a : Application β κ σ) : Application β κ (Registry κ × σ) where
  handle action m e :=
    let (r, m, after) := a.handle action m (e.withApp e.app.2)
    (r, m, after.withApp (e.app.1, after.app))
  onReply callback m e := e.onSecond (a.onReply callback m)
  onSync := a.onSync.map fun sink m e => e.onSecond (sink m)
  onRelay := some fun m e =>
    let (count, registry) := e.app.1.relay m e.connection
    let connection := match e.connection.frameOf m with
      | .ok (_, _, c) => c
      | .error _ => e.connection
    (count, { e with connection, app := (registry, e.app.2) })

/-- The connection with an id, also if it is closed. -/
def find? (s : Server β κ σ) (id : UInt24) : Option (Connection κ) :=
  (s.registry.get? id).or (s.departed.find? (·.id = id))

/-- Does something at the server's end of a connection. -/
def withEndpoint (s : Server β κ σ) (c : Connection κ)
    (f : Endpoint β κ (Registry κ × σ) → α × Endpoint β κ (Registry κ × σ)) : α × Server β κ σ :=
  let (r, e) := f (.new { c with metrics := s.metrics } s.dispatcher none (s.registry, s.app))
  let s := { s with
    registry := e.app.1
    dispatcher := e.dispatcher
    metrics := e.connection.metrics
    events := s.events ++ e.events
    parked := s.parked ++ e.parked.map (c.id, ·)
    app := e.app.2 }
  (r, s.putBack c e.connection)

/-- Does what a message asks for, on the worker that took it from its queue. -/
def route (s : Server β κ σ) (a : Application β κ σ) (id : UInt24) (m : Message) :
    Option Route × Server β κ σ :=
  match s.find? id with
  | none => (none, s)
  | some c => s.withEndpoint c fun e =>
    let (r, e) := e.route (relaying a) m
    (some r, e)

def work? (s : Server β κ σ) (a : Application β κ σ) (worker : Nat) :
    Option (Server β κ σ) := do
  let ((id, m), queues) ← (← s.queues).pop? worker
  return ({ s with queues := some queues }.route a id m).2

/-! ### What the host can ask for -/

def setGroup (s : Server β κ σ) (id : UInt24) (group : Option UInt32) : Bool × Server β κ σ :=
  match s.attempt id fun c => .ok { c with group } with
  | .ok s => (true, s)
  | .error _ => (false, s)

def sendTo (s : Server β κ σ) (id : UInt24) (m : Message) : Except Fault (Server β κ σ) :=
  s.attempt id (·.send (m.setClient id))

/-- Queues one frame on every connection, and tells how many took it. -/
def broadcast (s : Server β κ σ) (m : Message) : Except Fault (Nat × Server β κ σ) := do
  let (drawn, nonces) := s.nonces.next
  let (frame, _) ← m.serialize s.pipeline drawn
  let (count, registry) := s.registry.queueFor (fun _ _ => true) frame
  return (count, { s with nonces, registry })

/-- Asks one connection; the callback waits in the slot that comes with it. -/
def ask? (s : Server β κ σ) (id : UInt24) (m : Message) (callback : κ) :
    Option (Except Fault Nat × Server β κ σ) := do
  let c ← s.registry.get? id
  let (r, after) ← { c with metrics := s.metrics }.sendWithReply? m callback
  return (r, { s with metrics := after.metrics }.putBack c after)

/-- Whether everything that was queued has been written. -/
def isFlushed (s : Server β κ σ) : Bool := s.registry.pending = 0

/-- Stops for good: every connection is closed, and what waits in the queues is worked off. -/
def stop (s : Server β κ σ) (a : Application β κ σ) : Server β κ σ :=
  let waiting := (s.queues.map (·.queues.flatten)).getD []
  let s := (s.registry.live.map Prod.fst).foldl (fun s id => (s.close id).2) s
  waiting.foldl (fun s (id, m) => (s.route a id m).2) { s with queues := none }

end Server

end PeerLink
