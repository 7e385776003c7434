import PeerLink.Config
import PeerLink.Endpoint
import PeerLink.Handshake.Exchange
import PeerLink.WorkQueues

/-!
The connecting side. A client has one connection and one worker, so that messages are worked on in the
order in which they come.
-/
namespace PeerLink

structure Client (β κ σ : Type) where
  config : Config
  endpoint : Endpoint β κ σ
  /-- Messages that wait for the worker; there is no queue once the client has disconnected. -/
  queue : Option (WorkQueues Message)

namespace Client

variable {β κ σ : Type}

def connect (dial : String → Except Fault (SocketAddress × Stream)) (config : Config) (pipeline : Pipeline)
    (nonces : NonceSource) (dispatcher : Dispatcher β) (app : σ) : Except Fault (Client β κ σ × Stream) := do
  let settings := config.client
  let (server, stream) ← dial settings.address
  let (admitted, stream, _) :=
    (Handshake.join settings.connectionTimeout settings.idWidth : Exchange Unit UInt24) (stream, ())
  let id ← admitted
  let datagrams := if settings.udpEnabled
    then some (DatagramLink.new (some server.datagramAddress)) else none
  let fresh : Connection κ := .new .client id pipeline nonces (some server) datagrams
  let connection := { fresh with
    metrics := fresh.metrics.handshakeAttempt.handshakeSuccess.connectionEstablished }
  let connection ←
    if settings.udpEnabled then connection.sendDatagram (.withHeader id registerHead 0) else pure connection
  let queue ← WorkQueues.new "client" 1
  let endpoint := (Endpoint.new connection dispatcher none app).publish (.connected id)
  return ({ config, endpoint, queue := some queue }, stream)

def id (c : Client β κ σ) : UInt24 := c.endpoint.connection.id

def isConnected (c : Client β κ σ) : Bool := !c.endpoint.connection.isClosed

def putBack (c : Client β κ σ) (after : Connection κ) : Client β κ σ :=
  let endpoint := { c.endpoint with connection := after }
  { c with
    endpoint := if c.isConnected && after.isClosed then endpoint.publish (.disconnected c.id) else endpoint }

def send (c : Client β κ σ) (m : Message) : Except Fault (Client β κ σ) :=
  c.putBack <$> c.endpoint.connection.send (m.setClient c.id)

def sendDatagram (c : Client β κ σ) (m : Message) : Except Fault (Client β κ σ) :=
  c.putBack <$> c.endpoint.connection.sendDatagram (m.setClient c.id)

def sendWithReply? (c : Client β κ σ) (m : Message) (callback : κ) :
    Option (Except Fault Nat × Client β κ σ) := do
  let (r, after) ← c.endpoint.connection.sendWithReply? (m.setClient c.id) callback
  return (r, c.putBack after)

/-- The outcome of a request whose wait has ended. -/
def finish (c : Client β κ σ) (slot : Nat) (wait : Wait) : Except Fault Message × Client β κ σ :=
  let (r, after) := c.endpoint.connection.finish slot wait
  (r, c.putBack after)

def deliver (c : Client β κ σ) (m : Message) : Client β κ σ :=
  match c.queue with
  | none => c
  | some queue =>
    match queue.push m with
    | .ok (_, queue) => { c with queue := some queue }
    | .error _ => c

/-- Takes in what has arrived on the stream, after the bytes that waited for more; some may wait again. -/
def receive (c : Client β κ σ) (buffer : Bytes) : Bytes × Client β κ σ :=
  let (ms, rest, after) := c.endpoint.connection.receive c.config.transport.maxFrame buffer
  (rest, (ms.foldl deliver c).putBack after)

/-- Takes in a datagram, which must come from the server's host. -/
def receiveDatagram (c : Client β κ σ) (source : SocketAddress) (bytes : Bytes) : Client β κ σ :=
  match checkSource c.endpoint.connection.peer source with
  | .error _ => c
  | .ok () =>
    let connection := c.endpoint.connection
    let counted := { connection with metrics := connection.metrics.datagramReceived bytes.length }
    match Message.ofFrame connection.pipeline bytes with
    | .ok m => (c.putBack counted).deliver m
    | .error _ => c.putBack { counted with metrics := counted.metrics.protocolError }

def work? (c : Client β κ σ) (a : Application β κ σ) : Option (Route × Client β κ σ) := do
  let (m, queue) ← (← c.queue).pop? 0
  let (r, endpoint) := c.endpoint.route a m
  let routed := { c with endpoint := { endpoint with connection := c.endpoint.connection }, queue := some queue }
  return (r, routed.putBack endpoint.connection)

/-- Closes the connection. Messages that wait are still worked on. -/
def disconnect (c : Client β κ σ) : Client β κ σ :=
  { c.putBack c.endpoint.connection.close with queue := c.queue.map WorkQueues.close }

end Client

end PeerLink
