import PeerLink.Connection
import PeerLink.Dispatcher

/-!
What one end of a connection does with a message that has come in.

    type              server                     client
    own reply slot    runs the callback          runs the callback
    1                 relays it to the group     calls the action
    2                 hands it to the sink       calls the action
    any other         calls the action           calls the action

A message without an action is answered with `false` by a server and reported by a client. A type with
a slot of the other half is a request; what its action responds carries the same type, so that the
other end finds the slot.
-/
namespace PeerLink

/-- An end of a connection, with everything that a message can change. -/
structure Endpoint (β κ σ : Type) where
  connection : Connection κ
  dispatcher : Dispatcher β
  /-- Counters of what is routed, where these are not those of the connection. -/
  counters : Option Metrics
  events : List ConnectionEvent
  /-- Calls that the host has been handed and has not made. -/
  parked : List (Job β)
  app : σ

/-- The meaning of actions, callbacks and sinks. -/
structure Application (β κ σ : Type) where
  /-- Runs an action on a request: its response if it has one, and the request as it left it. -/
  handle : Action β → Message → Endpoint β κ σ → Except Fault (Option Message) × Message × Endpoint β κ σ
  onReply : κ → Message → Endpoint β κ σ → Endpoint β κ σ
  /-- Takes synchronization messages on a server. -/
  onSync : Option (Message → Endpoint β κ σ → Endpoint β κ σ)
  /-- Relays broadcasts on a server, and tells to how many connections. -/
  onRelay : Option (Message → Endpoint β κ σ → Nat × Endpoint β κ σ)

inductive Route where
  | replied
  /-- An answer that nobody waits for. -/
  | orphan
  | relayed (count : Nat)
  | synced
  | syncDropped
  | handled
  | notHandled
  deriving DecidableEq

def Route.describe : Route → String
  | replied => "Replied"
  | orphan => "Orphan"
  | relayed count => s!"Relayed({count})"
  | synced => "Synced"
  | syncDropped => "SyncDropped"
  | handled => "Handled"
  | notHandled => "NotHandled"

namespace Endpoint

variable {β κ σ : Type}

def new (connection : Connection κ) (dispatcher : Dispatcher β) (counters : Option Metrics) (app : σ) :
    Endpoint β κ σ :=
  { connection, dispatcher, counters, events := [], parked := [], app }

/-- The same end for another state of the application. -/
def withApp {τ : Type} (e : Endpoint β κ σ) (app : τ) : Endpoint β κ τ :=
  { connection := e.connection, dispatcher := e.dispatcher, counters := e.counters, events := e.events,
    parked := e.parked, app }

/-- Does something that needs only the second half of the state. -/
def onSecond {ρ : Type} (e : Endpoint β κ (ρ × σ)) (f : Endpoint β κ σ → Endpoint β κ σ) :
    Endpoint β κ (ρ × σ) :=
  let after := f (e.withApp e.app.2)
  after.withApp (e.app.1, after.app)

def role (e : Endpoint β κ σ) : Role := e.connection.role

def metrics (e : Endpoint β κ σ) : Metrics := e.counters.getD e.connection.metrics

def count (e : Endpoint β κ σ) (f : Metrics → Metrics) : Endpoint β κ σ :=
  match e.counters with
  | some m => { e with counters := some (f m) }
  | none => { e with connection := { e.connection with metrics := f e.connection.metrics } }

/-- Changes the connection, or leaves all as it is if that fails. -/
def attempt (e : Endpoint β κ σ) (f : Connection κ → Except Fault (Connection κ)) : Endpoint β κ σ :=
  match f e.connection with
  | .ok connection => { e with connection }
  | .error _ => e

def close (e : Endpoint β κ σ) : Endpoint β κ σ := { e with connection := e.connection.close }

def publish (e : Endpoint β κ σ) (event : ConnectionEvent) : Endpoint β κ σ :=
  { e with events := e.events ++ [event] }

/-- Makes a call. A response that cannot be sent is lost. A fault stays with the message, unless it says
that the peer sends bytes that cannot be trusted. -/
def invoke (e : Endpoint β κ σ) (a : Application β κ σ) (job : Job β) : Endpoint β κ σ :=
  match a.handle job.action job.message e with
  | (.ok none, _, e) => e
  | (.ok (some response), request, e) =>
    let response := if request.replySlot.isSome then response.setType request.type else response
    e.attempt (·.send response)
  | (.error fault, _, e) => if fault.isPeerMisbehaving then e.close else e

/-- Makes the call that a message asks for, or hands it to the host; tells whether there is one. -/
def dispatch (e : Endpoint β κ σ) (a : Application β κ σ) (m : Message) : Bool × Endpoint β κ σ :=
  match e.dispatcher.job? m with
  | none => (false, e)
  | some job =>
    if e.dispatcher.parks then (true, { e with parked := e.parked ++ [job] })
    else (true, e.invoke a job)

/-- The answer of a server that has no action for a message. -/
def refusal (m : Message) : Except Fault Message := (Message.replyTo m).set (.scalar .bool) false

/-- Counts a message without an action, and lets the peer or the application know of it. -/
def reportUnhandled (e : Endpoint β κ σ) (m : Message) : Endpoint β κ σ :=
  let e := e.count Metrics.unhandledMessage
  match e.role with
  | .server => e.attempt fun c => refusal m >>= c.send
  | .client => e.publish (.unregistered e.connection.id m.head)

def routeCall (e : Endpoint β κ σ) (a : Application β κ σ) (m : Message) : Route × Endpoint β κ σ :=
  match e.dispatch a m with
  | (true, e) => (.handled, e)
  | (false, e) => (.notHandled, e.reportUnhandled m)

def routeAnswer (e : Endpoint β κ σ) (a : Application β κ σ) (m : Message) : Route × Endpoint β κ σ :=
  match e.connection.replies.resolve? m with
  | some (callback, replies) =>
    (.replied, a.onReply callback m { e with connection := { e.connection with replies } })
  | none => (.orphan, e.count Metrics.orphanReply)

/-- Does what the type of a message asks for. -/
def route (e : Endpoint β κ σ) (a : Application β κ σ) (m : Message) : Route × Endpoint β κ σ :=
  match m.kind, e.role with
  | .reply slot, role => if role.owns slot then e.routeAnswer a m else e.routeCall a m
  | .broadcast, .server =>
    match a.onRelay with
    | some relay =>
      let (count, e) := relay m e
      (.relayed count, e)
    | none => (.relayed 0, e)
  | .sync, .server =>
    match a.onSync with
    | some sink => (.synced, sink m e)
    | none => (.syncDropped, e)
  | _, _ => e.routeCall a m

end Endpoint

end PeerLink
