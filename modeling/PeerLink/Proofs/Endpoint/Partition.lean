import PeerLink.Proofs.Endpoint
import PeerLink.Proofs.Link.Routing

/-!
Where a message goes. An application that notes what of it is called does what the same application does without notes,
and its notes tell that a message goes to one place only: to the callback of its slot, to the relay, to the sink, or to
the action of its head.
-/
namespace PeerLink

variable {β κ σ : Type}

/-- Something of an application that is called with a message. -/
inductive Call (β κ : Type) where
  | action (job : Job β)
  | callback (callback : κ) (answer : Message)
  | relay (m : Message)
  | sink (m : Message)

namespace Endpoint

/-- The end with a list of the calls so far beside the state of the application. -/
def withCalls (e : Endpoint β κ σ) (calls : List (Call β κ)) : Endpoint β κ (List (Call β κ) × σ) :=
  e.withApp (calls, e.app)

def noting {α : Type} (e : Endpoint β κ (List (Call β κ) × σ)) (call : Call β κ)
    (f : Endpoint β κ σ → α × Endpoint β κ σ) : α × Endpoint β κ (List (Call β κ) × σ) :=
  let (r, after) := f (e.withApp e.app.2)
  (r, after.withCalls (e.app.1 ++ [call]))

end Endpoint

/-- The application, with notes of what of it is called. -/
def Application.traced (a : Application β κ σ) : Application β κ (List (Call β κ) × σ) where
  handle action m e :=
    let ((r, left), after) := e.noting (.action ⟨action, m⟩) fun e =>
      let (r, left, after) := a.handle action m e
      ((r, left), after)
    (r, left, after)
  onReply callback m e := (e.noting (.callback callback m) fun e => ((), a.onReply callback m e)).2
  onSync := a.onSync.map fun sink m e => (e.noting (.sink m) fun e => ((), sink m e)).2
  onRelay := a.onRelay.map fun relay m e => e.noting (.relay m) (relay m)

namespace Endpoint

variable {e : Endpoint β κ σ} {a : Application β κ σ} {m : Message} {calls : List (Call β κ)} {slot : Nat}

/-! ### Notes change nothing -/

theorem count_withCalls (f : Metrics → Metrics) : (e.withCalls calls).count f = (e.count f).withCalls calls := by
  cases counted : e.counters with
  | none => simp only [count, withCalls, withApp, counted]
  | some m => simp only [count, withCalls, withApp, counted]

theorem attempt_withCalls (f : Connection κ → Except Fault (Connection κ)) :
    (e.withCalls calls).attempt f = (e.attempt f).withCalls calls := by
  cases tried : f e.connection with
  | error fault => simp only [attempt, withCalls, withApp, tried]
  | ok c => simp only [attempt, withCalls, withApp, tried]

/-- A call is one call of its action. What is done with the answer calls nothing. -/
theorem invoke_traced (job : Job β) :
    (e.withCalls calls).invoke a.traced job = (e.invoke a job).withCalls (calls ++ [.action job]) := by
  have noted : a.traced.handle job.action job.message (e.withCalls calls) =
      ((a.handle job.action job.message e).1, (a.handle job.action job.message e).2.1,
        (a.handle job.action job.message e).2.2.withCalls (calls ++ [.action job])) := rfl
  unfold invoke
  rw [noted]
  obtain ⟨r, left, after⟩ := a.handle job.action job.message e
  cases r with
  | error fault =>
    simp only
    split
    · rfl
    · rfl
  | ok answer =>
    cases answer with
    | none => rfl
    | some response => exact attempt_withCalls _

theorem reportUnhandled_withCalls :
    (e.withCalls calls).reportUnhandled m = (e.reportUnhandled m).withCalls calls := by
  have same : ((e.count Metrics.unhandledMessage).withCalls calls).role = (e.count Metrics.unhandledMessage).role := rfl
  simp only [reportUnhandled, count_withCalls, same]
  split
  · exact attempt_withCalls _
  · rfl

/-! ### Where messages go -/

/-- A message that comes as an answer: its slot is one that this end gives its own requests. -/
def IsAnswer (e : Endpoint β κ σ) (m : Message) (slot : Nat) : Prop :=
  m.type.toNat = replyBase + slot ∧ e.role.owns slot = true

/-- A message that asks for an action: it is no answer, and no server takes it as a broadcast or for its sink. -/
def IsCall (e : Endpoint β κ σ) (m : Message) : Prop :=
  (∀ slot, ¬e.IsAnswer m slot) ∧ (e.role = .server → m.type.toNat ≠ 1 ∧ m.type.toNat ≠ 2)

theorem kind_eq_broadcast : m.kind = .broadcast ↔ m.type.toNat = 1 := by
  rw [Message.kind]
  grind [MessageKind.ofType]

theorem kind_eq_sync : m.kind = .sync ↔ m.type.toNat = 2 := by
  rw [Message.kind]
  grind [MessageKind.ofType]

theorem route_of_answer (answers : e.IsAnswer m slot) : e.route a m = e.routeAnswer a m :=
  route_of_owned (Message.replySlot_eq_some.mpr answers.1) answers.2

theorem route_of_call (call : e.IsCall m) : e.route a m = e.routeCall a m := by
  obtain ⟨foreign, called⟩ := call
  cases kind : m.kind with
  | reply slot =>
    have typed := MessageKind.ofType_eq_reply.mp kind
    apply route_of_not_owned (Message.replySlot_eq_some.mpr typed)
    rw [Bool.eq_false_iff]
    exact fun owned => foreign slot ⟨typed, owned⟩
  | broadcast =>
    cases serves : e.role with
    | server => exact absurd (kind_eq_broadcast.mp kind) (called serves).1
    | client => simp only [route, kind, serves]
  | sync =>
    cases serves : e.role with
    | server => exact absurd (kind_eq_sync.mp kind) (called serves).2
    | client => simp only [route, kind, serves]
  | direct | other => simp only [route, kind]

theorem route_of_broadcast (serves : e.role = .server) (typed : m.type.toNat = 1) :
    e.route a m =
      match a.onRelay with
      | some relay => (.relayed (relay m e).1, (relay m e).2)
      | none => (.relayed 0, e) := by
  cases installed : a.onRelay with
  | none => simp only [route, kind_eq_broadcast.mpr typed, serves, installed]
  | some _ => simp only [route, kind_eq_broadcast.mpr typed, serves, installed]

theorem route_of_sync (serves : e.role = .server) (typed : m.type.toNat = 2) :
    e.route a m =
      match a.onSync with
      | some sink => (.synced, sink m e)
      | none => (.syncDropped, e) := by
  cases installed : a.onSync with
  | none => simp only [route, kind_eq_sync.mpr typed, serves, installed]
  | some _ => simp only [route, kind_eq_sync.mpr typed, serves, installed]

/-- The message is routed with this outcome, and while that is done these calls are made and no others. -/
def Routes (e : Endpoint β κ σ) (a : Application β κ σ) (m : Message) (made : List (Call β κ)) (r : Route)
    (after : Endpoint β κ σ) : Prop :=
  e.route a m = (r, after) ∧
    ∀ calls, (e.withCalls calls).route a.traced m = (r, after.withCalls (calls ++ made))

/-! ### Answers -/

theorem routeAnswer_of_mem {callback : κ} (carried : m.replySlot = some slot)
    (waits : (slot, callback) ∈ e.connection.replies.pending) :
    e.routeAnswer a m = (.replied, a.onReply callback m
      { e with connection := { e.connection with replies := e.connection.replies.erase slot } }) := by
  have resolved := ReplyTable.resolve?_eq_some.mpr ⟨slot, carried, waits, rfl⟩
  simp only [routeAnswer, resolved]

theorem routeAnswer_of_vacant (carried : m.replySlot = some slot)
    (vacant : e.connection.replies.isPending slot = false) :
    e.routeAnswer a m = (.orphan, e.count Metrics.orphanReply) := by
  have unresolved : e.connection.replies.resolve? m = none := by
    rw [ReplyTable.resolve?_eq_none]
    intro other callback same waits
    obtain rfl := Option.some.inj (carried.symm.trans same)
    exact ReplyTable.isPending_eq_false.mp vacant (List.mem_map_of_mem waits)
  simp only [routeAnswer, unresolved]

theorem routes_replied {callback : κ} (answers : e.IsAnswer m slot)
    (waits : (slot, callback) ∈ e.connection.replies.pending) :
    e.Routes a m [.callback callback m] .replied (a.onReply callback m
      { e with connection := { e.connection with replies := e.connection.replies.erase slot } }) := by
  have carried := Message.replySlot_eq_some.mpr answers.1
  constructor
  · rw [route_of_answer answers, routeAnswer_of_mem carried waits]
  · intro calls
    have noted : (e.withCalls calls).IsAnswer m slot := answers
    rw [route_of_answer noted, routeAnswer_of_mem (e := e.withCalls calls) carried waits]
    rfl

theorem routes_orphan (answers : e.IsAnswer m slot) (vacant : e.connection.replies.isPending slot = false) :
    e.Routes a m [] .orphan (e.count Metrics.orphanReply) := by
  have carried := Message.replySlot_eq_some.mpr answers.1
  constructor
  · rw [route_of_answer answers, routeAnswer_of_vacant carried vacant]
  · intro calls
    have noted : (e.withCalls calls).IsAnswer m slot := answers
    rw [route_of_answer noted, routeAnswer_of_vacant (e := e.withCalls calls) carried vacant, count_withCalls,
      List.append_nil]

/-! ### Broadcasts and synchronization on a server -/

theorem routes_relayed {relay : Message → Endpoint β κ σ → Nat × Endpoint β κ σ} (serves : e.role = .server)
    (typed : m.type.toNat = 1) (installed : a.onRelay = some relay) :
    e.Routes a m [.relay m] (.relayed (relay m e).1) (relay m e).2 := by
  constructor
  · rw [route_of_broadcast serves typed, installed]
  · intro calls
    have noted : (e.withCalls calls).role = .server := serves
    rw [route_of_broadcast noted typed, Application.traced, installed]
    rfl

theorem routes_unrelayed (serves : e.role = .server) (typed : m.type.toNat = 1) (missing : a.onRelay = none) :
    e.Routes a m [] (.relayed 0) e := by
  constructor
  · rw [route_of_broadcast serves typed, missing]
  · intro calls
    have noted : (e.withCalls calls).role = .server := serves
    rw [route_of_broadcast noted typed, Application.traced, missing, List.append_nil]
    rfl

theorem routes_synced {sink : Message → Endpoint β κ σ → Endpoint β κ σ} (serves : e.role = .server)
    (typed : m.type.toNat = 2) (installed : a.onSync = some sink) :
    e.Routes a m [.sink m] .synced (sink m e) := by
  constructor
  · rw [route_of_sync serves typed, installed]
  · intro calls
    have noted : (e.withCalls calls).role = .server := serves
    rw [route_of_sync noted typed, Application.traced, installed]
    rfl

theorem routes_dropped (serves : e.role = .server) (typed : m.type.toNat = 2) (missing : a.onSync = none) :
    e.Routes a m [] .syncDropped e := by
  constructor
  · rw [route_of_sync serves typed, missing]
  · intro calls
    have noted : (e.withCalls calls).role = .server := serves
    rw [route_of_sync noted typed, Application.traced, missing, List.append_nil]
    rfl

/-! ### Calls -/

/-- A dispatch with this answer, in which these calls are made and no others. -/
def Dispatches (e : Endpoint β κ σ) (a : Application β κ σ) (m : Message) (made : List (Call β κ)) (handled : Bool)
    (after : Endpoint β κ σ) : Prop :=
  e.dispatch a m = (handled, after) ∧
    ∀ calls, (e.withCalls calls).dispatch a.traced m = (handled, after.withCalls (calls ++ made))

theorem dispatches_unknown (unknown : e.dispatcher.find? m.head = none) : e.Dispatches a m [] false e := by
  refine ⟨dispatch_of_none unknown, fun calls => ?_⟩
  have here : (e.withCalls calls).dispatcher.find? m.head = none := unknown
  rw [dispatch_of_none here, List.append_nil]

theorem dispatches_handed {action : Action β} (found : e.dispatcher.find? m.head = some action)
    (parks : e.dispatcher.parks = true) :
    e.Dispatches a m [] true { e with parked := e.parked ++ [⟨action, m⟩] } := by
  refine ⟨(dispatch_of_find found).trans (if_pos parks), fun calls => ?_⟩
  have here : (e.withCalls calls).dispatcher.find? m.head = some action := found
  rw [(dispatch_of_find here).trans (if_pos parks), List.append_nil]
  rfl

/-- Without a host that takes calls, the action of the head is called at once. -/
theorem dispatches_made {action : Action β} (found : e.dispatcher.find? m.head = some action)
    (direct : e.dispatcher.parks = false) :
    e.Dispatches a m [.action ⟨action, m⟩] true (e.invoke a ⟨action, m⟩) := by
  have direct : ¬e.dispatcher.parks = true := Bool.eq_false_iff.mp direct
  refine ⟨(dispatch_of_find found).trans (if_neg direct), fun calls => ?_⟩
  have here : (e.withCalls calls).dispatcher.find? m.head = some action := found
  rw [(dispatch_of_find here).trans (if_neg direct), invoke_traced]

variable {made : List (Call β κ)} {after : Endpoint β κ σ}

theorem Dispatches.routes_handled (dispatches : e.Dispatches a m made true after) (call : e.IsCall m) :
    e.Routes a m made .handled after := by
  constructor
  · rw [route_of_call call, routeCall, dispatches.1]
  · intro calls
    have noted : (e.withCalls calls).IsCall m := call
    rw [route_of_call noted, routeCall, dispatches.2]

theorem Dispatches.routes_notHandled (dispatches : e.Dispatches a m made false after) (call : e.IsCall m) :
    e.Routes a m made .notHandled (after.reportUnhandled m) := by
  constructor
  · rw [route_of_call call, routeCall, dispatches.1]
  · intro calls
    have noted : (e.withCalls calls).IsCall m := call
    rw [route_of_call noted, routeCall, dispatches.2, ← reportUnhandled_withCalls]

/-! ### Messages without an action -/

/-- A server counts the message and queues one frame, which reads as `false` under the header of the message. -/
structure Refuses (e : Endpoint β κ σ) (m : Message) (after : Endpoint β κ σ) : Prop where
  unhandled : after.metrics.unhandled = e.metrics.unhandled + 1
  answered : ∃ frame answer, after.connection.outbound = e.connection.outbound ++ [frame] ∧
    Message.ofFrame e.connection.pipeline frame = .ok answer ∧
    answer.client = m.client ∧ answer.head = m.head ∧ answer.type = m.type ∧ answer.body = [0]
  events : after.events = e.events

/-- A client counts the message and publishes one event. -/
structure Reports (e : Endpoint β κ σ) (m : Message) (after : Endpoint β κ σ) : Prop where
  unhandled : after.metrics.unhandled = e.metrics.unhandled + 1
  outbound : after.connection.outbound = e.connection.outbound
  events : after.events = e.events ++ [.unregistered e.connection.id m.head]

/-- The answer is one byte behind the header, so its frame fits under every pipeline that conveys such messages. -/
theorem refuses_reportUnhandled (serves : e.role = .server) (up : e.connection.isClosed = false)
    (conveys : ∀ message : Bytes, message.length = headerSize + 1 →
      e.connection.pipeline.Conveys e.connection.nonces.next.1 message) :
    e.Refuses m (e.reportUnhandled m) := by
  have counts := metrics_count e Metrics.unhandledMessage
  obtain ⟨counters, metrics, counted⟩ := count_cases e Metrics.unhandledMessage
  have travels : Message.Travels (e.count Metrics.unhandledMessage).connection.pipeline
      (e.count Metrics.unhandledMessage).connection.nonces.next.1
      { Message.withHeader m.client m.head m.type with body := [0] } := by
    have fits : headerSize + 1 ≤ maxFrameSize := by decide
    rw [counted]
    exact ⟨rfl, fits, conveys _ (Message.length_append_body _)⟩
  obtain ⟨frame, nonces, sent, read⟩ := Connection.send_of_travels (by rw [counted]; exact up) travels
  have reported : e.reportUnhandled m = { e.count Metrics.unhandledMessage with
      connection := { (e.count Metrics.unhandledMessage).connection with
        nonces, pending := (e.count Metrics.unhandledMessage).connection.pending + 1,
        outbound := (e.count Metrics.unhandledMessage).connection.outbound ++ [frame] } } := by
    have role := (count_role e Metrics.unhandledMessage).trans serves
    simp only [reportUnhandled, role, attempt, refusal_eq, bind, Except.bind, sent]
  rw [reported]
  rw [counted] at read
  refine ⟨congrArg Metrics.unhandled counts, ?_, ?_⟩
  · exact ⟨frame, _, by rw [counted], read, rfl, rfl, rfl, rfl⟩
  · rw [counted]

theorem reports_reportUnhandled (asks : e.role = .client) : e.Reports m (e.reportUnhandled m) := by
  have counts := metrics_count e Metrics.unhandledMessage
  obtain ⟨counters, metrics, counted⟩ := count_cases e Metrics.unhandledMessage
  have role := (count_role e Metrics.unhandledMessage).trans asks
  have reported : e.reportUnhandled m = (e.count Metrics.unhandledMessage).publish
      (.unregistered (e.count Metrics.unhandledMessage).connection.id m.head) := by
    simp only [reportUnhandled, role]
  rw [reported]
  refine ⟨congrArg Metrics.unhandled counts, ?_, ?_⟩
  · rw [counted]
    rfl
  · rw [counted]
    rfl

/-- A message goes to one place and to no other. An answer runs the callback of its slot, if one waits there, and is
counted otherwise. A server relays broadcasts and hands synchronization to its sink. All else, requests in slots of the
other half among it, goes to the action of its head; if there is none, a server answers `false` and a client tells the
application. -/
theorem route_partition (e : Endpoint β κ σ) (a : Application β κ σ) (m : Message)
    (up : e.connection.isClosed = false)
    (conveys : ∀ message : Bytes, message.length = headerSize + 1 →
      e.connection.pipeline.Conveys e.connection.nonces.next.1 message) :
    (∀ slot, e.IsAnswer m slot →
      (∀ callback, (slot, callback) ∈ e.connection.replies.pending →
        e.Routes a m [.callback callback m] .replied (a.onReply callback m
          { e with connection := { e.connection with replies := e.connection.replies.erase slot } })) ∧
      (e.connection.replies.isPending slot = false →
        ∃ after, e.Routes a m [] .orphan after ∧
          after.metrics = { e.metrics with orphanReplies := e.metrics.orphanReplies + 1 })) ∧
    (e.role = .server → m.type.toNat = 1 →
      (∀ relay, a.onRelay = some relay → e.Routes a m [.relay m] (.relayed (relay m e).1) (relay m e).2) ∧
      (a.onRelay = none → e.Routes a m [] (.relayed 0) e)) ∧
    (e.role = .server → m.type.toNat = 2 →
      (∀ sink, a.onSync = some sink → e.Routes a m [.sink m] .synced (sink m e)) ∧
      (a.onSync = none → e.Routes a m [] .syncDropped e)) ∧
    (e.IsCall m →
      (∀ action, e.dispatcher.find? m.head = some action →
        if e.dispatcher.parks then e.Routes a m [] .handled { e with parked := e.parked ++ [⟨action, m⟩] }
        else e.Routes a m [.action ⟨action, m⟩] .handled (e.invoke a ⟨action, m⟩)) ∧
      (e.dispatcher.find? m.head = none →
        ∃ after, e.Routes a m [] .notHandled after ∧
          (e.role = .server → e.Refuses m after) ∧ (e.role = .client → e.Reports m after))) := by
  refine ⟨?_, ?_, ?_, ?_⟩
  · intro slot answers
    refine ⟨fun callback waits => routes_replied answers waits, fun vacant => ?_⟩
    exact ⟨_, routes_orphan answers vacant, metrics_count e Metrics.orphanReply⟩
  · intro serves typed
    exact ⟨fun relay installed => routes_relayed serves typed installed, routes_unrelayed serves typed⟩
  · intro serves typed
    exact ⟨fun sink installed => routes_synced serves typed installed, routes_dropped serves typed⟩
  · intro call
    constructor
    · intro action found
      split
      · next parks => exact (dispatches_handed found parks).routes_handled call
      · next direct => exact (dispatches_made found (Bool.eq_false_iff.mpr direct)).routes_handled call
    · intro unknown
      refine ⟨_, (dispatches_unknown unknown).routes_notHandled call, ?_, ?_⟩
      · exact fun serves => refuses_reportUnhandled serves up conveys
      · exact reports_reportUnhandled

def idle : Application Unit Unit Unit where
  handle _ m e := (.ok none, m, e)
  onReply _ _ e := e
  onSync := none
  onRelay := none

def bare : Endpoint Unit Unit Unit :=
  .new (.new .server 7 ⟨.reverse, CompressionKind.none.build⟩ default none none) .empty none ()

/-- A request in the first slot of the client's half. -/
theorem route_partition_request :
    bare.connection.isClosed = false ∧ bare.IsCall (.withHeader 7 77 10) ∧
      ∃ after, bare.Routes idle (.withHeader 7 77 10) [] .notHandled after ∧
        bare.Refuses (.withHeader 7 77 10) after := by
  have conveys : ∀ message : Bytes, message.length = headerSize + 1 →
      bare.connection.pipeline.Conveys bare.connection.nonces.next.1 message := by
    intro message length
    have built : Pipeline.build .reverse none .none = .ok bare.connection.pipeline := rfl
    apply Pipeline.conveys_uncompressed built (fun sealing => by cases sealing)
    · rw [length]
      decide
    · rw [length]
      decide
  have call : bare.IsCall (.withHeader 7 77 10) := by
    constructor
    · rintro slot ⟨typed, owned⟩
      obtain rfl : slot = 0 := Nat.add_left_cancel (typed.symm : replyBase + slot = replyBase + 0)
      cases owned
    · intro _
      decide
  obtain ⟨after, routes, refuses, -⟩ := (route_partition bare idle (.withHeader 7 77 10) rfl conveys).2.2.2 call |>.2 rfl
  exact ⟨rfl, call, after, routes, refuses rfl⟩

end Endpoint

end PeerLink
