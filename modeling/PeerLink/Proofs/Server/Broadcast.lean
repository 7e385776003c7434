import PeerLink.Proofs.Link.Frames
import PeerLink.Proofs.Server.Datagrams
import PeerLink.Proofs.Transport

/-!
Whom a broadcast reaches, and in whose name. The frame that a broadcast came in is passed on only if it names
the connection that it came from; with any other id inside, the message is encoded anew under the right one.
-/
namespace PeerLink

variable {β κ σ : Type}

namespace Message

variable {p : Pipeline} {m m' : Message} {frame sent : Bytes} {drawn : Draw}

theorem setClient_eq (m : Message) (client : UInt24) :
    (m.setClient client).client = client ∧ (m.setClient client).head = m.head ∧
      (m.setClient client).type = m.type ∧ (m.setClient client).body = m.body := by
  unfold setClient
  split
  · next same => exact ⟨same, rfl, rfl, rfl⟩
  · exact ⟨rfl, rfl, rfl, rfl⟩

/-- A frame that came in and has been stamped reads as the stamped message, whether it is kept or not. -/
theorem ofFrame_of_stamped {client : UInt24} (read : ofFrame p frame = .ok m)
    (undo : p.Undoes ((m.setClient client).header ++ (m.setClient client).body))
    (serialized : (m.setClient client).serialize p drawn = .ok (sent, m')) :
    ofFrame p sent = .ok ((m.setClient client).arrived sent) := by
  rcases serialize_cases serialized with ⟨still, -⟩ | ⟨-, fits, encoded, -⟩
  · by_cases same : m.client = client
    · obtain ⟨decoded, fits, -, kept⟩ := ofFrame_ok read
      rw [setClient, if_pos same] at still ⊢
      obtain rfl : frame = sent := Option.some.inj (kept.symm.trans still)
      exact ofFrame_of_decode fits decoded
    · rw [setClient, if_neg same] at still
      cases still
  · exact ofFrame_of_decode fits (undo drawn sent encoded)

end Message

namespace Registry

variable {r : Registry κ} {id : UInt24} {m : Message} {sender : Connection κ}

/-- What waits to be written to a live connection. -/
def outbound? (r : Registry κ) (id : UInt24) : Option (List Bytes) := (r.get? id).map Connection.outbound

/-- The other open connections of the sender's group hear it. -/
def Hears (r : Registry κ) (sender : Connection κ) (id : UInt24) : Prop :=
  id ≠ sender.id ∧ ∃ c group, r.get? id = some c ∧ c.isClosed = false ∧ c.group = some group ∧
    sender.group = some group

theorem outbound?_insert {c : Connection κ} (same : r.outbound? c.id = some c.outbound) :
    (r.insert c).outbound? id = r.outbound? id := by
  by_cases own : id = c.id
  · rw [own, same, outbound?, get?_insert_self]
    rfl
  · rw [outbound?, get?_insert_of_ne own, outbound?]

theorem queueFor_cases (r : Registry κ) (wanted : UInt24 → Connection κ → Bool) (frame : Bytes) :
    ∃ receivers : List UInt24, receivers.Nodup ∧ (r.queueFor wanted frame).1 = receivers.length ∧
      (∀ id, id ∈ receivers ↔ ∃ c, r.get? id = some c ∧ wanted id c = true ∧ c.isClosed = false) ∧
      (∀ id, id ∉ receivers → (r.queueFor wanted frame).2.outbound? id = r.outbound? id) ∧
      ∀ id ∈ receivers, (r.queueFor wanted frame).2.outbound? id = (r.outbound? id).map (· ++ [frame]) := by
  have chosen : ∀ id, id ∈ (r.live.filter fun entry => wanted entry.1 entry.2 && !entry.2.isClosed).map Prod.fst ↔
      ∃ c, r.get? id = some c ∧ wanted id c = true ∧ c.isClosed = false := by
    intro id
    constructor
    · intro inside
      obtain ⟨⟨_, c⟩, kept, rfl⟩ := List.mem_map.mp inside
      obtain ⟨live, takes⟩ := List.mem_filter.mp kept
      simp only [Bool.and_eq_true, Bool.not_eq_true'] at takes
      exact ⟨c, get?_eq_some.mpr live, takes⟩
    · rintro ⟨c, live, wants, opened⟩
      refine List.mem_map.mpr ⟨(id, c), List.mem_filter.mpr ⟨get?_eq_some.mp live, ?_⟩, rfl⟩
      simp [wants, opened]
  refine ⟨_, r.distinct.sublist (List.filter_sublist.map _), (List.length_map ..).symm, chosen, ?_, ?_⟩
  · intro id outside
    rw [outbound?, outbound?, queueFor, get?_map]
    cases live : r.get? id with
    | none => rfl
    | some c =>
      have skipped : (wanted id c && !c.isClosed) = false := by
        apply Bool.eq_false_iff.mpr
        intro takes
        simp only [Bool.and_eq_true, Bool.not_eq_true'] at takes
        exact outside ((chosen id).mpr ⟨c, live, takes⟩)
      simp only [skipped, Bool.false_eq_true, if_false, Option.map_some]
  · intro id inside
    obtain ⟨c, live, wants, opened⟩ := (chosen id).mp inside
    rw [outbound?, outbound?, queueFor, get?_map, live]
    simp [wants, opened, Connection.sendFrame, Except.toOption]

/-- Everyone who hears the sender gets the same frame once, and nobody else gets anything. -/
theorem relay_cases (r : Registry κ) (m : Message) (sender : Connection κ) :
    ∃ receivers : List UInt24, receivers.Nodup ∧ (r.relay m sender).1 = receivers.length ∧
      (∀ id, id ∈ receivers ↔
        r.Hears sender id ∧ (m.serialize sender.pipeline sender.nonces.next.1).isOk = true) ∧
      (∀ id, id ∉ receivers → (r.relay m sender).2.outbound? id = r.outbound? id) ∧
      ∀ id ∈ receivers, ∃ frame kept,
        m.serialize sender.pipeline sender.nonces.next.1 = .ok (frame, kept) ∧
        (r.relay m sender).2.outbound? id = (r.outbound? id).map (· ++ [frame]) := by
  cases grouped : sender.group with
  | none =>
    have silent : r.relay m sender = (0, r) := by rw [relay, grouped]
    rw [silent]
    refine ⟨[], List.nodup_nil, rfl, ?_, fun _ _ => rfl, by simp⟩
    intro id
    simp [Hears, grouped]
  | some group =>
    cases made : m.serialize sender.pipeline sender.nonces.next.1 with
    | error fault =>
      have silent : r.relay m sender = (0, r) := by
        simp only [relay, grouped, Connection.frameOf, made]
      rw [silent]
      exact ⟨[], List.nodup_nil, rfl, by simp [Except.isOk, Except.toBool], fun _ _ => rfl, by simp⟩
    | ok result =>
      obtain ⟨frame, kept⟩ := result
      have relayed : r.relay m sender =
          r.queueFor (fun id c => id != sender.id && c.group == some group) frame := by
        simp only [relay, grouped, Connection.frameOf, made]
      rw [relayed]
      obtain ⟨receivers, nodup, count, chosen, others, queued⟩ := r.queueFor_cases
        (fun id c => id != sender.id && c.group == some group) frame
      refine ⟨receivers, nodup, count, ?_, others, fun id inside => ⟨frame, kept, rfl, queued id inside⟩⟩
      intro id
      rw [chosen, Hears, grouped]
      constructor
      · rintro ⟨c, live, wants, opened⟩
        simp only [Bool.and_eq_true, bne_iff_ne, beq_iff_eq] at wants
        exact ⟨⟨wants.1, c, group, live, opened, wants.2, rfl⟩, rfl⟩
      · rintro ⟨⟨other, c, _, live, opened, member, ⟨rfl⟩⟩, -⟩
        exact ⟨c, live, by simp [other, member], opened⟩

end Registry

namespace Server

variable {s : Server β κ σ} {c : Connection κ} {m : Message}

/-- A connection that messages are routed for, which may have been closed since they came. -/
structure Speaker (s : Server β κ σ) (c : Connection κ) : Prop where
  present : s.registry.get? c.id = some c ∨ s.find? c.id = some c ∧ c.isClosed = true
  role : c.role = .server
  pipeline : c.pipeline = s.pipeline

theorem Speaker.found (speaker : s.Speaker c) : s.find? c.id = some c := by
  rcases speaker.present with live | ⟨found, -⟩
  · rw [find?, live]
    rfl
  · exact found

/-- At the server's end a broadcast is relayed, and the sender is behind one more draw if there is a frame. -/
theorem route_relaying (a : Application β κ σ) (e : Endpoint β κ (Registry κ × σ)) (broadcast : m.kind = .broadcast)
    (server : e.role = .server) :
    ∃ nonces, e.route (relaying a) m =
      (.relayed (e.app.1.relay m e.connection).1,
        { e with
          connection := { e.connection with nonces }
          app := ((e.app.1.relay m e.connection).2, e.app.2) }) := by
  simp only [Endpoint.route, broadcast, server, relaying]
  cases framed : e.connection.frameOf m with
  | error fault => exact ⟨e.connection.nonces, rfl⟩
  | ok made =>
    obtain ⟨frame, kept, after⟩ := made
    obtain ⟨-, rfl⟩ := Connection.frameOf_ok framed
    exact ⟨_, rfl⟩

theorem registry_putBack (s : Server β κ σ) (before after : Connection κ) :
    (s.putBack before after).registry =
      if before.isClosed then s.registry
      else if after.isClosed then s.registry.erase after.id
      else s.registry.insert after := by
  unfold putBack
  split
  · rfl
  · split
    · rfl
    · rfl

theorem route_broadcast (a : Application β κ σ) (speaker : s.Speaker c) (broadcast : m.type = 1) :
    ∃ after : Connection κ, after.id = c.id ∧ after.outbound = c.outbound ∧
      (s.route a c.id m).1 = some (.relayed (s.registry.relay m { c with metrics := s.metrics }).1) ∧
      (s.route a c.id m).2.registry =
        if c.isClosed then (s.registry.relay m { c with metrics := s.metrics }).2
        else (s.registry.relay m { c with metrics := s.metrics }).2.insert after := by
  have kind : m.kind = .broadcast := by
    rw [Message.kind, broadcast]
    rfl
  obtain ⟨nonces, routed⟩ := route_relaying a
    (.new { c with metrics := s.metrics } s.dispatcher none (s.registry, s.app)) kind speaker.role
  rw [route, speaker.found]
  simp only [withEndpoint, routed, registry_putBack]
  refine ⟨{ c with nonces, metrics := s.metrics }, rfl, rfl, rfl, ?_⟩
  cases opened : c.isClosed with
  | true => rfl
  | false => simp [Endpoint.new]

/-- Putting the sender back changes nothing of what waits to be written. -/
theorem outbound?_route (a : Application β κ σ) (speaker : s.Speaker c) (broadcast : m.type = 1) (id : UInt24) :
    (s.route a c.id m).2.registry.outbound? id =
      (s.registry.relay m { c with metrics := s.metrics }).2.outbound? id := by
  obtain ⟨sender, own, waits, -, after⟩ := route_broadcast a speaker broadcast
  rw [after]
  split
  · rfl
  · next opened =>
    apply Registry.outbound?_insert
    rcases speaker.present with live | ⟨-, closed⟩
    · obtain ⟨receivers, -, -, chosen, others, -⟩ := s.registry.relay_cases m { c with metrics := s.metrics }
      have silent := others c.id (fun inside => ((chosen c.id).mp inside).1.1 rfl)
      rw [own, waits, silent, Registry.outbound?, live]
      rfl
    · exact absurd closed opened

theorem stamped_of_deliver {id : UInt24} {stamped : Message} {worker : Nat}
    (delivered : (s.deliver id m).waiting worker = s.waiting worker ++ [(id, stamped)]) :
    stamped = m.setClient id := by
  have queue : (s.deliver id m).waiting worker = s.waiting worker ∨
      (s.deliver id m).waiting worker = s.waiting worker ++ [(id, m.setClient id)] :=
    deliver_waiting worker
  rcases queue with same | grown
  · rw [same] at delivered
    cases List.append_cancel_left ((List.append_nil _).trans delivered)
  · rw [grown] at delivered
    cases List.append_cancel_left delivered
    rfl

/-- A broadcast is queued once for every other open connection of its sender's group and for no other, whatever
id was inside, and arrives there in the name of the connection that it came from. -/
theorem relayed_of_deliver {t : Server β κ σ} {stamped : Message} {frame : Bytes} {worker : Nat}
    (a : Application β κ σ) (speaker : s.Speaker c) (read : Message.ofFrame s.pipeline frame = .ok m)
    (broadcast : m.type = 1)
    (delivered : (t.deliver c.id m).waiting worker = t.waiting worker ++ [(c.id, stamped)])
    (undo : s.pipeline.Undoes (stamped.header ++ stamped.body)) :
    ∃ receivers : List UInt24, receivers.Nodup ∧
      (∀ id, id ∈ receivers ↔
        s.registry.Hears c id ∧ (stamped.serialize c.pipeline c.nonces.next.1).isOk = true) ∧
      (s.route a c.id stamped).1 = some (.relayed receivers.length) ∧
      (∀ id, id ∉ receivers →
        (s.route a c.id stamped).2.registry.outbound? id = s.registry.outbound? id) ∧
      ∀ id ∈ receivers, ∃ sent heard,
        (s.route a c.id stamped).2.registry.outbound? id = (s.registry.outbound? id).map (· ++ [sent]) ∧
          Message.ofFrame s.pipeline sent = .ok heard ∧
          heard.client = c.id ∧ heard.type = 1 ∧ heard.head = m.head ∧ heard.body = m.body := by
  obtain rfl := stamped_of_deliver delivered
  obtain ⟨client, head, type, body⟩ := m.setClient_eq c.id
  rw [broadcast] at type
  have outbound := outbound?_route a speaker type
  obtain ⟨-, -, -, counted, -⟩ := route_broadcast a speaker type
  obtain ⟨receivers, nodup, count, chosen, others, queued⟩ :=
    s.registry.relay_cases (m.setClient c.id) { c with metrics := s.metrics }
  refine ⟨receivers, nodup, chosen, ?_, ?_, ?_⟩
  · rw [counted, count]
  · intro id outside
    rw [outbound, others id outside]
  · intro id inside
    obtain ⟨sent, kept, serialized, grown⟩ := queued id inside
    refine ⟨sent, (m.setClient c.id).arrived sent, (outbound id).trans grown, ?_, client, type, head, body⟩
    exact Message.ofFrame_of_stamped read undo (speaker.pipeline ▸ serialized)

def member (id : UInt24) (group : Option UInt32) : Connection Unit :=
  { Connection.new .server id .passthrough default none none with group }

/-- Two members of a group beside its first, of which one has left, and two others. -/
def hall : Server Unit Unit Unit where
  config := {}
  pipeline := .passthrough
  nonces := default
  registry := (((((Registry.new 5).insert (member 5 none)).insert (member 4 (some 8))).insert
    { member 3 (some 7) with isClosed := true }).insert (member 2 (some 7))).insert (member 1 (some 7))
  departed := []
  dispatcher := {}
  metrics := {}
  events := []
  parked := []
  queues := some ⟨"server", [[]], 0, true⟩
  app := ()

def unattended : Application Unit Unit Unit where
  handle _ m e := (.ok none, m, e)
  onReply _ _ e := e
  onSync := none
  onRelay := none

/-- A broadcast that names some connection as its sender, as it comes in. -/
def broadcastAs (id : UInt24) : Message := (Message.withHeader id 5 1).arrived (Message.withHeader id 5 1).header

/-- The first member broadcasts in the name of the second, which hears it in the name of the first. -/
theorem relayed_of_deliver_disguised :
    Message.ofFrame .passthrough (Message.withHeader 2 5 1).header = .ok (broadcastAs 2) ∧
      ∃ stamped, (hall.deliver 1 (broadcastAs 2)).waiting 0 = [(1, stamped)] ∧
        (hall.route unattended 1 stamped).1 = some (.relayed 1) ∧
        (hall.route unattended 1 stamped).2.registry.outbound? 3 = some [] ∧
        ∃ sent heard, (hall.route unattended 1 stamped).2.registry.outbound? 2 = some [sent] ∧
          Message.ofFrame .passthrough sent = .ok heard ∧ heard.client = 1 ∧ heard.head = 5 := by
  have read : Message.ofFrame .passthrough (Message.withHeader 2 5 1).header = .ok (broadcastAs 2) := rfl
  have speaker : hall.Speaker (member 1 (some 7)) := ⟨.inl rfl, rfl, rfl⟩
  have delivered : (hall.deliver 1 (broadcastAs 2)).waiting 0 =
      hall.waiting 0 ++ [(1, Message.withHeader 1 5 1)] := rfl
  have undo : Pipeline.passthrough.Undoes ((Message.withHeader 1 5 1).header ++ []) :=
    Pipeline.lossless_passthrough _ (by decide)
  obtain ⟨receivers, nodup, chosen, counted, others, heard⟩ :=
    relayed_of_deliver unattended speaker read rfl delivered undo
  have second : 2 ∈ receivers := by
    refine (chosen 2).mpr ⟨⟨by decide, member 2 (some 7), 7, rfl, rfl, rfl, rfl⟩, rfl⟩
  have third : 3 ∉ receivers := by
    intro inside
    obtain ⟨⟨-, c, _, live, opened, -⟩, -⟩ := (chosen 3).mp inside
    cases live
    cases opened
  obtain ⟨sent, heard, queued, arrives, client, -, head, -⟩ := heard 2 second
  exact ⟨read, _, delivered, rfl, others 3 third, sent, heard, queued, arrives, client, head⟩

end Server

end PeerLink
