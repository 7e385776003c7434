import PeerLink.Proofs.Reader
import PeerLink.Proofs.Registry
import PeerLink.Proofs.WorkQueues
import PeerLink.Server

/-!
Whom a datagram speaks for. Its sender chooses the id inside, and the server compares only the host that it
comes from with the host at the other end of that connection. A datagram is therefore never taken for one of a
peer on another host, while peers that share a host can speak as each other.
-/
namespace PeerLink.Server

structure Datagram where
  source : SocketAddress
  bytes : Bytes

variable {β κ σ : Type} {s : Server β κ σ} {d : Datagram} {id : UInt24} {m : Message}

def waiting (s : Server β κ σ) (worker : Nat) : List (UInt24 × Message) :=
  match s.queues with
  | none => []
  | some queues => queues.queue worker

/-- The host at the other end of a live connection. -/
def host? (s : Server β κ σ) (id : UInt24) : Option IpAddress :=
  (s.registry.get? id).bind fun c => c.peer.map SocketAddress.ip

/-- Where the datagrams of a live connection go. -/
def datagramPeer? (s : Server β κ σ) (id : UInt24) : Option SocketAddress :=
  (s.registry.get? id).bind fun c => c.datagrams.bind DatagramLink.peer

def receiveAll (s : Server β κ σ) (ds : List Datagram) : Server β κ σ :=
  ds.foldl (fun s d => s.receiveDatagram d.source d.bytes) s

/-- A datagram names a live connection and comes from the host at its other end. -/
structure Speaks (s : Server β κ σ) (d : Datagram) (id : UInt24) (m : Message) : Prop where
  read : Message.ofFrame s.pipeline d.bytes = .ok m
  named : m.client = id
  host : s.host? id = some d.source.ip

/-- The peers that can have sent a datagram are the own peer of this connection and those who share a host with it. -/
def SentBehind (s : Server β κ σ) (d : Datagram) (id : UInt24) : Prop :=
  ∀ other, s.host? other = some d.source.ip ↔ s.host? other = s.host? id

theorem Speaks.sentBehind (speaks : s.Speaks d id m) : s.SentBehind d id := by
  intro other
  rw [speaks.host]

theorem checkSource_ok {peer : Option SocketAddress} {source : SocketAddress} :
    checkSource peer source = .ok () ↔ peer.map SocketAddress.ip = some source.ip := by
  unfold checkSource
  cases peer with
  | none => simp
  | some peer =>
    split
    · simp [*]
    · simp [*]

/-! ### One datagram -/

theorem deliver_registry : (s.deliver id m).registry = s.registry := by
  unfold deliver
  split
  · rfl
  · split <;> rfl

theorem deliver_pipeline : (s.deliver id m).pipeline = s.pipeline := by
  unfold deliver
  split
  · rfl
  · split <;> rfl

theorem deliver_waiting (worker : Nat) :
    (s.deliver id m).waiting worker = s.waiting worker ∨
      (s.deliver id m).waiting worker = s.waiting worker ++ [(id, m.setClient id)] := by
  unfold deliver
  split
  · exact .inl rfl
  · next queues up =>
    have before : s.waiting worker = queues.queue worker := by rw [waiting, up]
    split
    · next pushed =>
      rw [WorkQueues.push] at pushed
      split at pushed
      · next placed =>
        cases pushed
        obtain ⟨-, -, -, here, elsewhere⟩ := WorkQueues.pushTo_ok placed
        rw [before]
        by_cases chosen : worker = queues.shortest % queues.workers
        · subst chosen
          exact .inr here
        · exact .inl (elsewhere worker chosen)
      · cases pushed
    · exact .inl rfl

/-- All that a datagram can do. -/
theorem receiveDatagram_cases (s : Server β κ σ) (d : Datagram) :
    let after := s.receiveDatagram d.source d.bytes
    after.pipeline = s.pipeline ∧
      ((after.registry = s.registry ∧ after.waiting = s.waiting) ∨
        ∃ m c, Message.ofFrame s.pipeline d.bytes = .ok m ∧ s.registry.get? m.client = some c ∧
          c.peer.map SocketAddress.ip = some d.source.ip ∧
          after.registry = s.registry.insert { c with datagrams := c.datagrams.map (·.learnPeer d.source) } ∧
          ∀ worker, after.waiting worker = s.waiting worker ∨
            after.waiting worker = s.waiting worker ++ [(c.id, m.setClient c.id)]) := by
  intro after
  have taken : after = s.receiveDatagram d.source d.bytes := rfl
  unfold receiveDatagram at taken
  simp only [count] at taken
  split at taken
  · rw [taken]
    exact ⟨rfl, .inl ⟨rfl, rfl⟩⟩
  · next m read =>
    split at taken
    · rw [taken]
      exact ⟨rfl, .inl ⟨rfl, rfl⟩⟩
    · next c live =>
      split at taken
      · rw [taken]
        exact ⟨rfl, .inl ⟨rfl, rfl⟩⟩
      · next fromHost =>
        have host := checkSource_ok.mp fromHost
        split at taken
        · rw [taken]
          exact ⟨rfl, .inr ⟨m, c, read, live, host, rfl, fun _ => .inl rfl⟩⟩
        · rw [taken]
          exact ⟨deliver_pipeline, .inr ⟨m, c, read, live, host, deliver_registry, deliver_waiting⟩⟩

theorem keyed_receiveDatagram (keyed : s.registry.Keyed) :
    (s.receiveDatagram d.source d.bytes).registry.Keyed := by
  obtain ⟨-, ⟨same, -⟩ | ⟨m, c, -, -, -, changed, -⟩⟩ := receiveDatagram_cases s d
  · rwa [same]
  · rw [changed]
    exact keyed.insert _

/-- A datagram leaves every connection its peer. If it changes where the datagrams of one go, it spoke for it. -/
theorem peers_of_receiveDatagram (keyed : s.registry.Keyed) (id : UInt24) :
    (s.receiveDatagram d.source d.bytes).host? id = s.host? id ∧
      ((s.receiveDatagram d.source d.bytes).datagramPeer? id = s.datagramPeer? id ∨
        (∃ m, s.Speaks d id m) ∧
          (s.receiveDatagram d.source d.bytes).datagramPeer? id = some d.source) := by
  obtain ⟨-, ⟨same, -⟩ | ⟨m, c, read, live, host, changed, -⟩⟩ := receiveDatagram_cases s d
  · simp only [host?, datagramPeer?, same, true_or, and_self]
  · have own := keyed m.client c live
    have here : (s.receiveDatagram d.source d.bytes).registry.get? c.id =
        some { c with datagrams := c.datagrams.map (·.learnPeer d.source) } := by
      rw [changed]
      exact Registry.get?_insert_self
    by_cases spoken : id = c.id
    · subst spoken
      rw [← own] at live
      have hosted : s.host? c.id = some d.source.ip := by rwa [host?, live]
      refine ⟨?_, ?_⟩
      · rw [hosted, host?, here]
        exact host
      · rw [datagramPeer?, datagramPeer?, here, live]
        cases datagrams : c.datagrams with
        | none => exact .inl (by simp [datagrams])
        | some link => exact .inr ⟨⟨m, read, own.symm, hosted⟩, rfl⟩
    · have elsewhere := Registry.get?_insert_of_ne (r := s.registry)
        (c := { c with datagrams := c.datagrams.map (·.learnPeer d.source) }) spoken
      simp only [host?, datagramPeer?, changed, elsewhere, true_or, and_self]

theorem waiting_of_receiveDatagram (keyed : s.registry.Keyed) (worker : Nat) :
    ∃ added, (s.receiveDatagram d.source d.bytes).waiting worker = s.waiting worker ++ added ∧
      ∀ item ∈ added, s.Speaks d item.1 item.2 := by
  obtain ⟨-, ⟨-, same⟩ | ⟨m, c, read, live, host, -, queued⟩⟩ := receiveDatagram_cases s d
  · rw [same]
    exact ⟨[], (List.append_nil _).symm, by simp⟩
  · rcases queued worker with same | grown
    · rw [same]
      exact ⟨[], (List.append_nil _).symm, by simp⟩
    · refine ⟨_, grown, ?_⟩
      intro item new
      obtain rfl := List.mem_singleton.mp new
      have own := keyed m.client c live
      -- The sender chose the id, so stamping it changes nothing.
      have stamped : m.setClient c.id = m := if_pos own.symm
      rw [stamped]
      exact ⟨read, own.symm, by rwa [host?, own, live]⟩

/-! ### A run of datagrams -/

theorem speaks_receiveDatagram (keyed : s.registry.Keyed) {earlier : Datagram} :
    (s.receiveDatagram earlier.source earlier.bytes).Speaks d id m ↔ s.Speaks d id m := by
  have pipeline := (receiveDatagram_cases s earlier).1
  have host := (peers_of_receiveDatagram (d := earlier) keyed id).1
  constructor
  · rintro ⟨read, named, hosted⟩
    exact ⟨pipeline ▸ read, named, host ▸ hosted⟩
  · rintro ⟨read, named, hosted⟩
    exact ⟨pipeline ▸ read, named, host ▸ hosted⟩

theorem waiting_of_receiveAll (keyed : s.registry.Keyed) (ds : List Datagram) (worker : Nat) :
    ∃ added, (s.receiveAll ds).waiting worker = s.waiting worker ++ added ∧
      ∀ item ∈ added, ∃ d ∈ ds, s.Speaks d item.1 item.2 := by
  induction ds generalizing s with
  | nil => exact ⟨[], (List.append_nil _).symm, by simp⟩
  | cons d ds ih =>
    obtain ⟨first, queued, spoke⟩ := waiting_of_receiveDatagram (d := d) keyed worker
    obtain ⟨later, grown, spoken⟩ := ih (keyed_receiveDatagram (d := d) keyed)
    refine ⟨first ++ later, ?_, ?_⟩
    · rw [← List.append_assoc, ← queued, ← grown]
      rfl
    · intro item new
      rcases List.mem_append.mp new with new | new
      · exact ⟨d, List.mem_cons_self, spoke item new⟩
      · obtain ⟨last, present, speaks⟩ := spoken item new
        exact ⟨last, List.mem_cons_of_mem d present, (speaks_receiveDatagram keyed).mp speaks⟩

theorem datagramPeer?_of_receiveAll (keyed : s.registry.Keyed) (ds : List Datagram) (id : UInt24) :
    (s.receiveAll ds).datagramPeer? id = s.datagramPeer? id ∨
      ∃ d ∈ ds, (∃ m, s.Speaks d id m) ∧ (s.receiveAll ds).datagramPeer? id = some d.source := by
  induction ds generalizing s with
  | nil => exact .inl rfl
  | cons d ds ih =>
    have step := (peers_of_receiveDatagram (d := d) keyed id).2
    rcases ih (keyed_receiveDatagram (d := d) keyed) with same | ⟨last, present, ⟨m, speaks⟩, recorded⟩
    · rcases step with kept | ⟨spoke, recorded⟩
      · exact .inl (same.trans kept)
      · exact .inr ⟨d, List.mem_cons_self, spoke, same.trans recorded⟩
    · exact .inr ⟨last, List.mem_cons_of_mem d present, ⟨m, (speaks_receiveDatagram keyed).mp speaks⟩, recorded⟩

/-- What is queued for a connection, and what changes where its datagrams go, was sent from the host of its
peer. -/
theorem sentBehind_of_receiveAll (keyed : s.registry.Keyed) (ds : List Datagram) :
    (∀ worker, ∃ added, (s.receiveAll ds).waiting worker = s.waiting worker ++ added ∧
      ∀ item ∈ added, ∃ d ∈ ds, s.Speaks d item.1 item.2 ∧ s.SentBehind d item.1) ∧
    ∀ id, (s.receiveAll ds).datagramPeer? id ≠ s.datagramPeer? id →
      ∃ d ∈ ds, (∃ m, s.Speaks d id m) ∧ s.SentBehind d id ∧
        (s.receiveAll ds).datagramPeer? id = some d.source := by
  constructor
  · intro worker
    obtain ⟨added, grown, spoken⟩ := waiting_of_receiveAll keyed ds worker
    refine ⟨added, grown, ?_⟩
    intro item new
    obtain ⟨d, present, speaks⟩ := spoken item new
    exact ⟨d, present, speaks, speaks.sentBehind⟩
  · intro id changed
    rcases datagramPeer?_of_receiveAll keyed ds id with same | ⟨d, present, ⟨m, speaks⟩, recorded⟩
    · exact absurd same changed
    · exact ⟨d, present, ⟨m, speaks⟩, speaks.sentBehind, recorded⟩

/-- A player whose datagrams have come from the same port as its stream. -/
def player (id : UInt24) (address : SocketAddress) : Connection Unit :=
  .new .server id .passthrough default (some address) (some ((DatagramLink.new none).learnPeer address))

def shared (port : UInt16) : SocketAddress := ⟨.v4 10 0 0 5, 0, port⟩

/-- Two players behind one host and a third behind another. -/
def players : Server Unit Unit Unit where
  config := {}
  pipeline := .passthrough
  nonces := default
  registry := (((Registry.new 3).insert (player 1 (shared 4000))).insert (player 2 (shared 4001))).insert
    (player 3 ⟨.v4 10 0 0 6, 0, 4000⟩)
  departed := []
  dispatcher := {}
  metrics := {}
  events := []
  parked := []
  queues := some ⟨"server", [[]], 0, true⟩
  app := ()

theorem keyed_players : players.registry.Keyed :=
  (((Registry.keyed_new 3).insert _).insert _).insert _

def callAs (id : UInt24) : Bytes := (Message.withHeader id 5 0).header

def called (id : UInt24) : Message := { Message.withHeader id 5 0 with frame := some (callAs id) }

/-- The third player speaks for itself, and in vain for the first. -/
theorem sentBehind_of_receiveAll_players :
    players.registry.Keyed ∧
      (players.receiveAll [⟨⟨.v4 10 0 0 6, 0, 4007⟩, callAs 1⟩,
        ⟨⟨.v4 10 0 0 6, 0, 4007⟩, callAs 3⟩]).waiting 0 = [(3, called 3)] ∧
      players.SentBehind ⟨⟨.v4 10 0 0 6, 0, 4007⟩, callAs 3⟩ 3 := by
  obtain ⟨added, grown, spoken⟩ := (sentBehind_of_receiveAll keyed_players
    [⟨⟨.v4 10 0 0 6, 0, 4007⟩, callAs 1⟩, ⟨⟨.v4 10 0 0 6, 0, 4007⟩, callAs 3⟩]).1 0
  have queued : added = [(3, called 3)] := grown.symm
  refine ⟨keyed_players, rfl, ?_⟩
  obtain ⟨d, present, speaks, sent⟩ := spoken _ (queued ▸ List.mem_singleton_self _)
  simp only [List.mem_cons, List.not_mem_nil, or_false] at present
  rcases present with rfl | rfl
  · have misread : called 1 = called 3 := Except.ok.inj speaks.read
    exact absurd misread (by decide)
  · exact sent

/-- A player behind the shared host is taken for the other one there, whose datagrams it then gets: what comes
from the address of the second player is queued for the first. -/
theorem spoken_for_by_neighbour :
    players.registry.Keyed ∧
      (players.registry.get? 2).map Connection.peer = some (some (shared 4001)) ∧
      players.datagramPeer? 2 = some (shared 4001) ∧
      players.datagramPeer? 1 = some (shared 4000) ∧
      (players.receiveDatagram (shared 4001) (callAs 1)).waiting 0 = [(1, called 1)] ∧
      (players.receiveDatagram (shared 4001) (callAs 1)).datagramPeer? 1 = some (shared 4001) :=
  ⟨keyed_players, rfl, rfl, rfl, rfl, rfl⟩

end PeerLink.Server
