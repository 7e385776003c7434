import PeerLink.Proofs.Server.Lifecycle

/-!
What a server tells about the connections that it admits. Each is announced at most once and departs at most once, but
the task that closes a connection does not wait for the one that admits it: a connection that is closed before it has
been announced may depart first, and one that its admission finds closed departs without ever having been announced.
-/
namespace PeerLink

/-- The first of two comes before the second, wherever that stands. -/
def Precedes {E : Type} (first second : E) (events : List E) : Prop :=
  ∀ before behind, events = before ++ second :: behind → first ∈ before

namespace Precedes

variable {E : Type} {a b c e : E} {events : List E}

theorem nil : Precedes a b [] := by
  intro before behind split
  cases before with
  | nil => cases split
  | cons => cases split

theorem snoc : Precedes a b (events ++ [e]) ↔ Precedes a b events ∧ (e = b → a ∈ events) := by
  constructor
  · intro h
    constructor
    · rintro before behind rfl
      exact h before (behind ++ [e]) (by simp)
    · rintro rfl
      exact h events [] rfl
  · rintro ⟨inside, last⟩ before behind split
    rcases List.eq_nil_or_concat behind with rfl | ⟨behind, newest, rfl⟩
    · obtain ⟨rfl, same⟩ := List.append_inj' split rfl
      exact last (List.cons.inj same).1
    · have shorter : events ++ [e] = (before ++ b :: behind) ++ [newest] := by simpa using split
      exact inside before behind (List.append_inj' shorter rfl).1

theorem trans (first : Precedes a b events) (second : Precedes b c events) : Precedes a c events := by
  rintro before behind rfl
  obtain ⟨start, rest, rfl⟩ := List.append_of_mem (second before behind rfl)
  exact List.mem_append_left _ (first start (rest ++ c :: behind) (by simp))

theorem not_cons_self : ¬ Precedes a b (b :: events) := by
  intro h
  cases h [] events rfl

end Precedes

namespace Roster

variable {β κ σ : Type} {s s' : Roster β κ σ} {server server' : Server β κ σ} {g g' : Guest κ} {entry : Entry}
  {exit : Exit} {events : List Roster.Event} {id : UInt24}

/-! ### The stream of events -/

/-- What the steps publish. -/
def told (events : List Event) : List ConnectionEvent :=
  events.filterMap fun
    | .guest id .announce => some (.connected id)
    | .guest id .depart => some (.disconnected id)
    | _ => none

theorem told_snoc {e : Event} : told (events ++ [e]) = told events ++ told [e] := List.filterMap_append ..

/-- A connection is heard of as often as it has been announced. -/
theorem count_connected : (told events).count (.connected id) = events.count (.guest id .announce) := by
  unfold told
  rw [List.count_filterMap, List.count]
  apply List.countP_congr
  rintro (_ | ⟨_, _ | _⟩ | _) _
  all_goals simp

theorem count_disconnected : (told events).count (.disconnected id) = events.count (.guest id .depart) := by
  unfold told
  rw [List.count_filterMap, List.count]
  apply List.countP_congr
  rintro (_ | ⟨_, _ | _⟩ | _) _
  all_goals simp

theorem connected_mem_told : .connected id ∈ told events ↔ .guest id .announce ∈ events := by
  rw [← List.count_pos_iff, count_connected, List.count_pos_iff]

theorem disconnected_mem_told : .disconnected id ∈ told events ↔ .guest id .depart ∈ events := by
  rw [← List.count_pos_iff, count_disconnected, List.count_pos_iff]

/-- Events are published in the order of the steps. -/
theorem precedes_told : Precedes (.connected id) (.disconnected id) (told events) ↔
    Precedes (.guest id .announce) (.guest id .depart) events := by
  induction events using List.reverseRecOn with
  | nil => exact ⟨fun _ => .nil, fun _ => .nil⟩
  | append_singleton events e ih =>
    rw [told_snoc, Precedes.snoc, ← ih, ← connected_mem_told]
    rcases e with _ | ⟨other, _ | _⟩ | _
    all_goals simp [told, Precedes.snoc]

/-! ### What the steps of one connection have been -/

def Entry.announcements : Entry → Nat
  | .announced => 1
  | _ => 0

def Exit.departures : Exit → Nat
  | .departed => 1
  | _ => 0

theorem Entry.announcements_le (entry : Entry) : entry.announcements ≤ 1 := by
  unfold announcements
  split
  · exact Nat.le_refl 1
  · exact Nat.zero_le 1

theorem Exit.departures_le (exit : Exit) : exit.departures ≤ 1 := by
  unfold departures
  split
  · exact Nat.le_refl 1
  · exact Nat.zero_le 1

theorem Entry.announcements_of_hasFailed (failed : entry.hasFailed = true) : entry.announcements = 0 := by
  cases entry with
  | failed | withdrawn => rfl
  | opened | enrolled | passed | announced => cases failed

/-- What is left behind by the steps that have brought a connection so far. -/
structure Trail (events : List Event) (id : UInt24) (entry : Entry) (exit : Exit) : Prop where
  announces : events.count (.guest id .announce) = entry.announcements
  departs : events.count (.guest id .depart) = exit.departures
  shut : exit ≠ .staying → .guest id .shut ∈ events
  failed : .guest id .fail ∈ events → entry.hasFailed = true

/-- Steps of others leave no trail. -/
theorem Trail.skip {e : Event} (h : Trail events id entry exit) (other : ∀ own, e ≠ .guest id own) :
    Trail (events ++ [e]) id entry exit := by
  have apart (own : Guest.Event) : .guest id own ∉ [e] := fun present => other own (List.mem_singleton.mp present).symm
  obtain ⟨announces, departs, shut, failed⟩ := h
  refine ⟨?_, ?_, fun closing => List.mem_append_left _ (shut closing), fun present => ?_⟩
  · rw [List.count_append, List.count_eq_zero.mpr (apart _)]
    exact announces
  · rw [List.count_append, List.count_eq_zero.mpr (apart _)]
    exact departs
  · exact failed ((List.mem_append.mp present).resolve_right (apart _))

/-- By cases on the step of the connection: each leaves what the place where it leads says. -/
theorem Guest.Step.trail {e : Guest.Event} (moves : Guest.Step server g e server' g')
    (h : Trail events id g.entry g.exit) : Trail (events ++ [.guest id e]) id g'.entry g'.exit := by
  obtain ⟨announces, departs, shut, failed⟩ := h
  constructor
  · rw [List.count_append, announces]
    cases moves
    all_goals simp [Entry.announcements]
  · rw [List.count_append, departs]
    cases moves
    all_goals simp [Exit.departures]
  · intro closing
    rw [List.mem_append]
    cases moves with
    | shut => exact .inr List.mem_cons_self
    | retire | depart => exact .inl (shut nofun)
    | enroll | pass | fail | withdraw | announce | late => exact .inl (shut closing)
  · intro present
    rw [List.mem_append] at present
    cases moves
    all_goals simp_all [Entry.hasFailed]

/-- A step publishes its own event, if it has one, and nothing else. -/
theorem Guest.Step.events_eq {e : Guest.Event} (moves : Guest.Step server g e server' g') :
    server'.events = server.events ++ told [.guest g.connection.id e] := by
  cases moves with
  | announce | depart => rfl
  | enroll | pass | fail | withdraw | shut | late | retire => exact (List.append_nil _).symm

structure Chronicle (events : List Event) (s : Roster β κ σ) : Prop where
  consistent : s.Consistent
  stream : s.server.events = told events
  trails : ∀ g ∈ s.guests, Trail events g.connection.id g.entry g.exit
  known : ∀ id e, .guest id e ∈ events → id ∈ s.guests.map (·.connection.id)
  closes : ∀ id, Precedes (.guest id .shut) (.guest id .depart) events

theorem Trail.opened (untouched : ∀ e, .guest id e ∉ events) : Trail events id .opened .staying :=
  ⟨List.count_eq_zero.mpr (untouched _), List.count_eq_zero.mpr (untouched _), fun closing => absurd rfl closing,
    fun present => absurd present (untouched _)⟩

theorem Chronicle.establish (h : Chronicle events s) (peer : SocketAddress) (nonces : NonceSource)
    (fresh : ∀ g ∈ s.guests, g.connection.id ≠ id) :
    Chronicle (events ++ [.establish id]) (s.establish id peer nonces) := by
  refine ⟨h.consistent.step (.establish peer nonces fresh), ?_, ?_, ?_, ?_⟩
  · rw [told_snoc, ← h.stream]
    exact (List.append_nil _).symm
  · intro g present
    rcases List.mem_append.mp present with old | new
    · exact (h.trails g old).skip nofun
    · obtain rfl := List.mem_singleton.mp new
      refine (Trail.opened fun e already => ?_).skip nofun
      obtain ⟨g, present, same⟩ := List.mem_map.mp (h.known id e already)
      exact fresh g present same
  · intro other e present
    rw [map_id_establish, List.mem_append]
    exact .inl (h.known other e ((List.mem_append.mp present).resolve_right (by simp)))
  · exact fun other => Precedes.snoc.mpr ⟨h.closes other, nofun⟩

theorem Chronicle.guest {n : Nat} {e : Guest.Event} (h : Chronicle events s) (here : s.guests[n]? = some g)
    (moves : Guest.Step s.server g e server' g') :
    Chronicle (events ++ [.guest g.connection.id e]) ⟨server', s.guests.set n g'⟩ := by
  have member : g ∈ s.guests := List.mem_of_getElem? here
  have trail := h.trails g member
  refine ⟨h.consistent.step (.guest here moves), ?_, ?_, ?_, ?_⟩
  · rw [told_snoc, ← h.stream]
    exact moves.events_eq
  · intro other present
    rcases h.consistent.mem_put here present with rfl | ⟨old, apart⟩
    · rw [moves.id_eq]
      exact moves.trail trail
    · refine (h.trails other old).skip fun own same => apart ?_
      exact (Event.guest.inj same).1.symm
  · intro id own present
    rw [map_id_put here moves]
    rcases List.mem_append.mp present with before | last
    · exact h.known id own before
    · cases List.mem_singleton.mp last
      exact List.mem_map_of_mem member
  · intro id
    rw [Precedes.snoc]
    refine ⟨h.closes id, ?_⟩
    rintro ⟨⟩
    -- Only what has been taken out departs, and its flag was set before that.
    apply trail.shut
    cases moves
    exact nofun

/-- The connection that steps moves its own trail on and no other. -/
theorem Chronicle.step {e : Event} (h : Chronicle events s) (step : Step s e s') : Chronicle (events ++ [e]) s' := by
  cases step with
  | establish peer nonces fresh => exact h.establish peer nonces fresh
  | guest here moves => exact h.guest here moves
  | aside live same =>
    refine ⟨h.consistent.step (.aside live same), ?_, ?_, ?_, ?_⟩
    · rw [told_snoc, ← h.stream, same]
      exact (List.append_nil _).symm
    · exact fun g present => (h.trails g present).skip nofun
    · intro id e present
      exact h.known id e ((List.mem_append.mp present).resolve_right (by simp))
    · exact fun id => Precedes.snoc.mpr ⟨h.closes id, nofun⟩

theorem chronicle_of_run (silent : server.events = []) (run : Run Step (start server) events s) :
    Chronicle events s := by
  refine run.invariant ⟨consistent_start, silent, ?_, ?_, fun id => .nil⟩ fun _ _ _ _ h step => h.step step
  · intro g present
    cases present
  · intro id e present
    cases present

/-- What is heard of the connection with an id. -/
structure Account (id : UInt24) (events : List Event) (s : Roster β κ σ) : Prop where
  callable : s.Callable
  connected : s.server.events.count (.connected id) ≤ 1
  disconnected : s.server.events.count (.disconnected id) ≤ 1
  /-- The departure comes behind the announcement exactly if it is published behind it. -/
  order : Precedes (.connected id) (.disconnected id) s.server.events ↔
    Precedes (.guest id .announce) (.guest id .depart) events
  /-- This is so if the connection is not closed before it is announced. -/
  early : Precedes (.guest id .announce) (.guest id .shut) events →
    Precedes (.guest id .announce) (.guest id .depart) events
  /-- One that its admission finds closed is never announced, and yet it departs. -/
  failed : .guest id .fail ∈ events → .connected id ∉ s.server.events ∧
    (s.IsQuiet → .disconnected id ∈ s.server.events)

theorem Chronicle.counts (h : Chronicle events s) (id : UInt24) :
    events.count (.guest id .announce) ≤ 1 ∧ events.count (.guest id .depart) ≤ 1 := by
  by_cases known : id ∈ s.guests.map (·.connection.id)
  · obtain ⟨g, present, rfl⟩ := List.mem_map.mp known
    have trail := h.trails g present
    rw [trail.announces, trail.departs]
    exact ⟨g.entry.announcements_le, g.exit.departures_le⟩
  · have untouched (e : Guest.Event) : events.count (.guest id e) ≤ 1 := by
      rw [List.count_eq_zero.mpr fun present => known (h.known id e present)]
      exact Nat.zero_le 1
    exact ⟨untouched _, untouched _⟩

/-- However admissions and closes take turns, no event of a connection is told twice, but its departure may be told
first, or alone. -/
theorem published_of_run (silent : server.events = []) (run : Run Step (start server) events s) (id : UInt24) :
    Account id events s := by
  have h := chronicle_of_run silent run
  obtain ⟨connected, disconnected⟩ := h.counts id
  constructor
  · exact s.callable
  · rwa [h.stream, count_connected]
  · rwa [h.stream, count_disconnected]
  · rw [h.stream]
    exact precedes_told
  · exact fun announced => announced.trans (h.closes id)
  · intro found
    obtain ⟨g, present, rfl⟩ := List.mem_map.mp (h.known id _ found)
    have trail := h.trails g present
    have failed := trail.failed found
    rw [h.stream, connected_mem_told, disconnected_mem_told]
    constructor
    · rw [← List.count_eq_zero, trail.announces]
      exact Entry.announcements_of_hasFailed failed
    · intro quiet
      have departed : g.exit = .departed :=
        (quiet g present).2.resolve_left ((h.consistent.flagged g present).failed failed)
      have once : events.count (.guest g.connection.id .depart) = 1 := by
        rw [trail.departs, departed]
        rfl
      exact List.count_pos_iff.mp (Nat.lt_of_lt_of_eq Nat.zero_lt_one once.symm)

/-! ### Three ways to go -/

theorem run_opened : Run Step (start vacant) [.establish 1] ((start vacant).establish 1 visitor default) :=
  .single (.establish visitor default (List.forall_mem_nil _))

theorem isQuiet_singleton (quiet : g.IsQuiet) : IsQuiet ⟨server, [g]⟩ := by
  intro other present
  obtain rfl := List.mem_singleton.mp present
  exact quiet

theorem published_of_run_in_turn :
    ∃ events, ∃ s : Roster Unit Unit Unit, vacant.events = [] ∧ Run Step (start vacant) events s ∧ s.IsQuiet ∧
      s.server.events = [.connected 1, .disconnected 1] ∧ Account 1 events s := by
  have announced : Run Step (start vacant) _ _ :=
    ((run_opened.snoc (.guest (n := 0) rfl .enroll)).snoc (.guest (n := 0) rfl (.pass rfl))).snoc
      (.guest (n := 0) rfl .announce)
  have departed : Run Step (start vacant) _ _ :=
    ((announced.snoc (.guest (n := 0) rfl (.shut rfl))).snoc (.guest (n := 0) rfl .retire)).snoc
      (.guest (n := 0) rfl .depart)
  exact ⟨_, _, rfl, departed, isQuiet_singleton ⟨.inl rfl, .inr rfl⟩, rfl, published_of_run rfl departed 1⟩

/-- Some run that comes to rest publishes this. -/
def Publishes (stream : List ConnectionEvent) : Prop :=
  ∃ events, ∃ s : Roster Unit Unit Unit, Run Step (start vacant) events s ∧ s.IsQuiet ∧ s.server.events = stream

theorem publishes_departure : Publishes [.disconnected 1] := by
  have closed : Run Step (start vacant) _ _ :=
    ((run_opened.snoc (.guest (n := 0) rfl (.shut rfl))).snoc (.guest (n := 0) rfl .retire)).snoc
      (.guest (n := 0) rfl .depart)
  have found : Run Step (start vacant) _ _ :=
    ((closed.snoc (.guest (n := 0) rfl .enroll)).snoc (.guest (n := 0) rfl (.fail rfl))).snoc
      (.guest (n := 0) rfl .withdraw)
  exact ⟨_, _, found, isQuiet_singleton ⟨.inr rfl, .inr rfl⟩, rfl⟩

theorem publishes_departure_first : Publishes [.disconnected 1, .connected 1] := by
  have passed : Run Step (start vacant) _ _ :=
    (run_opened.snoc (.guest (n := 0) rfl .enroll)).snoc (.guest (n := 0) rfl (.pass rfl))
  have closed : Run Step (start vacant) _ _ :=
    ((passed.snoc (.guest (n := 0) rfl (.shut rfl))).snoc (.guest (n := 0) rfl .retire)).snoc
      (.guest (n := 0) rfl .depart)
  have announced := closed.snoc (.guest (n := 0) rfl .announce)
  exact ⟨_, _, announced, isQuiet_singleton ⟨.inl rfl, .inr rfl⟩, rfl⟩

/-- A connection that is closed before its admission looks at the flag departs and is never announced; one that is
closed behind that may depart before it is announced. -/
theorem departed_unannounced :
    (∃ stream, Publishes stream ∧ .connected 1 ∉ stream ∧ ¬ Precedes (.connected 1) (.disconnected 1) stream) ∧
      ∃ stream, Publishes stream ∧ .connected 1 ∈ stream ∧ ¬ Precedes (.connected 1) (.disconnected 1) stream :=
  ⟨⟨_, publishes_departure, by simp, Precedes.not_cons_self⟩,
    ⟨_, publishes_departure_first, by simp, Precedes.not_cons_self⟩⟩

end Roster

end PeerLink
