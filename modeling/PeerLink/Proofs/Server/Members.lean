import PeerLink.Proofs.Server.Lifecycle

/-!
Which connections the registry has. An admission that enters a connection looks at the flag behind that, so if the
connection has been taken out too early it is taken out again: once all is quiet, exactly the open connections are in
the registry.
-/
namespace PeerLink.Roster

variable {β κ σ : Type} {s s' : Roster β κ σ} {server server' : Server β κ σ} {g g' : Guest κ} {e : Guest.Event}
  {id : UInt24}

def Entry.isOutside : Entry → Bool
  | .opened | .withdrawn => true
  | _ => false

/-- The connection was open behind its entry. -/
def Entry.hasPassed : Entry → Bool
  | .passed | .announced => true
  | _ => false

def Exit.isOutside : Exit → Bool
  | .retired | .departed => true
  | _ => false

/-- What the registry has under the id of a connection. Between its entry and the look at the flag it may stand there
although it has been taken out before. -/
structure Guest.Sound (g : Guest κ) (found : Option (Connection κ)) : Prop where
  own : found = none ∨ found = some g.connection
  inside : g.exit = .staying → g.entry.isOutside = false → found = some g.connection
  outside : g.entry.isOutside = true ∨ g.entry.hasPassed = true ∧ g.exit.isOutside = true → found = none

theorem Guest.Step.sound (moves : Guest.Step server g e server' g') (flagged : g.Flagged)
    (h : g.Sound (server.registry.get? g.connection.id)) : g'.Sound (server'.registry.get? g'.connection.id) := by
  obtain ⟨own, inside, outside⟩ := h
  cases moves with
  | @enroll c =>
    have entered : (server.enroll c).registry.get? c.id = some c := Registry.get?_insert_self
    exact ⟨.inr entered, fun _ _ => entered, fun gone => by simp [Entry.isOutside, Entry.hasPassed] at gone⟩
  | @pass c exit up =>
    refine ⟨own, inside, ?_⟩
    rintro (⟨⟨⟩⟩ | ⟨-, gone⟩)
    -- Nobody has begun to close it, so nobody has taken it out.
    obtain rfl : exit = .staying := flagged.staying up
    cases gone
  | fail down =>
    exact ⟨own, inside, fun gone => by simp [Entry.isOutside, Entry.hasPassed] at gone⟩
  | withdraw => exact ⟨.inl Registry.get?_erase_self, nofun, fun _ => Registry.get?_erase_self⟩
  | announce => exact ⟨own, inside, outside⟩
  | @shut c entry =>
    have shared : (server.shut c).registry.get? (server.closing c).id =
        (server.registry.get? c.id).map fun _ => server.closing c := by
      rw [← server.id_closing c]
      exact Server.get?_share_self
    rw [shared]
    refine ⟨?_, nofun, ?_⟩
    · rcases own with none_there | there
      · exact .inl (by rw [none_there, Option.map_none])
      · exact .inr (by rw [there, Option.map_some])
    · rintro (never | ⟨-, ⟨⟩⟩)
      rw [outside (.inl never), Option.map_none]
  | late => exact ⟨own, inside, outside⟩
  | retire => exact ⟨.inl Registry.get?_erase_self, nofun, fun _ => Registry.get?_erase_self⟩
  | depart => exact ⟨own, nofun, outside⟩

theorem Guest.Step.frame (moves : Guest.Step server g e server' g') (other : id ≠ g.connection.id) :
    server'.registry.get? id = server.registry.get? id := by
  cases moves with
  | enroll => exact Registry.get?_insert_of_ne other
  | withdraw | retire => exact Registry.get?_erase_of_ne other
  | @shut c =>
    have apart : id ≠ (server.closing c).id := server.id_closing c ▸ other
    exact Server.get?_share_of_ne apart
  | pass | fail | announce | late | depart => rfl

structure Kept (s : Roster β κ σ) : Prop where
  consistent : s.Consistent
  sound : ∀ g ∈ s.guests, g.Sound (s.server.registry.get? g.connection.id)
  known : ∀ id c, s.server.registry.get? id = some c → id ∈ s.guests.map (·.connection.id)

theorem Guest.sound_opened {c : Connection κ} : Sound ⟨c, .opened, .staying⟩ none :=
  ⟨.inl rfl, fun _ inside => (nomatch inside), fun _ => rfl⟩

theorem Kept.establish (h : s.Kept) (peer : SocketAddress) (nonces : NonceSource)
    (fresh : ∀ g ∈ s.guests, g.connection.id ≠ id) : Kept (s.establish id peer nonces) := by
  refine ⟨h.consistent.step (.establish peer nonces fresh), ?_, ?_⟩
  · intro g present
    rcases List.mem_append.mp present with old | new
    · exact h.sound g old
    · obtain rfl := List.mem_singleton.mp new
      have unknown : s.server.registry.get? id = none := by
        rw [Option.eq_none_iff_forall_ne_some]
        intro c found
        obtain ⟨g, present, same⟩ := List.mem_map.mp (h.known id c found)
        exact fresh g present same
      exact unknown.symm ▸ Guest.sound_opened
  · intro other c found
    rw [map_id_establish, List.mem_append]
    exact .inl (h.known other c found)

theorem Kept.guest {n : Nat} (h : s.Kept) (here : s.guests[n]? = some g)
    (moves : Guest.Step s.server g e server' g') : Kept ⟨server', s.guests.set n g'⟩ := by
  have member : g ∈ s.guests := List.mem_of_getElem? here
  refine ⟨h.consistent.step (.guest here moves), ?_, ?_⟩
  · intro other present
    rcases h.consistent.mem_put here present with rfl | ⟨old, apart⟩
    · exact moves.sound (h.consistent.flagged g member) (h.sound g member)
    · rw [moves.frame apart]
      exact h.sound other old
  · intro id c found
    rw [map_id_put here moves]
    by_cases own : id = g.connection.id
    · rw [own]
      exact List.mem_map_of_mem member
    · rw [moves.frame own] at found
      exact h.known id c found

theorem Kept.step {e : Event} (h : s.Kept) (step : Step s e s') : s'.Kept := by
  cases step with
  | establish peer nonces fresh => exact h.establish peer nonces fresh
  | guest here moves => exact h.guest here moves
  | aside live events =>
    have same {id} : Registry.get? _ id = s.server.registry.get? id := congrArg (List.lookup id) live
    refine ⟨h.consistent.step (.aside live events), ?_, ?_⟩
    · intro g present
      rw [same]
      exact h.sound g present
    · intro id c found
      rw [same] at found
      exact h.known id c found

theorem kept_of_run {events : List Event} (empty : server.registry.live = [])
    (run : Run Step (start server) events s) : s.Kept := by
  refine run.invariant (P := fun _ => Kept) ⟨consistent_start, ?_, ?_⟩ fun _ _ _ _ h step => h.step step
  · intro g present
    cases present
  · intro id c found
    have found : server.registry.live.lookup id = some c := found
    rw [empty] at found
    cases found

/-- Once its admission and its close have ended, the registry has a connection exactly if it is open. -/
theorem Guest.Sound.found_iff {found : Option (Connection κ)} (h : g.Sound found) (flagged : g.Flagged)
    (quiet : g.IsQuiet) : found = some g.connection ↔ g.connection.isClosed = false := by
  obtain ⟨entry, exit⟩ := quiet
  constructor
  · intro there
    rw [Bool.eq_false_iff]
    intro down
    have departed : g.exit = .departed := exit.resolve_left (flagged.closed.mp down)
    have gone : found = none := by
      apply h.outside
      rcases entry with announced | withdrawn
      · exact .inr ⟨by rw [announced]; rfl, by rw [departed]; rfl⟩
      · exact .inl (by rw [withdrawn]; rfl)
    rw [there] at gone
    cases gone
  · intro up
    have staying : g.exit = .staying := flagged.staying up
    rcases entry with announced | withdrawn
    · exact h.inside staying (by rw [announced]; rfl)
    · exact absurd staying (flagged.failed (by rw [withdrawn]; rfl))

/-- What admissions and closes come to. -/
structure Membership (s : Roster β κ σ) : Prop where
  callable : s.Callable
  /-- Once they have ended, the registry has exactly the connections that are open. -/
  members : s.IsQuiet → ∀ id c, s.server.registry.get? id = some c ↔
    ∃ g ∈ s.guests, g.connection = c ∧ c.id = id ∧ c.isClosed = false

theorem Kept.members (h : s.Kept) (quiet : s.IsQuiet) (id : UInt24) (c : Connection κ) :
    s.server.registry.get? id = some c ↔ ∃ g ∈ s.guests, g.connection = c ∧ c.id = id ∧ c.isClosed = false := by
  constructor
  · intro found
    obtain ⟨g, present, rfl⟩ := List.mem_map.mp (h.known id c found)
    have sound := h.sound g present
    rw [found] at sound
    obtain rfl : g.connection = c := by
      rcases sound.own with gone | own
      · cases gone
      · exact (Option.some.inj own).symm
    exact ⟨g, present, rfl, rfl, (sound.found_iff (h.consistent.flagged g present) (quiet g present)).mp rfl⟩
  · rintro ⟨g, present, rfl, rfl, up⟩
    exact ((h.sound g present).found_iff (h.consistent.flagged g present) (quiet g present)).mpr up

/-- However admissions and closes take turns, they leave no connection behind in the registry that is not open, and take
out none that is. -/
theorem members_of_run {events : List Event} (empty : server.registry.live = [])
    (run : Run Step (start server) events s) : s.Membership :=
  ⟨s.callable, (kept_of_run empty run).members⟩

theorem run_overtaken (server : Server β κ σ) {c c' : Connection κ} (up : c.isClosed = false)
    (up' : c'.isClosed = false) :
    ∃ events server', Run Step ⟨server, [⟨c, .opened, .staying⟩, ⟨c', .opened, .staying⟩]⟩ events
      ⟨server', [⟨server.closing c, .withdrawn, .departed⟩, ⟨c', .announced, .staying⟩]⟩ := by
  have down : (server.closing c).isClosed = true := server.isClosed_closing c
  have closed : Run Step ⟨server, [⟨c, .opened, .staying⟩, ⟨c', .opened, .staying⟩]⟩ _
      ⟨_, [⟨server.closing c, .opened, .retired⟩, ⟨c', .enrolled, .staying⟩]⟩ :=
    ((Run.single (.guest (n := 0) rfl (.shut up))).snoc (.guest (n := 0) rfl .retire)).snoc
      (.guest (n := 1) rfl .enroll)
  have found : Run Step _ _ ⟨_, [⟨server.closing c, .failed, .retired⟩, ⟨c', .passed, .staying⟩]⟩ :=
    ((closed.snoc (.guest (n := 0) rfl .enroll)).snoc (.guest (n := 0) rfl (.fail down))).snoc
      (.guest (n := 1) rfl (.pass up'))
  exact ⟨_, _, ((found.snoc (.guest (n := 0) rfl .withdraw)).snoc (.guest (n := 1) rfl .announce)).snoc
    (.guest (n := 0) rfl .depart)⟩

/-- The first connection is taken out before it is entered, and then once more; the second one stays. -/
theorem members_of_run_overtaken :
    ∃ events, ∃ s : Roster Unit Unit Unit, vacant.registry.live = [] ∧ Run Step (start vacant) events s ∧ s.IsQuiet ∧
      s.server.registry.get? 1 = none ∧ (s.server.registry.get? 2).isSome = true := by
  let first := vacant.establish 1 visitor default
  let second := first.2.establish 2 visitor default
  have fresh : ∀ g ∈ ((start vacant).establish 1 visitor default).guests, g.connection.id ≠ 2 := by
    intro g present
    obtain rfl := List.mem_singleton.mp present
    change (1 : UInt24) ≠ 2
    decide
  have opened : Run Step (start vacant) [.establish 1, .establish 2]
      ⟨second.2, [⟨first.1, .opened, .staying⟩, ⟨second.1, .opened, .staying⟩]⟩ :=
    (Run.single (.establish visitor default (List.forall_mem_nil _))).snoc (.establish visitor default fresh)
  have up : first.1.isClosed = false ∧ second.1.isClosed = false := ⟨rfl, rfl⟩
  obtain ⟨later, server, overtaken⟩ := run_overtaken second.2 up.1 up.2
  have run := opened.trans overtaken
  have quiet : IsQuiet
      ⟨server, [⟨second.2.closing first.1, .withdrawn, .departed⟩, ⟨second.1, .announced, .staying⟩]⟩ := by
    simp [IsQuiet, Guest.IsQuiet]
  have members := (members_of_run rfl run).members quiet
  refine ⟨_, _, rfl, run, quiet, ?_, ?_⟩
  · rw [Option.eq_none_iff_forall_ne_some]
    intro c found
    obtain ⟨g, present, rfl, own, up⟩ := (members 1 c).mp found
    rcases List.mem_cons.mp present with rfl | present
    · cases up
    · obtain rfl := List.mem_singleton.mp present
      cases own
  · have stays := (members 2 second.1).mpr
      ⟨_, List.mem_cons_of_mem _ List.mem_cons_self, rfl, rfl, rfl⟩
    rw [stays]
    rfl

end PeerLink.Roster
