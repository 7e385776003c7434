import PeerLink.Proofs.Connection.Calls

/-!
What a close leaves behind. A callback that is kept before the table is cleared is cleared away; one that is kept
later belongs to a request that has yet to look at the flag, and such a request finds it set and gives its slot back.
So nobody who asks for an answer while a connection closes is left waiting for it.
-/
namespace PeerLink.BusyConnection

variable {s s' : BusyConnection} {events : List Event} {e : Event} {n i : Nat}

/-! ### How far requests have got -/

namespace Request

/-- The slot that the callback may still wait in. -/
def slot? : Request → Option Nat
  | .registered _ slot | .framed slot _ | .admitted slot _ | .failing slot _ | .returned (.ok slot) => some slot
  | .begun _ | .returned (.error _) => none

def hasRegistered : Request → Bool
  | .begun _ => false
  | _ => true

/-- Has found the connection open and not failed since. -/
def isAdmitted : Request → Bool
  | .admitted .. | .returned (.ok _) => true
  | _ => false

def hasQueued : Request → Bool
  | .returned (.ok _) => true
  | _ => false

end Request

/-- The numbers of the requests that have got somewhere, each once. -/
structure Marks (got : Request → Bool) (requests : List Request) (marks : List Nat) : Prop where
  nodup : marks.Nodup
  mem_iff : ∀ n, n ∈ marks ↔ ∃ r, requests[n]? = some r ∧ got r = true

variable {got : Request → Bool} {requests : List Request} {marks added : List Nat} {r r' : Request}

theorem Marks.begin (h : Marks got requests marks) (not_yet : got r = false) : Marks got (requests ++ [r]) marks := by
  refine ⟨h.nodup, fun n => (h.mem_iff n).trans ?_⟩
  simp only [getElem?_snoc]
  constructor
  · rintro ⟨r', place, far⟩
    exact ⟨r', .inl place, far⟩
  · rintro ⟨r', place | ⟨-, rfl⟩, far⟩
    · exact ⟨r', place, far⟩
    · rw [not_yet] at far
      cases far

/-- A request that gets there is marked. -/
def Adds (got : Request → Bool) (n : Nat) (r r' : Request) (added : List Nat) : Prop :=
  added = [] ∧ got r' = got r ∨ added = [n] ∧ got r = false ∧ got r' = true

theorem Marks.put (h : Marks got requests marks) (here : requests[n]? = some r) (moves : Adds got n r r' added) :
    Marks got (requests.set n r') (marks ++ added) := by
  have own : n ∈ marks ↔ got r = true := by
    rw [h.mem_iff, here]
    simp
  constructor
  · rcases moves with ⟨rfl, -⟩ | ⟨rfl, not_yet, -⟩
    · simpa using h.nodup
    · refine List.nodup_append.mpr ⟨h.nodup, List.pairwise_singleton _ n, ?_⟩
      rintro m marked _ single rfl
      obtain rfl := List.mem_singleton.mp single
      rw [own.mp marked] at not_yet
      cases not_yet
  · intro m
    simp only [getElem?_put here]
    by_cases same : m = n
    · subst same
      rcases moves with ⟨rfl, alike⟩ | ⟨rfl, -, far⟩
      · simp [own, alike]
      · simp [far]
    · rcases moves with ⟨rfl, -⟩ | ⟨rfl, -, -⟩
      · simp [same, h.mem_iff]
      · simp [same, h.mem_iff]

open Event

/-- What a step of a request does. A callback that it keeps belongs to a request that has yet to look at the flag. -/
structure Request.Effect (n : Nat) (c : Connection Nat) (r : Request) (e : Event) (c' : Connection Nat)
    (r' : Request) : Prop where
  id_eq : c'.id = c.id
  isClosed_eq : c'.isClosed = c.isClosed
  outbound : c'.outbound = c.outbound ++ (queued [.request n e]).map Prod.snd
  registers : Adds Request.hasRegistered n r r' (callbacks [.request n e])
  queues : Adds Request.hasQueued n r r' ((queued [.request n e]).map Prod.fst)
  admits : c.isClosed = true → r'.isAdmitted = true → r.isAdmitted = true
  waits : ∀ slot m, (slot, m) ∈ c'.replies.pending →
    (slot, m) ∈ c.replies.pending ∧ (m = n → r.slot? = some slot → r'.slot? = some slot) ∨
      m = n ∧ r'.slot? = some slot ∧ r'.isAdmitted = false

theorem Request.Step.effect {isWriting : Bool} {c c' : Connection Nat} {e : Request.Event}
    (moves : Request.Step n isWriting c r e c' r') : Request.Effect n c r e c' r' := by
  cases moves with
  | register kept =>
    obtain ⟨-, -, -, pending⟩ := ReplyTable.register?_ok kept
    refine ⟨rfl, rfl, (List.append_nil _).symm, .inr ⟨rfl, rfl, rfl⟩, .inl ⟨rfl, rfl⟩, fun _ => id, ?_⟩
    intro slot m waits
    rw [pending] at waits
    rcases List.mem_cons.mp waits with own | before
    · cases own
      exact .inr ⟨rfl, rfl, rfl⟩
    · exact .inl ⟨before, fun _ none_yet => nomatch none_yet⟩
  | frame framed =>
    obtain rfl := Connection.frameOf_stamped_ok framed
    exact ⟨rfl, rfl, (List.append_nil _).symm, .inl ⟨rfl, rfl⟩, .inl ⟨rfl, rfl⟩, fun _ => id,
      fun _ _ waits => .inl ⟨waits, fun _ => id⟩⟩
  | unframed | refuse | unqueued =>
    exact ⟨rfl, rfl, (List.append_nil _).symm, .inl ⟨rfl, rfl⟩, .inl ⟨rfl, rfl⟩, fun _ failed => (nomatch failed),
      fun _ _ waits => .inl ⟨waits, fun _ => id⟩⟩
  | pass up =>
    exact ⟨rfl, rfl, (List.append_nil _).symm, .inl ⟨rfl, rfl⟩, .inl ⟨rfl, rfl⟩,
      fun down => absurd (up.symm.trans down) Bool.false_ne_true, fun _ _ waits => .inl ⟨waits, fun _ => id⟩⟩
  | queue =>
    exact ⟨rfl, rfl, rfl, .inl ⟨rfl, rfl⟩, .inr ⟨rfl, rfl, rfl⟩, fun _ _ => rfl,
      fun _ _ waits => .inl ⟨waits, fun _ => id⟩⟩
  | cancel =>
    refine ⟨rfl, rfl, (List.append_nil _).symm, .inl ⟨rfl, rfl⟩, .inl ⟨rfl, rfl⟩, fun _ => id, ?_⟩
    intro slot m waits
    obtain ⟨before, other⟩ := ReplyTable.mem_erase.mp waits
    exact .inl ⟨before, fun _ own => absurd (Option.some.inj own).symm other⟩

/-! ### Who may still wait -/

/-- What every interleaving keeps. Once the table has been cleared behind the flag, only requests that have not found
the connection open have their callbacks in it. -/
structure Guarded (s : BusyConnection) : Prop where
  holds : ∀ slot n, (slot, n) ∈ s.connection.replies.pending → ∃ r, s.requests[n]? = some r ∧ r.slot? = some slot
  unshut : s.connection.isClosed = false → ∀ k ∈ s.closers, k = .begun
  clears : s.connection.isClosed = true → .shutting ∈ s.closers ∨
    ∀ slot n r, (slot, n) ∈ s.connection.replies.pending → s.requests[n]? = some r → r.isAdmitted = false
  hooks : s.connection.isClosed = true → s.hook = true → .shutting ∈ s.closers ∨ .cleared ∈ s.closers

theorem Guarded.begin (h : s.Guarded) (m : Message) :
    Guarded { s with requests := s.requests ++ [.begun m] } := by
  refine ⟨fun slot n waits => ?_, h.unshut, fun down => ?_, h.hooks⟩
  · obtain ⟨r, place, keeps⟩ := h.holds slot n waits
    exact ⟨r, getElem?_snoc.mpr (.inl place), keeps⟩
  · refine (h.clears down).imp_right fun kept slot n r waits place => ?_
    rcases getElem?_snoc.mp place with before | ⟨-, rfl⟩
    · exact kept slot n r waits before
    · rfl

theorem Guarded.request (h : s.Guarded) {e : Request.Event} {c : Connection Nat} (here : s.requests[n]? = some r)
    (moves : Request.Step n s.isWriting s.connection r e c r') :
    Guarded { s with connection := c, requests := s.requests.set n r' } := by
  have effect := moves.effect
  obtain ⟨inside, -⟩ := List.getElem?_eq_some_iff.mp here
  refine ⟨fun slot m waits => ?_, ?_, fun down => ?_, ?_⟩
  · rcases effect.waits slot m waits with ⟨before, keeps⟩ | ⟨rfl, keeps, -⟩
    · obtain ⟨r₀, place, kept⟩ := h.holds slot m before
      by_cases own : m = n
      · subst own
        obtain rfl : r = r₀ := Option.some.inj (here.symm.trans place)
        exact ⟨r', List.getElem?_set_self inside, keeps rfl kept⟩
      · exact ⟨r₀, (getElem?_put here).mpr (.inr ⟨own, place⟩), kept⟩
    · exact ⟨r', List.getElem?_set_self inside, keeps⟩
  · exact fun up => h.unshut (effect.isClosed_eq.symm.trans up)
  · replace down := effect.isClosed_eq.symm.trans down
    refine (h.clears down).imp_right fun kept slot m r₀ waits place => ?_
    -- Behind the flag no request comes to find the connection open, so one that has done so did it before.
    rcases (getElem?_put here).mp place with ⟨rfl, rfl⟩ | ⟨other, before⟩
    · rcases effect.waits slot m waits with ⟨already, -⟩ | ⟨-, -, unseen⟩
      · exact Bool.eq_false_iff.mpr fun admitted =>
          Bool.eq_false_iff.mp (kept slot m r already here) (effect.admits down admitted)
      · exact unseen
    · rcases effect.waits slot m waits with ⟨already, -⟩ | ⟨own, -, -⟩
      · exact kept slot m r₀ already before
      · exact absurd own other
  · exact fun down => h.hooks (effect.isClosed_eq.symm.trans down)

theorem Guarded.closer (h : s.Guarded) {k k' : Closer} {e : Closer.Event} {c : Connection Nat} {hook : Bool}
    (here : s.closers[i]? = some k) (moves : Closer.Step s.connection s.hook k e c hook k') :
    Guarded { s with connection := c, closers := s.closers.set i k', hook } := by
  obtain ⟨holds, unshut, clears, hooks⟩ := h
  have stands : k' ∈ s.closers.set i k' := List.mem_set (List.getElem?_eq_some_iff.mp here).1 k'
  have begun {P : Prop} (up : s.connection.isClosed = false) (other : k ≠ .begun) : P :=
    absurd (unshut up k (List.mem_of_getElem? here)) other
  cases moves with
  | shut => exact ⟨holds, nofun, fun _ => .inl (stands), fun _ _ => .inl (stands)⟩
  | late down =>
    refine ⟨holds, fun up => absurd (up.symm.trans down) Bool.false_ne_true, fun _ => ?_, fun _ left => ?_⟩
    · exact (clears down).imp_left (mem_put here · nofun)
    · exact (hooks down left).imp (mem_put here · nofun) (mem_put here · nofun)
  | clear =>
    -- Nothing waits now, and whoever keeps a callback from here on has the flag still to look at.
    exact ⟨nofun, fun up => begun up nofun, fun _ => .inr nofun, fun _ _ => .inr (stands)⟩
  | hook | noHook =>
    refine ⟨holds, fun up => begun up nofun, fun down => ?_, nofun⟩
    exact (clears down).imp_left (mem_put here · nofun)

theorem Guarded.shrink (h : s.Guarded) {c : Connection Nat} (same : c.isClosed = s.connection.isClosed)
    (fewer : ∀ entry ∈ c.replies.pending, entry ∈ s.connection.replies.pending) :
    Guarded { s with connection := c } := by
  refine ⟨fun slot n waits => h.holds slot n (fewer _ waits), fun up => h.unshut (same.symm.trans up), ?_,
    fun down => h.hooks (same.symm.trans down)⟩
  intro down
  exact (h.clears (same.symm.trans down)).imp_right fun kept slot n r waits => kept slot n r (fewer _ waits)

theorem Guarded.step (h : s.Guarded) (step : Step s e s') : s'.Guarded := by
  cases step with
  | @begin m => exact h.begin m
  | request here moves => exact h.request here moves
  | close =>
    refine ⟨h.holds, fun up k present => ?_, fun down => ?_, fun down left => ?_⟩
    · rcases List.mem_append.mp present with before | last
      · exact h.unshut up k before
      · exact List.mem_singleton.mp last
    · exact (h.clears down).imp_left (List.mem_append_left _)
    · exact (h.hooks down left).imp (List.mem_append_left _) (List.mem_append_left _)
  | closer here moves => exact h.closer here moves
  | resolve taken =>
    obtain ⟨slot, -, -, rfl⟩ := ReplyTable.resolve?_eq_some.mp taken
    exact h.shrink rfl fun entry waits => (ReplyTable.mem_erase.mp waits).1
  | orphan => exact h
  | giveUp => exact h.shrink rfl fun entry waits => (ReplyTable.mem_erase.mp waits).1
  | write _ next =>
    obtain ⟨rest, -, rfl⟩ := Connection.nextFrame?_eq_some next
    exact h.shrink rfl fun _ => id
  | hangUp => exact ⟨h.holds, h.unshut, h.clears, h.hooks⟩

/-! ### What every interleaving has shown -/

/-- What a hook that has yet to run will be run with. -/
def offered (hook : Bool) (id : UInt24) : List UInt24 := if hook then [id] else []

structure Tracks (hook : Bool) (id : UInt24) (events : List Event) (s : BusyConnection) : Prop where
  guarded : s.Guarded
  registered : Marks Request.hasRegistered s.requests (callbacks events)
  queued : Marks Request.hasQueued s.requests ((queued events).map Prod.fst)
  order : written events ++ s.connection.outbound = (Event.queued events).map Prod.snd
  id_eq : s.connection.id = id
  hooks : hooks events ++ offered s.hook id = offered hook id

variable {hook : Bool} {id : UInt24}

theorem Tracks.extend (h : Tracks hook id events s) (guarded : s'.Guarded)
    (registered : Marks Request.hasRegistered s'.requests (callbacks events ++ callbacks [e]))
    (queued : Marks Request.hasQueued s'.requests
      ((Event.queued events).map Prod.fst ++ (Event.queued [e]).map Prod.fst))
    (order : written [e] ++ s'.connection.outbound = s.connection.outbound ++ (Event.queued [e]).map Prod.snd)
    (id_eq : s'.connection.id = s.connection.id)
    (hooks : Event.hooks [e] ++ offered s'.hook id = offered s.hook id) : Tracks hook id (events ++ [e]) s' := by
  refine ⟨guarded, callbacks_snoc ▸ registered, ?_, ?_, id_eq.trans h.id_eq, ?_⟩
  · rwa [queued_snoc, List.map_append]
  · rw [written_snoc, queued_snoc, List.map_append, List.append_assoc, order, ← h.order, List.append_assoc]
  · rw [hooks_snoc, List.append_assoc, hooks, h.hooks]

/-- Steps that are not of a request. -/
theorem Tracks.apart (h : Tracks hook id events s) (guarded : s'.Guarded) (requests : s'.requests = s.requests)
    (keeps : callbacks [e] = []) (queues : Event.queued [e] = [])
    (order : written [e] ++ s'.connection.outbound = s.connection.outbound)
    (id_eq : s'.connection.id = s.connection.id)
    (hooks : Event.hooks [e] ++ offered s'.hook id = offered s.hook id) : Tracks hook id (events ++ [e]) s' := by
  refine h.extend guarded ?_ ?_ ?_ id_eq hooks
  · rw [requests, keeps, List.append_nil]
    exact h.registered
  · rw [requests, queues, List.map_nil, List.append_nil]
    exact h.queued
  · rw [order, queues, List.map_nil, List.append_nil]

theorem Tracks.step (h : Tracks hook id events s) (step : Step s e s') : Tracks hook id (events ++ [e]) s' := by
  have guarded := h.guarded.step step
  cases step with
  | begin =>
    exact h.extend guarded ((List.append_nil _).symm ▸ h.registered.begin rfl)
      ((List.append_nil _).symm ▸ h.queued.begin rfl) (List.append_nil _).symm rfl rfl
  | request here moves =>
    have effect := moves.effect
    exact h.extend guarded (h.registered.put here effect.registers) (h.queued.put here effect.queues) effect.outbound
      effect.id_eq rfl
  | closer _ moves =>
    cases moves with
    | shut | late | clear => exact h.apart guarded rfl rfl rfl rfl rfl rfl
    | hook left =>
      refine h.apart guarded rfl rfl rfl rfl rfl ?_
      rw [left, ← h.id_eq]
      rfl
    | noHook gone =>
      refine h.apart guarded rfl rfl rfl rfl rfl ?_
      rw [gone]
      rfl
  | write _ next =>
    obtain ⟨rest, first, rfl⟩ := Connection.nextFrame?_eq_some next
    exact h.apart guarded rfl rfl rfl first.symm rfl rfl
  | close | resolve | orphan | giveUp | hangUp => exact h.apart guarded rfl rfl rfl rfl rfl rfl

variable {role : Role} {pipeline : Pipeline} {nonces : NonceSource} {peer : Option SocketAddress}
  {datagrams : Option DatagramLink}

theorem tracks_of_run (run : Run Step (start (.new role id pipeline nonces peer datagrams) hook) events s) :
    Tracks hook id events s := by
  refine run.invariant ?_ fun _ _ _ _ h step => h.step step
  have unmarked {got : Request → Bool} : Marks got [] [] := ⟨List.nodup_nil, by simp⟩
  exact ⟨⟨nofun, fun _ => nofun, nofun, nofun⟩, unmarked, unmarked, rfl, rfl, rfl⟩

structure IsQuiet (s : BusyConnection) : Prop where
  requests : ∀ r ∈ s.requests, ∃ result, r = .returned result
  closers : ∀ k ∈ s.closers, k = .returned

structure Account (hook : Bool) (id : UInt24) (events : List Event) (s : BusyConnection) : Prop where
  callable : s.Callable
  /-- A request that has failed has queued nothing, and its callback does not wait. -/
  failed : ∀ n fault, s.requests[n]? = some (.returned (.error fault)) →
    (∀ frame, (n, frame) ∉ queued events) ∧ ∀ slot, (slot, n) ∉ s.connection.replies.pending
  /-- A request that has not failed has queued one frame. -/
  sent : ∀ n slot, s.requests[n]? = some (.returned (.ok slot)) →
    ∃ frame, (queued events).filter (fun entry => entry.1 = n) = [(n, frame)]
  order : written events ++ s.connection.outbound = (queued events).map Prod.snd
  /-- The hook runs at most once, with the id of the connection. -/
  hooked : hooks events <+: offered hook id
  /-- It has run when the connection has been closed, however many calls have done so. -/
  closed : s.closers ≠ [] → (∀ k ∈ s.closers, k = .returned) →
    s.connection.isClosed = true ∧ hooks events = offered hook id
  /-- Then no callback waits, and each of them has either run or been dropped. -/
  released : s.connection.isClosed = true → s.IsQuiet →
    s.connection.replies.isEmpty = true ∧ (ran events ++ dropped events).Perm (List.range s.requests.length)

theorem Tracks.not_queued {fault : Fault} (h : Tracks hook id events s)
    (here : s.requests[n]? = some (.returned (.error fault))) (frame : Bytes) : (n, frame) ∉ Event.queued events := by
  intro present
  obtain ⟨r, place, far⟩ := (h.queued.mem_iff n).mp (List.mem_map_of_mem present)
  rw [here] at place
  cases place
  cases far

theorem Guarded.not_pending {fault : Fault} (h : s.Guarded) (here : s.requests[n]? = some (.returned (.error fault)))
    (slot : Nat) : (slot, n) ∉ s.connection.replies.pending := by
  intro waits
  obtain ⟨r, place, keeps⟩ := h.holds slot n waits
  rw [here] at place
  cases place
  cases keeps

theorem Guarded.isClosed_of_returned (h : s.Guarded) (called : s.closers ≠ [])
    (returned : ∀ k ∈ s.closers, k = .returned) : s.connection.isClosed = true := by
  rw [← Bool.not_eq_false]
  intro up
  obtain ⟨k, present⟩ := List.exists_mem_of_ne_nil _ called
  have waiting := h.unshut up k present
  rw [returned k present] at waiting
  cases waiting

theorem Guarded.hook_eq_false (h : s.Guarded) (down : s.connection.isClosed = true)
    (returned : ∀ k ∈ s.closers, k = .returned) : s.hook = false := by
  refine Bool.eq_false_iff.mpr fun left => ?_
  rcases h.hooks down left with under_way | under_way
  · cases returned _ under_way
  · cases returned _ under_way

theorem Guarded.pending_eq_nil (h : s.Guarded) (down : s.connection.isClosed = true) (quiet : s.IsQuiet) :
    s.connection.replies.pending = [] := by
  refine List.eq_nil_iff_forall_not_mem.mpr ?_
  rintro ⟨slot, n⟩ waits
  obtain ⟨r, place, keeps⟩ := h.holds slot n waits
  rcases h.clears down with under_way | unseen
  · cases quiet.closers _ under_way
  · obtain ⟨result, rfl⟩ := quiet.requests r (List.mem_of_getElem? place)
    cases result with
    | error fault => cases keeps
    | ok slot => cases unseen _ _ _ waits place

/-- Once all requests have returned, each of them has had its callback kept. -/
theorem Tracks.perm_callbacks (h : Tracks hook id events s) (quiet : s.IsQuiet) :
    (callbacks events).Perm (List.range s.requests.length) := by
  refine (List.perm_ext_iff_of_nodup h.registered.nodup List.nodup_range).mpr fun n => ?_
  rw [h.registered.mem_iff, List.mem_range]
  constructor
  · rintro ⟨r, place, -⟩
    exact (List.getElem?_eq_some_iff.mp place).1
  · intro made
    obtain ⟨result, returned⟩ := quiet.requests _ (List.getElem_mem made)
    exact ⟨_, List.getElem?_eq_getElem made, returned ▸ rfl⟩

/-- However the calls take turns, none that fails leaves anything behind, the hook runs once, and a closed connection on
which all calls have returned has run or dropped every callback. -/
theorem released_of_run (run : Run Step (start (.new role id pipeline nonces peer datagrams) hook) events s) :
    Account hook id events s := by
  have h := tracks_of_run run
  have table : ReplyTable.Tracks role (events.flatMap table) s.connection.replies :=
    (run_table run).invariant (ReplyTable.tracks_start 0) fun _ _ _ _ h step => h.step step
  refine ⟨s.callable, fun n fault here => ⟨h.not_queued here, h.guarded.not_pending here⟩, ?_, h.order, ⟨_, h.hooks⟩,
    ?_, ?_⟩
  · intro n slot here
    obtain ⟨⟨_, frame⟩, present, rfl⟩ := List.mem_map.mp ((h.queued.mem_iff n).mpr ⟨_, here, rfl⟩)
    exact ⟨frame, filter_key h.queued.nodup present⟩
  · intro called returned
    have down := h.guarded.isClosed_of_returned called returned
    have hooks := h.hooks
    rw [h.guarded.hook_eq_false down returned] at hooks
    exact ⟨down, (List.append_nil _).symm.trans hooks⟩
  · intro down quiet
    have vacant := h.guarded.pending_eq_nil down quiet
    have unhit : ReplyTable.Event.registered none (events.flatMap Event.table) = [] := by
      rw [← List.reverse_eq_nil_iff, ← table.pending, vacant]
    have parts := ReplyTable.Event.perm_callbacks (events.flatMap Event.table)
    rw [unhit, List.nil_append, List.map_append] at parts
    refine ⟨List.isEmpty_iff.mpr vacant, ?_⟩
    exact ((table.runs.append_right _).trans parts.symm).trans (h.perm_callbacks quiet)

/-- The first request has found the connection open and queues its frame once the flag is set; its callback is cleared
away. The second one comes too late for that and gives its slot back. -/
theorem released_of_run_overtaken :
    ∃ events s, Run Step (start (.new .client 1 .passthrough default none none) true) events s ∧
      s.connection.isClosed = true ∧ s.IsQuiet ∧ s.requests.length = 2 ∧ s.closers.length = 2 ∧
      Account true 1 events s ∧ (queued events).map Prod.fst = [0] ∧ hooks events = [1] ∧
      (ran events ++ dropped events).Perm (List.range 2) := by
  obtain ⟨first, kept, role, counter, -⟩ :=
    ReplyTable.register?_of_free (t := (.new .client : ReplyTable Nat)) rfl 0
  have vacant : first.clear.isPending (first.clear.role.slot first.clear.counter) = false := rfl
  obtain ⟨second, kept', -⟩ := ReplyTable.register?_of_free vacant 1
  have slot : first.clear.role.slot first.clear.counter = 1 := by
    change first.role.slot first.counter = 1
    rw [role, counter]
    rfl
  rw [slot] at kept'
  let m := Message.withHeader 5 1 0
  let c : Connection Nat := .new .client 1 .passthrough default none none
  obtain ⟨frame, _, _, framed⟩ :
      ∃ frame m' c', (m.setReplySlot 0 >>= { c with replies := first }.frameOf) = .ok (frame, m', c') :=
    ⟨_, _, _, rfl⟩
  obtain rfl := Connection.frameOf_stamped_ok framed
  let nonces := c.nonces.next.2
  have opened : Run Step (start c true)
      [.begin m, .request 0 (.register 0), .request 0 (.frame frame), .request 0 .pass]
      ⟨{ c with replies := first, nonces }, [.admitted 0 frame], [], true, true⟩ :=
    (((Run.single .begin).snoc (step_newest_request [] rfl (.register kept))).snoc
      (step_newest_request [] rfl (.frame framed))).snoc
      (step_newest_request [] rfl (.pass rfl))
  let closed : Connection Nat := { c with
    replies := first.clear, nonces, isClosed := true, pending := 1, outbound := [frame]
    metrics := c.metrics.connectionClosed }
  have cleared : Run Step ⟨{ c with replies := first, nonces }, [.admitted 0 frame], [], true, true⟩
      [.close, .closer 0 .shut, .request 0 (.queue frame), .closer 0 .clear]
      ⟨closed, [.returned (.ok 0)], [.cleared], true, true⟩ :=
    (((Run.single .close).snoc (step_newest_closer [] rfl (.shut rfl))).snoc
      (step_newest_request [] rfl (.queue rfl))).snoc (step_newest_closer [] rfl .clear)
  obtain ⟨frame', _, _, framed'⟩ :
      ∃ frame' m' c', (m.setReplySlot 1 >>= { closed with replies := second }.frameOf) = .ok (frame', m', c') :=
    ⟨_, _, _, rfl⟩
  obtain rfl := Connection.frameOf_stamped_ok framed'
  let requests : List Request := [.returned (.ok 0), .returned (.error .connectionClosed)]
  let last : Connection Nat := { closed with replies := second.erase 1, nonces := nonces.next.2 }
  have refused : Run Step ⟨closed, [.returned (.ok 0)], [.cleared], true, true⟩
      [.begin m, .request 1 (.register 1), .request 1 (.frame frame'), .request 1 (.fail .connectionClosed),
        .request 1 (.cancel 1 (second.cancel 1).1)] ⟨last, requests, [.cleared], true, true⟩ :=
    ((((Run.single .begin).snoc (step_newest_request [_] rfl (.register kept'))).snoc
      (step_newest_request [_] rfl (.frame framed'))).snoc
      (step_newest_request [_] rfl (.refuse rfl))).snoc
      (step_newest_request [_] rfl .cancel)
  have hooked : Run Step ⟨last, requests, [.cleared], true, true⟩ [.close, .closer 1 .late, .closer 0 (.hook 1)]
      ⟨last, requests, [.returned, .returned], false, true⟩ :=
    ((Run.single .close).snoc (step_newest_closer [_] rfl (.late rfl))).snoc
      (.closer (i := 0) rfl (.hook rfl))
  have run := ((opened.trans cleared).trans refused).trans hooked
  have quiet : IsQuiet ⟨last, requests, [.returned, .returned], false, true⟩ :=
    ⟨by simp [requests], by simp⟩
  have account := released_of_run run
  exact ⟨_, _, run, rfl, quiet, rfl, rfl, account, rfl, rfl, (account.released rfl quiet).2⟩

end PeerLink.BusyConnection
