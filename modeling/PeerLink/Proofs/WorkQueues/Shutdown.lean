import PeerLink.Proofs.WorkQueues

/-!
Workers, producers and a shutdown that take turns. A worker that finds its queue empty for a while looks at
the flag as a separate step, so items can arrive between the two. If the shutdown begins in between
as well, the worker leaves without having looked at its queue again, and those items stay behind;
nothing else is ever lost, handled twice or out of order.
-/
namespace PeerLink.WorkQueues

inductive Phase where
  /-- Takes the next item, or is busy with one. -/
  | receiving
  /-- Found its queue empty and has not yet looked at the flag. -/
  | idle
  | stopped

/-- The queues with the threads around them. The queues are open until the shutdown sets its flag. -/
structure Pool (α : Type) where
  queues : WorkQueues α
  /-- Items whose push has seen that the queues are open and has not yet added them. -/
  arriving : List (Nat × α)
  phases : List Phase
  /-- Whether the senders still exist. -/
  isConnected : Bool

inductive Event (α : Type) where
  | begin (index : Nat) (item : α)
  | accept (index : Nat) (item : α)
  | refuse (index : Nat) (item : α)
  | scan
  | handle (index : Nat) (item : α)
  | timeout (index : Nat)
  | stay (index : Nat)
  | quit (index : Nat)
  | disconnect (index : Nat)
  | close
  | drop

variable {α : Type}

namespace Pool

/-- All workers wait for their first item. -/
def start (queues : WorkQueues α) : Pool α :=
  ⟨queues, [], List.replicate queues.workers .receiving, true⟩

def enter (s : Pool α) (index : Nat) (phase : Phase) : Pool α :=
  { s with phases := s.phases.set index phase }

/-- One step of one thread. The shutdown closes the queues when no push is under way and then drops the
senders. -/
inductive Step : Pool α → Event α → Pool α → Prop
  | begin {s index item} (up : s.queues.isOpen = true) (inRange : index < s.queues.workers) :
    Step s (.begin index item) { s with arriving := s.arriving ++ [(index, item)] }
  | beginShortest {s item} (up : s.queues.isOpen = true) :
    Step s (.begin (s.queues.shortest % s.queues.workers) item)
      { s with arriving := s.arriving ++ [(s.queues.shortest % s.queues.workers, item)] }
  -- No push is under way once the queues are closed, so the flag that `pushTo` looks at is still up here.
  | accept {s before index item after queues} (arriving : s.arriving = before ++ (index, item) :: after)
    (added : s.queues.pushTo index item = .ok queues) :
    Step s (.accept index item) { s with queues, arriving := before ++ after }
  | refuse {s index item fault} (refused : s.queues.pushTo index item = .error fault) :
    Step s (.refuse index item) s
  | scan {s} : Step s .scan { s with queues := s.queues.rescan }
  | handle {s index item queues} (ready : s.phases[index]? = some .receiving)
    (taken : s.queues.pop? index = some (item, queues)) : Step s (.handle index item) { s with queues }
  | timeout {s index} (ready : s.phases[index]? = some .receiving)
    (empty : s.queues.pop? index = none) : Step s (.timeout index) (s.enter index .idle)
  | stay {s index} (idle : s.phases[index]? = some .idle) (up : s.queues.isOpen = true) :
    Step s (.stay index) (s.enter index .receiving)
  | quit {s index} (idle : s.phases[index]? = some .idle) (down : s.queues.isOpen = false) :
    Step s (.quit index) (s.enter index .stopped)
  | disconnect {s index} (ready : s.phases[index]? = some .receiving)
    (empty : s.queues.pop? index = none) (gone : s.isConnected = false) :
    Step s (.disconnect index) (s.enter index .stopped)
  | close {s} (up : s.queues.isOpen = true) (quiet : s.arriving = []) :
    Step s .close { s with queues := s.queues.close }
  | drop {s} (down : s.queues.isOpen = false) : Step s .drop { s with isConnected := false }

inductive Run : Pool α → List (Event α) → Pool α → Prop
  | nil {s} : Run s [] s
  | cons {s e s' events last} (step : Step s e s') (rest : Run s' events last) : Run s (e :: events) last

/-- The shutdown has returned: the senders are gone and every worker has been joined. -/
def HasReturned (s : Pool α) : Prop :=
  s.isConnected = false ∧ ∀ phase ∈ s.phases, phase = .stopped

end Pool

namespace Event

/-- What the pushes to one queue that succeeded have added, in order. -/
def accepted (index : Nat) (events : List (Event α)) : List α :=
  events.filterMap fun
    | .accept i item => if i = index then some item else none
    | _ => none

/-- What one worker has given to the handler, in order. -/
def handled (index : Nat) (events : List (Event α)) : List α :=
  events.filterMap fun
    | .handle i item => if i = index then some item else none
    | _ => none

/-- What was accepted for one worker since it last found its queue empty. -/
def unseen (index : Nat) (events : List (Event α)) : List α :=
  events.foldl (fun items e =>
    match e with
    | .timeout i => if i = index then [] else items
    | .accept i item => if i = index then items ++ [item] else items
    | _ => items) []

/-- Whether one worker left because of the flag. -/
def hasQuit (index : Nat) (events : List (Event α)) : Bool :=
  events.any fun
    | .quit i => i == index
    | _ => false

/-- What one worker left behind. -/
def missed (index : Nat) (events : List (Event α)) : List α :=
  if hasQuit index events then unseen index events else []

def worker? : Event α → Option Nat
  | .accept i _ | .handle i _ | .timeout i | .stay i | .quit i | .disconnect i => some i
  | _ => none

variable {index : Nat} {events : List (Event α)} {e : Event α}

theorem accepted_snoc : accepted index (events ++ [e]) = accepted index events ++ accepted index [e] :=
  List.filterMap_append ..

theorem handled_snoc : handled index (events ++ [e]) = handled index events ++ handled index [e] :=
  List.filterMap_append ..

theorem unseen_snoc : unseen index (events ++ [e]) =
    match e with
    | .timeout i => if i = index then [] else unseen index events
    | .accept i item => if i = index then unseen index events ++ [item] else unseen index events
    | _ => unseen index events := by
  rw [unseen, List.foldl_append]
  cases e <;> rfl

theorem hasQuit_snoc : hasQuit index (events ++ [e]) = (hasQuit index events || hasQuit index [e]) :=
  List.any_append ..

theorem untouched (h : e.worker? ≠ some index) :
    accepted index (events ++ [e]) = accepted index events ∧
      handled index (events ++ [e]) = handled index events ∧
      unseen index (events ++ [e]) = unseen index events ∧
      hasQuit index (events ++ [e]) = hasQuit index events := by
  rw [accepted_snoc, handled_snoc, unseen_snoc, hasQuit_snoc]
  have other : ∀ i, e.worker? = some i → i ≠ index := fun i own same => h (same ▸ own)
  cases e with
  | begin | refuse | scan | close | drop => simp [accepted, handled, hasQuit]
  | accept i | handle i | timeout i | stay i | quit i | disconnect i =>
    simp [accepted, handled, hasQuit, other i rfl]

end Event

namespace Pool

open Event

variable {s s' : Pool α} {workers : Nat} {events : List (Event α)} {e : Event α}

theorem phases_enter {index : Nat} {old : Phase} (here : s.phases[index]? = some old) (phase : Phase)
    (i : Nat) :
    (s.enter index phase).phases[i]? = if index = i then some phase else s.phases[i]? := by
  obtain ⟨inRange, -⟩ := List.getElem?_eq_some_iff.mp here
  rw [enter, List.getElem?_set, if_pos inRange]

/-- What the standing of a worker says about its queue. -/
def Standing (events : List (Event α)) (q : WorkQueues α) (i : Nat) : Phase → Prop
  | .receiving => hasQuit i events = false
  | .idle => hasQuit i events = false ∧ q.queue i = unseen i events
  | .stopped => q.isOpen = false ∧ q.queue i = missed i events

/-- What every interleaving keeps. What was accepted for a worker was handled or waits; what waits for a
worker that is about to look at the flag, or has left because of it, came after it last found its queue
empty. -/
structure Accounted (workers : Nat) (events : List (Event α)) (s : Pool α) : Prop where
  staffed : s.phases.length = workers
  shut : s.isConnected = false → s.queues.isOpen = false
  quiet : s.queues.isOpen = false → s.arriving = []
  conserved : ∀ i, accepted i events = handled i events ++ s.queues.queue i
  standing : ∀ i phase, s.phases[i]? = some phase → Standing events s.queues i phase

theorem accounted_start {queues : WorkQueues α} (up : queues.isOpen = true)
    (empty : ∀ i, queues.queue i = []) : Accounted queues.workers [] (start queues) := by
  refine ⟨List.length_replicate, fun gone => ?_, fun down => ?_, fun i => (empty i).symm,
    fun i phase here => ?_⟩
  · cases gone
  · rw [start, up] at down
    cases down
  · obtain rfl := List.eq_of_mem_replicate (List.mem_of_getElem? here)
    rfl

/-- A step touches at most one worker, so only that one has to be looked at. -/
theorem Accounted.frame (h : Accounted workers events s) (staffed : s'.phases.length = s.phases.length)
    (shut : s'.isConnected = false → s'.queues.isOpen = false)
    (quiet : s'.queues.isOpen = false → s'.arriving = [])
    (down : s.queues.isOpen = false → s'.queues.isOpen = false)
    (others : ∀ i, e.worker? ≠ some i →
      s'.queues.queue i = s.queues.queue i ∧ s'.phases[i]? = s.phases[i]?)
    (own : ∀ i, e.worker? = some i →
      accepted i (events ++ [e]) = handled i (events ++ [e]) ++ s'.queues.queue i ∧
        ∀ phase, s'.phases[i]? = some phase → Standing (events ++ [e]) s'.queues i phase) :
    Accounted workers (events ++ [e]) s' := by
  refine ⟨staffed.trans h.staffed, shut, quiet, fun i => ?_, fun i phase here => ?_⟩
  · by_cases touched : e.worker? = some i
    · exact (own i touched).1
    · obtain ⟨accepts, handles, -, -⟩ := untouched touched
      rw [accepts, handles, (others i touched).1, h.conserved]
  · by_cases touched : e.worker? = some i
    · exact (own i touched).2 phase here
    · obtain ⟨-, -, sees, quits⟩ := untouched touched
      obtain ⟨queue, place⟩ := others i touched
      have before := h.standing i phase (place.symm.trans here)
      cases phase with
      | receiving => exact quits.trans before
      | idle => exact ⟨quits.trans before.1, queue.trans (before.2.trans sees.symm)⟩
      | stopped =>
        refine ⟨down before.1, ?_⟩
        rw [missed, quits, sees]
        exact queue.trans before.2

/-- A push under way keeps the queues open. -/
theorem Accounted.isOpen_of_arriving (h : Accounted workers events s) {index : Nat} {item : α}
    {before after : List (Nat × α)} (arriving : s.arriving = before ++ (index, item) :: after) :
    s.queues.isOpen = true := by
  cases up : s.queues.isOpen with
  | true => rfl
  | false =>
    have none_arrives := h.quiet up
    rw [arriving] at none_arrives
    cases (List.append_eq_nil_iff.mp none_arrives).2

theorem Accounted.accept {index : Nat} {item : α} {before after : List (Nat × α)} {queues : WorkQueues α}
    (h : Accounted workers events s) (arriving : s.arriving = before ++ (index, item) :: after)
    (added : s.queues.pushTo index item = .ok queues) :
    Accounted workers (events ++ [.accept index item]) { s with queues, arriving := before ++ after } := by
  have up := h.isOpen_of_arriving arriving
  obtain ⟨-, -, same, here, others⟩ := pushTo_ok added
  have isUp : queues.isOpen ≠ false := by
    rw [same, up]
    decide
  refine h.frame rfl (fun gone => same.trans (h.shut gone))
    (fun down => absurd down isUp) (fun down => same.trans down) ?_ ?_
  · intro i touched
    exact ⟨others i (fun own => touched (own ▸ rfl)), rfl⟩
  · rintro i ⟨rfl⟩
    refine ⟨?_, fun phase place => ?_⟩
    · rw [accepted_snoc, handled_snoc, h.conserved, here]
      simp [accepted, handled]
    · have before := h.standing index phase place
      cases phase with
      | receiving =>
        rw [Standing, hasQuit_snoc, before]
        rfl
      | idle =>
        rw [Standing, hasQuit_snoc, unseen_snoc, before.1, here, before.2]
        exact ⟨rfl, (if_pos rfl).symm⟩
      | stopped => exact absurd (same.trans before.1) isUp

theorem Accounted.handle {index : Nat} {item : α} {queues : WorkQueues α} (h : Accounted workers events s)
    (ready : s.phases[index]? = some .receiving) (taken : s.queues.pop? index = some (item, queues)) :
    Accounted workers (events ++ [.handle index item]) { s with queues } := by
  obtain ⟨-, same, here, others⟩ := pop?_some taken
  refine h.frame rfl (fun gone => same.trans (h.shut gone))
    (fun down => h.quiet (same.symm.trans down)) (fun down => same.trans down) ?_ ?_
  · intro i touched
    exact ⟨others i (fun own => touched (own ▸ rfl)), rfl⟩
  · rintro i ⟨rfl⟩
    refine ⟨?_, fun phase place => ?_⟩
    · rw [accepted_snoc, handled_snoc, h.conserved, here]
      simp [accepted, handled]
    · obtain rfl : phase = .receiving := Option.some.inj (place.symm.trans ready)
      rw [Standing, hasQuit_snoc, h.standing index .receiving ready]
      rfl

/-- A worker that moves on without an item leaves all queues as they are. -/
theorem Accounted.enter {index : Nat} {old phase : Phase} (h : Accounted workers events s)
    (here : s.phases[index]? = some old) (moves : e.worker? = some index)
    (accepts : accepted index [e] = []) (handles : handled index [e] = [])
    (stands : Standing (events ++ [e]) s.queues index phase) :
    Accounted workers (events ++ [e]) (s.enter index phase) := by
  have places := phases_enter here phase
  refine h.frame List.length_set h.shut h.quiet id ?_ ?_
  · intro i touched
    refine ⟨rfl, (places i).trans (if_neg (fun own => touched ?_))⟩
    rw [moves, own]
  · intro i own
    obtain rfl : index = i := Option.some.inj (moves.symm.trans own)
    refine ⟨?_, fun phase' place => ?_⟩
    · rw [accepted_snoc, handled_snoc, h.conserved, accepts, handles, List.append_nil, List.append_nil]
      rfl
    · rw [places, if_pos rfl] at place
      obtain rfl : phase = phase' := Option.some.inj place
      exact stands

/-- Steps of producers and of the shutdown touch no worker. -/
theorem Accounted.apart (h : Accounted workers events s) (apart : e.worker? = none)
    (places : s'.phases = s.phases) (queues : ∀ i, s'.queues.queue i = s.queues.queue i)
    (shut : s'.isConnected = false → s'.queues.isOpen = false)
    (quiet : s'.queues.isOpen = false → s'.arriving = [])
    (down : s.queues.isOpen = false → s'.queues.isOpen = false) : Accounted workers (events ++ [e]) s' := by
  refine h.frame (congrArg List.length places) shut quiet down (fun i _ => ⟨queues i, ?_⟩) (fun i touched => ?_)
  · rw [places]
  · rw [apart] at touched
    cases touched

/-- One step keeps the account. -/
theorem Accounted.step (h : Accounted workers events s) (step : Step s e s') :
    Accounted workers (events ++ [e]) s' := by
  cases step with
  | begin up | beginShortest up =>
    exact h.apart rfl rfl (fun _ => rfl) h.shut (fun down => absurd (up.symm.trans down) (by decide)) id
  | accept arriving added => exact h.accept arriving added
  | refuse refused => exact h.apart rfl rfl (fun _ => rfl) h.shut h.quiet id
  | scan => exact h.apart rfl rfl (fun _ => rfl) h.shut h.quiet id
  | handle ready taken => exact h.handle ready taken
  | @timeout index ready empty =>
    refine h.enter ready rfl rfl rfl ⟨?_, ?_⟩
    · rw [hasQuit_snoc, h.standing index .receiving ready]
      rfl
    · rw [unseen_snoc, pop?_none empty]
      exact (if_pos rfl).symm
  | @stay index idle up =>
    refine h.enter idle rfl rfl rfl ?_
    rw [Standing, hasQuit_snoc, (h.standing index .idle idle).1]
    rfl
  | @quit index idle down =>
    refine h.enter idle rfl rfl rfl ⟨down, ?_⟩
    have gone : hasQuit index (events ++ [.quit index]) = true := by
      rw [hasQuit_snoc]
      simp [hasQuit]
    rw [missed, if_pos gone, unseen_snoc]
    exact (h.standing index .idle idle).2
  | @disconnect index ready empty gone =>
    refine h.enter ready rfl rfl rfl ⟨h.shut gone, ?_⟩
    have stays : hasQuit index (events ++ [.disconnect index]) = false := by
      rw [hasQuit_snoc, h.standing index .receiving ready]
      rfl
    rw [missed, stays, pop?_none empty]
    rfl
  | close up quiet => exact h.apart rfl rfl (fun _ => rfl) (fun _ => rfl) (fun _ => quiet) (fun _ => rfl)
  | drop down => exact h.apart rfl rfl (fun _ => rfl) (fun _ => down) h.quiet id

theorem Accounted.run {more : List (Event α)} (h : Accounted workers events s) (run : Run s more s') :
    Accounted workers (events ++ more) s' := by
  induction run generalizing events with
  | nil =>
    rw [List.append_nil]
    exact h
  | @cons s e s' more last step rest ih =>
    have later := ih (h.step step)
    rw [List.append_assoc] at later
    exact later

/-- When the shutdown has returned, each worker has handled what was accepted for it, once and in order, but
for what arrived between its last look at an empty queue and a flag that made it leave. -/
theorem accepted_of_returned {name : String} {i : Nat} {queues : WorkQueues α}
    (built : WorkQueues.new name workers = .ok queues) (run : Run (start queues) events s)
    (returned : s.HasReturned) (inRange : i < workers) :
    accepted i events = handled i events ++ missed i events ∧
      (handled i events = accepted i events ↔ missed i events = []) := by
  obtain ⟨rfl, up, empty⟩ := new_ok built
  have kept : Accounted queues.workers events s := (accounted_start up empty).run run
  have hired : i < s.phases.length := by
    rw [kept.staffed]
    exact inRange
  have stopped : s.phases[i]? = some .stopped := by
    rw [List.getElem?_eq_getElem hired, returned.2 _ (List.getElem_mem hired)]
  have whole := kept.conserved i
  rw [(kept.standing i .stopped stopped).2] at whole
  refine ⟨whole, ?_⟩
  rw [whole]
  exact List.self_eq_append_right

/-- One item, which arrives while its worker is about to look at the flag. -/
theorem accepted_of_returned_handled :
    ∃ (queues : WorkQueues Nat) (events : List (Event Nat)) (s : Pool Nat),
      WorkQueues.new "work" 1 = .ok queues ∧ Run (start queues) events s ∧ s.HasReturned ∧
        accepted 0 events = [7] ∧ handled 0 events = accepted 0 events := by
  have built : WorkQueues.new "work" 1 = .ok (⟨"work", [[]], 0, true⟩ : WorkQueues Nat) := rfl
  have run : Run (start ⟨"work", [[]], 0, true⟩)
      [.timeout 0, .begin 0 7, .accept 0 7, .stay 0, .handle 0 7, .close, .drop, .disconnect 0]
      ⟨⟨"work", [[]], 0, false⟩, [], [.stopped], false⟩ :=
    .cons (.timeout rfl rfl) <| .cons (.begin rfl (by decide)) <| .cons (.accept rfl rfl) <|
      .cons (.stay rfl rfl) <| .cons (.handle rfl rfl) <| .cons (.close rfl rfl) <| .cons (.drop rfl) <|
        .cons (.disconnect rfl rfl rfl) .nil
  have returned : HasReturned (⟨⟨"work", [[]], 0, false⟩, [], [.stopped], false⟩ : Pool Nat) :=
    ⟨rfl, fun phase here => List.mem_singleton.mp here⟩
  exact ⟨_, _, _, built, run, returned, rfl,
    (accepted_of_returned built run returned Nat.zero_lt_one).2.mpr rfl⟩

/-- The same item, if its worker looks at the flag only after the shutdown has set it. -/
theorem item_left_behind :
    ∃ (queues : WorkQueues Nat) (events : List (Event Nat)) (s : Pool Nat),
      WorkQueues.new "work" 1 = .ok queues ∧ Run (start queues) events s ∧ s.HasReturned ∧
        accepted 0 events = [7] ∧ handled 0 events = [] := by
  have run : Run (start ⟨"work", [[]], 0, true⟩)
      [.timeout 0, .begin 0 7, .accept 0 7, .close, .quit 0, .drop]
      ⟨⟨"work", [[7]], 0, false⟩, [], [.stopped], false⟩ :=
    .cons (.timeout rfl rfl) <| .cons (.begin rfl (by decide)) <| .cons (.accept rfl rfl) <|
      .cons (.close rfl rfl) <| .cons (.quit rfl rfl) <| .cons (.drop rfl) .nil
  exact ⟨_, _, _, rfl, run, ⟨rfl, fun phase here => List.mem_singleton.mp here⟩, rfl, rfl⟩

end Pool

end PeerLink.WorkQueues
