import PeerLink.Proofs.Endpoint.Partition
import PeerLink.Proofs.Run
import Mathlib.Data.List.Perm.Basic

/-!
Calls against registrations that change. What has been done at an end so far tells which action each head has, and which
calls have been asked for: each is the call of the action that its head had when the message was dispatched. Such a call
is made once, or still waits with the host, whatever is registered and removed since.

An action is called in one step and does what it does in steps of its own, so a history need not tell who took a step:
the host, another thread, or an action that runs.
-/
namespace PeerLink

variable {β κ σ : Type}

/-! ### Registrations -/

namespace Dispatcher

variable {d : Dispatcher β} {head other : UInt16} {action old : Action β}

theorem add_of_some (held : d.find? head = some old) : d.add head action = .error (.duplicateAction head) := by
  simp only [add, has, held, Option.isSome_some, if_true]

theorem add_of_none (free : d.find? head = none) :
    d.add head action = .ok { d with actions := (head, action) :: d.actions } := by
  simp only [add, has, free, Option.isSome_none, Bool.false_eq_true, if_false]

theorem find?_cons :
    ({ d with actions := (head, action) :: d.actions } : Dispatcher β).find? other =
      if head = other then some action else d.find? other := by
  rw [find?, List.lookup_cons]
  split
  · next same => rw [if_pos (eq_of_beq same).symm]
  · next apart => rw [if_neg (by rintro rfl; simp at apart), find?]

theorem find?_remove : (d.remove head).2.find? other = if head = other then none else d.find? other := by
  rw [remove, find?, find?]
  induction d.actions with
  | nil => simp
  | cons entry entries ih =>
    obtain ⟨key, held⟩ := entry
    by_cases key_eq : key = head
    · subst key
      rw [List.filter_cons_of_neg (by simp), ih, List.lookup_cons]
      grind
    · rw [List.filter_cons_of_pos (by simpa using key_eq), List.lookup_cons, List.lookup_cons, ih]
      grind

end Dispatcher

namespace Endpoint

/-- Something that is done at an end, and what it was answered. -/
inductive Deed (β : Type) where
  | add (head : UInt16) (action : Action β) (answer : Except Fault Unit)
  | remove (head : UInt16) (found : Bool)
  /-- Has calls handed to the host from now on, or made at once. -/
  | hand (parks : Bool)
  | dispatch (m : Message) (handled : Bool)
  /-- The host makes the call at this place among those it has been handed. -/
  | run (place : Nat)
  /-- Anything that has nothing to do with actions. -/
  | other

/-! ### What a history tells -/

namespace Deed

/-- The action of each head afterwards. One that is added to a head with an action is refused. -/
def registers (held : UInt16 → Option (Action β)) : Deed β → UInt16 → Option (Action β)
  | add head action _ => fun other => if head = other then (held other).or (some action) else held other
  | remove head _ => fun other => if head = other then none else held other
  | _ => held

/-- Whether calls are handed over afterwards. -/
def handsOver (before : Bool) : Deed β → Bool
  | hand parks => parks
  | _ => before

/-- The call that is asked for, if the head of the message has an action. -/
def asks (held : UInt16 → Option (Action β)) : Deed β → Option (Job β)
  | dispatch m _ => (held m.head).map (⟨·, m⟩)
  | _ => none

/-- A head keeps the action that it has when another one is added. -/
theorem registers_of_some {held : UInt16 → Option (Action β)} {head : UInt16} {action old : Action β}
    {answer : Except Fault Unit} (taken : held head = some old) : (add head action answer).registers held = held := by
  funext other
  simp only [registers]
  split
  · next same => rw [← same, taken, Option.some_or]
  · rfl

end Deed

def registered (history : List (Deed β)) : UInt16 → Option (Action β) := history.foldl Deed.registers fun _ => none

def handsOver (history : List (Deed β)) : Bool := history.foldl Deed.handsOver false

/-- The call that is asked for at a moment of a history, by what is registered then. -/
def askedAt (history : List (Deed β)) (t : Nat) : Option (Job β) :=
  history[t]?.bind (Deed.asks (registered (history.take t)))

def asked (history : List (Deed β)) : List (Job β) := (List.range history.length).filterMap (askedAt history)

/-! ### Steps -/

def noted (e : Endpoint β κ (List (Job β) × σ)) (job : Job β) : Endpoint β κ (List (Job β) × σ) :=
  { e with app := (e.app.1 ++ [job], e.app.2) }

/-- Calls that begin, and are noted. -/
def beginning : Application β κ (List (Job β) × σ) where
  handle action m e := (.ok none, m, e.noted ⟨action, m⟩)
  onReply _ _ e := e
  onSync := none
  onRelay := none

/-- The host is not handed a call any more. -/
def unpark (e : Endpoint β κ σ) (place : Nat) : Endpoint β κ σ := { e with parked := e.parked.eraseIdx place }

/-- One thing that is done at an end. A call that is made in it only begins. -/
inductive Step : Endpoint β κ (List (Job β) × σ) → Deed β → Endpoint β κ (List (Job β) × σ) → Prop
  | add {e head action dispatcher} (added : e.dispatcher.add head action = .ok dispatcher) :
    Step e (.add head action (.ok ())) { e with dispatcher }
  | refuse {e head action fault} (refused : e.dispatcher.add head action = .error fault) :
    Step e (.add head action (.error fault)) e
  | remove (e head) :
    Step e (.remove head (e.dispatcher.remove head).1) { e with dispatcher := (e.dispatcher.remove head).2 }
  | hand (e parks) : Step e (.hand parks) { e with dispatcher := { e.dispatcher with parks } }
  | dispatch (e m) : Step e (.dispatch m (e.dispatch beginning m).1) (e.dispatch beginning m).2
  | run {e place job} (waits : e.parked[place]? = some job) :
    Step e (.run place) ((e.unpark place).invoke beginning job)
  | other {e e'} (actions : e'.dispatcher = e.dispatcher) (waiting : e'.parked = e.parked)
      (made : e'.app.1 = e.app.1) :
    Step e .other e'

theorem invoke_beginning (e : Endpoint β κ (List (Job β) × σ)) (job : Job β) :
    e.invoke beginning job = e.noted job := rfl

end Endpoint

/-- Its actions note that they are called, and then take such steps. -/
def Application.Acts (a : Application β κ (List (Job β) × σ)) : Prop :=
  ∀ action m e, ∃ later, Run Endpoint.Step (e.noted ⟨action, m⟩) later (a.handle action m e).2.2

namespace Endpoint

/-! ### What every history keeps -/

variable {history : List (Deed β)} {deed : Deed β} {head : UInt16} {action : Action β} {job : Job β}
  {e e' : Endpoint β κ (List (Job β) × σ)}

theorem askedAt_concat_of_lt {t : Nat} (early : t < history.length) :
    askedAt (history ++ [deed]) t = askedAt history t := by
  rw [askedAt, List.getElem?_append_left early, List.take_append_of_le_length (Nat.le_of_lt early), askedAt]

theorem asked_concat (history : List (Deed β)) (deed : Deed β) :
    asked (history ++ [deed]) = asked history ++ (deed.asks (registered history)).toList := by
  have before : (List.range history.length).filterMap (askedAt (history ++ [deed])) = asked history := by
    apply List.filterMap_congr
    intro t early
    exact askedAt_concat_of_lt (List.mem_range.mp early)
  have last : askedAt (history ++ [deed]) history.length = deed.asks (registered history) := by
    rw [askedAt, List.getElem?_concat_length, List.take_left, Option.bind_some]
  rw [asked, List.length_append, List.length_singleton, List.range_succ, List.filterMap_append, before]
  simp only [List.filterMap_cons, List.filterMap_nil, last]
  cases deed.asks (registered history) with
  | none => rfl
  | some _ => rfl

/-- The actions of an end, what it does with calls, and the calls that were made and that wait, are what its history
tells. -/
structure Follows (history : List (Deed β)) (e : Endpoint β κ (List (Job β) × σ)) : Prop where
  actions : e.dispatcher.find? = registered history
  parks : e.dispatcher.parks = handsOver history
  calls : (e.app.1 ++ e.parked).Perm (asked history)

namespace Follows

theorem concat (follows : e.Follows history) (actions : e'.dispatcher.find? = deed.registers e.dispatcher.find?)
    (parks : e'.dispatcher.parks = deed.handsOver e.dispatcher.parks)
    (calls : (e'.app.1 ++ e'.parked).Perm (e.app.1 ++ e.parked ++ (deed.asks e.dispatcher.find?).toList)) :
    e'.Follows (history ++ [deed]) := by
  constructor
  · rw [actions, follows.actions, registered, registered, List.foldl_concat]
  · rw [parks, follows.parks, handsOver, handsOver, List.foldl_concat]
  · rw [asked_concat, ← follows.actions]
    exact calls.trans (follows.calls.append_right _)

theorem concat_silent (follows : e.Follows history) (actions : e'.dispatcher.find? = deed.registers e.dispatcher.find?)
    (parks : e'.dispatcher.parks = deed.handsOver e.dispatcher.parks) (made : e'.app.1 = e.app.1)
    (waiting : e'.parked = e.parked) (silent : deed.asks e.dispatcher.find? = none) :
    e'.Follows (history ++ [deed]) := by
  apply follows.concat actions parks
  rw [made, waiting, silent, Option.toList_none, List.append_nil]

theorem add (follows : e.Follows history) {dispatcher : Dispatcher β}
    (added : e.dispatcher.add head action = .ok dispatcher) :
    ({ e with dispatcher } : Endpoint β κ _).Follows (history ++ [.add head action (.ok ())]) := by
  cases held : e.dispatcher.find? head with
  | some old =>
    rw [Dispatcher.add_of_some held] at added
    cases added
  | none =>
    rw [Dispatcher.add_of_none held] at added
    cases added
    refine follows.concat_silent ?_ rfl rfl rfl rfl
    funext other
    rw [Dispatcher.find?_cons]
    simp only [Deed.registers]
    split
    · next same => rw [← same, held, Option.none_or]
    · rfl

theorem refuse (follows : e.Follows history) {fault : Fault}
    (refused : e.dispatcher.add head action = .error fault) :
    e.Follows (history ++ [.add head action (.error fault)]) := by
  cases held : e.dispatcher.find? head with
  | none =>
    rw [Dispatcher.add_of_none held] at refused
    cases refused
  | some old =>
    exact follows.concat_silent (Deed.registers_of_some held).symm rfl rfl rfl rfl

theorem dispatch (follows : e.Follows history) (m : Message) (handled : Bool) :
    (e.dispatch beginning m).2.Follows (history ++ [.dispatch m handled]) := by
  cases found : e.dispatcher.find? m.head with
  | none =>
    rw [dispatch_of_none found]
    apply follows.concat_silent rfl rfl rfl rfl
    rw [Deed.asks, found, Option.map_none]
  | some action =>
    have told : Deed.asks e.dispatcher.find? (.dispatch m handled) = some ⟨action, m⟩ := by
      rw [Deed.asks, found, Option.map_some]
    rw [dispatch_of_find found]
    split
    · apply follows.concat rfl rfl
      rw [told, List.append_assoc]
      rfl
    · apply follows.concat rfl rfl
      rw [told, invoke_beginning]
      simp only [noted, Option.toList_some, List.append_assoc]
      exact List.perm_append_comm.append_left _

theorem run (follows : e.Follows history) {place : Nat} (waits : e.parked[place]? = some job) :
    ((e.unpark place).noted job).Follows (history ++ [.run place]) := by
  obtain ⟨bound, rfl⟩ := List.getElem?_eq_some_iff.mp waits
  apply follows.concat rfl rfl
  -- The call goes over from those that wait to those that are made: none is asked for.
  simp only [noted, unpark, Deed.asks, Option.toList_none, List.append_nil, List.append_assoc]
  exact (List.getElem_cons_eraseIdx_perm bound).append_left _

theorem step (follows : e.Follows history) (step : Step e deed e') : e'.Follows (history ++ [deed]) := by
  cases step with
  | add added => exact follows.add added
  | refuse refused => exact follows.refuse refused
  | remove head => exact follows.concat_silent (funext fun _ => Dispatcher.find?_remove) rfl rfl rfl rfl
  | hand parks => exact follows.concat_silent rfl rfl rfl rfl rfl
  | dispatch m => exact follows.dispatch m _
  | run waits => exact follows.run waits
  | other actions waiting made =>
    exact follows.concat_silent (congrArg _ actions) (congrArg _ actions) made waiting rfl

end Follows

/-! ### Calls that are made -/

/-- A call that has been made, where it and no other is. Whatever its action has done since it began, nothing is
behind that but a silent step: what the action returns reaches the connection alone. -/
structure Makes (a : Application β κ (List (Job β) × σ)) (job : Job β)
    (e after : Endpoint β κ (List (Job β) × σ)) : Prop where
  acts : ∃ deeds, Run Step (e.noted job) deeds (a.handle job.action job.message e).2.2
  follows : ∀ deeds, Run Step (e.noted job) deeds (a.handle job.action job.message e).2.2 →
    Run Step (e.noted job) (deeds ++ [.other]) after
  settled : ∃ connection, after = { (a.handle job.action job.message e).2.2 with connection }

/-- What an action returns reaches the connection and nothing else. -/
theorem invoke_settled (a : Application β κ σ) (e : Endpoint β κ σ) (job : Job β) :
    ∃ connection, e.invoke a job = { (a.handle job.action job.message e).2.2 with connection } := by
  unfold invoke
  rcases a.handle job.action job.message e with ⟨fault | _ | response, left, after⟩
  · simp only
    split
    · exact ⟨_, rfl⟩
    · exact ⟨_, rfl⟩
  · exact ⟨_, rfl⟩
  · simp only [attempt]
    split
    · exact ⟨_, rfl⟩
    · exact ⟨_, rfl⟩

theorem makes_invoke {a : Application β κ (List (Job β) × σ)} (acts : a.Acts) (e : Endpoint β κ (List (Job β) × σ))
    (job : Job β) : Makes a job e (e.invoke a job) := by
  obtain ⟨connection, settled⟩ := invoke_settled a e job
  refine ⟨acts job.action job.message e, fun deeds run => run.snoc ?_, connection, settled⟩
  rw [settled]
  exact .other rfl rfl rfl

theorem follows_of_run {connection : Connection κ} {counters : Option Metrics} {app : σ}
    (run : Run Step (.new connection .empty counters ([], app)) history e) : e.Follows history :=
  run.invariant ⟨rfl, rfl, .nil⟩ fun _ _ _ _ follows step => follows.step step

/-- After any history, the actions are those that it tells, and the calls made and the calls that wait are together,
each once, those that were asked for. A head that has an action keeps it when another one is added; a head that has none
takes it. A message is handled if its head has an action, and then its call is handed to the host as one job, or made at
once. A call that waits was asked for at some moment, with the action of that moment, and it is what is made when the
host runs the job, whatever has become of the action since. A call is made once, and all that comes of it is what its
action does and, for the connection, what it returns. -/
theorem calls_of_history {connection : Connection κ} {counters : Option Metrics} {app : σ}
    {a : Application β κ (List (Job β) × σ)} (acts : a.Acts)
    (run : Run Step (.new connection .empty counters ([], app)) history e) :
    e.dispatcher.find? = registered history ∧ (e.app.1 ++ e.parked).Perm (asked history) ∧
      (∀ head action, match registered history head with
        | some _ => e.dispatcher.add head action = .error (.duplicateAction head) ∧
          ∀ answer e', Step e (.add head action answer) e' → e' = e
        | none => ∃ dispatcher, e.dispatcher.add head action = .ok dispatcher ∧ dispatcher.find? head = some action) ∧
      (∀ head, (e.dispatcher.remove head).1 = (registered history head).isSome) ∧
      (∀ m, match registered history m.head with
        | none => e.Dispatches a m [] false e
        | some action =>
          if handsOver history then e.Dispatches a m [] true { e with parked := e.parked ++ [⟨action, m⟩] }
          else Step e (.dispatch m true) (e.noted ⟨action, m⟩) ∧
            ∃ after, e.Dispatches a m [.action ⟨action, m⟩] true after ∧ Makes a ⟨action, m⟩ e after) ∧
      ∀ place job, e.parked[place]? = some job →
        (∃ t, askedAt history t = some job) ∧ Step e (.run place) ((e.unpark place).noted job) ∧
          Makes a job (e.unpark place) ((e.unpark place).invoke a job) ∧
          ∀ calls, ((e.unpark place).withCalls calls).invoke a.traced job =
            ((e.unpark place).invoke a job).withCalls (calls ++ [.action job]) := by
  have follows := follows_of_run run
  refine ⟨follows.actions, follows.calls, ?_, ?_, ?_, ?_⟩
  · intro head action
    rw [← follows.actions]
    cases held : e.dispatcher.find? head with
    | some old =>
      refine ⟨Dispatcher.add_of_some held, ?_⟩
      intro answer e' step
      cases step with
      | add added =>
        rw [Dispatcher.add_of_some held] at added
        cases added
      | refuse => rfl
    | none =>
      refine ⟨_, Dispatcher.add_of_none held, ?_⟩
      rw [Dispatcher.find?_cons, if_pos rfl]
  · intro head
    rw [← follows.actions]
    rfl
  · intro m
    rw [← follows.actions, ← follows.parks]
    cases found : e.dispatcher.find? m.head with
    | none => exact dispatches_unknown found
    | some action =>
      simp only
      split
      · next parks => exact dispatches_handed found parks
      · next direct =>
        have begins := Step.dispatch e m
        rw [dispatch_of_find found, if_neg direct] at begins
        exact ⟨begins, _, dispatches_made found (Bool.eq_false_iff.mpr direct), makes_invoke acts e _⟩
  · intro place job waits
    refine ⟨?_, .run waits, makes_invoke acts _ job, fun _ => invoke_traced job⟩
    have told : job ∈ asked history :=
      follows.calls.mem_iff.mp (List.mem_append_right _ (List.mem_of_getElem? waits))
    obtain ⟨t, -, asks⟩ := List.mem_filterMap.mp told
    exact ⟨t, asks⟩

/-- Actions that do nothing, or add one more action, as their bodies say. -/
def bootstrapping : Application Bool Unit (List (Job Bool) × Unit) where
  handle action m e :=
    let e := e.noted ⟨action, m⟩
    if action.body then
      match e.dispatcher.add 2 ⟨"late", false⟩ with
      | .ok dispatcher => (.ok none, m, { e with dispatcher })
      | .error fault => (.error fault, m, e)
    else (.ok none, m, e)
  onReply _ _ e := e
  onSync := none
  onRelay := none

theorem acts_bootstrapping : bootstrapping.Acts := by
  intro action m e
  simp only [bootstrapping]
  split
  · split
    · next added => exact ⟨_, .single (.add added)⟩
    · next refused => exact ⟨_, .single (.refuse refused)⟩
  · exact ⟨[], .nil⟩

/-- A call is handed to the host, and its action removed and replaced, before it is made. The action that runs then is
the one that was called, and it adds another. The action that replaced it fails in that, and is called once as well. -/
theorem calls_of_history_replaced :
    let first : Job Bool := ⟨⟨"bootstrap", true⟩, .new 1⟩
    let second : Action Bool := ⟨"second", true⟩
    let start : Endpoint Bool Unit (List (Job Bool) × Unit) :=
      .new (.new .client 7 .passthrough default none none) .empty none ([], ())
    let history : List (Deed Bool) :=
      [.add 1 first.action (.ok ()), .hand true, .dispatch (.new 1) true, .remove 1 true, .add 1 second (.ok ()),
        .hand false]
    let later : List (Deed Bool) := history ++ [.run 0] ++ [.add 2 ⟨"late", false⟩ (.ok ()), .other]
    let e := { start with dispatcher := ⟨[(1, second)], false⟩, parked := [first] }
    let after := (e.unpark 0).invoke bootstrapping first
    bootstrapping.Acts ∧ Run Step start history e ∧ e.dispatcher.find? 1 = some second ∧ [first].Perm (asked history) ∧
      (∃ t, askedAt history t = some first) ∧ e.dispatcher.add 1 first.action = .error (.duplicateAction 1) ∧
      e.Dispatches bootstrapping (.new 2) [] false e ∧
      ((e.unpark 0).withCalls []).invoke bootstrapping.traced first = after.withCalls [.action first] ∧
      Run Step start later after ∧ after.dispatcher.find? 2 = some ⟨"late", false⟩ ∧ [first].Perm (asked later) ∧
      (bootstrapping.handle second (.new 1) after).1 = .error (.duplicateAction 2) ∧
      ∃ last, after.Dispatches bootstrapping (.new 1) [.action ⟨second, .new 1⟩] true last := by
  intro first second start history later e after
  have run : Run Step start history e :=
    .snoc (.snoc (.snoc (.snoc (.snoc (.snoc .nil (.add rfl)) (.hand _ true)) (.dispatch _ (.new 1))) (.remove _ 1))
      (.add rfl)) (.hand _ false)
  obtain ⟨actions, calls, adds, -, dispatches, runs⟩ := calls_of_history acts_bootstrapping run
  obtain ⟨asked, begins, makes, once⟩ := runs 0 first rfl
  have run_later : Run Step start later after := (run.snoc begins).trans (makes.follows _ (.single (.add rfl)))
  obtain ⟨actions_later, calls_later, -, -, dispatches_later, -⟩ := calls_of_history acts_bootstrapping run_later
  obtain ⟨-, last, dispatched, -⟩ := dispatches_later (.new 1)
  exact ⟨acts_bootstrapping, run, congrFun actions 1, calls, asked, (adds 1 _).1, dispatches (.new 2), once [],
    run_later, congrFun actions_later 2, calls_later, rfl, last, dispatched⟩

end Endpoint

end PeerLink
