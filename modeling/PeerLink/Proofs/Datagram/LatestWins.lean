import Mathlib.Data.List.Induction
import PeerLink.Proofs.Datagram.Slots
import PeerLink.Proofs.Run

/-!
Waiting datagrams over whole histories. Nobody can tell them from an ordered list in which a datagram takes the place
of the one with the same head. Of the datagrams with one head, those that were sent and the one that waits are all that
were added but for those whose place another took, in the order in which they were added.
-/
namespace PeerLink.DatagramSlots

inductive Event where
  | push (head : UInt16) (frame : Bytes) (replaced : Bool)
  | pop (taken : Option (UInt16 × Bytes))

/-- A call on whatever datagrams are added to and taken from. -/
inductive Step {σ : Type} (push : σ → UInt16 → Bytes → Bool × σ) (pop? : σ → Option ((UInt16 × Bytes) × σ)) :
    σ → Event → σ → Prop
  | push {s head frame replaced s'} (added : push s head frame = (replaced, s')) :
    Step push pop? s (.push head frame replaced) s'
  | pop {s entry s'} (taken : pop? s = some (entry, s')) : Step push pop? s (.pop (some entry)) s'
  | empty {s} (empty : pop? s = none) : Step push pop? s (.pop none) s

abbrev ListStep := Step DatagramList.push DatagramList.pop?

abbrev SlotStep := Step DatagramSlots.push DatagramSlots.pop?

variable {s s' : DatagramSlots} {l : DatagramList} {events : List Event} {e : Event} {head : UInt16}

/-! ### What the calls say -/

namespace Event

def pushes (events : List Event) : Nat :=
  events.countP fun
    | .push .. => true
    | .pop _ => false

def replacements (events : List Event) : Nat :=
  events.countP fun
    | .push _ _ replaced => replaced
    | .pop _ => false

def pops (events : List Event) : Nat :=
  events.countP fun
    | .push .. => false
    | .pop taken => taken.isSome

/-- The datagrams added with a head, in order. -/
def pushed (head : UInt16) (events : List Event) : List Bytes :=
  events.filterMap fun
    | .push other frame _ => if other = head then some frame else none
    | .pop _ => none

def sent (head : UInt16) (events : List Event) : List Bytes :=
  events.filterMap fun
    | .pop (some (other, frame)) => if other = head then some frame else none
    | _ => none

/-- The datagrams added with a head, each that took the place of another instead of that. -/
def kept (head : UInt16) (events : List Event) : List Bytes :=
  events.foldl (fun frames e =>
    match e with
    | .push other frame replaced =>
      if other = head then (if replaced then frames.dropLast else frames) ++ [frame] else frames
    | .pop _ => frames) []

theorem pushes_snoc : pushes (events ++ [e]) = pushes events + pushes [e] := List.countP_append

theorem replacements_snoc : replacements (events ++ [e]) = replacements events + replacements [e] :=
  List.countP_append

theorem pops_snoc : pops (events ++ [e]) = pops events + pops [e] := List.countP_append

theorem pushed_snoc : pushed head (events ++ [e]) = pushed head events ++ pushed head [e] := List.filterMap_append ..

theorem sent_snoc : sent head (events ++ [e]) = sent head events ++ sent head [e] := List.filterMap_append ..

theorem kept_snoc : kept head (events ++ [e]) =
    match e with
    | .push other frame replaced =>
      if other = head then (if replaced then (kept head events).dropLast else kept head events) ++ [frame]
      else kept head events
    | .pop _ => kept head events := by
  rw [kept, List.foldl_append]
  rfl

/-- Those that are kept are in the order in which they were added. -/
theorem kept_sublist_pushed : (kept head events).Sublist (pushed head events) := by
  induction events using List.reverseRecOn with
  | nil => exact List.nil_sublist _
  | append_singleton events e ih =>
    rw [kept_snoc, pushed_snoc]
    cases e with
    | pop taken => exact ih.trans (List.sublist_append_left _ _)
    | push other frame replaced =>
      by_cases own : other = head
      · have before : (if replaced then (kept head events).dropLast else kept head events).Sublist
            (pushed head events) := by
          split
          · exact (List.dropLast_sublist _).trans ih
          · exact ih
        simpa [pushed, own] using before.append (List.Sublist.refl [frame])
      · simpa [pushed, own] using ih

end Event

open Event

structure Account (events : List Event) (s : DatagramSlots) : Prop where
  /-- The same calls on an empty list have the same answers, and leave what waits. -/
  asList : Run ListStep [] events s.toList
  heads : s.toList.map Prod.fst = s.order
  distinct : s.order.Nodup
  /-- A head has a turn exactly while a datagram waits for it. -/
  waits : ∀ head, head ∈ s.order ↔ (s.newest[head]?).isSome
  size : s.size = s.order.length
  balance : pushes events = replacements events + pops events + s.size
  fate : ∀ head, kept head events = sent head events ++ (s.newest[head]?).toList
  inOrder : ∀ head, (sent head events ++ (s.newest[head]?).toList).Sublist (pushed head events)

theorem InStep.listStep (h : s.InStep) (step : SlotStep s e s') : ListStep s.toList e s'.toList := by
  cases step with
  | @push head frame replaced _ added =>
    have square := h.toList_push head frame
    rw [added] at square
    exact .push square
  | pop taken =>
    have square := h.toList_pop?
    rw [taken] at square
    exact .pop square
  | empty empty =>
    have square := h.toList_pop?
    rw [empty] at square
    exact .empty square

/-- Whatever answer the list gives, the slots give. -/
theorem InStep.exists_step (h : s.InStep) (step : ListStep s.toList e l) : ∃ s', SlotStep s e s' ∧ s'.toList = l := by
  cases step with
  | @push head frame replaced _ added =>
    rw [h.toList_push] at added
    cases added
    exact ⟨_, .push rfl, rfl⟩
  | pop taken =>
    rw [h.toList_pop?] at taken
    obtain ⟨⟨entry, s'⟩, popped, same⟩ := Option.map_eq_some_iff.mp taken
    cases same
    exact ⟨s', .pop popped, rfl⟩
  | empty empty =>
    rw [h.toList_pop?, Option.map_eq_none_iff] at empty
    exact ⟨s, .empty empty, rfl⟩

structure Tracks (events : List Event) (s : DatagramSlots) : Prop where
  inStep : s.InStep
  asList : Run ListStep [] events s.toList
  balance : pushes events = replacements events + pops events + s.order.length
  fate : ∀ head, kept head events = sent head events ++ (s.newest[head]?).toList

theorem tracks_empty : Tracks [] ∅ where
  inStep := inStep_empty
  asList := .nil
  balance := rfl
  fate head := by
    change [] = (((∅ : Std.HashMap UInt16 Bytes))[head]?).toList
    simp

theorem Tracks.push (h : Tracks events s) (head : UInt16) (frame : Bytes) :
    Tracks (events ++ [.push head frame (s.push head frame).1]) (s.push head frame).2 := by
  have step : SlotStep s (.push head frame (s.push head frame).1) (s.push head frame).2 := .push rfl
  refine ⟨h.inStep.push head frame, h.asList.snoc (h.inStep.listStep step), ?_, fun other => ?_⟩
  · have balance := h.balance
    rw [pushes_snoc, replacements_snoc, pops_snoc]
    by_cases turn : head ∈ s.order
    · rw [h.inStep.push_of_mem turn]
      change pushes events + 1 = replacements events + 1 + (pops events + 0) + s.order.length
      omega
    · rw [h.inStep.push_of_not_mem turn]
      change pushes events + 1 = replacements events + 0 + (pops events + 0) + (s.order ++ [head]).length
      rw [List.length_append, List.length_singleton]
      omega
  · have fate := h.fate other
    rw [kept_snoc, sent_snoc]
    by_cases own : head = other
    · subst own
      by_cases turn : head ∈ s.order
      · obtain ⟨old, found⟩ := h.inStep.exists_frame turn
        rw [h.inStep.push_of_mem turn]
        simp [fate, found, sent]
      · have vacant : s.newest[head]? = none := by
          rw [h.inStep.waits] at turn
          exact Std.HashMap.getElem?_eq_none turn
        rw [h.inStep.push_of_not_mem turn]
        simp [fate, vacant, sent]
    · have untouched : (s.push head frame).2.newest[other]? = s.newest[other]? := by
        unfold DatagramSlots.push
        split <;> simp [Std.HashMap.getElem?_insert, own]
      rw [untouched]
      simp [fate, sent, own]

theorem Tracks.pop {entry : UInt16 × Bytes} (h : Tracks events s) (taken : s.pop? = some (entry, s')) :
    Tracks (events ++ [.pop (some entry)]) s' := by
  have inStep := h.inStep.pop? taken
  have asList := h.asList.snoc (h.inStep.listStep (.pop taken))
  cases turns : s.order with
  | nil =>
    rw [InStep.pop?_nil turns] at taken
    cases taken
  | cons head order =>
    obtain ⟨frame, found, popped⟩ := h.inStep.pop?_cons turns
    rw [popped] at taken
    cases taken
    refine ⟨inStep, asList, ?_, fun other => ?_⟩
    · have balance := h.balance
      rw [turns, List.length_cons] at balance
      rw [pushes_snoc, replacements_snoc, pops_snoc]
      change pushes events + 0 = replacements events + 0 + (pops events + 1) + order.length
      omega
    · rw [kept_snoc, sent_snoc, h.fate other]
      by_cases own : head = other
      · subst own
        simp [sent, found]
      · simp [sent, own, Std.HashMap.getElem?_erase]

theorem Tracks.step (h : Tracks events s) (step : SlotStep s e s') : Tracks (events ++ [e]) s' := by
  cases step with
  | @push head frame replaced _ added =>
    have pushed := h.push head frame
    rwa [added] at pushed
  | pop taken => exact h.pop taken
  | empty empty =>
    refine ⟨h.inStep, h.asList.snoc (h.inStep.listStep (.empty empty)), ?_, fun other => ?_⟩
    · rw [pushes_snoc, replacements_snoc, pops_snoc]
      exact h.balance
    · have fate := h.fate other
      rw [kept_snoc, sent_snoc, fate]
      simp [sent]

theorem tracks_of_run (run : Run SlotStep ∅ events s) : Tracks events s :=
  run.invariant tracks_empty fun _ _ _ _ h step => h.step step

/-- Whatever is added and taken in whatever order, the slots are an ordered list with one datagram for a head. -/
theorem latestWins_of_run (run : Run SlotStep ∅ events s) : Account events s := by
  obtain ⟨inStep, asList, balance, fate⟩ := tracks_of_run run
  refine ⟨asList, inStep.heads_toList, inStep.distinct, fun head => ?_, inStep.size_eq, ?_, fate, fun head => ?_⟩
  · rw [inStep.waits, Std.HashMap.mem_iff_isSome_getElem?]
  · rw [inStep.size_eq]
    exact balance
  · rw [← fate]
    exact kept_sublist_pushed

/-- The slots answer any calls as the list does. -/
theorem exists_run (run : Run ListStep [] events l) : ∃ s, Run SlotStep ∅ events s ∧ s.toList = l := by
  induction run with
  | nil => exact ⟨∅, .nil, rfl⟩
  | snoc _ last ih =>
    obtain ⟨s, run, rfl⟩ := ih
    obtain ⟨s', step, same⟩ := (tracks_of_run run).inStep.exists_step last
    exact ⟨s', run.snoc step, same⟩

/-- The second datagram with head 1 is sent instead of the first and in its turn; the third has to wait for head 2. -/
theorem latestWins_of_run_replaced :
    ∃ events s, Run SlotStep ∅ events s ∧ s.toList = [(1, [0xa3])] ∧
      events = [.push 1 [0xa1] false, .push 2 [0xb1] false, .push 1 [0xa2] true, .pop (some (1, [0xa2])),
        .push 1 [0xa3] false, .pop (some (2, [0xb1]))] ∧
      Account events s := by
  have list : Run ListStep [] [.push 1 [0xa1] false, .push 2 [0xb1] false, .push 1 [0xa2] true,
      .pop (some (1, [0xa2])), .push 1 [0xa3] false, .pop (some (2, [0xb1]))] [(1, [0xa3])] :=
    .snoc (.snoc (.snoc (.snoc (.snoc (.single (.push rfl)) (.push rfl)) (.push rfl)) (.pop rfl)) (.push rfl))
      (.pop rfl)
  obtain ⟨s, run, left⟩ := exists_run list
  exact ⟨_, s, run, left, rfl, latestWins_of_run run⟩

end PeerLink.DatagramSlots
