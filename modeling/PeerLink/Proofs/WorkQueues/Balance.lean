import PeerLink.Proofs.Places
import PeerLink.Proofs.WorkQueues

/-!
Items that are added one at a time, each with a look for the shortest queue behind it. Between two items the queue that
was found is still the first of the shortest ones, so the next item goes there and no queue gets further ahead of
another one than by a single item or by what it was ahead already.
-/
namespace PeerLink

variable {ns : List Nat} {i d : Nat}

/-- Where a least number stands that stands nowhere before. -/
structure LeastAt (ns : List Nat) (i : Nat) : Prop where
  inside : i < ns.length
  least : ∀ n ∈ ns, ns[i] ≤ n
  first : ∀ n ∈ ns.take i, ns[i] < n

/-- The difference of the greatest number and the least one. -/
def spread (ns : List Nat) : Nat := ns.max?.getD 0 - ns.min?.getD 0

theorem leastLoaded_least (some : ns ≠ []) : LeastAt ns (leastLoaded ns) := by
  fun_induction leastLoaded ns with
  | case1 => exact absurd rfl some
  | case2 n => exact ⟨Nat.zero_lt_one, by simp, by simp⟩
  | case3 n m ns i ahead ih =>
    obtain ⟨inside, least, -⟩ := ih (List.cons_ne_nil m ns)
    rw [List.getD_eq_getElem?_getD, List.getElem?_eq_getElem inside, Option.getD_some] at ahead
    refine ⟨Nat.succ_pos _, ?_, by simp⟩
    intro k present
    rcases List.mem_cons.mp present with rfl | later
    · exact Nat.le_refl _
    · exact Nat.le_trans ahead (least k later)
  | case4 n m ns i behind ih =>
    obtain ⟨inside, least, first⟩ := ih (List.cons_ne_nil m ns)
    rw [List.getD_eq_getElem?_getD, List.getElem?_eq_getElem inside, Option.getD_some, Nat.not_le] at behind
    refine ⟨Nat.succ_lt_succ inside, ?_, ?_⟩
    · intro k present
      rcases List.mem_cons.mp present with rfl | later
      · exact Nat.le_of_lt behind
      · exact least k later
    · intro k present
      rcases List.mem_cons.mp present with rfl | later
      · exact behind
      · exact first k later

theorem leastAt_replicate {count n : Nat} (some : 1 ≤ count) : LeastAt (List.replicate count n) 0 := by
  refine ⟨?_, ?_, ?_⟩
  · rw [List.length_replicate]
    exact some
  · intro m present
    apply Nat.le_of_eq
    rw [List.getElem_replicate, List.eq_of_mem_replicate present]
  · intro m before
    cases before

theorem spread_le_iff : spread ns ≤ d ↔ ∀ a ∈ ns, ∀ b ∈ ns, a ≤ b + d := by
  cases ns with
  | nil => simp [spread]
  | cons n ns =>
    obtain ⟨high, greatest⟩ : ∃ a, (n :: ns).max? = some a := ⟨_, rfl⟩
    obtain ⟨low, least⟩ : ∃ a, (n :: ns).min? = some a := ⟨_, rfl⟩
    rw [spread, greatest, least, Option.getD_some, Option.getD_some]
    rw [List.max?_eq_some_iff] at greatest
    rw [List.min?_eq_some_iff] at least
    constructor
    · intro near a ha b hb
      have below := greatest.2 a ha
      have above := least.2 b hb
      omega
    · intro near
      have far := near high greatest.1 low least.1
      omega

theorem mem_modify_succ {a : Nat} (inside : i < ns.length) (present : a ∈ ns.modify i (· + 1)) :
    a = ns[i] + 1 ∨ a ∈ ns := by
  obtain ⟨j, place⟩ := List.mem_iff_getElem?.mp present
  by_cases here : i = j
  · subst here
    rw [List.getElem?_modify_eq, List.getElem?_eq_getElem inside] at place
    exact .inl (Option.some.inj place).symm
  · rw [List.getElem?_modify_ne _ _ here] at place
    exact .inr (List.mem_iff_getElem?.mpr ⟨j, place⟩)

/-- One more where the least number stands brings nothing further apart than by one or than it was. -/
theorem LeastAt.spread_modify (least : LeastAt ns i) : spread (ns.modify i (· + 1)) ≤ max 1 (spread ns) := by
  have near := spread_le_iff.mp (Nat.le_max_right 1 (spread ns))
  have one := Nat.le_max_left 1 (spread ns)
  have here := List.getElem_mem least.inside
  rw [spread_le_iff]
  intro a ha b hb
  rcases mem_modify_succ least.inside ha with rfl | old
  · rcases mem_modify_succ least.inside hb with rfl | old
    · exact Nat.le_add_right ..
    · have := least.least b old
      omega
  · rcases mem_modify_succ least.inside hb with rfl | old'
    · have := near a old _ here
      omega
    · exact near a old b old'

namespace WorkQueues

variable {α : Type} {q q' : WorkQueues α} {item : α}

def size (q : WorkQueues α) : Nat := q.lengths.sum

/-- Adds an item and looks for the shortest queue. -/
def round (q : WorkQueues α) (item : α) : Except Fault (WorkQueues α) :=
  match q.push item with
  | .ok (_, q) => .ok q.rescan
  | .error e => .error e

def rounds (q : WorkQueues α) : List α → Except Fault (WorkQueues α)
  | [] => .ok q
  | item :: items => do (← q.round item).rounds items

/-- The queues take items, and the one that the next item goes to is the first of the shortest ones. -/
structure Ready (q : WorkQueues α) : Prop where
  up : q.isOpen = true
  least : LeastAt q.lengths q.shortest

theorem length_lengths (q : WorkQueues α) : q.lengths.length = q.workers := List.length_map ..

theorem ready_rescan (up : q.isOpen = true) (some : 1 ≤ q.workers) : q.rescan.Ready where
  up := up
  least := by
    apply leastLoaded_least
    rw [← List.length_pos_iff, length_lengths]
    exact some

theorem Ready.inside (ready : q.Ready) : q.shortest < q.workers := by
  rw [← length_lengths]
  exact ready.least.inside

/-- The next item goes to the first of the shortest queues. -/
theorem Ready.push (ready : q.Ready) (item : α) :
    q.push item = .ok (q.shortest, { q with queues := q.queues.modify q.shortest (· ++ [item]) }) := by
  have place : q.shortest % q.workers = q.shortest := Nat.mod_eq_of_lt ready.inside
  simp only [WorkQueues.push, pushTo, place, ready.up, ready.inside, if_true]

theorem lengths_modify (queues : List (List α)) (i : Nat) (item : α) :
    (queues.modify i (· ++ [item])).map List.length = (queues.map List.length).modify i (· + 1) := by
  apply List.ext_getElem?
  intro j
  simp only [List.getElem?_map, List.getElem?_modify]
  by_cases here : i = j
  · cases queues[j]? with
    | none => rfl
    | some items => simp [here]
  · cases queues[j]? with
    | none => rfl
    | some items => simp [here]

theorem sum_length_modify {queues : List (List α)} {i : Nat} (inside : i < queues.length) (item : α) :
    ((queues.modify i (· ++ [item])).map List.length).sum = (queues.map List.length).sum + 1 := by
  have grown := sum_put (List.getElem?_eq_getElem inside) (queues[i] ++ [item]) List.length
  rw [List.length_append, List.length_singleton] at grown
  rw [List.modify_eq_set, List.getElem?_eq_getElem inside, Option.getD_some]
  omega

theorem Ready.round (ready : q.Ready) (item : α) :
    ∃ q', q.round item = .ok q' ∧ q'.Ready ∧ q'.size = q.size + 1 ∧ spread q'.lengths ≤ max 1 (spread q.lengths) := by
  refine ⟨{ q with queues := q.queues.modify q.shortest (· ++ [item]) }.rescan, ?_, ?_, ?_, ?_⟩
  · rw [WorkQueues.round, ready.push]
  · apply ready_rescan
    · exact ready.up
    · exact Nat.lt_of_le_of_lt (Nat.zero_le _) (Nat.lt_of_lt_of_eq ready.inside (List.length_modify ..).symm)
  · exact sum_length_modify ready.inside item
  · have near := ready.least.spread_modify
    rwa [lengths, ← lengths_modify _ _ item] at near

theorem Ready.rounds (ready : q.Ready) (items : List α) :
    ∃ q', q.rounds items = .ok q' ∧ q'.Ready ∧ q'.size = q.size + items.length ∧
      spread q'.lengths ≤ max 1 (spread q.lengths) := by
  induction items generalizing q with
  | nil => exact ⟨q, rfl, ready, rfl, Nat.le_max_right ..⟩
  | cons item items ih =>
    obtain ⟨next, first, ready, size, near⟩ := ready.round item
    obtain ⟨last, rest, ready, sizes, nears⟩ := ih ready
    refine ⟨last, ?_, ready, ?_, ?_⟩
    · rw [WorkQueues.rounds, first]
      exact rest
    · rw [sizes, size, List.length_cons]
      omega
    · omega

/-- The next item is taken and goes behind the others in the first of the shortest queues. -/
def Places (q : WorkQueues α) (item : α) : Prop :=
  ∃ i q', q.push item = .ok (i, q') ∧ LeastAt q.lengths i ∧ q'.queue i = q.queue i ++ [item] ∧
    ∀ j ≠ i, q'.queue j = q.queue j

theorem Ready.places (ready : q.Ready) (item : α) : q.Places item := by
  refine ⟨q.shortest, _, ready.push item, ready.least, ?_, ?_⟩
  · simp only [queue, List.getElem?_modify_eq]
    rw [List.getElem?_eq_getElem ready.inside]
    rfl
  · intro j other
    simp only [queue, List.getElem?_modify_ne _ _ other.symm]

theorem ready_new (name : String) {workers : Nat} (some : 1 ≤ workers) :
    ∃ q : WorkQueues α, new name workers = .ok q ∧ q.Ready ∧ q.size = 0 ∧ spread q.lengths = 0 := by
  have lengths : (List.replicate workers ([] : List α)).map List.length = List.replicate workers 0 := List.map_replicate
  refine ⟨⟨name, List.replicate workers [], 0, true⟩, ?_, ⟨rfl, ?_⟩, ?_, ?_⟩
  · exact if_neg (Nat.one_le_iff_ne_zero.mp some)
  · rw [WorkQueues.lengths, lengths]
    exact leastAt_replicate some
  · rw [size, WorkQueues.lengths, lengths, List.sum_replicate]
    exact Nat.mul_zero workers
  · rw [WorkQueues.lengths, lengths, ← Nat.le_zero, spread_le_iff]
    intro a ha b hb
    rw [List.eq_of_mem_replicate ha]
    exact Nat.zero_le _

/-- Once a look has been taken, items that are added one at a time all go to the first of the shortest queues. None is
lost, and no queue gets further ahead of another than by one item or than it was. Queues that are new need no such look
and stay within one item of each other. -/
theorem balanced_of_rounds (items : List α) :
    (∀ q : WorkQueues α, 1 ≤ q.workers → q.isOpen = true →
      ∃ q', q.rescan.rounds items = .ok q' ∧ q'.size = q.size + items.length ∧
        spread q'.lengths ≤ max 1 (spread q.lengths) ∧ ∀ item, q'.Places item) ∧
    ∀ (name : String) (workers : Nat), 1 ≤ workers →
      ∃ q q', new name workers = .ok q ∧ q.rounds items = .ok q' ∧ q'.size = items.length ∧
        spread q'.lengths ≤ 1 ∧ ∀ item, q'.Places item := by
  constructor
  · intro q some up
    obtain ⟨q', ran, ready, size, near⟩ := (ready_rescan up some).rounds items
    exact ⟨q', ran, size, near, ready.places⟩
  · intro name workers some
    obtain ⟨q, made, ready, empty, even⟩ := ready_new name some
    obtain ⟨q', ran, ready, size, near⟩ := ready.rounds items
    rw [empty, Nat.zero_add] at size
    rw [even] at near
    exact ⟨q, q', made, ran, size, near, ready.places⟩

/-- Queues that differ by five items before the first one is added. -/
def uneven : WorkQueues Nat := ⟨"work", [[1, 2, 3, 4, 5], [], [6, 7]], 0, true⟩

theorem balanced_of_rounds_uneven :
    1 ≤ uneven.workers ∧ uneven.isOpen = true ∧
      ∃ q', uneven.rescan.rounds [8, 9, 10] = .ok q' ∧ q'.size = 10 ∧ spread q'.lengths ≤ 5 ∧ q'.Places 11 := by
  obtain ⟨q', ran, size, near, places⟩ := (balanced_of_rounds [8, 9, 10]).1 uneven (by decide) rfl
  exact ⟨by decide, rfl, q', ran, size, near, places 11⟩

end WorkQueues

end PeerLink
