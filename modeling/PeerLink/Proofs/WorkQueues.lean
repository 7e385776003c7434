import PeerLink.WorkQueues

/-! Work queues seen one at a time: what each operation does to a queue, and that it leaves the others alone. -/
namespace PeerLink.WorkQueues

variable {α : Type} {q q' : WorkQueues α} {index : Nat} {item : α}

/-- The queue of a worker; one that does not exist has none. -/
def queue (q : WorkQueues α) (index : Nat) : List α := q.queues[index]?.getD []

theorem new_ok {name : String} {workers : Nat} (h : new name workers = .ok q) :
    q.workers = workers ∧ q.isOpen = true ∧ ∀ i, q.queue i = [] := by
  unfold new at h
  split at h
  · cases h
  · cases h
    refine ⟨List.length_replicate, rfl, fun i => ?_⟩
    rw [queue, List.getElem?_replicate]
    split <;> rfl

/-- An item that is taken goes behind the others of its queue. -/
theorem pushTo_ok (h : q.pushTo index item = .ok q') :
    index < q.workers ∧ q'.workers = q.workers ∧ q'.isOpen = q.isOpen ∧
      q'.queue index = q.queue index ++ [item] ∧ ∀ i ≠ index, q'.queue i = q.queue i := by
  unfold pushTo at h
  split at h
  · split at h
    · next inRange =>
      cases h
      refine ⟨inRange, List.length_modify .., rfl, ?_, fun i other => ?_⟩
      · simp only [queue, List.getElem?_modify_eq]
        rw [List.getElem?_eq_getElem inRange]
        rfl
      · simp only [queue, List.getElem?_modify_ne _ _ other.symm]
    · cases h
  · cases h

/-- The first item leaves its queue. -/
theorem pop?_some (h : q.pop? index = some (item, q')) :
    q'.workers = q.workers ∧ q'.isOpen = q.isOpen ∧ q.queue index = item :: q'.queue index ∧
      ∀ i ≠ index, q'.queue i = q.queue i := by
  unfold pop? at h
  split at h
  · next first items found =>
    cases h
    refine ⟨List.length_set, rfl, ?_, fun i other => ?_⟩
    · obtain ⟨inRange, -⟩ := List.getElem?_eq_some_iff.mp found
      simp only [queue, found, List.getElem?_set_self inRange]
      rfl
    · simp only [queue, List.getElem?_set_ne other.symm]
  · cases h

theorem pop?_none (h : q.pop? index = none) : q.queue index = [] := by
  unfold pop? at h
  split at h
  · cases h
  · next waits =>
    unfold queue
    cases found : q.queues[index]? with
    | none => rfl
    | some items =>
      cases items with
      | nil => rfl
      | cons first items => exact absurd found (waits first items)

end PeerLink.WorkQueues
