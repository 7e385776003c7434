import Mathlib.Algebra.BigOperators.Group.List.Basic
import Mathlib.Algebra.Ring.Nat

/-! Lists that grow at their end and change in one place. -/
namespace PeerLink

variable {α β : Type} {l : List α} {a a' b : α} {n i : Nat}

theorem at_newest {older : List α} (newest : l = older ++ [a]) (a' : α) :
    l[older.length]? = some a ∧ l.set older.length a' = older ++ [a'] := by
  subst newest
  refine ⟨List.getElem?_concat_length, ?_⟩
  rw [List.set_append_right _ _ (Nat.le_refl _), Nat.sub_self]
  rfl

/-- What is found in a list that grew at its end was there, or is the newest. -/
theorem getElem?_snoc : (l ++ [a])[n]? = some b ↔ l[n]? = some b ∨ n = l.length ∧ b = a := by
  rcases Nat.lt_trichotomy n l.length with inside | rfl | beyond
  · rw [List.getElem?_append_left inside]
    simp [Nat.ne_of_lt inside]
  · simp [eq_comm]
  · have outside : (l ++ [a]).length ≤ n := by
      rw [List.length_append]
      exact beyond
    rw [List.getElem?_eq_none outside, List.getElem?_eq_none (Nat.le_of_lt beyond)]
    simp [Nat.ne_of_gt beyond]

theorem getElem?_put (here : l[n]? = some a) :
    (l.set n a')[i]? = some b ↔ i = n ∧ b = a' ∨ i ≠ n ∧ l[i]? = some b := by
  obtain ⟨inside, -⟩ := List.getElem?_eq_some_iff.mp here
  rw [List.getElem?_set, if_pos inside]
  by_cases same : n = i
  · simp [same, eq_comm]
  · simp [same, Ne.symm same]

theorem map_put (here : l[n]? = some a) {f : α → β} (same : f a' = f a) : (l.set n a').map f = l.map f := by
  obtain ⟨inside, rfl⟩ := List.getElem?_eq_some_iff.mp here
  rw [List.map_set, same, ← List.map_set, List.set_getElem_self]

theorem mem_put (here : l[n]? = some a) (present : b ∈ l) (other : b ≠ a) : b ∈ l.set n a' := by
  obtain ⟨i, place⟩ := List.mem_iff_getElem?.mp present
  refine List.mem_iff_getElem?.mpr ⟨i, (getElem?_put here).mpr (.inr ⟨?_, place⟩)⟩
  rintro rfl
  rw [here] at place
  exact other (Option.some.inj place).symm

theorem sum_put (here : l[n]? = some a) (a' : α) (f : α → Nat) :
    ((l.set n a').map f).sum + f a = (l.map f).sum + f a' := by
  obtain ⟨inside, rfl⟩ := List.getElem?_eq_some_iff.mp here
  have whole : (l.map f).sum = ((l.map f).set n (f l[n])).sum := by rw [← List.map_set, List.set_getElem_self]
  rw [whole, List.map_set, List.sum_set, List.sum_set, List.length_map, if_pos inside, if_pos inside]
  omega

/-- A write changes a count by what it takes away and what it puts in place. -/
theorem countP_put (here : l[n]? = some a) (a' : α) (p : α → Bool) :
    (l.set n a').countP p + (if p a then 1 else 0) = l.countP p + (if p a' then 1 else 0) := by
  obtain ⟨inside, rfl⟩ := List.getElem?_eq_some_iff.mp here
  have counted : (if p l[n] then 1 else 0) ≤ l.countP p := by
    split
    · next holds => exact List.countP_pos_iff.mpr ⟨_, List.getElem_mem inside, holds⟩
    · exact Nat.zero_le _
  rw [List.countP_set inside]
  omega

end PeerLink
