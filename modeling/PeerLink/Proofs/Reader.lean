import PeerLink.Reader

/-!
What a reader that succeeded has taken off the front: the field, spelled as its writer spells it. What it leaves is
the end of what it was given.
-/
namespace PeerLink

theorem ok_of_bind {α β : Type} {first : Except Fault α} {next : α → Except Fault β} {b : β}
    (h : first >>= next = .ok b) : ∃ a, first = .ok a ∧ next a = .ok b := by
  cases first with
  | error fault => cases h
  | ok a => exact ⟨a, rfl, h⟩

theorem ok_of_map {α β : Type} {first : Except Fault α} {next : α → β} {b : β} (h : first.map next = .ok b) :
    ∃ a, first = .ok a ∧ next a = b := by
  cases first with
  | error fault => cases h
  | ok a => exact ⟨a, rfl, Except.ok.inj h⟩

namespace Reader

variable {α β : Type} {bs rest : Bytes}

theorem bind_ok {first : Reader α} {next : α → Reader β} {b : β}
    (h : (first >>= next) bs = .ok (b, rest)) :
    ∃ a between, first bs = .ok (a, between) ∧ next a between = .ok (b, rest) := by
  cases read : first bs with
  | error fault =>
    simp only [bind, StateT.bind, Except.bind, read] at h
    cases h
  | ok taken =>
    obtain ⟨a, between⟩ := taken
    simp only [bind, StateT.bind, Except.bind, read] at h
    exact ⟨a, between, rfl, h⟩

/-- A number that was read is spelled in the bytes it was read from. -/
theorem nat_ok {width n : Nat} (h : nat width bs = .ok (n, rest)) :
    bs = Bytes.ofNat width n ++ rest ∧ n < Bytes.capacity width := by
  unfold nat at h
  split at h
  · next head left taken =>
    cases h
    obtain ⟨rfl, rfl⟩ := take_eq_ok taken
    exact ⟨by rw [Bytes.ofNat_toNat], Bytes.toNat_lt head⟩
  · cases h

theorem u24_ok {a : UInt24} (h : u24 bs = .ok (a, rest)) : bs = a.toBytes ++ rest := by
  unfold u24 at h
  split at h
  · next head left taken =>
    cases h
    obtain ⟨rfl, width⟩ := take_eq_ok taken
    rw [UInt24.toBytes_ofBytes width]
  · cases h

/-! ### What is left -/

/-- What a successful read leaves is the end of what it was given. -/
def LeavesEnd (item : Reader α) : Prop := ∀ bs a rest, item bs = .ok (a, rest) → rest <:+ bs

theorem leavesEnd_take (n : Nat) : (take n).LeavesEnd := by
  intro bs head rest h
  obtain ⟨rfl, -⟩ := take_eq_ok h
  exact List.suffix_append head rest

theorem leavesEnd_nat (width : Nat) : (nat width).LeavesEnd := by
  intro bs n rest h
  obtain ⟨rfl, -⟩ := nat_ok h
  exact List.suffix_append _ rest

theorem leavesEnd_prefixed : prefixed.LeavesEnd := by
  intro bs run rest h
  unfold prefixed at h
  split at h
  · next n behind sized => exact (leavesEnd_take n behind run rest h).trans (leavesEnd_nat 2 bs n behind sized)
  · cases h

theorem LeavesEnd.manyOnto {item : Reader α} (h : item.LeavesEnd) (n : Nat) (read : List α) :
    (manyOnto item n read).LeavesEnd := by
  induction n generalizing read with
  | zero =>
    intro bs as rest taken
    cases taken
    exact List.suffix_refl bs
  | succ n ih =>
    intro bs as rest taken
    simp only [Reader.manyOnto] at taken
    split at taken
    · next a behind first => exact (ih (a :: read) behind as rest taken).trans (h bs a behind first)
    · cases taken

end Reader

end PeerLink
