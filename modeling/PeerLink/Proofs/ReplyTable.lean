import Mathlib.Data.List.Perm.Subperm
import PeerLink.Proofs.Entries
import PeerLink.Proofs.Message.ReplySlot
import PeerLink.ReplyTable

/-!
What the operations of a reply table do. A search that starts anywhere comes past every slot of the half, also
where the counter wraps in the middle of a round, so it ends in a slot whenever one is free. A slot of a half
fits a type, and no slot is in both halves.
-/
namespace PeerLink

namespace Role

theorem owns_iff {role : Role} {slot : Nat} :
    role.owns slot = true ↔ role.firstSlot ≤ slot ∧ slot < role.firstSlot + role.span :=
  decide_eq_true_iff

theorem fits_of_owns {role : Role} {slot : Nat} (owned : role.owns slot = true) :
    slot + replyBase < UInt24.size := by
  obtain ⟨-, above⟩ := owns_iff.mp owned
  have end_of_half : role.firstSlot + role.span ≤ slotCount := by cases role <;> decide
  have room : slotCount + replyBase = UInt24.size := rfl
  omega

theorem eq_of_owns {first second : Role} {slot : Nat} (one : first.owns slot = true)
    (other : second.owns slot = true) : first = second := by
  rw [owns_iff] at one other
  cases first <;> cases second <;> simp only [firstSlot, span] at one other <;> first | rfl | omega

theorem span_eq (role : Role) : role.span = 8388603 := by cases role <;> rfl

/-- How many slots a search tries until it has come past all of the half. Where the counter wraps it begins again at the
first slot, although it has come past only `UInt32.size % role.span` of them since the last time. -/
def round (role : Role) : Nat := role.span + UInt32.size % role.span

theorem round_le_probes (role : Role) : role.round ≤ ReplyTable.probes role := by cases role <;> decide

/-- From any counter on, a search reaches any slot of the half, if not before the counter wraps then among the slots that
follow from zero on. -/
theorem exists_probe {role : Role} {slot : Nat} (owned : role.owns slot = true) (counter : UInt32) :
    ∃ k < role.round, role.slot (counter + UInt32.ofNat k) = slot := by
  obtain ⟨low, high⟩ := owns_iff.mp owned
  have small := counter.toNat_lt
  have width := role.span_eq
  simp only [round, UInt32.size, Role.slot, UInt32.toNat_add, UInt32.toNat_ofNat', width] at *
  let ahead := (slot - role.firstSlot + 8388603 - counter.toNat % 8388603) % 8388603
  by_cases reached : counter.toNat + ahead < 4294967296
  · refine ⟨ahead, ?_, ?_⟩
    · omega
    · omega
  · refine ⟨4294967296 - counter.toNat + (slot - role.firstSlot), ?_, ?_⟩
    · omega
    · omega

end Role

namespace ReplyTable

variable {κ : Type} {t t' : ReplyTable κ} {callback : κ} {slot : Nat}

theorem isPending_iff : t.isPending slot = true ↔ slot ∈ t.pending.map Prod.fst := by
  simp [isPending]

/-- A slot is taken by one callback. -/
theorem eq_of_pending {first second : κ} (one : (slot, first) ∈ t.pending)
    (other : (slot, second) ∈ t.pending) : first = second := by
  rw [← lookup_eq_some t.distinct] at one other
  rw [one] at other
  exact Option.some.inj other

theorem add_ofNat_succ (counter : UInt32) (k : Nat) :
    counter + UInt32.ofNat (k + 1) = counter + 1 + UInt32.ofNat k := by
  rw [UInt32.add_assoc, Nat.add_comm k 1, UInt32.ofNat_add]
  rfl

theorem isPending_of_probe_none {n : Nat} {counter : UInt32} (h : t.probe n counter = none) :
    ∀ k < n, t.isPending (t.role.slot (counter + UInt32.ofNat k)) = true := by
  induction n generalizing counter with
  | zero =>
    intro k below
    cases below
  | succ n ih =>
    rw [probe] at h
    split at h
    · next taken =>
      intro k below
      cases k with
      | zero => simpa using taken
      | succ k =>
        rw [add_ofNat_succ]
        exact ih h k (Nat.lt_of_succ_lt_succ below)
    · cases h

theorem owns_of_probe {n : Nat} {counter behind : UInt32} (h : t.probe n counter = some (slot, behind)) :
    t.role.owns slot = true := by
  induction n generalizing counter with
  | zero => cases h
  | succ n ih =>
    rw [probe] at h
    split at h
    · exact ih h
    · cases h
      exact t.role.owns_slot counter

theorem register?_ok (h : t.register? callback = some (slot, t')) :
    t.role.owns slot = true ∧ t.isPending slot = false ∧ t'.role = t.role ∧
      t'.pending = (slot, callback) :: t.pending := by
  unfold register? at h
  split at h
  · cases h
  · next found =>
    cases h
    exact ⟨owns_of_probe found, isPending_probe found, rfl, rfl⟩

/-- A free slot of the half ends a search of at least a round. -/
theorem exists_probe_eq_some {n : Nat} (free : ∃ slot, t.role.owns slot = true ∧ t.isPending slot = false)
    (enough : t.role.round ≤ n) (counter : UInt32) : ∃ slot behind, t.probe n counter = some (slot, behind) := by
  cases found : t.probe n counter with
  | none =>
    obtain ⟨slot, owned, vacant⟩ := free
    obtain ⟨k, below, rfl⟩ := Role.exists_probe owned counter
    have taken := isPending_of_probe_none found k (Nat.lt_of_lt_of_le below enough)
    rw [vacant] at taken
    cases taken
  | some result => exact ⟨_, _, rfl⟩

/-- A half with more slots than requests that wait has a free one. -/
theorem exists_free (room : t.size < t.role.span) : ∃ slot, t.role.owns slot = true ∧ t.isPending slot = false := by
  rw [← not_forall_not]
  intro full
  have taken : List.range' t.role.firstSlot t.role.span ⊆ t.pending.map Prod.fst := by
    intro slot inside
    have owned := Role.owns_iff.mpr (List.mem_range'_1.mp inside)
    rw [← isPending_iff, ← Bool.not_eq_false]
    exact fun vacant => full slot ⟨owned, vacant⟩
  have fits := (List.subperm_of_subset List.nodup_range' taken).length_le
  rw [List.length_range', List.length_map] at fits
  exact absurd room (Nat.not_lt.mpr fits)

theorem register?_of_probe {behind : UInt32} (found : t.probe (probes t.role) t.counter = some (slot, behind))
    (callback : κ) :
    ∃ t', t.register? callback = some (slot, t') ∧ t'.role = t.role ∧ t'.counter = behind ∧
      t'.pending = (slot, callback) :: t.pending := by
  unfold register?
  split
  · next none_free =>
    rw [found] at none_free
    cases none_free
  · next found' =>
    rw [found] at found'
    cases found'
    exact ⟨_, rfl, rfl, rfl, rfl⟩

theorem exists_register? (free : ∃ slot, t.role.owns slot = true ∧ t.isPending slot = false)
    (callback : κ) : ∃ slot t', t.register? callback = some (slot, t') := by
  obtain ⟨slot, behind, found⟩ := exists_probe_eq_some free t.role.round_le_probes t.counter
  obtain ⟨t', kept, -⟩ := register?_of_probe found callback
  exact ⟨slot, t', kept⟩

/-- The slot of the counter is taken if it is free. -/
theorem register?_of_free (vacant : t.isPending (t.role.slot t.counter) = false) (callback : κ) :
    ∃ t', t.register? callback = some (t.role.slot t.counter, t') ∧ t'.role = t.role ∧
      t'.counter = t.counter + 1 ∧ t'.pending = (t.role.slot t.counter, callback) :: t.pending := by
  have some_probe : probes t.role = 2 * t.role.span - 2 + 1 := by
    have positive := t.role.span_pos
    rw [probes]
    omega
  refine register?_of_probe ?_ callback
  rw [some_probe, probe, vacant]
  rfl

theorem mem_erase {entry : Nat × κ} : entry ∈ (t.erase slot).pending ↔ entry ∈ t.pending ∧ entry.1 ≠ slot := by
  simp [erase, List.mem_filter]

theorem resolve?_eq_some {answer : Message} :
    t.resolve? answer = some (callback, t') ↔
      ∃ slot, answer.replySlot = some slot ∧ (slot, callback) ∈ t.pending ∧ t' = t.erase slot := by
  unfold resolve?
  constructor
  · intro h
    split at h
    · cases h
    · next slot carried =>
      obtain ⟨found, looked, same⟩ := Option.map_eq_some_iff.mp h
      cases same
      exact ⟨slot, carried, (lookup_eq_some t.distinct).mp looked, rfl⟩
  · rintro ⟨slot, carried, waits, rfl⟩
    simp only [carried, (lookup_eq_some t.distinct).mpr waits, Option.map_some]

theorem resolve?_eq_none {answer : Message} :
    t.resolve? answer = none ↔ ∀ slot callback, answer.replySlot = some slot → (slot, callback) ∉ t.pending := by
  constructor
  · intro unresolved slot callback carried waits
    have resolved := resolve?_eq_some.mpr ⟨slot, carried, waits, rfl⟩
    rw [unresolved] at resolved
    cases resolved
  · intro vacant
    cases found : t.resolve? answer with
    | none => rfl
    | some result =>
      obtain ⟨slot, carried, waits, -⟩ := resolve?_eq_some.mp (found : _ = some (result.1, result.2))
      exact absurd waits (vacant slot result.1 carried)

end ReplyTable

end PeerLink
