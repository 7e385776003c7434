import PeerLink.Proofs.Block.Canonical

/-!
What a reader says when it runs short: how many bytes it needs, and how many are left. It needs more than are left, and
if it is given more bytes, but fewer than the difference, it runs short again at the same place. Both numbers are counted
from one place: behind its length for a run that is cut short, from the start for any other block, an array included.
-/
namespace PeerLink

variable {α β : Type} {bs : Bytes} {needed left : Nat} {e : Fault}

namespace Reader

/-- What the numbers say of a reader that ran short. The first `passed` of the bytes it was given do not count as
left. -/
structure Shortfall (item : Reader α) (bs : Bytes) (needed left passed : Nat) : Prop where
  short : left < needed
  counted : left + passed = bs.length
  again : ∀ more : Bytes, left + more.length < needed →
    item (bs ++ more) = .error (.bufferUnderrun needed (left + more.length))

/-- Whenever the reader runs short, its numbers are right. How many bytes do not count as left depends on how many there
are. -/
def Reports (item : Reader α) (passed : Nat → Nat) : Prop :=
  ∀ bs needed left, item bs = .error (.bufferUnderrun needed left) → item.Shortfall bs needed left (passed bs.length)

theorem Reports.congr {item : Reader α} {other : Reader β} {passed : Nat → Nat} (reports : item.Reports passed)
    (same : ∀ bs needed left, other bs = .error (.bufferUnderrun needed left) ↔
      item bs = .error (.bufferUnderrun needed left)) : other.Reports passed := by
  intro bs needed left failed
  obtain ⟨short, counted, again⟩ := reports bs needed left ((same bs needed left).mp failed)
  exact ⟨short, counted, fun more few => (same _ _ _).mpr (again more few)⟩

theorem take_eq_error {n : Nat} : take n bs = .error e ↔ bs.length < n ∧ e = .bufferUnderrun n bs.length := by
  rw [← Bytes.split?_eq_none_iff, take]
  cases Bytes.split? n bs with
  | some parts => simp
  | none => simp [eq_comm]

theorem nat_eq_error {width : Nat} :
    nat width bs = .error e ↔ bs.length < width ∧ e = .bufferUnderrun width bs.length := by
  rw [← take_eq_error, nat]
  cases take width bs with
  | ok taken => simp
  | error fault => simp

theorem length_of_nat {width n : Nat} {rest : Bytes} (read : nat width bs = .ok (n, rest)) :
    bs.length = width + rest.length := by
  obtain ⟨rfl, -⟩ := nat_ok read
  rw [List.length_append, Bytes.length_ofNat]

theorem reports_take (n : Nat) : (take n).Reports fun _ => 0 := by
  intro bs needed left failed
  obtain ⟨short, same⟩ := take_eq_error.mp failed
  cases same
  refine ⟨short, Nat.add_zero _, fun more few => ?_⟩
  rw [← List.length_append] at few ⊢
  exact take_eq_error.mpr ⟨few, rfl⟩

theorem reports_nat (width : Nat) : (nat width).Reports fun _ => 0 :=
  (reports_take width).congr fun _ _ _ => by rw [nat_eq_error, take_eq_error]

/-- The bytes that a run has been read past when it is cut short: those of its length, if they are there. -/
def lengthPassed (there : Nat) : Nat := if 2 ≤ there then 2 else 0

theorem reports_prefixed : prefixed.Reports lengthPassed := by
  intro bs needed left failed
  unfold prefixed at failed
  split at failed
  · next n rest sized =>
    obtain ⟨short, counted, again⟩ := reports_take n rest needed left failed
    have behind := length_of_nat sized
    refine ⟨short, ?_, fun more few => ?_⟩
    · have there : 2 ≤ bs.length := behind ▸ Nat.le_add_right 2 _
      simp only [Nat.add_zero] at counted
      rw [lengthPassed, if_pos there, counted, behind, Nat.add_comm]
    · simp only [prefixed, local_nat 2 bs n rest sized more]
      exact again more few
  · next unsized =>
    cases failed
    obtain ⟨short, counted, again⟩ := reports_nat 2 bs needed left unsized
    obtain ⟨few, -⟩ := nat_eq_error.mp unsized
    refine ⟨short, ?_, fun more few => ?_⟩
    · rw [lengthPassed, if_neg (Nat.not_le.mpr few)]
      exact counted
    · simp only [prefixed, again more few]

end Reader

namespace Scalar

theorem decode_eq_underrun {t : Scalar α} :
    t.decode bs = .error (.bufferUnderrun needed left) ↔
      Reader.nat t.width bs = .error (.bufferUnderrun needed left) := by
  rw [decode]
  cases Reader.nat t.width bs with
  | error fault => simp
  | ok taken =>
    simp only
    cases t.ofNat? taken.1 <;> simp [Fault.invalidChar]

theorem reports_decode (t : Scalar α) : t.decode.Reports fun _ => 0 :=
  (Reader.reports_nat t.width).congr fun _ _ _ => decode_eq_underrun

/-- Items for which there are enough bytes do not run short of them. -/
theorem manyOnto_ne_underrun {t : Scalar α} {n : Nat} {read : List α} (room : n * t.width ≤ bs.length) :
    Reader.manyOnto t.decode n read bs ≠ .error (.bufferUnderrun needed left) := by
  induction n generalizing read bs with
  | zero =>
    intro failed
    cases failed
  | succ n ih =>
    intro failed
    rw [Nat.succ_mul] at room
    simp only [Reader.manyOnto] at failed
    split at failed
    · next v rest first =>
      obtain ⟨m, -, -, rfl⟩ := decode_ok first
      rw [List.length_append, Bytes.length_ofNat] at room
      exact ih (by omega) failed
    · next stopped =>
      cases failed
      have short := (Reader.nat_eq_error.mp (decode_eq_underrun.mp stopped)).1
      omega

end Scalar

namespace Block

theorem reports_array (t : Scalar α) : (array t).decode.Reports fun _ => 0 := by
  intro bs needed left failed
  simp only [decode] at failed
  split at failed
  · next unsized =>
    cases failed
    obtain ⟨short, counted, again⟩ := Reader.reports_nat 2 bs needed left unsized
    exact ⟨short, counted, fun more few => by simp only [decode, again more few]⟩
  · next n rest sized =>
    split at failed
    · next room => exact absurd failed (Scalar.manyOnto_ne_underrun room)
    · next beyond =>
      cases failed
      -- The count is read already, but both numbers take it in.
      have behind := Reader.length_of_nat sized
      refine ⟨by omega, Nat.add_zero _, fun more few => ?_⟩
      have still : ¬n * t.width ≤ (rest ++ more).length := by
        rw [List.length_append]
        omega
      rw [← List.length_append]
      simp only [decode, Reader.local_nat 2 bs n rest sized more, if_neg still]

/-- Whether the block is a run behind its length in bytes. -/
def isRun : Block α → Bool
  | text | wideText | bytes | object _ => true
  | scalar _ | array _ => false

/-- A run that is all there may stand for nothing, but it is not short. -/
theorem reports_decode (block : Block α) :
    block.decode.Reports fun there => if block.isRun then Reader.lengthPassed there else 0 := by
  cases block with
  | scalar t => exact t.reports_decode
  | array t => exact reports_array t
  | bytes => exact Reader.reports_prefixed
  | text | wideText | object =>
    refine Reader.reports_prefixed.congr fun bs needed left => ?_
    simp only [decode]
    cases Reader.prefixed bs with
    | error fault => simp
    | ok taken =>
      simp only
      split <;> simp [Fault.invalidUtf8, Fault.invalidUtf32]

end Block

end PeerLink
