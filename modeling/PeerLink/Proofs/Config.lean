import PeerLink.Config.Problems
import PeerLink.Proofs.Block
import PeerLink.Proofs.Pipeline

/-! Settings that nothing is wrong with, the warning aside: what they can be and that they give a pipeline. -/
namespace PeerLink.TransportConfig

variable {c : TransportConfig} {bad : Bool} {text : String}

def Harmless (problems : List String) : Prop := ∀ problem ∈ problems, problem = plainWarning

/-- Nothing is wrong but that everybody may read. -/
def Usable (c : TransportConfig) : Prop := Harmless c.problems

theorem harmless_append {first others : List String} :
    Harmless (first ++ others) ↔ Harmless first ∧ Harmless others := by
  simp only [Harmless, List.mem_append, or_imp, forall_and]

/-- No problem begins as the warning does. -/
theorem not_harmless_singleton (other : text.toList.head? ≠ some 'W') : ¬Harmless [text] := by
  intro harmless
  rw [harmless text (List.mem_singleton_self text)] at other
  exact other rfl

theorem harmless_problemIf (other : text.toList.head? ≠ some 'W') :
    Harmless (problemIf bad text) ↔ bad = false := by
  cases bad with
  | true =>
    constructor
    · intro harmless
      exact absurd harmless (not_harmless_singleton other)
    · intro h
      cases h
  | false => simp [problemIf, Harmless]

/-- A setting with one problem below its range and another one above it. -/
theorem harmless_range {low high : Prop} [Decidable low] [Decidable high] {below above : String}
    (first : below.toList.head? ≠ some 'W') (other : above.toList.head? ≠ some 'W') :
    Harmless (if low then [below] else problemIf high above) ↔ ¬low ∧ ¬high := by
  split
  · next small =>
    constructor
    · intro harmless
      exact absurd harmless (not_harmless_singleton first)
    · rintro ⟨enough, -⟩
      exact absurd small enough
  · next enough =>
    rw [harmless_problemIf other, decide_eq_false_iff_not]
    exact (and_iff_right enough).symm

theorem harmless_frameProblems :
    Harmless c.frameProblems ↔ headerSize ≤ c.maxFrame ∧ c.maxFrame ≤ maxFrameSize := by
  rw [frameProblems, harmless_range (by simp [toString]) (by simp [toString]), Nat.not_lt, Nat.not_lt]

theorem usable_iff : c.Usable ↔ (headerSize ≤ c.maxFrame ∧ c.maxFrame ≤ maxFrameSize) ∧
    (c.encryption.requiresKey = true → c.encryptionKey.getD "" ≠ "") := by
  have warned : Harmless (problemIf (c.encryption == .none) plainWarning) := by
    intro problem listed
    unfold problemIf at listed
    split at listed
    · exact List.mem_singleton.mp listed
    · cases listed
  rw [Usable, problems, harmless_append, harmless_append, harmless_frameProblems,
    harmless_problemIf (by simp [toString]), and_iff_left warned]
  apply and_congr_right
  intro _
  simp

theorem Usable.pipeline (usable : c.Usable) : ∃ p, c.pipeline = .ok p := by
  obtain ⟨-, keyed⟩ := usable_iff.mp usable
  have accepted : (c.encryption.requiresKey &&
      ((c.encryptionKey.map fun key => key.toUTF8.toList).getD []).isEmpty) = false := by
    rw [Bool.and_eq_false_imp]
    intro required
    have nonempty := keyed required
    cases given : c.encryptionKey with
    | none =>
      rw [given] at nonempty
      exact absurd rfl nonempty
    | some key =>
      rw [given] at nonempty
      have spelled : key.toUTF8.toList ≠ [] := by
        intro empty
        apply nonempty
        apply String.utf8ByteSize_eq_zero_iff.mp
        change key.toUTF8.data.size = 0
        rw [← Array.length_toList, ← Block.toList_eq, empty]
        rfl
      simpa using spelled
  simp only [TransportConfig.pipeline, Pipeline.build, EncryptionKind.build, Ciphers.build, accepted]
  exact ⟨_, rfl⟩
end PeerLink.TransportConfig
