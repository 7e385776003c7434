import PeerLink.Proofs.Block

/-!
Why a block cannot be read. Bytes that are missing or that stand for no value are the fault of whoever sent them, and
every block says so, except for one case: a nested object that is all there and spells no value of its type fails as
objects do, with the same fault as a value that has no written form.
-/
namespace PeerLink

variable {α : Type} {bs : Bytes} {e : Fault}

/-- Whenever the reader fails, it blames the sender of the bytes. -/
def Reader.Blames (item : Reader α) : Prop := ∀ bs e, item bs = .error e → e.isPeerMisbehaving = true

namespace Reader

theorem blames_take (n : Nat) : (take n).Blames := by
  intro bs e failed
  unfold take at failed
  split at failed
  · cases failed
  · cases failed
    rfl

theorem blames_nat (width : Nat) : (nat width).Blames := by
  intro bs e failed
  unfold nat at failed
  split at failed
  · cases failed
  · next short =>
    cases failed
    exact blames_take width bs _ short

theorem blames_prefixed : prefixed.Blames := by
  intro bs e failed
  unfold prefixed at failed
  split at failed
  · next n behind _ => exact blames_take n behind e failed
  · next short =>
    cases failed
    exact blames_nat 2 bs _ short

theorem Blames.manyOnto {item : Reader α} (blames : item.Blames) (n : Nat) (read : List α) :
    (manyOnto item n read).Blames := by
  induction n generalizing read with
  | zero =>
    intro bs e failed
    cases failed
  | succ n ih =>
    intro bs e failed
    simp only [Reader.manyOnto] at failed
    split at failed
    · next a behind _ => exact ih (a :: read) behind e failed
    · next first =>
      cases failed
      exact blames bs _ first

end Reader

theorem Scalar.blames_decode (t : Scalar α) : t.decode.Blames := by
  intro bs e failed
  unfold decode at failed
  split at failed
  · next short =>
    cases failed
    exact Reader.blames_nat t.width bs _ short
  · split at failed
    · cases failed
    · cases failed
      rfl

namespace Block

/-- A nested object that is all there and spells no value of its type. -/
def Garbled : Block α → Bytes → Prop
  | object f, bs => ∃ run rest, Reader.prefixed bs = .ok (run, rest) ∧ f.read run = none
  | _, _ => False

/-- The sender is blamed for every block that cannot be read but a garbled object. -/
theorem blames_iff {block : Block α} (failed : block.decode bs = .error e) :
    e.isPeerMisbehaving = true ↔ ¬block.Garbled bs := by
  cases block with
  | scalar t => exact iff_of_true (t.blames_decode bs e failed) not_false
  | bytes => exact iff_of_true (Reader.blames_prefixed bs e failed) not_false
  | text | wideText =>
    refine iff_of_true ?_ not_false
    simp only [decode] at failed
    split at failed
    · next short =>
      cases failed
      exact Reader.blames_prefixed bs _ short
    · split at failed
      · cases failed
      · cases failed
        rfl
  | array t =>
    refine iff_of_true ?_ not_false
    simp only [decode] at failed
    split at failed
    · next short =>
      cases failed
      exact Reader.blames_nat 2 bs _ short
    · next n behind _ =>
      split at failed
      · exact t.blames_decode.manyOnto n [] behind e failed
      · cases failed
        rfl
  | object f =>
    simp only [decode] at failed
    split at failed
    · next short =>
      cases failed
      refine iff_of_true (Reader.blames_prefixed bs _ short) ?_
      rintro ⟨run, rest, read, -⟩
      rw [short] at read
      cases read
    · next run rest read =>
      split at failed
      · cases failed
      · next spelled =>
        cases failed
        refine iff_of_false Bool.false_ne_true ?_
        rw [Classical.not_not]
        exact ⟨run, rest, read, spelled⟩

end Block

end PeerLink
