import PeerLink.Block.Writing
import PeerLink.Proofs.Block

/-!
Writing a block appends its encoding to what is there, and nothing if it has none. Whoever writes otherwise can at
least not touch what was there before.
-/
namespace PeerLink

variable {α : Type}

namespace Writing

/-- What was there stays in front, whether the writing succeeds or fails. -/
def Appends (w : Writing) : Prop := ∀ buffer, buffer <+: (w buffer).2

/-- The writing appends what is encoded, or fails in front of it. -/
def Writes (w : Writing) (encoded : Except Fault Bytes) : Prop :=
  ∀ buffer, w buffer =
    match encoded with
    | .ok bs => (.ok (), buffer ++ bs)
    | .error e => (.error e, buffer)

theorem Writes.appends {w : Writing} {encoded : Except Fault Bytes} (h : w.Writes encoded) : w.Appends := by
  intro buffer
  rw [h buffer]
  cases encoded with
  | ok bs => exact List.prefix_append buffer bs
  | error e => exact List.prefix_refl buffer

theorem writes_put (bs : Bytes) : (put bs).Writes (.ok bs) := fun _ => rfl

theorem Writes.behind {later : Writing} {bs : Bytes} (h : later.Writes (.ok bs)) (first : Bytes) :
    Writes (do put first; later) (.ok (first ++ bs)) := by
  intro buffer
  change later (buffer ++ first) = (.ok (), buffer ++ (first ++ bs))
  rw [h, ← List.append_assoc]

theorem writes_putPrefixed (run : Bytes) : (putPrefixed run).Writes run.withPrefix := by
  intro buffer
  unfold putPrefixed Bytes.withPrefix
  split
  · exact (writes_put run).behind _ buffer
  · rfl

theorem writes_putEach (t : Scalar α) (vs : List α) : (putEach t vs).Writes (.ok (vs.flatMap t.encode)) := by
  induction vs with
  | nil => exact fun buffer => congrArg (Prod.mk _) (List.append_nil buffer).symm
  | cons v vs ih => exact ih.behind (t.encode v)

end Writing

namespace Block

open Writing

/-- A block goes behind what is there as it is encoded, and one that cannot be encoded leaves nothing. -/
theorem writes_write (block : Block α) (v : α) : (block.write v).Writes (block.encode v) := by
  cases block with
  | scalar t => exact writes_put _
  | text => exact writes_putPrefixed _
  | bytes => exact writes_putPrefixed v
  | wideText =>
    intro buffer
    have length : (wideUnits v).length = v.toList.length * 4 := Scalar.char.length_flatMap v.toList
    rw [write, encode, Bytes.withPrefix, length]
    split
    · exact (writes_putEach .char v.toList).behind _ buffer
    · rfl
  | array t =>
    intro buffer
    rw [write, encode]
    split
    · exact (writes_putEach t v).behind _ buffer
    · rfl
  | object f =>
    intro buffer
    rw [write, encode]
    cases f.write v with
    | some out => exact writes_putPrefixed out buffer
    | none => rfl

end Block

end PeerLink
