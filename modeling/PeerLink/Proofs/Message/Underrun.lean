import PeerLink.Proofs.Block.Underrun
import PeerLink.Proofs.Message.Reached

/-!
Reads for which a message is too short. The cursor stays where it is, and what the read says can be held against what
remains there. The two agree but for a run whose length is there and whose bytes are not: two bytes remain that the read
does not count.
-/
namespace PeerLink.MessageBuffer

variable {α : Type} {b b' : MessageBuffer} {block : Block α} {e : Fault} {needed left : Nat}

theorem get_eq_error : get block b = (.error e, b') ↔ block.decode (b.buffer.drop b.cursor) = .error e ∧ b' = b := by
  have ahead : (Cursor.ofBytes b.buffer b.cursor).rest = b.buffer.drop b.cursor := rfl
  rw [get, Block.walk_eq, Cursor.read, ahead]
  cases block.decode (b.buffer.drop b.cursor) with
  | ok taken =>
    constructor
    · intro failed
      cases failed
    · rintro ⟨stopped, -⟩
      cases stopped
  | error fault =>
    constructor
    · intro failed
      cases failed
      exact ⟨rfl, rfl⟩
    · rintro ⟨stopped, rfl⟩
      cases stopped
      rfl

/-- A read that runs short, of any block at any place in a message, leaves the message as it is. It needs more bytes than
it says are left. If the message were longer, but by fewer bytes than the difference, the read would run short again and
count the new bytes. What it says is left is what remains at the cursor, unless the block is a run whose length is there:
then the two bytes of the length are not counted. -/
theorem shortfall_of_get (reached : Reached b) (failed : get block b = (.error (.bufferUnderrun needed left), b')) :
    b' = b ∧ b.message.get block = .error (.bufferUnderrun needed left) ∧ left < needed ∧
      (left = b.message.remaining ↔ ¬(block.isRun = true ∧ 2 ≤ b.message.remaining)) ∧
      (block.isRun = true → 2 ≤ b.message.remaining → left + 2 = b.message.remaining) ∧
      ∀ more : Bytes, more.length < needed - left →
        get block { b with buffer := b.buffer ++ more } =
          (.error (.bufferUnderrun needed (left + more.length)), { b with buffer := b.buffer ++ more }) := by
  obtain ⟨stopped, same⟩ := get_eq_error.mp failed
  have laid := reached.laid
  have bounds := laid.obtained.inBounds
  have ahead : b.buffer.drop b.cursor = b.message.unread := congrArg Cursor.rest (ofBytes_cursor laid.room bounds)
  have inside : b.cursor ≤ b.buffer.length := size_message laid.room ▸ bounds.beforeEnd
  obtain ⟨short, counted, again⟩ := block.reports_decode _ _ _ stopped
  simp only [ahead, bounds.length_unread] at counted
  have behind : block.isRun = true → 2 ≤ b.message.remaining → left + 2 = b.message.remaining := by
    intro run there
    rwa [if_pos run, Reader.lengthPassed, if_pos there] at counted
  refine ⟨same, ?_, short, ⟨?_, ?_⟩, behind, fun more few => ?_⟩
  · rw [Message.get, ← ahead, stopped]
  · rintro whole ⟨run, there⟩
    have passed := behind run there
    omega
  · intro atStart
    split at counted
    · next run =>
      rwa [Reader.lengthPassed, if_neg fun there => atStart ⟨run, there⟩] at counted
    · exact counted
  · refine get_eq_error.mpr ⟨?_, rfl⟩
    rw [List.drop_append_of_le_length inside]
    exact again more (by omega)

/-- A message whose first byte has been read. The next two say that three bytes follow, but there is only one. -/
def torn : MessageBuffer := ⟨9, 5, 0, [14, 0, 9, 0, 0, 5, 0, 0, 0, 0, 7, 3, 0, 0x61], 11, none⟩

theorem reached_torn : Reached torn :=
  .after (.ofBytes (rfl : ofBytes torn.buffer = .ok { torn with cursor := headerSize })) (.get (.scalar .u8))

/-- One byte more is not enough either. -/
theorem shortfall_of_get_torn :
    Reached torn ∧ torn.message.remaining = 3 ∧ get .bytes torn = (.error (.bufferUnderrun 3 1), torn) ∧
      1 + 2 = torn.message.remaining ∧
      get .bytes { torn with buffer := torn.buffer ++ [0x62] } =
        (.error (.bufferUnderrun 3 2), { torn with buffer := torn.buffer ++ [0x62] }) := by
  have failed : get .bytes torn = (.error (.bufferUnderrun 3 1), torn) := rfl
  obtain ⟨-, -, -, -, behind, again⟩ := shortfall_of_get reached_torn failed
  exact ⟨reached_torn, rfl, failed, behind rfl (by decide), again [0x62] (by decide)⟩

/-- Three bytes remain. An array of three bytes says so and that it needs five; a text says of the same bytes that it
needs three and that one remains. -/
theorem length_left_out :
    Reached torn ∧ torn.message.remaining = 3 ∧ get (.array .u8) torn = (.error (.bufferUnderrun 5 3), torn) ∧
      get .text torn = (.error (.bufferUnderrun 3 1), torn) :=
  ⟨reached_torn, rfl, rfl, rfl⟩

end PeerLink.MessageBuffer
