import PeerLink.Proofs.Message.Reached

/-!
Edits are done wholly or not at all. A block is appended, a reply slot put in or a block read under a condition that can
be told beforehand, and where the condition fails, or the pipeline does, the message is what it was.
-/
namespace PeerLink.MessageBuffer

variable {α : Type} {b b' : MessageBuffer} {slot : Nat}

/-! ### Appending a block -/

theorem set_error {block : Block α} {v : α} {e : Fault} (failed : set block v b = (.error e, b')) : b' = b :=
  append_error (block.writes_write v).appends failed

theorem set_ok_iff {block : Block α} {v : α} :
    set block v b = (.ok (), b') ↔
      ∃ bs, block.encode v = .ok bs ∧ b.buffer.length + bs.length ≤ maxFrameSize ∧
        b' = { b with buffer := b.buffer ++ bs, frame := none } := by
  rw [set_run]
  constructor
  · intro done
    split at done
    · cases done
    · next bs encoded =>
      split at done
      · cases done
      · next fits =>
        cases done
        exact ⟨bs, encoded, Nat.not_lt.mp fits, rfl⟩
  · rintro ⟨bs, encoded, fits, rfl⟩
    simp only [encoded, if_neg (Nat.not_lt.mpr fits)]

/-! ### Putting in a reply slot -/

/-- The largest slot that the type of a message can carry. -/
abbrev maxReplySlot : Nat := 0xfffff5

theorem setReplySlot_of_le (b : MessageBuffer) (fits : slot ≤ maxReplySlot) :
    ∃ type : UInt24, type.toNat = replyBase + slot ∧ setReplySlot slot b = (.ok (), b.setType type) := by
  have bound : slot + replyBase < UInt24.size := Nat.lt_of_le_of_lt (Nat.add_le_add_right fits replyBase) (by decide)
  have narrow : ¬0xffffffff < slot + replyBase := Nat.not_lt.mpr (Nat.le_trans (Nat.le_of_lt bound) (by decide))
  have checked := UInt24.check_toNat ⟨slot + replyBase, bound⟩
  refine ⟨⟨slot + replyBase, bound⟩, Nat.add_comm slot replyBase, ?_⟩
  rw [setReplySlot, if_neg narrow, checked]

theorem setReplySlot_of_lt (b : MessageBuffer) (beyond : maxReplySlot < slot) :
    ∃ e, setReplySlot slot b = (.error e, b) := by
  have tooLarge : UInt24.size ≤ slot + replyBase := Nat.add_le_add_right beyond replyBase
  rw [setReplySlot]
  split
  · exact ⟨_, rfl⟩
  · rw [UInt24.check, UInt24.ofNat?_eq_none_iff.mpr tooLarge]
    exact ⟨_, rfl⟩

theorem setReplySlot_error {e : Fault} (failed : setReplySlot slot b = (.error e, b')) : b' = b := by
  rcases Nat.lt_or_ge maxReplySlot slot with beyond | fits
  · obtain ⟨_, left⟩ := b.setReplySlot_of_lt beyond
    rw [left] at failed
    cases failed
    rfl
  · obtain ⟨_, -, done⟩ := b.setReplySlot_of_le fits
    rw [done] at failed
    cases failed

theorem exists_setReplySlot_iff : (∃ b', setReplySlot slot b = (.ok (), b')) ↔ slot ≤ maxReplySlot := by
  constructor
  · rintro ⟨b', done⟩
    apply Nat.le_of_not_lt
    intro beyond
    obtain ⟨_, left⟩ := b.setReplySlot_of_lt beyond
    rw [left] at done
    cases done
  · intro fits
    obtain ⟨_, -, done⟩ := b.setReplySlot_of_le fits
    exact ⟨_, done⟩

theorem replySlot_setReplySlot (done : setReplySlot slot b = (.ok (), b')) : b'.message.replySlot = some slot := by
  obtain ⟨type, carried, set⟩ := b.setReplySlot_of_le (exists_setReplySlot_iff.mp ⟨b', done⟩)
  rw [set] at done
  cases done
  rw [Message.replySlot_eq_some, message_setType, Message.type_setType, carried]

/-! ### Reading a block -/

theorem get_error {block : Block α} {e : Fault} (laid : b.Laid) (failed : get block b = (.error e, b')) : b' = b := by
  rw [get_run laid] at failed
  split at failed
  · cases failed
  · cases failed
    rfl

theorem exists_get_iff (laid : b.Laid) (block : Block α) :
    (∃ v b', get block b = (.ok v, b')) ↔ b.canGet block = true := by
  rw [get_run laid, canGet_eq laid, Message.get, Message.canGet]
  cases block.decode b.message.unread with
  | ok taken => exact ⟨fun _ => rfl, fun _ => ⟨_, _, rfl⟩⟩
  | error e =>
    constructor
    · rintro ⟨_, _, done⟩
      cases done
    · intro can
      cases can

theorem get_ok {block : Block α} {v : α} (laid : b.Laid) (done : get block b = (.ok v, b')) :
    ∃ cursor, b' = { b with cursor } := by
  rw [get_run laid] at done
  split at done
  · cases done
    exact ⟨_, rfl⟩
  · cases done

/-! ### Making a frame -/

/-- The bytes in the room of the header may have changed, but they are no part of the message. -/
theorem message_serialize_error {p : Pipeline} {drawn : Draw} {e : Fault} (laid : b.Laid)
    (failed : serialize p drawn b = (.error e, b')) : b'.message = b.message := by
  rw [serialize_run laid] at failed
  split at failed
  · cases failed
  · split at failed
    · cases failed
      exact message_headed b.message
    · cases failed

/-- Edits of a message that can be reached have the outcomes of the calls that they mirror, and those that fail change
nothing, even where a writing fails halfway. A block is appended exactly if it has an encoding and a frame has room for
it, a reply slot is put in exactly if the type can carry it, and a block is read exactly if the next bytes are one. -/
theorem edits_all_or_nothing (reached : Reached b) :
    (∀ {α : Type} (block : Block α) (v : α),
      b.Mirrors (set block v b) ((b.message.set block v).map ((), ·)) ∧
      (∀ e b', set block v b = (.error e, b') → b' = b) ∧
      ∀ b', set block v b = (.ok (), b') ↔
        ∃ bs, block.encode v = .ok bs ∧ b.buffer.length + bs.length ≤ maxFrameSize ∧
          b' = { b with buffer := b.buffer ++ bs, frame := none }) ∧
    (∀ writing : Writing, writing.Appends → ∀ e b', append writing b = (.error e, b') → b' = b) ∧
    (∀ slot,
      b.Mirrors (setReplySlot slot b) ((b.message.setReplySlot slot).map ((), ·)) ∧
      (∀ e b', setReplySlot slot b = (.error e, b') → b' = b) ∧
      ((∃ b', setReplySlot slot b = (.ok (), b')) ↔ slot ≤ maxReplySlot) ∧
      ∀ b', setReplySlot slot b = (.ok (), b') → b'.message.replySlot = some slot) ∧
    (∀ {α : Type} (block : Block α),
      b.Mirrors (get block b) (b.message.get block) ∧
      (∀ e b', get block b = (.error e, b') → b' = b) ∧
      b.canGet block = b.message.canGet block ∧
      ((∃ v b', get block b = (.ok v, b')) ↔ b.canGet block = true) ∧
      ∀ v b', get block b = (.ok v, b') → ∃ cursor, b' = { b with cursor }) ∧
    ∀ p drawn,
      b.Mirrors (serialize p drawn b) (b.message.serialize p drawn) ∧
      ∀ e b', serialize p drawn b = (.error e, b') → b'.message = b.message := by
  have laid := reached.laid
  refine ⟨fun block v => ⟨mirrors_set laid.room block v, fun _ _ => set_error, fun _ => set_ok_iff⟩,
    fun writing appends _ _ => append_error appends, fun slot => ?_, fun block => ?_, fun p drawn => ?_⟩
  · exact ⟨b.mirrors_setReplySlot slot, fun _ _ => setReplySlot_error, exists_setReplySlot_iff,
      fun _ => replySlot_setReplySlot⟩
  · exact ⟨mirrors_get laid block, fun _ _ => get_error laid, canGet_eq laid block, exists_get_iff laid block,
      fun _ _ => get_ok laid⟩
  · exact ⟨mirrors_serialize laid p drawn, fun _ _ => message_serialize_error laid⟩

/-- Two bytes of a block that then turns out to have no encoding are taken back, and four bytes cannot be read from one.
The largest slot can be put in, and the next one cannot. -/
theorem edits_all_or_nothing_byte :
    ∃ b, Reached b ∧ b.message = { Message.withHeader 9 5 12 with body := [7] } ∧
      append (do Writing.put [1, 2]; throw .invalidChar) b = (.error .invalidChar, b) ∧
      get (.scalar .u32) b = (.error (.bufferUnderrun 4 1), b) ∧
      (∃ b', setReplySlot maxReplySlot b = (.ok (), b') ∧ b'.message.replySlot = some maxReplySlot) ∧
      ∃ e, setReplySlot (maxReplySlot + 1) b = (.error e, b) := by
  have reached : Reached ((withHeader 9 5 12).after (.set (.scalar .u8) 7)) := .after (.withHeader 9 5 12) _
  obtain ⟨-, written, slots, read, -⟩ := edits_all_or_nothing reached
  refine ⟨_, reached, rfl, Prod.ext rfl ?_, Prod.ext rfl ?_, ?_, .valueOutOfRange 0x1000000, Prod.ext rfl ?_⟩
  · exact written (do Writing.put [1, 2]; throw .invalidChar) (fun buffer => List.prefix_append buffer [1, 2]) _ _ rfl
  · exact (read (.scalar .u32)).2.1 _ _ rfl
  · obtain ⟨-, -, possible, carried⟩ := slots maxReplySlot
    obtain ⟨b', done⟩ := possible.mpr (Nat.le_refl maxReplySlot)
    exact ⟨b', done, carried b' done⟩
  · exact (slots (maxReplySlot + 1)).2.1 _ _ rfl

end PeerLink.MessageBuffer
