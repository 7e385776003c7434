import PeerLink.Proofs.Message.Buffer

/-!
All that can be made in a buffer, from any bytes and by any calls. It is the same messages that can be made without one,
and the bounds of a message are those of its buffer: the cursor stands behind the room for the header and not behind the
end, and the whole fits a frame. So no call has to look outside of the buffer.
-/
namespace PeerLink

namespace MessageBuffer

open Message (Call Obtained)

variable {b : MessageBuffer} {m : Message}

/-- Messages in buffers, made in any way, from any bytes, and then edited by any calls. A new message and an answer, and
what comes out of packing and unpacking, lie behind a header of zeros. -/
inductive Reached : MessageBuffer → Prop
  | withHeader (client head type) : Reached (withHeader client head type)
  | ofBytes {bs made} (read : ofBytes bs = .ok made) : Reached made
  | ofFrame {p frame made} (read : ofFrame p frame = .ok made) : Reached made
  | pack {head ms m} (packed : Message.pack head ms = .ok m) : Reached (ofMessage m)
  | unpack {outer m} (before : Reached outer) (inside : m ∈ outer.message.unpack) : Reached (ofMessage m)
  | after {earlier} (before : Reached earlier) (call : Call) : Reached (earlier.after call)

theorem laid_ofMessage (obtained : Obtained m) : (ofMessage m).Laid where
  room := room_ofMessage m
  obtained := (message_ofMessage m).symm ▸ obtained

theorem laid_headed (obtained : Obtained m) : (headed m).Laid where
  room := room_headed m
  obtained := (message_headed m).symm ▸ obtained

theorem Reached.laid (reached : Reached b) : b.Laid := by
  induction reached with
  | withHeader client head type => exact laid_ofMessage (.withHeader client head type)
  | ofBytes taken =>
    rw [ofBytes_eq] at taken
    obtain ⟨m, read, rfl⟩ := ok_of_map taken
    exact laid_headed (.ofBytes read)
  | ofFrame taken =>
    rw [ofFrame_eq] at taken
    obtain ⟨m, read, rfl⟩ := ok_of_map taken
    exact laid_headed (.ofFrame read)
  | pack packed => exact laid_ofMessage (.pack packed)
  | unpack _ inside ih => exact laid_ofMessage (ih.obtained.unpack inside)
  | after _ call ih => exact ih.after call

/-- Every message that can be made and changed lies in a buffer that can be reached. -/
theorem exists_reached (obtained : Obtained m) : ∃ b, Reached b ∧ b.message = m := by
  induction obtained with
  | withHeader client head type => exact ⟨_, .withHeader client head type, rfl⟩
  | new head => exact ⟨_, .withHeader 0 head 0, rfl⟩
  | replyTo request => exact ⟨_, .withHeader request.client request.head request.type, rfl⟩
  | ofBytes read => exact ⟨_, .ofBytes (by rw [ofBytes_eq, read]; rfl), message_headed _⟩
  | ofFrame read => exact ⟨_, .ofFrame (by rw [ofFrame_eq, read]; rfl), message_headed _⟩
  | pack packed => exact ⟨_, .pack packed, message_ofMessage _⟩
  | unpack _ inside ih =>
    obtain ⟨b, reached, rfl⟩ := ih
    exact ⟨_, reached.unpack inside, message_ofMessage _⟩
  | after _ call ih =>
    obtain ⟨b, reached, rfl⟩ := ih
    exact ⟨_, reached.after call, message_after reached.laid call⟩

/-- What is written is the message behind its header, whatever has been in the room of the header. -/
theorem toBytes_of_laid (laid : b.Laid) : toBytes b = (.ok (headed b.message).buffer, headed b.message) := by
  rw [toBytes_run laid.room, if_neg (Nat.not_lt.mpr laid.obtained.inBounds.fits)]

end MessageBuffer

namespace Message

variable {m : Message}

/-- However a message was made and whatever was called on it, its cursor and its size are in bounds. So it has
bytes, of which the first ten are its header and the first two tell how many there are, and the bytes from the cursor
on are those that remain. There is a buffer in which it has been made, and in every buffer that something has been made
in, the cursor and the length are in the same bounds and the bytes can be told in place. -/
theorem bounds_of_obtained (obtained : Obtained m) :
    headerSize ≤ m.cursor ∧ m.cursor ≤ m.size ∧ m.size ≤ maxFrameSize ∧
      m.cursor + m.remaining = m.size ∧
      Cursor.ofBytes (m.header ++ m.body) m.cursor = ⟨m.cursor, m.unread⟩ ∧ m.unread.length = m.remaining ∧
      (∃ bs, m.toBytes = .ok bs ∧ bs.length = m.size ∧ bs.take headerSize = m.header ∧
        bs.drop headerSize = m.body ∧ Bytes.toNat (bs.take lengthPrefix) = bs.length) ∧
      (∃ b, MessageBuffer.Reached b ∧ b.message = m) ∧
      ∀ b, MessageBuffer.Reached b →
        headerSize ≤ b.cursor ∧ b.cursor ≤ b.buffer.length ∧ b.buffer.length ≤ maxFrameSize ∧
          ∃ bs b', MessageBuffer.toBytes b = (.ok bs, b') ∧ b'.buffer = bs ∧ bs.length = b.buffer.length ∧
            Bytes.toNat (bs.take lengthPrefix) = bs.length ∧ b'.message = b.message := by
  have h := obtained.inBounds
  refine ⟨h.behindHeader, h.beforeEnd, h.fits, Nat.add_sub_of_le h.beforeEnd, h.cursor_ofBytes, h.length_unread,
    ⟨m.header ++ m.body, toBytes_eq h.fits, m.length_append_body, List.take_left' m.length_header,
      List.drop_left' m.length_header, declared_size h.fits⟩, MessageBuffer.exists_reached obtained, ?_⟩
  intro b reached
  have laid := reached.laid
  have bounds := laid.obtained.inBounds
  have size := MessageBuffer.size_message laid.room
  refine ⟨bounds.behindHeader, size ▸ bounds.beforeEnd, size ▸ bounds.fits, _, _, MessageBuffer.toBytes_of_laid laid,
    rfl, ?_, declared_size bounds.fits, MessageBuffer.message_headed b.message⟩
  exact b.message.length_append_body.trans size

def smallest : Message := { withHeader 9 5 0 with body := [0xaa] }

/-- The message comes in a pack whose second entry is cut short. A block of half a megabyte is not appended to it and
four bytes are not read from it, but the one that is there is. -/
theorem bounds_of_obtained_packed :
    ∃ m, Obtained m ∧ m = { smallest with cursor := 11 } ∧ m.cursor + m.remaining = m.size ∧ m.size = 11 ∧
      (∃ bs, m.toBytes = .ok bs ∧ Bytes.toNat (bs.take lengthPrefix) = bs.length) ∧
      ∃ b, MessageBuffer.Reached b ∧ b.message = m ∧ headerSize ≤ b.cursor ∧ b.cursor ≤ b.buffer.length ∧
        b.buffer.length ≤ maxFrameSize := by
  have outer : Obtained { withHeader 1 5 0 with body := [7, 0, 0, 9, 0, 0, 0xaa, 0xff, 0xff, 0xff] } :=
    .ofBytes (rfl : ofBytes [20, 0, 1, 0, 0, 5, 0, 0, 0, 0, 7, 0, 0, 9, 0, 0, 0xaa, 0xff, 0xff, 0xff] = _)
  have inner : Obtained smallest := by
    refine outer.unpack ?_
    rw [unpack, entries]
    exact List.mem_cons_self
  have overshoots : maxFrameSize <
      smallest.size + (2 + (List.replicate 65535 (0 : UInt64)).length * Scalar.u64.width) := by
    rw [List.length_replicate]
    decide
  have refused : smallest.after (.set (.array .u64) (List.replicate 65535 0)) = smallest := by
    obtain ⟨fault, refused⟩ := set_array_of_lt overshoots
    rw [after, refused, settle]
  have short : smallest.after (.get (.scalar .u32)) = smallest := rfl
  have obtained := ((inner.after (.set (.array .u64) (List.replicate 65535 0))).after (.get (.scalar .u32))).after
    (.get (.scalar .u8))
  rw [refused, short] at obtained
  obtain ⟨-, -, -, ahead, -, -, ⟨bs, spelled, -, -, -, declared⟩, ⟨b, reached, lies⟩, buffers⟩ :=
    bounds_of_obtained obtained
  obtain ⟨behindHeader, beforeEnd, fits, -⟩ := buffers b reached
  exact ⟨_, obtained, rfl, ahead, rfl, ⟨bs, spelled, declared⟩, b, reached, lies, behindHeader, beforeEnd, fits⟩

end Message

end PeerLink
