import PeerLink.Message.Buffer
import PeerLink.Proofs.Block.Walk
import PeerLink.Proofs.Block.Writing
import PeerLink.Proofs.Message.Bounds

/-!
A message in a buffer is the message it stands for. Every edit in place ends as the call on the message ends, and leaves
the message that the call leaves.
-/
namespace PeerLink

theorem Bytes.overwrite_append {front : Bytes} {start : Nat} (reached : front.length = start) (new rest : Bytes) :
    overwrite (front ++ rest) start new = front ++ new ++ rest.drop new.length := by
  rw [overwrite, ← reached, List.take_left, List.drop_append, List.drop_eq_nil_of_le (Nat.le_add_right _ _),
    List.nil_append, Nat.add_sub_cancel_left]

theorem Reader.take_of_le {n : Nat} {bs : Bytes} (long : n ≤ bs.length) :
    take n bs = .ok (bs.take n, bs.drop n) := by
  have whole := take_append (bs.take n) (bs.drop n)
  rwa [List.take_append_drop, List.length_take_of_le long] at whole

/-- Ten bytes are a header, whatever they are. -/
theorem Message.readHeader_of_le {bs : Bytes} (long : headerSize ≤ bs.length) :
    ∃ client head type body,
      readHeader bs = .ok ((Bytes.toNat (bs.take lengthPrefix), client, head, type), body) := by
  have long : 10 ≤ bs.length := long
  have behind (n : Nat) : (bs.drop n).length = bs.length - n := List.length_drop
  have sized : Reader.take 2 bs = _ := Reader.take_of_le (Nat.le_trans (by decide) long)
  have named : Reader.take 3 (bs.drop 2) = _ := Reader.take_of_le (by rw [behind]; omega)
  have called : Reader.take 2 (bs.drop 5) = _ := Reader.take_of_le (by rw [behind]; omega)
  have typed : Reader.take 3 (bs.drop 7) = _ := Reader.take_of_le (by rw [behind]; omega)
  simp only [readHeader, bind, StateT.bind, Except.bind, Reader.nat, Reader.u24, sized, named, List.drop_drop, called,
    typed]
  exact ⟨_, _, _, _, rfl⟩

namespace MessageBuffer

open Message (Call Obtained InBounds)

variable {α : Type} {b b' : MessageBuffer}

/-! ### The message in the buffer -/

/-- There is room for the header, and what lies behind it is the body of a message as messages come about. -/
structure Laid (b : MessageBuffer) : Prop where
  room : headerSize ≤ b.buffer.length
  obtained : Obtained b.message

theorem size_message (room : headerSize ≤ b.buffer.length) : b.message.size = b.buffer.length := by
  rw [Message.size, message, List.length_drop, Nat.add_sub_of_le room]

/-- The message behind its own header. -/
def headed (m : Message) : MessageBuffer :=
  ⟨m.client, m.head, m.type, m.header ++ m.body, m.cursor, m.frame⟩

theorem message_ofMessage (m : Message) : (ofMessage m).message = m := by
  rw [message, ofMessage, List.drop_left' List.length_replicate]

theorem room_ofMessage (m : Message) : headerSize ≤ (ofMessage m).buffer.length := by
  rw [ofMessage, List.length_append, List.length_replicate]
  exact Nat.le_add_right headerSize _

theorem message_headed (m : Message) : (headed m).message = m := by
  rw [message, headed, List.drop_left' m.length_header]

theorem room_headed (m : Message) : headerSize ≤ (headed m).buffer.length := by
  rw [headed, List.length_append, m.length_header]
  exact Nat.le_add_right headerSize _

/-- What is appended to the buffer is appended to the body. -/
theorem message_append (room : headerSize ≤ b.buffer.length) (bs : Bytes) :
    message { b with buffer := b.buffer ++ bs, frame := none } =
      { b.message with body := b.message.body ++ bs, frame := none } := by
  simp only [message, List.drop_append_of_le_length room]

/-! ### Appending -/

/-- A writing that fails or overshoots, wherever it stops, leaves nothing behind. -/
theorem append_error {writing : Writing} (appends : writing.Appends) {e : Fault}
    (failed : append writing b = (.error e, b')) : b' = b := by
  -- The mark was taken where the new bytes begin.
  obtain ⟨more, grown⟩ := appends b.buffer
  have cut : (writing b.buffer).2.take b.buffer.length = b.buffer := by rw [← grown, List.take_left]
  unfold append at failed
  simp only at failed
  split at failed
  · next ran =>
    rw [ran] at cut
    cases failed
    simp only [cut]
  · next ran =>
    rw [ran] at cut
    split at failed
    · cases failed
      simp only [cut]
    · cases failed

theorem set_run (b : MessageBuffer) (block : Block α) (v : α) :
    set block v b =
      match block.encode v with
      | .error e => (.error e, b)
      | .ok bs =>
        if maxFrameSize < b.buffer.length + bs.length then (.error (.oversizedFrame (b.buffer.length + bs.length)), b)
        else (.ok (), { b with buffer := b.buffer ++ bs, frame := none }) := by
  have writes := block.writes_write v b.buffer
  cases encoded : block.encode v with
  | error e =>
    rw [encoded] at writes
    simp only [set, append, writes, List.take_length]
  | ok bs =>
    rw [encoded] at writes
    simp only [set, append, writes, List.length_append, List.take_left]

/-! ### Reading -/

theorem ofBytes_cursor (room : headerSize ≤ b.buffer.length) (bounds : b.message.InBounds) :
    Cursor.ofBytes b.buffer b.cursor = ⟨b.cursor, b.message.unread⟩ := by
  have inside : b.cursor ≤ b.buffer.length := size_message room ▸ bounds.beforeEnd
  have behindHeader : headerSize + (b.cursor - headerSize) = b.cursor := Nat.add_sub_of_le bounds.behindHeader
  rw [Cursor.ofBytes, Nat.min_eq_left inside, Message.unread, message, List.drop_drop, behindHeader]

theorem get_run (laid : b.Laid) (block : Block α) :
    get block b =
      match b.message.get block with
      | .ok (v, m) => (.ok v, { b with cursor := m.cursor })
      | .error e => (.error e, b) := by
  have bounds := laid.obtained.inBounds
  have ahead := bounds.length_unread
  rw [get, ofBytes_cursor laid.room bounds, Block.walk_eq, Message.get, Cursor.read]
  simp only
  cases read : block.decode b.message.unread with
  | error e => rfl
  | ok taken =>
    have left := (block.leavesEnd_decode _ _ _ read).length_le
    have before := bounds.beforeEnd
    change b.cursor ≤ b.message.size at before
    have moved : b.cursor + (b.message.unread.length - taken.2.length) = b.message.size - taken.2.length := by
      rw [ahead, Message.remaining] at left ⊢
      change taken.2.length ≤ b.message.size - b.cursor at left
      change b.cursor + (b.message.size - b.cursor - taken.2.length) = _
      omega
    simp only [moved]

theorem canGet_eq (laid : b.Laid) (block : Block α) : b.canGet block = b.message.canGet block := by
  rw [canGet, ofBytes_cursor laid.room laid.obtained.inBounds, Block.walk_eq, Message.canGet, Cursor.read]
  simp only
  cases block.decode b.message.unread <;> rfl

/-! ### The header in its place -/

theorem writeHeader_run (room : headerSize ≤ b.buffer.length) :
    writeHeader b =
      if maxFrameSize < b.message.size then (.error (.oversizedFrame b.message.size), b)
      else (.ok (), headed b.message) := by
  -- Each field is put behind those already in place and takes the bytes of the room that stood there.
  let size := Bytes.ofNat 2 b.buffer.length
  let head := Bytes.ofNat 2 b.head.toNat
  have sized : b.buffer.overwrite 0 size = size ++ b.buffer.drop 2 :=
    Bytes.overwrite_append List.length_nil size b.buffer
  have named : (size ++ b.buffer.drop 2).overwrite 2 b.client.toBytes =
      size ++ b.client.toBytes ++ b.buffer.drop 5 := by
    rw [Bytes.overwrite_append (Bytes.length_ofNat 2 _), UInt24.length_toBytes, List.drop_drop]
  have called : (size ++ b.client.toBytes ++ b.buffer.drop 5).overwrite 5 head =
      size ++ b.client.toBytes ++ head ++ b.buffer.drop 7 := by
    rw [Bytes.overwrite_append (by rw [List.length_append, Bytes.length_ofNat, UInt24.length_toBytes]),
      Bytes.length_ofNat, List.drop_drop]
  have typed : (size ++ b.client.toBytes ++ head ++ b.buffer.drop 7).overwrite 7 b.type.toBytes =
      size ++ b.client.toBytes ++ head ++ b.type.toBytes ++ b.buffer.drop headerSize := by
    have behind : (size ++ b.client.toBytes ++ head).length = 7 := by
      simp only [List.length_append, size, head, Bytes.length_ofNat, UInt24.length_toBytes]
    rw [Bytes.overwrite_append behind, UInt24.length_toBytes, List.drop_drop]
  rw [writeHeader, size_message room, headed, Message.header, size_message room]
  simp only
  rw [sized, named, called, typed]
  rfl

theorem toBytes_run (room : headerSize ≤ b.buffer.length) :
    toBytes b =
      if maxFrameSize < b.message.size then (.error (.oversizedFrame b.message.size), b)
      else (.ok (headed b.message).buffer, headed b.message) := by
  by_cases beyond : maxFrameSize < b.message.size
  · simp only [toBytes, writeHeader_run room, if_pos beyond]
  · simp only [toBytes, writeHeader_run room, if_neg beyond]

theorem serialize_run (laid : b.Laid) (p : Pipeline) (drawn : Draw) :
    serialize p drawn b =
      match b.frame with
      | some frame => (.ok frame, b)
      | none =>
        match p.encode drawn (headed b.message).buffer with
        | .error e => (.error e, headed b.message)
        | .ok frame => (.ok frame, headed { b.message with frame := some frame }) := by
  have fits : ¬maxFrameSize < b.message.size := Nat.not_lt.mpr laid.obtained.inBounds.fits
  cases kept : b.frame with
  | some frame => simp only [serialize, kept]
  | none =>
    simp only [serialize, kept, toBytes_run laid.room, if_neg fits]
    cases p.encode drawn (headed b.message).buffer <;> rfl

/-! ### The same calls -/

/-- The edit has the outcome of the call. What is then in the buffer is the message that the call leaves, or, if the
call fails, the message that was there. -/
inductive Mirrors (b : MessageBuffer) : Except Fault α × MessageBuffer → Except Fault (α × Message) → Prop
  | ok {a b' m} (left : b'.message = m) : Mirrors b (.ok a, b') (.ok (a, m))
  | error {e b'} (kept : b'.message = b.message) : Mirrors b (.error e, b') (.error e)

theorem Mirrors.settle {result : Except Fault α × MessageBuffer} {called : Except Fault (α × Message)}
    (h : b.Mirrors result called) : result.2.message = b.message.settle (called.map Prod.snd) := by
  cases h with
  | ok left => exact left
  | error kept => exact kept

theorem Mirrors.settle_unit {result : Except Fault Unit × MessageBuffer} {called : Except Fault Message}
    (h : b.Mirrors result (called.map ((), ·))) : result.2.message = b.message.settle called := by
  rw [h.settle]
  cases called <;> rfl

theorem message_setClient (b : MessageBuffer) (client : UInt24) :
    (b.setClient client).message = b.message.setClient client :=
  apply_ite message _ _ _

theorem message_setHead (b : MessageBuffer) (head : UInt16) :
    (b.setHead head).message = b.message.setHead head :=
  apply_ite message _ _ _

theorem message_setType (b : MessageBuffer) (type : UInt24) :
    (b.setType type).message = b.message.setType type :=
  apply_ite message _ _ _

theorem mirrors_setReplySlot (b : MessageBuffer) (slot : Nat) :
    b.Mirrors (setReplySlot slot b) ((b.message.setReplySlot slot).map ((), ·)) := by
  unfold setReplySlot Message.setReplySlot
  split
  · exact .error rfl
  · cases UInt24.check (slot + replyBase) with
    | error e => exact .error rfl
    | ok type => exact .ok (b.message_setType type)

theorem mirrors_set (room : headerSize ≤ b.buffer.length) (block : Block α) (v : α) :
    b.Mirrors (set block v b) ((b.message.set block v).map ((), ·)) := by
  rw [set_run, Message.set, size_message room]
  cases block.encode v with
  | error e => exact .error rfl
  | ok bs =>
    simp only
    split
    · exact .error rfl
    · exact .ok (message_append room bs)

theorem mirrors_get (laid : b.Laid) (block : Block α) : b.Mirrors (get block b) (b.message.get block) := by
  rw [get_run laid]
  cases read : b.message.get block with
  | error e => exact .error rfl
  | ok result =>
    obtain ⟨v, m⟩ := result
    obtain ⟨cursor, rfl⟩ := Message.get_ok read
    exact .ok rfl

theorem mirrors_toBytes (room : headerSize ≤ b.buffer.length) :
    b.Mirrors (toBytes b) (b.message.toBytes.map (·, b.message)) := by
  rw [toBytes_run room, Message.toBytes]
  split
  · exact .error rfl
  · exact .ok (message_headed b.message)

theorem mirrors_serialize (laid : b.Laid) (p : Pipeline) (drawn : Draw) :
    b.Mirrors (serialize p drawn b) (b.message.serialize p drawn) := by
  have plain := Message.toBytes_eq laid.obtained.inBounds.fits
  rw [serialize_run laid]
  cases kept : b.frame with
  | some frame =>
    have called : b.message.serialize p drawn = .ok (frame, b.message) := by
      rw [Message.serialize, show b.message.frame = some frame from kept]
    rw [called]
    exact .ok rfl
  | none =>
    have called : b.message.serialize p drawn =
        (p.encode drawn (headed b.message).buffer).map fun frame =>
          (frame, { b.message with frame := some frame }) := by
      rw [Message.serialize, show b.message.frame = none from kept, plain]
      rfl
    rw [called]
    cases p.encode drawn (headed b.message).buffer with
    | error e => exact .error (message_headed b.message)
    | ok frame => exact .ok (message_headed _)

def after (b : MessageBuffer) : Call → MessageBuffer
  | .setClient client => b.setClient client
  | .setHead head => b.setHead head
  | .setType type => b.setType type
  | .setReplySlot slot => (setReplySlot slot b).2
  | .set block v => (set block v b).2
  | .get block => (get block b).2
  | .canGet _ => b
  | .rewind => b.rewind
  | .toBytes => (toBytes b).2
  | .serialize p drawn => (serialize p drawn b).2

theorem message_after (laid : b.Laid) (call : Call) : (b.after call).message = b.message.after call := by
  cases call with
  | setClient client => exact b.message_setClient client
  | setHead head => exact b.message_setHead head
  | setType type => exact b.message_setType type
  | setReplySlot slot => exact (b.mirrors_setReplySlot slot).settle_unit
  | set block v => exact (mirrors_set laid.room block v).settle_unit
  | get block => exact (mirrors_get laid block).settle
  | canGet | rewind => rfl
  | toBytes =>
    rw [after, (mirrors_toBytes laid.room).settle, Message.after]
    cases b.message.toBytes <;> rfl
  | serialize p drawn => exact (mirrors_serialize laid p drawn).settle

theorem buffer_setType (b : MessageBuffer) (type : UInt24) : (b.setType type).buffer = b.buffer := by
  unfold setType
  split <;> rfl

/-- No call takes from the room of the header. -/
theorem room_after (laid : b.Laid) (call : Call) : headerSize ≤ (b.after call).buffer.length := by
  have room := laid.room
  cases call with
  | setClient client =>
    rw [after, setClient]
    split <;> exact room
  | setHead head =>
    rw [after, setHead]
    split <;> exact room
  | setType type => rwa [after, buffer_setType]
  | setReplySlot slot =>
    rw [after, setReplySlot]
    split
    · exact room
    · split
      · exact room
      · rwa [buffer_setType]
  | set block v =>
    rw [after, set_run]
    split
    · exact room
    · next bs _ =>
      split
      · exact room
      · rw [List.length_append]
        exact Nat.le_add_right_of_le room
  | get block =>
    rw [after, get_run laid]
    split <;> exact room
  | canGet | rewind => exact room
  | toBytes =>
    rw [after, toBytes_run laid.room]
    split
    · exact room
    · exact room_headed b.message
  | serialize p drawn =>
    rw [after, serialize_run laid]
    split
    · exact room
    · split <;> exact room_headed _

theorem Laid.after (laid : b.Laid) (call : Call) : (b.after call).Laid where
  room := room_after laid call
  obtained := message_after laid call ▸ laid.obtained.after call

/-! ### Bytes taken as they are -/

theorem walkHeader_run {c : Cursor} {length declared : Nat} {client type : UInt24} {head : UInt16} {body : Bytes}
    (read : Message.readHeader c.rest = .ok ((declared, client, head, type), body)) :
    (walkHeader length c).1 =
      if declared = length then .ok (client, head, type) else .error (.lengthMismatch declared length) := by
  obtain ⟨_, behindSize, sized, read⟩ := Reader.bind_ok read
  obtain ⟨_, behindClient, named, read⟩ := Reader.bind_ok read
  obtain ⟨n, behindHead, called, read⟩ := Reader.bind_ok read
  obtain ⟨_, _, typed, read⟩ := Reader.bind_ok read
  cases read
  have named := Walk.follows_u24.ok (c := c.before behindSize) named
  have called := (Walk.follows_nat 2).ok (c := (c.before behindSize).before behindClient) called
  have typed := Walk.follows_u24.ok (c := ((c.before behindSize).before behindClient).before behindHead) typed
  rw [walkHeader, Walk.bind_ok ((Walk.follows_nat 2).ok sized)]
  by_cases right : declared = length
  · simp only [right, ne_eq, not_true, if_false, if_true]
    rw [Walk.bind_ok named, Walk.bind_ok called, Walk.bind_ok typed]
    rfl
  · simp only [right, ne_eq, not_false_iff, if_true, if_false]
    rfl

/-- Bytes are taken for the same message, and refused for the same fault. -/
theorem ofBytes_eq (bs : Bytes) : ofBytes bs = (Message.ofBytes bs).map headed := by
  have taken : ofBytes bs = (Message.ofBytes bs).map fun m => ⟨m.client, m.head, m.type, bs, headerSize, none⟩ := by
    rw [ofBytes, Message.ofBytes]
    split
    · rfl
    · next long =>
      obtain ⟨client, head, type, body, read⟩ := Message.readHeader_of_le (Nat.not_lt.mp long)
      rw [walkHeader_run (c := .ofBytes bs 0) read, read]
      by_cases whole : Bytes.toNat (bs.take lengthPrefix) = bs.length
      · simp only [if_pos whole, bind, Except.bind]
        rfl
      · simp only [if_neg whole, bind, Except.bind]
        rfl
  cases read : Message.ofBytes bs with
  | error e => rw [taken, read, Except.map, Except.map]
  | ok m =>
    obtain ⟨whole, -, start, fresh⟩ := Message.ofBytes_ok read
    rw [taken, read, Except.map, Except.map, headed, ← whole, start, fresh]

theorem ofFrame_eq (p : Pipeline) (frame : Bytes) : ofFrame p frame = (Message.ofFrame p frame).map headed := by
  rw [ofFrame, Message.ofFrame]
  cases p.decode frame with
  | error e => rfl
  | ok bs =>
    change (ofBytes bs >>= _) = Except.map headed (Message.ofBytes bs >>= _)
    rw [ofBytes_eq]
    cases Message.ofBytes bs <;> rfl

end MessageBuffer

end PeerLink
