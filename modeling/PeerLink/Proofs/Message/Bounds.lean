import PeerLink.Proofs.Block
import PeerLink.Proofs.Message.FrameCache

/-!
The bounds that every message keeps. Whatever bytes it was read from and whatever was called on it since, with or
without success, its cursor stands between the header and the end of the body, and the whole fits a frame. So the
header can always say how long the message is, and there are always as many bytes ahead as `remaining` tells.
-/
namespace PeerLink.Message

inductive Call where
  | setClient (client : UInt24)
  | setHead (head : UInt16)
  | setType (type : UInt24)
  | setReplySlot (slot : Nat)
  | set {α : Type} (block : Block α) (v : α)
  | get {α : Type} (block : Block α)
  | canGet {α : Type} (block : Block α)
  | rewind
  | toBytes
  | serialize (p : Pipeline) (drawn : Draw)

def settle (m : Message) : Except Fault Message → Message
  | .ok m' => m'
  | .error _ => m

/-- The message that a call leaves. -/
def after (m : Message) : Call → Message
  | .setClient client => m.setClient client
  | .setHead head => m.setHead head
  | .setType type => m.setType type
  | .setReplySlot slot => m.settle (m.setReplySlot slot)
  | .set block v => m.settle (m.set block v)
  | .get block => m.settle ((m.get block).map Prod.snd)
  | .canGet _ | .toBytes => m
  | .rewind => m.rewind
  | .serialize p drawn => m.settle ((m.serialize p drawn).map Prod.snd)

/-- Messages made in any way, from any bytes, and then changed by any calls. A copy is the same message. -/
inductive Obtained : Message → Prop
  | withHeader (client head type) : Obtained (withHeader client head type)
  | new (head) : Obtained (new head)
  | replyTo (request) : Obtained (replyTo request)
  | ofBytes {bs m} (read : ofBytes bs = .ok m) : Obtained m
  | ofFrame {p frame m} (read : ofFrame p frame = .ok m) : Obtained m
  | pack {head ms m} (packed : pack head ms = .ok m) : Obtained m
  | unpack {outer m} (before : Obtained outer) (inside : m ∈ outer.unpack) : Obtained m
  | after {m} (before : Obtained m) (call : Call) : Obtained (m.after call)

variable {m m' : Message}

/-- The cursor is in the body or at its end, and the message fits a frame. -/
structure InBounds (m : Message) : Prop where
  behindHeader : headerSize ≤ m.cursor
  beforeEnd : m.cursor ≤ m.size
  fits : m.size ≤ maxFrameSize

/-! ### How messages come about -/

theorem InBounds.of_start (start : m.cursor = headerSize) (fits : m.size ≤ maxFrameSize) : m.InBounds where
  behindHeader := Nat.le_of_eq start.symm
  beforeEnd := by
    rw [start]
    exact Nat.le_add_right headerSize _
  fits := fits

theorem inBounds_withHeader (client : UInt24) (head : UInt16) (type : UInt24) :
    (withHeader client head type).InBounds :=
  .of_start rfl (size_withHeader_le client head type)

theorem cursor_of_mem_unpack (inner : m' ∈ m.unpack) : m'.cursor = headerSize := by
  obtain ⟨⟨client, body⟩, -, rfl⟩ := List.mem_map.mp inner
  rfl

/-! ### What the calls keep -/

/-- An array that would outgrow the frame is not appended, whether or not its count can be told. -/
theorem set_array_of_lt {α : Type} {t : Scalar α} {vs : List α}
    (overshoots : maxFrameSize < m.size + (2 + vs.length * t.width)) : ∃ fault, m.set (.array t) vs = .error fault := by
  unfold set
  split
  · next fault _ => exact ⟨fault, rfl⟩
  · next bs encoded =>
    rw [Block.encode] at encoded
    split at encoded
    · cases encoded
      rw [← Bytes.length_ofNat 2 vs.length, ← t.length_flatMap, ← List.length_append] at overshoots
      exact ⟨_, if_pos overshoots⟩
    · cases encoded

namespace InBounds

theorem settle {result : Except Fault Message} (h : m.InBounds) (kept : ∀ m', result = .ok m' → m'.InBounds) :
    (m.settle result).InBounds := by
  cases result with
  | ok m' => exact kept m' rfl
  | error fault => exact h

theorem setClient (h : m.InBounds) (client : UInt24) : (m.setClient client).InBounds := by
  unfold Message.setClient
  split
  · exact h
  · exact ⟨h.behindHeader, h.beforeEnd, h.fits⟩

theorem setHead (h : m.InBounds) (head : UInt16) : (m.setHead head).InBounds := by
  unfold Message.setHead
  split
  · exact h
  · exact ⟨h.behindHeader, h.beforeEnd, h.fits⟩

theorem setType (h : m.InBounds) (type : UInt24) : (m.setType type).InBounds := by
  unfold Message.setType
  split
  · exact h
  · exact ⟨h.behindHeader, h.beforeEnd, h.fits⟩

/-- A block is appended behind the cursor, and only if there is room for it. -/
theorem set {α : Type} {block : Block α} {v : α} (h : m.InBounds) (changed : m.set block v = .ok m') :
    m'.InBounds := by
  have fits := (set_ok changed).1
  unfold Message.set at changed
  split at changed
  · cases changed
  · next bs _ =>
    simp only at changed
    split at changed
    · cases changed
    · cases changed
      have grown : m.size ≤ size { m with body := m.body ++ bs } := by
        rw [size_append]
        exact Nat.le_add_right m.size bs.length
      exact ⟨h.behindHeader, Nat.le_trans h.beforeEnd grown, fits⟩

theorem length_unread (h : m.InBounds) : m.unread.length = m.remaining := by
  have behindHeader := h.behindHeader
  rw [unread, remaining, size, List.length_drop]
  omega

/-- A block is read from the bytes ahead, so the cursor goes on as far as their end. -/
theorem get {α : Type} {block : Block α} {v : α} (h : m.InBounds) (read : m.get block = .ok (v, m')) :
    m'.InBounds ∧ m.cursor ≤ m'.cursor := by
  unfold Message.get at read
  split at read
  · next v' rest taken =>
    cases read
    have left : rest.length ≤ m.unread.length := (block.leavesEnd_decode m.unread v rest taken).length_le
    rw [h.length_unread, remaining] at left
    obtain ⟨behindHeader, beforeEnd, fits⟩ := h
    have forward : m.cursor ≤ m.size - rest.length := by omega
    exact ⟨⟨Nat.le_trans behindHeader forward, Nat.sub_le m.size rest.length, fits⟩, forward⟩
  · cases read

theorem serialize {p : Pipeline} {drawn : Draw} {frame : Bytes} (h : m.InBounds)
    (serialized : m.serialize p drawn = .ok (frame, m')) : m'.InBounds := by
  rcases serialize_cases serialized with ⟨-, rfl⟩ | ⟨-, -, -, rfl⟩
  · exact h
  · exact ⟨h.behindHeader, h.beforeEnd, h.fits⟩

/-- No call leads out of the bounds. -/
theorem after (h : m.InBounds) (call : Call) : (m.after call).InBounds := by
  cases call with
  | setClient client => exact h.setClient client
  | setHead head => exact h.setHead head
  | setType type => exact h.setType type
  | setReplySlot slot =>
    refine h.settle fun m' changed => ?_
    rw [← setReplySlot_ok changed]
    exact h.setType m'.type
  | set block v => exact h.settle fun m' changed => h.set changed
  | get block =>
    rw [Message.after]
    cases read : m.get block with
    | error fault => exact h
    | ok result => exact (h.get read).1
  | canGet | toBytes => exact h
  | rewind => exact .of_start rfl h.fits
  | serialize p drawn =>
    rw [Message.after]
    cases serialized : m.serialize p drawn with
    | error fault => exact h
    | ok result => exact h.serialize serialized

/-- The whole of a message read from its start: nothing has to be clamped, and what is ahead is what is unread. -/
theorem cursor_ofBytes (h : m.InBounds) :
    Cursor.ofBytes (m.header ++ m.body) m.cursor = ⟨m.cursor, m.unread⟩ := by
  have position : min m.cursor (m.header ++ m.body).length = m.cursor := by
    rw [length_append_body]
    exact Nat.min_eq_left h.beforeEnd
  have ahead : (m.header ++ m.body).drop m.cursor = m.unread := by
    rw [List.drop_append, length_header, List.drop_eq_nil_of_le, List.nil_append, unread]
    rw [length_header]
    exact h.behindHeader
  rw [Cursor.ofBytes, position, ahead]

end InBounds

theorem Obtained.inBounds (obtained : Obtained m) : m.InBounds := by
  induction obtained with
  | withHeader client head type => exact inBounds_withHeader client head type
  | new head => exact inBounds_withHeader 0 head 0
  | replyTo request => exact inBounds_withHeader request.client request.head request.type
  | ofBytes read =>
    obtain ⟨-, fits, start, -⟩ := ofBytes_ok read
    exact .of_start start fits
  | ofFrame read =>
    obtain ⟨-, fits, start, -⟩ := ofFrame_ok read
    exact .of_start start fits
  | pack packed =>
    obtain ⟨packs, rfl⟩ := pack_ok packed
    exact .of_start rfl packs.size_holding_le
  | unpack _ inside ih =>
    exact .of_start (cursor_of_mem_unpack inside) (Nat.le_trans (of_mem_unpack inside).1 ih.fits)
  | after _ call ih => exact ih.after call

end PeerLink.Message
