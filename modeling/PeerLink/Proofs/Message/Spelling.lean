import PeerLink.Proofs.Message.Reached

/-!
Messages and the bytes that spell them. Bytes spell a message if there are enough for a header and the first two tell
how many there are, and only then. The message spells them again however it has been read since, and every message is
read from the bytes that it spells.
-/
namespace PeerLink

namespace Message

/-! ### Which bytes spell a message -/

theorem declaredLength_eq {bs : Bytes} (told : lengthPrefix ≤ bs.length) :
    declaredLength bs = Bytes.toNat (bs.take lengthPrefix) := by
  match bs, told with
  | _ :: _ :: _, _ => rfl

/-- There is room for a header, and the length that is declared is right. -/
def Spelled (bs : Bytes) : Prop := headerSize ≤ bs.length ∧ Bytes.toNat (bs.take lengthPrefix) = bs.length

theorem ofBytes_of_spelled {bs : Bytes} (spelled : Spelled bs) : ∃ m, ofBytes bs = .ok m := by
  obtain ⟨long, whole⟩ := spelled
  obtain ⟨client, head, type, body, read⟩ := readHeader_of_le long
  rw [ofBytes, if_neg (Nat.not_lt.mpr long), read]
  simp only [bind, Except.bind, if_pos whole]
  exact ⟨_, rfl⟩

theorem ofBytes_of_not_spelled {bs : Bytes} (wrong : ¬Spelled bs) :
    ofBytes bs = .error (.lengthMismatch (declaredLength bs) bs.length) := by
  rw [ofBytes]
  split
  · rfl
  · next long =>
    have long := Nat.not_lt.mp long
    obtain ⟨client, head, type, body, read⟩ := readHeader_of_le long
    have other : ¬Bytes.toNat (bs.take lengthPrefix) = bs.length := fun whole => wrong ⟨long, whole⟩
    rw [read, declaredLength_eq (Nat.le_trans (by decide) long)]
    simp only [bind, Except.bind, if_neg other]
    rfl

theorem exists_ofBytes_iff {bs : Bytes} : (∃ m, ofBytes bs = .ok m) ↔ Spelled bs := by
  refine ⟨?_, ofBytes_of_spelled⟩
  rintro ⟨m, read⟩
  by_contra wrong
  rw [ofBytes_of_not_spelled wrong] at read
  cases read

theorem ofBytes_error {bs : Bytes} {e : Fault} (refused : ofBytes bs = .error e) :
    e = .lengthMismatch (declaredLength bs) bs.length := by
  by_cases spelled : Spelled bs
  · obtain ⟨m, read⟩ := ofBytes_of_spelled spelled
    rw [read] at refused
    cases refused
  · rw [ofBytes_of_not_spelled spelled] at refused
    cases refused
    rfl

/-- The call only reads. -/
def Call.Reads : Call → Prop
  | .get _ | .canGet _ | .rewind => True
  | _ => False

end Message

namespace MessageBuffer

open Message (Call Spelled declaredLength)

variable {b : MessageBuffer} {bs : Bytes}

/-! ### What a message spells -/

theorem ofBytes_headed {m : Message} (fits : m.size ≤ maxFrameSize) :
    ofBytes (headed m).buffer = .ok (headed { m with cursor := headerSize, frame := none }) := by
  rw [ofBytes_eq, headed, Message.ofBytes_append fits]
  rfl

theorem ofBytes_ok (taken : ofBytes bs = .ok b) : ∃ m, Message.ofBytes bs = .ok m ∧ b = headed m ∧ b.buffer = bs := by
  rw [ofBytes_eq] at taken
  obtain ⟨m, read, rfl⟩ := ok_of_map taken
  exact ⟨m, read, rfl, (Message.ofBytes_ok read).1.symm⟩

theorem exists_ofBytes_iff : (∃ b, ofBytes bs = .ok b) ↔ Spelled bs := by
  rw [← Message.exists_ofBytes_iff, ofBytes_eq]
  cases Message.ofBytes bs with
  | ok m => exact ⟨fun _ => ⟨m, rfl⟩, fun _ => ⟨headed m, rfl⟩⟩
  | error e =>
    constructor
    · rintro ⟨_, taken⟩
      cases taken
    · rintro ⟨_, read⟩
      cases read

theorem ofBytes_error {e : Fault} (refused : ofBytes bs = .error e) :
    e = .lengthMismatch (declaredLength bs) bs.length := by
  rw [ofBytes_eq] at refused
  cases read : Message.ofBytes bs with
  | ok m =>
    rw [read] at refused
    cases refused
  | error e' =>
    rw [read] at refused
    cases refused
    exact Message.ofBytes_error read

/-! ### Reading and rewinding -/

theorem after_of_reads {call : Call} (laid : b.Laid) (reads : call.Reads) :
    ∃ cursor, b.after call = { b with cursor } := by
  cases call with
  | get block =>
    rw [after, get_run laid]
    split <;> exact ⟨_, rfl⟩
  | canGet | rewind => exact ⟨_, rfl⟩
  | _ => exact reads.elim

/-- A run of reads, with or without success, moves nothing but the cursor. -/
theorem foldl_after_of_reads {calls : List Call} (laid : b.Laid) (reads : ∀ call ∈ calls, call.Reads) :
    (calls.foldl after b).Laid ∧ ∃ cursor, calls.foldl after b = { b with cursor } := by
  induction calls generalizing b with
  | nil => exact ⟨laid, b.cursor, rfl⟩
  | cons call calls ih =>
    obtain ⟨cursor, moved⟩ := after_of_reads laid (reads call List.mem_cons_self)
    have others : ∀ other ∈ calls, other.Reads := fun other member => reads other (List.mem_cons_of_mem call member)
    obtain ⟨still, cursor', later⟩ := ih (laid.after call) others
    refine ⟨still, cursor', ?_⟩
    rw [List.foldl_cons, later, moved]

theorem toBytes_after_reads {calls : List Call} (taken : ofBytes bs = .ok b) (reads : ∀ call ∈ calls, call.Reads) :
    (toBytes (calls.foldl after b)).1 = .ok bs := by
  -- A message that was taken lies behind the header that it came with.
  obtain ⟨laid, cursor, moved⟩ := foldl_after_of_reads (Reached.ofBytes taken).laid reads
  obtain ⟨m, -, rfl, rfl⟩ := ofBytes_ok taken
  rw [toBytes_of_laid laid, moved]
  change Except.ok (headed { (headed m).message with cursor }).buffer = _
  rw [message_headed]
  rfl

/-- Bytes are taken for a message exactly if they begin with a header that declares their length, and otherwise the
length is what is wrong with them. A message that was taken spells the same bytes, whatever was read of it since and
however often it was rewound. Every message that can be reached spells some bytes, and from them comes a message with
the same header fields and body, ready to be read from its first block. -/
theorem ofBytes_toBytes_exact :
    (∀ bs,
      (ofBytes bs).map message = Message.ofBytes bs ∧
      ((∃ b, ofBytes bs = .ok b) ↔
        headerSize ≤ bs.length ∧ Bytes.toNat (bs.take lengthPrefix) = bs.length) ∧
      (∀ e, ofBytes bs = .error e → e = .lengthMismatch (declaredLength bs) bs.length) ∧
      ∀ b, ofBytes bs = .ok b → ∀ calls : List Call, (∀ call ∈ calls, call.Reads) →
        (toBytes (calls.foldl after b)).1 = .ok bs) ∧
    ∀ b, Reached b →
      (toBytes b).1 = b.message.toBytes ∧
      ∃ bs again, (toBytes b).1 = .ok bs ∧ ofBytes bs = .ok again ∧
        again.client = b.client ∧ again.head = b.head ∧ again.type = b.type ∧
        again.message.body = b.message.body ∧ again.cursor = headerSize := by
  refine ⟨fun bs => ⟨?_, exists_ofBytes_iff, fun _ => ofBytes_error, fun b taken calls reads =>
    toBytes_after_reads taken reads⟩, fun b reached => ?_⟩
  · rw [ofBytes_eq]
    cases Message.ofBytes bs with
    | ok m => exact congrArg Except.ok (message_headed m)
    | error e => rfl
  · have laid := reached.laid
    have fits := laid.obtained.inBounds.fits
    have spelled := toBytes_of_laid laid
    refine ⟨?_, (headed b.message).buffer, _, congrArg Prod.fst spelled, ofBytes_headed fits, rfl, rfl, rfl, ?_, rfl⟩
    · rw [spelled, Message.toBytes_eq fits]
      rfl
    · rw [message_headed]

/-- A message of twelve bytes. A byte is read, four more are not there, the message is rewound, and it spells the same
bytes. If the last is missing, there is no message. -/
theorem ofBytes_toBytes_exact_twelve :
    ∃ bs b, bs = [12, 0, 3, 2, 1, 5, 4, 10, 0, 0, 7, 9] ∧ ofBytes bs = .ok b ∧ b.message.replySlot = some 0 ∧
      (toBytes ([.get (.scalar .u8), .get (.scalar .u32), .rewind].foldl after b)).1 = .ok bs ∧
      ∃ e, ofBytes bs.dropLast = .error e ∧ e = .lengthMismatch 12 11 := by
  obtain ⟨taken, -⟩ := ofBytes_toBytes_exact
  obtain ⟨-, -, -, spelled⟩ := taken [12, 0, 3, 2, 1, 5, 4, 10, 0, 0, 7, 9]
  obtain ⟨-, -, refused, -⟩ := taken [12, 0, 3, 2, 1, 5, 4, 10, 0, 0, 7]
  refine ⟨_, _, rfl, rfl, rfl, spelled _ rfl _ ?_, _, rfl, refused _ rfl⟩
  intro call member
  simp only [List.mem_cons, List.not_mem_nil, or_false] at member
  rcases member with rfl | rfl | rfl <;> trivial

end MessageBuffer

end PeerLink
