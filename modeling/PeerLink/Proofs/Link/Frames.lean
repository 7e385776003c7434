import PeerLink.Proofs.Connection
import PeerLink.Proofs.Message
import PeerLink.Proofs.ReplyTable

/-!
The slot that a frame carries to the other end. A pipeline reads nothing else in its own frames than what it
was given, so a message arrives with the slot that it was sent with, if at all. A frame that the message has
kept from elsewhere is sent as it is, and may read as anything.
-/
namespace PeerLink

/-- What a pipeline reads in a frame that it made is what it was given. -/
def Pipeline.Truthful (p : Pipeline) : Prop :=
  ∀ message drawn frame bs, message.length ≤ maxFrameSize → p.encode drawn message = .ok frame →
    p.decode frame = .ok bs → bs = message

theorem Pipeline.truthful_of_build {encryption : EncryptionKind} {key : Option Bytes}
    {compression : CompressionKind} {p : Pipeline} {pack : Bytes → Except Fault Bytes}
    (built : build encryption key compression = .ok p) (packs : compression.Writes pack) :
    (p.packedBy pack).Truthful := by
  intro message drawn frame bs short encoded decoded
  rw [decode_built built packs short encoded] at decoded
  split at decoded
  · exact (Except.ok.inj decoded).symm
  · cases decoded

/-- Whatever message the other end reads in a frame carries this slot. -/
def Pipeline.Carries (p : Pipeline) (frame : Bytes) (slot : Nat) : Prop :=
  ∀ m, Message.ofFrame p frame = .ok m → m.replySlot = some slot

namespace Message

variable {p : Pipeline} {m : Message} {slot : Nat}

/-- A kept frame spells the message, if the pipeline can read it at all. -/
def Faithful (p : Pipeline) (m : Message) : Prop :=
  ∀ frame ∈ m.frame, ∀ bs, p.decode frame = .ok bs → bs = m.header ++ m.body

theorem faithful_of_unpacked (unpacked : m.frame = none) : m.Faithful p := by
  intro frame kept
  rw [unpacked] at kept
  cases kept

theorem unpacked_of_setReplySlot {m' : Message} (unpacked : m.frame = none)
    (set : m.setReplySlot slot = .ok m') : m'.frame = none := by
  rw [← setReplySlot_ok set]
  unfold setType
  split
  · exact unpacked
  · rfl

theorem replySlot_congr {other : Message} (same : m.type = other.type) : m.replySlot = other.replySlot := by
  rw [replySlot, replySlot, kind, kind, same]

theorem replySlot_setType (slot : Nat) (fits : slot + replyBase < UInt24.size) :
    (m.setType ⟨slot + replyBase, fits⟩).replySlot = some slot := by
  rw [replySlot_eq_some, type_setType]
  exact Nat.add_comm slot replyBase

theorem replySlot_setClient (client : UInt24) : (m.setClient client).replySlot = m.replySlot := by
  apply replySlot_congr
  unfold setClient
  split <;> rfl

theorem carries_of_decode {frame : Bytes} (carried : m.replySlot = some slot)
    (spelled : ∀ bs, p.decode frame = .ok bs → bs = m.header ++ m.body) : p.Carries frame slot := by
  intro arrived read
  obtain ⟨bs, decoded, read⟩ := ok_of_bind read
  obtain ⟨plain, parsed, same⟩ := ok_of_bind read
  cases same
  obtain rfl := spelled bs decoded
  obtain ⟨bytes, fits, -, -⟩ := ofBytes_ok parsed
  have size : m.size ≤ maxFrameSize := by
    rwa [← length_append_body, bytes, length_append_body]
  rw [ofBytes_append size] at parsed
  cases parsed
  exact carried

theorem carries_of_serialize {m' : Message} {drawn : Draw} {frame : Bytes} (truthful : p.Truthful)
    (faithful : m.Faithful p) (carried : m.replySlot = some slot)
    (serialized : m.serialize p drawn = .ok (frame, m')) : p.Carries frame slot := by
  apply carries_of_decode carried
  rcases serialize_cases serialized with ⟨kept, -⟩ | ⟨-, fits, encoded, -⟩
  · exact faithful frame kept
  · intro bs decoded
    refine truthful _ drawn frame bs ?_ encoded decoded
    rwa [length_append_body]

end Message

namespace Connection

variable {κ : Type} {c c' : Connection κ} {m : Message} {slot : Nat}

theorem carries_of_send (truthful : c.pipeline.Truthful) (faithful : m.Faithful c.pipeline)
    (carried : m.replySlot = some slot) (sent : c.send m = .ok c') :
    ∃ frame, c.pipeline.Carries frame slot ∧ c'.outbound = c.outbound ++ [frame] ∧
      c'.replies = c.replies ∧ c'.pipeline = c.pipeline := by
  obtain ⟨frame, m', serialized, rest⟩ := send_ok sent
  exact ⟨frame, Message.carries_of_serialize truthful faithful carried serialized, rest⟩

/-- While the slot of the counter is free, a request takes it. One that cannot be sent gives it back. -/
theorem sendWithReply?_cases {callback : κ} {result : Except Fault Nat}
    (vacant : c.replies.isPending (c.replies.role.slot c.replies.counter) = false)
    (truthful : c.pipeline.Truthful)
    (faithful : ∀ m', m.setReplySlot (c.replies.role.slot c.replies.counter) = .ok m' → m'.Faithful c.pipeline)
    (requested : c.sendWithReply? m callback = some (result, c')) :
    c'.pipeline = c.pipeline ∧ c'.replies.role = c.replies.role ∧
      c'.replies.counter = c.replies.counter + 1 ∧
      ((c'.outbound = c.outbound ∧ ∀ entry ∈ c'.replies.pending, entry ∈ c.replies.pending) ∨
        c'.replies.pending = (c.replies.role.slot c.replies.counter, callback) :: c.replies.pending ∧
        ∃ frame, c.pipeline.Carries frame (c.replies.role.slot c.replies.counter) ∧
          c'.outbound = c.outbound ++ [frame]) := by
  obtain ⟨t, registered, role, counter, pending⟩ := ReplyTable.register?_of_free vacant callback
  have fits := Role.fits_of_owns (Role.owns_slot c.replies.role c.replies.counter)
  simp only [sendWithReply?, registered, Message.setReplySlot_eq m fits, bind, Except.bind] at requested
  split at requested
  · next sent =>
    cases requested
    obtain ⟨frame, carries, queued, replies, pipeline⟩ := carries_of_send (c := { c with replies := t })
      truthful (faithful _ (Message.setReplySlot_eq m fits)) (Message.replySlot_setType _ fits) sent
    rw [replies]
    exact ⟨pipeline, role, counter, .inr ⟨pending, frame, carries, queued⟩⟩
  · cases requested
    refine ⟨rfl, role, counter, .inl ⟨rfl, ?_⟩⟩
    intro entry kept
    obtain ⟨present, other⟩ := ReplyTable.mem_erase.mp kept
    rw [pending] at present
    rcases List.mem_cons.mp present with new | old
    · rw [new] at other
      exact absurd rfl other
    · exact old

end Connection

end PeerLink
