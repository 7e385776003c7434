import PeerLink.Proofs.Framing
import PeerLink.Proofs.Message
import PeerLink.Proofs.Pipeline

/-!
Messages from one end to the other. Every frame of a pipeline satisfies the limits that the pipeline sets for
its receiver, so a stream of frames is cut where it was joined and each frame reads back.
-/
namespace PeerLink

variable {encryption : EncryptionKind} {key : Option Bytes} {compression : CompressionKind} {p : Pipeline}
  {pack : Bytes → Except Fault Bytes} {m : Message} {frame : Bytes}

namespace Pipeline

/-- No frame of a message is so short that it encloses nothing. -/
theorem length_of_decode {bs : Bytes} (built : build encryption key compression = .ok p)
    (active : p.isPassthrough = false) (decoded : p.decode frame = .ok bs) (nonempty : bs ≠ []) :
    lengthPrefix < frame.length := by
  rw [decode, if_neg (Bool.eq_false_iff.mp active)] at decoded
  obtain ⟨packed, disclosed, decoded⟩ := ok_of_bind decoded
  obtain ⟨length, -⟩ := disclose_ok disclosed
  obtain ⟨e, made, rfl⟩ := eq_of_build built
  cases packed with
  | cons b packed =>
    rw [length, List.length_cons]
    omega
  | nil =>
    obtain ⟨content, unpacked, decrypted⟩ := ok_of_bind decoded
    have nothing : content = [] := compression.decompress_nil unpacked
    rw [nothing] at decrypted
    exact absurd (EncryptionKind.decrypt_nil made decrypted) nonempty

/-- A receiver that goes by the limits of the pipeline takes every frame that gives its message back. -/
theorem takes_of_encode {drawn : Draw} (built : build encryption key compression = .ok p)
    (fits : m.size ≤ maxFrameSize)
    (encoded : (p.packedBy pack).encode drawn (m.header ++ m.body) = .ok frame)
    (decoded : p.decode frame = .ok (m.header ++ m.body)) :
    (Framing.within p.minFrameSize maxFrameSize).Takes frame := by
  have whole := m.length_append_body
  by_cases passes : p.isPassthrough = true
  · rw [encode, isPassthrough_packedBy, if_pos passes] at encoded
    cases encoded
    have least : (Framing.within p.minFrameSize maxFrameSize).least = headerSize := by
      rw [minFrameSize, if_pos passes]
      rfl
    refine ⟨?_, ?_, m.declared_size fits⟩
    · rw [whole, least]
      exact Nat.le_add_right headerSize m.body.length
    · rw [whole]
      exact fits
  · have active : (p.packedBy pack).isPassthrough = false := Bool.eq_false_iff.mpr passes
    obtain ⟨_, _, -, -, enclosed⟩ := encode_ok active encoded
    obtain ⟨-, most, declares, -⟩ := enclose_ok enclosed
    have least : (Framing.within p.minFrameSize maxFrameSize).least = lengthPrefix + 1 := by
      rw [minFrameSize, if_neg passes]
      rfl
    refine ⟨?_, most, declares⟩
    rw [least]
    exact length_of_decode built active decoded m.append_body_ne_nil

end Pipeline

namespace Message

/-- A message that keeps no frame, and a frame that serialization makes of it. -/
def Sends (p : Pipeline) (m : Message) (frame : Bytes) : Prop :=
  m.frame = none ∧ ∃ drawn m', m.serialize p drawn = .ok (frame, m')

/-- The message as its receiver has it: all of it unread, and the frame that it came in kept. -/
def arrived (m : Message) (frame : Bytes) : Message :=
  { m with cursor := headerSize, frame := some frame }

theorem ofFrame_of_decode (fits : m.size ≤ maxFrameSize)
    (decoded : p.decode frame = .ok (m.header ++ m.body)) : ofFrame p frame = .ok (m.arrived frame) := by
  rw [ofFrame, decoded]
  simp only [bind, Except.bind, ofBytes_append fits]
  rfl

end Message

theorem mapM_ok {α β : Type} {f : α → Except Fault β} {g : α → β} {as : List α}
    (h : ∀ a ∈ as, f a = .ok (g a)) : as.mapM f = .ok (as.map g) := by
  induction as with
  | nil => rfl
  | cons a as ih =>
    rw [List.mapM_cons, h a List.mem_cons_self, ih (fun b inside => h b (List.mem_cons_of_mem a inside))]
    rfl

/-- Whatever messages are sent and wherever the stream of their frames is cut into reads, the receiver hands
out the frames in order, is left with nothing, and reads each message back. -/
theorem receive_serialized {sent : List (Message × Bytes)} {reads : List Bytes}
    (built : Pipeline.build encryption key compression = .ok p)
    (sends : ∀ s ∈ sent, s.1.Sends (p.packedBy pack) s.2)
    (undo : ∀ s ∈ sent, ∀ bs, s.1.toBytes = .ok bs → (p.packedBy pack).Undoes bs)
    (arrives : reads.flatten = (sent.map Prod.snd).flatten) :
    (Framing.within (p.packedBy pack).minFrameSize maxFrameSize).receive [] reads =
        ⟨sent.map Prod.snd, none, []⟩ ∧
      (sent.map Prod.snd).mapM (Message.ofFrame (p.packedBy pack)) =
        .ok (sent.map fun s => s.1.arrived s.2) := by
  have each : ∀ s ∈ sent, s.1.size ≤ maxFrameSize ∧
      (p.packedBy pack).decode s.2 = .ok (s.1.header ++ s.1.body) ∧
      (Framing.within p.minFrameSize maxFrameSize).Takes s.2 := by
    intro s inside
    obtain ⟨unpacked, drawn, _, serialized⟩ := sends s inside
    obtain ⟨fits, encoded, -⟩ := Message.serialize_ok unpacked serialized
    have decoded := undo s inside _ (Message.toBytes_eq fits) drawn s.2 encoded
    exact ⟨fits, decoded, Pipeline.takes_of_encode built fits encoded decoded⟩
  refine ⟨Framing.receive_flatten ?_ arrives, ?_⟩
  · intro frame inside
    obtain ⟨s, member, rfl⟩ := List.mem_map.mp inside
    exact (each s member).2.2
  · rw [List.mapM_map]
    refine mapM_ok (fun s member => ?_)
    exact Message.ofFrame_of_decode (each s member).1 (each s member).2.1

/-- Two messages, turned around, in three reads that cut both lengths in two. -/
theorem receive_serialized_reversed :
    ∃ p first second, Pipeline.build .reverse none .none = .ok p ∧
      (Message.withHeader 7 1 0).Sends p first ∧
      Message.Sends p { Message.withHeader 0 2 1 with body := [5] } second ∧
      (Framing.within p.minFrameSize maxFrameSize).receive []
          [[12], [0, 0, 0, 0, 0, 1, 0, 0, 7, 0, 10, 13], [0, 5, 0, 0, 1, 0, 2, 0, 0, 0, 0, 11]] =
        ⟨[first, second], none, []⟩ ∧
      [first, second].mapM (Message.ofFrame p) =
        .ok [(Message.withHeader 7 1 0).arrived first,
          Message.arrived { Message.withHeader 0 2 1 with body := [5] } second] := by
  have built : Pipeline.build .reverse none .none = .ok ⟨.reverse, CompressionKind.none.build⟩ := rfl
  have lossless := Pipeline.lossless_uncompressed built
  have first : (Message.withHeader 7 1 0).Sends ⟨.reverse, CompressionKind.none.build⟩
      [12, 0, 0, 0, 0, 0, 1, 0, 0, 7, 0, 10] := ⟨rfl, default, _, rfl⟩
  have second : Message.Sends ⟨.reverse, CompressionKind.none.build⟩
      { Message.withHeader 0 2 1 with body := [5] } [13, 0, 5, 0, 0, 1, 0, 2, 0, 0, 0, 0, 11] :=
    ⟨rfl, default, _, rfl⟩
  have sends : ∀ s ∈ [(Message.withHeader 7 1 0, [12, 0, 0, 0, 0, 0, 1, 0, 0, 7, 0, 10]),
      ({ Message.withHeader 0 2 1 with body := [5] }, [13, 0, 5, 0, 0, 1, 0, 2, 0, 0, 0, 0, 11])],
      s.1.Sends ⟨.reverse, CompressionKind.none.build⟩ s.2 := by
    intro s inside
    simp only [List.mem_cons, List.not_mem_nil, or_false] at inside
    rcases inside with rfl | rfl
    · exact first
    · exact second
  refine ⟨_, _, _, built, first, second, ?_⟩
  refine receive_serialized built sends ?_ rfl
  intro s _ bs plain
  obtain ⟨fits, rfl⟩ := Message.toBytes_ok plain
  refine lossless _ ?_
  rw [Message.length_append_body]
  exact fits

end PeerLink
