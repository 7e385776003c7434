import PeerLink.Proofs.Config
import PeerLink.Proofs.Framing.Reassembly
import PeerLink.Proofs.Link.Frames
import PeerLink.Proofs.Message.FrameCache
import PeerLink.Proofs.Transport

/-!
What becomes of a frame that was queued. The sender asks whether a frame can say its length, the receiver whether
the length is within the limit of the settings. Nobody asks the sender for the second, so under any smaller
limit it may queue a frame over which its peer closes the connection.
-/
namespace PeerLink

variable {κ : Type} {encryption : EncryptionKind} {key : Option Bytes} {compression : CompressionKind} {p q : Pipeline}
  {pack : Bytes → Except Fault Bytes} {m : Message} {frame : Bytes}

theorem Pipeline.prefix_lt_minFrameSize (p : Pipeline) : lengthPrefix < p.minFrameSize := by
  unfold minFrameSize
  split
  · decide
  · exact Nat.lt_succ_self lengthPrefix

namespace Message.MadeBy

theorem eq_of_passthrough (passes : q.isPassthrough = true) (made : MadeBy q m frame) :
    frame = m.header ++ m.body := by
  rcases made with decoded | ⟨drawn, encoded⟩
  · rw [Pipeline.decode, if_pos passes] at decoded
    exact Except.ok.inj decoded
  · rw [Pipeline.encode, if_pos passes] at encoded
    exact (Except.ok.inj encoded).symm

/-- Every frame says its length, whatever the pipeline is. -/
theorem declares (made : MadeBy q m frame) (fits : m.size ≤ maxFrameSize) :
    lengthPrefix ≤ frame.length ∧ Bytes.toNat (frame.take lengthPrefix) = frame.length := by
  by_cases passes : q.isPassthrough = true
  · obtain rfl := made.eq_of_passthrough passes
    refine ⟨?_, m.declared_size fits⟩
    rw [m.length_append_body]
    exact Nat.le_trans (by decide) (Nat.le_add_right headerSize m.body.length)
  · rcases made with decoded | ⟨drawn, encoded⟩
    · rw [Pipeline.decode, if_neg passes] at decoded
      obtain ⟨content, disclosed, -⟩ := ok_of_bind decoded
      obtain ⟨length, declares⟩ := Pipeline.disclose_ok disclosed
      exact ⟨length ▸ Nat.le_add_right lengthPrefix content.length, declares⟩
    · obtain ⟨sealed, packed, -, -, enclosed⟩ := Pipeline.encode_ok (Bool.eq_false_iff.mpr passes) encoded
      obtain ⟨length, -, declares, -⟩ := Pipeline.enclose_ok enclosed
      exact ⟨length ▸ Nat.le_add_right lengthPrefix packed.length, declares⟩

/-- The least length that a receiver allows for is no matter for frames of its own pipeline. -/
theorem least (made : MadeBy (p.packedBy pack) m frame) (fits : m.size ≤ maxFrameSize)
    (built : Pipeline.build encryption key compression = .ok p) (packs : compression.Writes pack) :
    (p.packedBy pack).minFrameSize ≤ frame.length := by
  by_cases passes : (p.packedBy pack).isPassthrough = true
  · obtain rfl := made.eq_of_passthrough passes
    rw [Pipeline.minFrameSize, if_pos passes, m.length_append_body]
    exact Nat.le_add_right headerSize m.body.length
  · have active : (p.packedBy pack).isPassthrough = false := Bool.eq_false_iff.mpr passes
    rw [Pipeline.minFrameSize, if_neg passes]
    rcases made with decoded | ⟨drawn, encoded⟩
    · exact Pipeline.length_of_decode built active decoded m.append_body_ne_nil
    · obtain ⟨sealed, packed, encrypted, compressed, enclosed⟩ := Pipeline.encode_ok active encoded
      obtain ⟨length, -⟩ := Pipeline.enclose_ok enclosed
      obtain ⟨e, strategy, rfl⟩ := Pipeline.eq_of_build built
      obtain ⟨long, decrypted⟩ := EncryptionKind.decrypt_of_encrypt strategy encrypted
      have content : packed ≠ [] := by
        refine CompressionKind.ne_nil_of_spells (packs _ _ ?_ compressed) ?_
        · rw [long]
          apply encryption.sealedLength_lt
          rwa [m.length_append_body]
        · rintro rfl
          exact m.append_body_ne_nil (EncryptionKind.decrypt_nil strategy decrypted)
      rw [length]
      exact Nat.add_le_add_left (List.length_pos_iff.mpr content) lengthPrefix

end Message.MadeBy

namespace Framing

/-- A frame that says its length is taken or refused, whatever follows it. -/
theorem next?_of_declares (f : Framing) (long : lengthPrefix ≤ frame.length)
    (declares : Bytes.toNat (frame.take lengthPrefix) = frame.length) (rest : Bytes) :
    f.next? (frame ++ rest) =
      if f.least ≤ frame.length ∧ frame.length ≤ f.most then .ok (some (frame, rest))
      else .error (f.refusal frame.length (frame ++ rest).length) := by
  split
  · next within => exact next?_of_takes ⟨within.1, within.2, declares⟩ rest
  · next outside =>
    have parts : Bytes.split? lengthPrefix frame = some (frame.take lengthPrefix, frame.drop lengthPrefix) :=
      if_pos (List.length_take_of_le long)
    simp only [next?, split?_more parts, declares, refusal]
    split
    · rfl
    · next least =>
      rw [if_pos]
      omega

end Framing

namespace Connection

variable {c : Connection κ} {maxFrame : Nat} {buffer : Bytes} {fault : Fault}

theorem receive_refused (opened : c.isClosed = false) (refused : (c.framing maxFrame).next? buffer = .error fault) :
    (c.receive maxFrame buffer).1 = [] ∧ (c.receive maxFrame buffer).2.2.isClosed = true := by
  simp [receive, opened, Framing.cut_of_error refused, acceptAll, close]

/-- A frame that is queued is handed out at the other end if it is within the limits of the settings, and closes
the connection otherwise. Only a frame that was kept from another pipeline can be too short. -/
theorem taken_iff_of_send {config : TransportConfig} {sender sender' receiver : Connection κ}
    {maker : Option Pipeline} (usable : config.Usable) (configured : config.pipeline = .ok p)
    (packs : config.compression.Writes pack) (here : sender.pipeline = p.packedBy pack)
    (there : receiver.pipeline = p.packedBy pack) (opened : receiver.isClosed = false)
    (reached : Message.Reached (fun _ => True) m maker) (sent : sender.send m = .ok sender') :
    ∃ frame, sender'.outbound = sender.outbound ++ [frame] ∧ frame.length ≤ maxFrameSize ∧
      (maker.getD sender.pipeline = sender.pipeline → receiver.pipeline.minFrameSize ≤ frame.length) ∧
      ∀ rest,
        if receiver.pipeline.minFrameSize ≤ frame.length ∧ frame.length ≤ config.maxFrame then
          (receiver.framing config.maxFrame).next? (frame ++ rest) = .ok (some (frame, rest))
        else
          (receiver.receive config.maxFrame (frame ++ rest)).1 = [] ∧
            (receiver.receive config.maxFrame (frame ++ rest)).2.2.isClosed = true := by
  obtain ⟨frame, m', serialized, queued, -, -⟩ := send_ok sent
  obtain ⟨stems, -, -, kept⟩ := reached.stems.serialize trivial serialized
  obtain ⟨-, made⟩ := stems.made frame kept _ rfl
  obtain ⟨long, declares⟩ := made.declares stems.fits
  have most : frame.length ≤ maxFrameSize := by
    have small := Bytes.toNat_lt (frame.take lengthPrefix)
    rw [declares, List.length_take_of_le long] at small
    exact Nat.le_of_lt_succ small
  refine ⟨frame, queued, most, ?_, ?_⟩
  · intro own
    rw [own, here] at made
    rw [there]
    exact made.least stems.fits configured packs
  · intro rest
    have least : (receiver.framing config.maxFrame).least = receiver.pipeline.minFrameSize :=
      Nat.max_eq_left receiver.pipeline.prefix_lt_minFrameSize
    have most : (receiver.framing config.maxFrame).most = config.maxFrame :=
      Nat.min_eq_left (TransportConfig.usable_iff.mp usable).1.2
    have next := (receiver.framing config.maxFrame).next?_of_declares long declares rest
    rw [least, most] at next
    split
    · next within => rw [next, if_pos within]
    · next outside =>
      rw [if_neg outside] at next
      exact receive_refused opened next

def narrow : TransportConfig := { maxFrame := headerSize }

theorem usable_narrow : narrow.Usable := TransportConfig.usable_iff.mpr ⟨⟨Nat.le_refl _, by decide⟩, nofun⟩

def opened (role : Role) : Connection Unit := .new role 1 .passthrough default none none

/-- A message without a body is within every limit, also in front of other bytes. -/
theorem taken_of_send_header :
    narrow.Usable ∧ narrow.pipeline = .ok .passthrough ∧
      ∃ sender frame, (opened .client).send (.new 5) = .ok sender ∧ sender.outbound = [frame] ∧
        ((opened .server).framing narrow.maxFrame).next? (frame ++ [7]) = .ok (some (frame, [7])) := by
  obtain ⟨sender, sent⟩ : ∃ sender, (opened .client).send (.new 5) = .ok sender := ⟨_, rfl⟩
  have packs := CompressionKind.writes_compress .none
  obtain ⟨frame, queued, -, least, taken⟩ :=
    taken_iff_of_send usable_narrow rfl packs rfl (rfl : (opened .server).pipeline = _) rfl (.withHeader 0 5 0) sent
  have header : frame = (Message.new 5).header := by
    cases sent
    exact (List.singleton_inj.mp queued).symm
  have within : frame.length ≤ narrow.maxFrame := by
    rw [header, Message.length_header]
    exact Nat.le_refl headerSize
  have next := taken [7]
  rw [if_pos ⟨least rfl, within⟩] at next
  exact ⟨usable_narrow, rfl, sender, frame, sent, queued, next⟩

/-- One byte more is sent all the same, and the receiver closes. -/
theorem oversized_send :
    narrow.Usable ∧ narrow.pipeline = .ok .passthrough ∧
      ∃ m sender frame, (Message.new 5).set (.scalar .bool) true = .ok m ∧
        (opened .client).send m = .ok sender ∧ sender.outbound = [frame] ∧
        ((opened .server).framing narrow.maxFrame).next? frame = .error (.oversizedFrame 11) ∧
        ((opened .server).receive narrow.maxFrame frame).2.2.isClosed = true := by
  have refused : ((opened .server).framing narrow.maxFrame).next? [11, 0, 0, 0, 0, 5, 0, 0, 0, 0, 1] =
      .error (.oversizedFrame 11) := rfl
  exact ⟨usable_narrow, rfl, _, _, _, rfl, rfl, rfl, refused, (receive_refused rfl refused).2⟩

end Connection

end PeerLink
