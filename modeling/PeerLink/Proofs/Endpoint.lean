import PeerLink.Endpoint
import PeerLink.Proofs.Connection
import PeerLink.Proofs.Transport

/-!
What the functions of an end do, each said once. A message that the pipeline conveys is queued as one frame on an open
connection, and the frame reads as the message at the other end.
-/
namespace PeerLink

variable {β κ σ : Type} {m : Message}

namespace Pipeline

/-- Decoding undoes encoding for a message: with what has been drawn there is a frame of it, which gives it back. -/
def Conveys (p : Pipeline) (drawn : Draw) (message : Bytes) : Prop :=
  ∃ frame, p.encode drawn message = .ok frame ∧ p.decode frame = .ok message

/-- A pipeline that was built conveys what its encoder packs into one frame, up to the limit of decompression. -/
theorem conveys_of_build {encryption : EncryptionKind} {key : Option Bytes} {compression : CompressionKind} {p : Pipeline}
    {pack : Bytes → Except Fault Bytes} {drawn : Draw} {message : Bytes}
    (built : build encryption key compression = .ok p) (there : encryption.Drawn drawn)
    (packs : compression.Writes pack) (short : message.length ≤ maxFrameSize)
    (room : compression = .none ∨ encryption.sealedLength message.length ≤ decompressedLimit)
    (small : ∀ sealed, sealed.length = encryption.sealedLength message.length →
      ∃ packed, pack sealed = .ok packed ∧ lengthPrefix + packed.length ≤ maxFrameSize) :
    (p.packedBy pack).Conveys drawn message := by
  have framed : ∃ frame, (p.packedBy pack).encode drawn message = .ok frame := by
    by_cases passes : (p.packedBy pack).isPassthrough = true
    · exact ⟨message, if_pos passes⟩
    · obtain ⟨e, made, rfl⟩ := eq_of_build built
      obtain ⟨sealed, encrypted, length, -⟩ := EncryptionKind.decrypt_encrypt made there message
      obtain ⟨packed, compressed, fits⟩ := small sealed length
      refine ⟨Bytes.ofNat 2 (lengthPrefix + packed.length) ++ packed, ?_⟩
      rw [encode_of_active (Bool.eq_false_iff.mpr passes) encrypted compressed]
      exact if_neg (Nat.not_lt.mpr fits)
  obtain ⟨frame, encoded⟩ := framed
  refine ⟨frame, encoded, ?_⟩
  rw [decode_built built packs short encoded]
  exact if_pos room

theorem conveys_uncompressed {encryption : EncryptionKind} {key : Option Bytes} {p : Pipeline} {drawn : Draw}
    {message : Bytes} (built : build encryption key .none = .ok p) (there : encryption.Drawn drawn)
    (short : message.length ≤ maxFrameSize)
    (small : lengthPrefix + encryption.sealedLength message.length ≤ maxFrameSize) : p.Conveys drawn message := by
  obtain ⟨e, made, rfl⟩ := eq_of_build built
  refine conveys_of_build built there (CompressionKind.writes_compress .none) short (.inl rfl) ?_
  intro sealed length
  exact ⟨sealed, rfl, length ▸ small⟩

end Pipeline

/-- A message that keeps no frame and that the pipeline conveys. -/
structure Message.Travels (p : Pipeline) (drawn : Draw) (m : Message) : Prop where
  unpacked : m.frame = none
  fits : m.size ≤ maxFrameSize
  conveys : p.Conveys drawn (m.header ++ m.body)

theorem Connection.send_of_travels {c : Connection κ} (up : c.isClosed = false)
    (travels : m.Travels c.pipeline c.nonces.next.1) :
    ∃ frame nonces, c.send m =
        .ok { c with nonces, pending := c.pending + 1, outbound := c.outbound ++ [frame] } ∧
      Message.ofFrame c.pipeline frame = .ok (m.arrived frame) := by
  obtain ⟨frame, encoded, decoded⟩ := travels.conveys
  have serialized : m.serialize c.pipeline c.nonces.next.1 = .ok (frame, { m with frame := some frame }) := by
    rw [Message.serialize, travels.unpacked]
    simp only [Message.toBytes_eq travels.fits, bind, Except.bind, encoded]
    rfl
  refine ⟨frame, c.nonces.next.2, ?_, Message.ofFrame_of_decode travels.fits decoded⟩
  simp only [send, frameOf, serialized, bind, Except.bind, sendFrame, up]
  rfl

namespace Endpoint

variable {e after : Endpoint β κ σ} {a : Application β κ σ} {action : Action β} {left : Message}

/-! ### Counting -/

theorem metrics_count (e : Endpoint β κ σ) (f : Metrics → Metrics) : (e.count f).metrics = f e.metrics := by
  unfold count
  split
  · next counted => rw [metrics, metrics, counted, Option.getD_some, Option.getD_some]
  · next none => rw [metrics, metrics, none, Option.getD_none, Option.getD_none]

/-- Counting changes nothing but counters. -/
theorem count_cases (e : Endpoint β κ σ) (f : Metrics → Metrics) :
    ∃ counters metrics, e.count f = { e with counters, connection := { e.connection with metrics } } := by
  unfold count
  split
  · exact ⟨_, e.connection.metrics, rfl⟩
  · exact ⟨e.counters, _, rfl⟩

theorem count_role (e : Endpoint β κ σ) (f : Metrics → Metrics) : (e.count f).role = e.role := by
  obtain ⟨counters, metrics, counted⟩ := count_cases e f
  rw [counted]
  rfl

/-! ### Calls -/

theorem dispatch_of_find (found : e.dispatcher.find? m.head = some action) :
    e.dispatch a m =
      if e.dispatcher.parks then (true, { e with parked := e.parked ++ [⟨action, m⟩] })
      else (true, e.invoke a ⟨action, m⟩) := by
  simp only [dispatch, Dispatcher.job?, found, Option.map_some]

theorem dispatch_of_none (unknown : e.dispatcher.find? m.head = none) : e.dispatch a m = (false, e) := by
  simp only [dispatch, Dispatcher.job?, unknown, Option.map_none]

theorem invoke_of_fault {fault : Fault} (job : Job β)
    (handled : a.handle job.action job.message e = (.error fault, left, after)) :
    e.invoke a job = if fault.isPeerMisbehaving then after.close else after := by
  simp only [invoke, handled]

theorem invoke_of_response {response : Message} (job : Job β)
    (handled : a.handle job.action job.message e = (.ok (some response), left, after)) :
    e.invoke a job =
      after.attempt (·.send (if left.replySlot.isSome then response.setType left.type else response)) := by
  simp only [invoke, handled]

/-! ### Messages without an action -/

theorem refusal_eq (m : Message) :
    refusal m = .ok { Message.withHeader m.client m.head m.type with body := [0] } := rfl

def serving : Endpoint Unit Unit Unit :=
  .new (.new .server 7 .passthrough default none none) ⟨[(3, ⟨"greet", ()⟩)], false⟩ none ()

end Endpoint

end PeerLink
