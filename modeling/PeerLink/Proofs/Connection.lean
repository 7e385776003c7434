import PeerLink.Connection
import PeerLink.Proofs.Reader

/-! What each of its functions makes of a connection. -/
namespace PeerLink.Connection

variable {κ : Type} {c c' : Connection κ} {m m' : Message} {frame : Bytes}

/-- A connection that has framed a message is behind one more draw and is otherwise as it was. -/
theorem frameOf_ok (framed : c.frameOf m = .ok (frame, m', c')) :
    m.serialize c.pipeline c.nonces.next.1 = .ok (frame, m') ∧ c' = { c with nonces := c.nonces.next.2 } := by
  simp only [frameOf] at framed
  split at framed
  · next serialized =>
    cases framed
    exact ⟨serialized, rfl⟩
  · cases framed

theorem frameOf_stamped_ok {slot : Nat} (framed : (m.setReplySlot slot >>= c.frameOf) = .ok (frame, m', c')) :
    c' = { c with nonces := c.nonces.next.2 } := by
  obtain ⟨stamped, -, framed⟩ := ok_of_bind framed
  exact (frameOf_ok framed).2

theorem sendFrame_ok (sent : c.sendFrame frame = .ok c') :
    c.isClosed = false ∧ c' = { c with pending := c.pending + 1, outbound := c.outbound ++ [frame] } := by
  unfold sendFrame at sent
  split at sent
  · cases sent
  · next up =>
    cases sent
    exact ⟨Bool.eq_false_iff.mpr up, rfl⟩

theorem sendFrame_error {fault : Fault} (refused : c.sendFrame frame = .error fault) :
    c.isClosed = true ∧ fault = .connectionClosed := by
  unfold sendFrame at refused
  split at refused
  · next down =>
    cases refused
    exact ⟨down, rfl⟩
  · cases refused

theorem send_ok (sent : c.send m = .ok c') :
    ∃ frame m', m.serialize c.pipeline c.nonces.next.1 = .ok (frame, m') ∧
      c'.outbound = c.outbound ++ [frame] ∧ c'.replies = c.replies ∧ c'.pipeline = c.pipeline := by
  obtain ⟨⟨frame, m', after⟩, framed, queued⟩ := ok_of_bind sent
  obtain ⟨serialized, rfl⟩ := frameOf_ok framed
  obtain ⟨-, rfl⟩ := sendFrame_ok queued
  exact ⟨frame, m', serialized, rfl, rfl, rfl⟩

theorem nextFrame?_eq_some (next : c.nextFrame? = some (frame, c')) :
    ∃ rest, c.outbound = frame :: rest ∧ c' = { c with outbound := rest } := by
  unfold nextFrame? at next
  split at next
  · cases next
  · next rest waiting =>
    cases next
    exact ⟨rest, waiting, rfl⟩

/-- Whether it was open or not, a connection that has been closed keeps its id and its frames. -/
theorem close_cases (c : Connection κ) :
    c.close.id = c.id ∧ c.close.outbound = c.outbound ∧ c.close.pending = c.pending ∧ c.close.isClosed = true := by
  unfold close
  split
  · next down => exact ⟨rfl, rfl, rfl, down⟩
  · exact ⟨rfl, rfl, rfl, rfl⟩

end PeerLink.Connection
