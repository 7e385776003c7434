import PeerLink.Proofs.Block.Faults
import PeerLink.Proofs.Endpoint

/-!
Actions that fail. The connection is closed if the fault blames the peer. That is so for a request out of which no block
can be read, unless the block is a nested object that is all there and spells no value: the peer that sent it stays.
-/
namespace PeerLink

theorem Message.decode_of_get {α : Type} {block : Block α} {m : Message} {fault : Fault} (failed : m.get block = .error fault) :
    block.decode m.unread = .error fault := by
  unfold get at failed
  split at failed
  · cases failed
  · next short => rw [short, Except.error.inj failed]

namespace Endpoint

variable {β κ σ : Type} {e now after : Endpoint β κ σ} {a : Application β κ σ} {action : Action β}
  {request left : Message} {fault : Fault}

theorem isClosed_close (e : Endpoint β κ σ) : e.close.connection.isClosed = true :=
  e.connection.close_cases.2.2.2

/-- The call that a message asks for is made at once or handed to the host. Whenever it is made, if it fails with the
fault of a block that could not be read, wherever in the request, it leaves the connection closed unless the block is a
garbled object. With a fault that does not blame the peer it leaves all as the action did. -/
theorem closed_iff_of_get (registered : e.dispatcher.find? request.head = some action)
    (handled : a.handle action request now = (.error fault, left, after)) (up : after.connection.isClosed = false) :
    e.dispatch a request =
        (if e.dispatcher.parks then (true, { e with parked := e.parked ++ [⟨action, request⟩] })
        else (true, e.invoke a ⟨action, request⟩)) ∧
      (∀ (α : Type) (block : Block α) (m : Message), m.get block = .error fault →
        ((now.invoke a ⟨action, request⟩).connection.isClosed = true ↔ ¬block.Garbled m.unread)) ∧
      (fault.isPeerMisbehaving = false → now.invoke a ⟨action, request⟩ = after) := by
  have failed := invoke_of_fault ⟨action, request⟩ handled
  refine ⟨dispatch_of_find registered, ?_, ?_⟩
  · intro α block m unread
    have blames := Block.blames_iff (Message.decode_of_get unread)
    rw [failed, ← blames]
    split
    · next blamed => exact iff_of_true after.isClosed_close blamed
    · next spared => exact iff_of_false (Bool.eq_false_iff.mp up) spared
  · intro spared
    rw [failed, spared]
    rfl

/-- An action that reads one block and fails with its fault. -/
def reading {α : Type} (block : Block α) : Application Unit Unit Unit where
  handle _ request e :=
    match request.get block with
    | .ok (_, left) => (.ok none, left, e)
    | .error fault => (.error fault, request, e)
  onReply _ _ e := e
  onSync := none
  onRelay := none

/-- A number is asked of a request without a body. -/
theorem closed_iff_of_get_empty :
    (reading (.scalar .u64)).handle ⟨"greet", ()⟩ (.new 3) serving = (.error (.bufferUnderrun 8 0), .new 3, serving) ∧
      (serving.dispatch (reading (.scalar .u64)) (.new 3)).2.connection.isClosed = true := by
  have registered : serving.dispatcher.find? (Message.new 3).head = some ⟨"greet", ()⟩ := rfl
  have handled : (reading (.scalar .u64)).handle ⟨"greet", ()⟩ (.new 3) serving =
      (.error (.bufferUnderrun 8 0), .new 3, serving) := rfl
  obtain ⟨dispatched, closes, -⟩ := closed_iff_of_get registered handled rfl
  refine ⟨handled, ?_⟩
  rw [dispatched]
  exact (closes _ (.scalar .u64) (.new 3) rfl).mpr not_false

/-- An object of four bytes that is more than three bytes can hold. -/
def excessive : Message := { Message.new 3 with body := [4, 0, 255, 255, 255, 255] }

/-- The object cannot be read, the action says so, and the connection stays open. -/
theorem garbled_object_tolerated :
    ∃ fault, excessive.get (.object .u24) = .error fault ∧ fault.isPeerMisbehaving = false ∧
      (reading (.object .u24)).handle ⟨"greet", ()⟩ excessive serving = (.error fault, excessive, serving) ∧
      (serving.dispatch (reading (.object .u24)) excessive).2.connection.isClosed = false := by
  have unread : excessive.get (.object .u24) = .error (.serialization "bytes are no written form") := rfl
  exact ⟨_, unread, rfl, rfl, rfl⟩

end Endpoint

end PeerLink
