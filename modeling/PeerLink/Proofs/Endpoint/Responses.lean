import PeerLink.Proofs.Endpoint
import PeerLink.Proofs.Link.Frames

/-!
The type under which a response leaves. The slot is looked for in the request as its action leaves it, not as it came.
So a response finds its way back if the action has left the slot alone, and may go anywhere else if it has not.
-/
namespace PeerLink

namespace Message

variable {m request left response : Message}

/-- The type that a response has to a request: that of the request if it carries a slot, its own otherwise. -/
def answerType (request response : Message) : UInt24 :=
  if request.replySlot.isSome then request.type else response.type

theorem setType_type (m : Message) : m.setType m.type = m := if_pos rfl

theorem setType_of_unpacked (unpacked : m.frame = none) (type : UInt24) : m.setType type = { m with type } := by
  unfold setType
  split
  · next same => rw [← same]
  · rw [← unpacked]

/-- All but the type and the frame stay. -/
theorem exists_setType (m : Message) (type : UInt24) : ∃ frame, m.setType type = { m with type, frame } := by
  unfold setType
  split
  · next same =>
    subst same
    exact ⟨m.frame, rfl⟩
  · exact ⟨none, rfl⟩

theorem type_eq_of_replySlot {slot : Nat} (one : left.replySlot = some slot) (other : request.replySlot = some slot) :
    left.type = request.type := by
  rw [replySlot_eq_some] at one other
  ext
  exact one.trans other.symm

/-- Two requests give a response one type if they carry the same slot, or if the one that carries a slot has the type
that the response has of its own. -/
theorem answerType_eq_iff :
    left.answerType response = request.answerType response ↔
      left.replySlot = request.replySlot ∨ left.replySlot = none ∧ response.type = request.type ∨
        request.replySlot = none ∧ response.type = left.type := by
  cases kept : left.replySlot with
  | none =>
    cases asked : request.replySlot with
    | none => simp [answerType, kept, asked]
    | some slot => simp [answerType, kept, asked]
  | some slot =>
    cases asked : request.replySlot with
    | none => simp [answerType, kept, asked, eq_comm]
    | some other =>
      simp only [answerType, kept, asked, Option.isSome_some, if_true, Option.some.injEq, reduceCtorEq, false_and,
        or_false]
      constructor
      · intro same
        rw [replySlot_congr same, asked] at kept
        exact (Option.some.inj kept).symm
      · rintro rfl
        exact type_eq_of_replySlot kept asked

end Message

namespace Endpoint

variable {β κ σ : Type} {e now after : Endpoint β κ σ} {a : Application β κ σ} {action : Action β}
  {request left response : Message}

theorem invoke_of_answerType (handled : a.handle action request now = (.ok (some response), left, after)) :
    now.invoke a ⟨action, request⟩ = after.attempt (·.send (response.setType (left.answerType response))) := by
  rw [invoke_of_response ⟨action, request⟩ handled, Message.answerType]
  split
  · rfl
  · rw [Message.setType_type]

/-- The call that a message asks for is made at once or handed to the host, which makes it at some later time. Whenever
that is, a response is queued as one frame with its own head, client and body. Its type goes by the request that the
action leaves; that is the type it has to the request that came if the action leaves the slot alone. -/
theorem type_of_response (registered : e.dispatcher.find? request.head = some action)
    (handled : a.handle action request now = (.ok (some response), left, after))
    (up : after.connection.isClosed = false)
    (travels : (response.setType (left.answerType response)).Travels after.connection.pipeline
      after.connection.nonces.next.1) :
    e.dispatch a request =
        (if e.dispatcher.parks then (true, { e with parked := e.parked ++ [⟨action, request⟩] })
        else (true, e.invoke a ⟨action, request⟩)) ∧
      ∃ frame arrived,
        (now.invoke a ⟨action, request⟩).connection.outbound = after.connection.outbound ++ [frame] ∧
        Message.ofFrame after.connection.pipeline frame = .ok arrived ∧
        arrived.head = response.head ∧ arrived.client = response.client ∧ arrived.body = response.body ∧
        arrived.type = left.answerType response ∧
        (arrived.type = request.answerType response ↔
          left.replySlot = request.replySlot ∨ left.replySlot = none ∧ response.type = request.type ∨
            request.replySlot = none ∧ response.type = left.type) := by
  refine ⟨dispatch_of_find registered, ?_⟩
  obtain ⟨frame, nonces, sent, read⟩ := Connection.send_of_travels up travels
  obtain ⟨kept, typed⟩ := response.exists_setType (left.answerType response)
  refine ⟨frame, _, ?_, read, ?_⟩
  · simp only [invoke_of_answerType handled, attempt, sent]
  · rw [typed]
    exact ⟨rfl, rfl, rfl, rfl, Message.answerType_eq_iff⟩

/-- What an action does that is called with a request: its response, and the request as it leaves it. -/
def answering (response : Message) (leave : Message → Message) : Application Unit Unit Unit where
  handle _ request e := (.ok (some response), leave request, e)
  onReply _ _ e := e
  onSync := none
  onRelay := none

theorem conveys_passthrough (drawn : Draw) (message : Bytes) : Pipeline.passthrough.Conveys drawn message :=
  ⟨message, rfl, rfl⟩

theorem travels_new (drawn : Draw) (head : UInt16) (type : UInt24) :
    ((Message.new head).setType type).Travels .passthrough drawn := by
  rw [Message.setType_of_unpacked rfl]
  exact ⟨rfl, Message.size_withHeader_le 0 head type, conveys_passthrough drawn _⟩

/-- An action that only reads its request, which came in slot 5, answers in that slot. -/
theorem type_of_response_kept :
    (answering (.new 4) id).handle ⟨"greet", ()⟩ (.withHeader 7 3 15) serving =
        (.ok (some (.new 4)), .withHeader 7 3 15, serving) ∧
      ∃ frame arrived,
        (serving.dispatch (answering (.new 4) id) (.withHeader 7 3 15)).2.connection.outbound = [frame] ∧
        Message.ofFrame .passthrough frame = .ok arrived ∧ arrived.head = 4 ∧ arrived.type = 15 := by
  have registered : serving.dispatcher.find? (Message.withHeader 7 3 15).head = some ⟨"greet", ()⟩ := rfl
  have handled : (answering (.new 4) id).handle ⟨"greet", ()⟩ (.withHeader 7 3 15) serving =
      (.ok (some (.new 4)), .withHeader 7 3 15, serving) := rfl
  obtain ⟨dispatched, frame, arrived, queued, read, head, -, -, -, same⟩ :=
    type_of_response registered handled rfl (travels_new _ 4 _)
  refine ⟨handled, frame, arrived, ?_, read, head, same.mpr (.inl rfl)⟩
  rw [dispatched]
  exact queued

/-- An action that takes the slot out of its request, which came in slot 5: the response leaves as a direct call. -/
theorem slot_forgotten :
    ∃ a response left frame arrived,
      serving.dispatcher.find? (Message.withHeader 7 3 15).head = some ⟨"greet", ()⟩ ∧
      a.handle ⟨"greet", ()⟩ (.withHeader 7 3 15) serving = (.ok (some response), left, serving) ∧
      serving.connection.isClosed = false ∧ response.frame = none ∧
      (∀ drawn type, (response.setType type).Travels serving.connection.pipeline drawn) ∧
      (Message.withHeader 7 3 15).replySlot = some 5 ∧
      (serving.dispatch a (.withHeader 7 3 15)).2.connection.outbound = [frame] ∧
      Message.ofFrame serving.connection.pipeline frame = .ok arrived ∧
      arrived.type ≠ (Message.withHeader 7 3 15).type :=
  ⟨answering (.new 4) (·.setType 0), .new 4, .withHeader 7 3 0, _, (Message.new 4).arrived _, rfl, rfl, rfl, rfl,
    fun drawn => travels_new drawn 4, rfl, rfl, rfl, by decide⟩

end Endpoint

end PeerLink
