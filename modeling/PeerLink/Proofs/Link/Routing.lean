import PeerLink.Endpoint
import PeerLink.Proofs.Link.Frames

/-!
What an end does with a message that carries a slot. In a slot of its own half it looks for the callback and
sends nothing. In a slot of the other half it makes a call or has it made, leaves its callbacks alone,
and sends at most a message with that slot.
-/
namespace PeerLink

variable {β κ σ : Type} {p : Pipeline} {t : ReplyTable κ} {slot : Nat}

structure Endpoint.Quiet (e after : Endpoint β κ σ) : Prop where
  pipeline : after.connection.pipeline = e.connection.pipeline
  outbound : after.connection.outbound = e.connection.outbound
  parked : after.parked = e.parked

theorem Endpoint.Quiet.trans {e between after : Endpoint β κ σ} (first : e.Quiet between)
    (second : between.Quiet after) : e.Quiet after :=
  ⟨second.pipeline.trans first.pipeline, second.outbound.trans first.outbound,
    second.parked.trans first.parked⟩

/-- Actions and callbacks that send nothing on their own and leave the callbacks that wait alone. An action gives
the request back as it was, with a response or none. A response is of the wanted kind once it has the type of the
request, as it has when it is sent. -/
structure Application.Plain (a : Application β κ σ) (responds : Message → Prop) : Prop where
  handle : ∀ action request e, ∃ response after, a.handle action request e = (.ok response, request, after) ∧
    e.Quiet after ∧ after.connection.replies = e.connection.replies ∧
    ∀ r ∈ response, responds (r.setType request.type)
  onReply : ∀ callback answer e, e.Quiet (a.onReply callback answer e) ∧
    (a.onReply callback answer e).connection.replies = e.connection.replies

namespace Endpoint

variable {e : Endpoint β κ σ} {a : Application β κ σ} {m : Message}

/-- Nothing but answers in this slot waits to be sent, nothing but calls for them waits to be made. -/
structure Answers (p : Pipeline) (t : ReplyTable κ) (slot : Nat) (e : Endpoint β κ σ) : Prop where
  pipeline : e.connection.pipeline = p
  replies : e.connection.replies = t
  frames : ∀ frame ∈ e.connection.outbound, p.Carries frame slot
  jobs : ∀ job ∈ e.parked, job.message.replySlot = some slot

/-! ### Requests of the other end -/

namespace Answers

theorem count (answers : e.Answers p t slot) (f : Metrics → Metrics) : (e.count f).Answers p t slot := by
  unfold Endpoint.count
  split
  · exact ⟨answers.pipeline, answers.replies, answers.frames, answers.jobs⟩
  · exact ⟨answers.pipeline, answers.replies, answers.frames, answers.jobs⟩

/-- A message of the slot joins the frames that wait, as a frame of the same slot. -/
theorem send (answers : e.Answers p t slot) (truthful : p.Truthful) (faithful : m.Faithful p)
    (carried : m.replySlot = some slot) : (e.attempt (·.send m)).Answers p t slot := by
  obtain ⟨rfl, rfl, frames, jobs⟩ := answers
  unfold attempt
  split
  · next c sent =>
    obtain ⟨frame, carries, queued, replies, pipeline⟩ :=
      Connection.carries_of_send truthful faithful carried sent
    refine ⟨pipeline, replies, ?_, jobs⟩
    intro other waits
    simp only [queued, List.mem_append, List.mem_singleton] at waits
    rcases waits with earlier | rfl
    · exact frames other earlier
    · exact carries
  · exact ⟨rfl, rfl, frames, jobs⟩

/-- What an action answers to a request of the slot carries the slot as well, since it takes its type. -/
theorem invoke (answers : e.Answers p t slot) (truthful : p.Truthful) (plain : a.Plain (Message.Faithful p))
    {job : Job β} (carried : job.message.replySlot = some slot) : (e.invoke a job).Answers p t slot := by
  obtain ⟨response, after, handled, quiet, replies, faithful⟩ := plain.handle job.action job.message e
  have still : after.Answers p t slot :=
    ⟨quiet.pipeline.trans answers.pipeline, replies.trans answers.replies, quiet.outbound ▸ answers.frames,
      quiet.parked ▸ answers.jobs⟩
  unfold Endpoint.invoke
  rw [handled]
  cases response with
  | none => exact still
  | some response =>
    simp only [carried, Option.isSome_some, if_true]
    refine still.send truthful (faithful response rfl) ?_
    rw [Message.replySlot_congr (Message.type_setType response job.message.type), carried]

theorem dispatch (answers : e.Answers p t slot) (truthful : p.Truthful) (plain : a.Plain (Message.Faithful p))
    (carried : m.replySlot = some slot) : (e.dispatch a m).2.Answers p t slot := by
  unfold Endpoint.dispatch
  split
  · exact answers
  · next job found =>
    obtain ⟨action, -, rfl⟩ := Option.map_eq_some_iff.mp found
    split
    · refine ⟨answers.pipeline, answers.replies, answers.frames, ?_⟩
      intro job waits
      rcases List.mem_append.mp waits with earlier | new
      · exact answers.jobs job earlier
      · obtain rfl := List.mem_singleton.mp new
        exact carried
    · exact answers.invoke truthful plain carried

end Answers

theorem refusal_ok {answer : Message} (h : refusal m = .ok answer) :
    answer.type = m.type ∧ answer.frame = none := by
  unfold refusal Message.set at h
  split at h
  · cases h
  · simp only at h
    split at h
    · cases h
    · cases h
      exact ⟨rfl, rfl⟩

theorem Answers.reportUnhandled (answers : e.Answers p t slot) (truthful : p.Truthful)
    (carried : m.replySlot = some slot) : (e.reportUnhandled m).Answers p t slot := by
  have counted := answers.count Metrics.unhandledMessage
  simp only [Endpoint.reportUnhandled]
  split
  · cases refused : refusal m with
    | error fault => exact counted
    | ok answer =>
      obtain ⟨type, unpacked⟩ := refusal_ok refused
      exact counted.send truthful (Message.faithful_of_unpacked unpacked)
        ((Message.replySlot_congr type).trans carried)
  · exact ⟨counted.pipeline, counted.replies, counted.frames, counted.jobs⟩

theorem Answers.routeCall (answers : e.Answers p t slot) (truthful : p.Truthful)
    (plain : a.Plain (Message.Faithful p)) (carried : m.replySlot = some slot) :
    (e.routeCall a m).2.Answers p t slot := by
  have dispatched := answers.dispatch truthful plain carried
  unfold Endpoint.routeCall
  split
  · next after called =>
    rw [called] at dispatched
    exact dispatched
  · next after refused =>
    rw [refused] at dispatched
    exact dispatched.reportUnhandled truthful carried

theorem routeCall_fst : (e.routeCall a m).1 = .handled ∨ (e.routeCall a m).1 = .notHandled := by
  unfold Endpoint.routeCall
  split
  · exact .inl rfl
  · exact .inr rfl

/-! ### The two kinds of slots -/

theorem route_of_owned (carried : m.replySlot = some slot) (owned : e.role.owns slot = true) :
    e.route a m = e.routeAnswer a m := by
  simp only [route, Message.kind_of_replySlot carried, owned, if_true]

theorem route_of_not_owned (carried : m.replySlot = some slot) (other : e.role.owns slot = false) :
    e.route a m = e.routeCall a m := by
  simp only [route, Message.kind_of_replySlot carried, other]
  rfl

/-- An answer takes its callback out of the table, if that still waits. -/
theorem routeAnswer_cases {responds : Message → Prop} (plain : a.Plain responds)
    (carried : m.replySlot = some slot) :
    e.Quiet (e.routeAnswer a m).2 ∧
      ((∃ callback, (slot, callback) ∈ e.connection.replies.pending ∧
          e.connection.replies.resolve? m = some (callback, e.connection.replies.erase slot) ∧
          (e.routeAnswer a m).1 = .replied ∧
          (e.routeAnswer a m).2.connection.replies = e.connection.replies.erase slot) ∨
        (e.routeAnswer a m).1 = .orphan ∧
          (e.routeAnswer a m).2.connection.replies = e.connection.replies) := by
  unfold routeAnswer
  split
  · next callback replies resolved =>
    obtain ⟨_, same, waits, rfl⟩ := ReplyTable.resolve?_eq_some.mp resolved
    obtain rfl := Option.some.inj (carried.symm.trans same)
    obtain ⟨⟨pipeline, outbound, parked⟩, unchanged⟩ := plain.onReply callback m
      { e with connection := { e.connection with replies := e.connection.replies.erase slot } }
    exact ⟨⟨pipeline, outbound, parked⟩, .inl ⟨callback, waits, resolved, rfl, unchanged⟩⟩
  · unfold count
    split
    · exact ⟨⟨rfl, rfl, rfl⟩, .inr ⟨rfl, rfl⟩⟩
    · exact ⟨⟨rfl, rfl, rfl⟩, .inr ⟨rfl, rfl⟩⟩

/-! ### Frames -/

/-- Takes in a frame of the other end: what was done with its message, the callback that ran on it, and the end
after that. A server stamps the message with the id of the connection. -/
def take (e : Endpoint β κ σ) (a : Application β κ σ) (frame : Bytes) :
    Option Route × Option κ × Endpoint β κ σ :=
  match e.connection.accept frame with
  | (none, connection) => (none, none, { e with connection })
  | (some m, connection) =>
    let m := match e.role with
      | .server => m.setClient connection.id
      | .client => m
    let (route, after) := { e with connection }.route a m
    (some route, if route = .replied then (connection.replies.resolve? m).map Prod.fst else none, after)

theorem take_cases {frame : Bytes} (carries : e.connection.pipeline.Carries frame slot) :
    ∃ counted, e.Quiet counted ∧ counted.connection.replies = e.connection.replies ∧
      (e.take a frame = (none, none, counted) ∨
        ∃ m, m.replySlot = some slot ∧ e.take a frame = (some (counted.route a m).1,
          if (counted.route a m).1 = .replied then (counted.connection.replies.resolve? m).map Prod.fst else none,
          (counted.route a m).2)) := by
  unfold take Connection.accept
  cases read : Message.ofFrame e.connection.pipeline frame with
  | error fault =>
    refine ⟨_, ?_, ?_, .inl rfl⟩
    · exact ⟨rfl, rfl, rfl⟩
    · rfl
  | ok m =>
    have carried := carries m read
    refine ⟨_, ?_, ?_, .inr ⟨_, ?_, rfl⟩⟩
    · exact ⟨rfl, rfl, rfl⟩
    · rfl
    · cases e.role with
      | server => exact (Message.replySlot_setClient _).trans carried
      | client => exact carried

variable {frame : Bytes} {route : Option Route} {ran : Option κ} {after : Endpoint β κ σ}

/-- A frame for an own slot calls back what waits there, once, or nothing, and sends nothing. -/
theorem take_answer {responds : Message → Prop} (plain : a.Plain responds)
    (carries : e.connection.pipeline.Carries frame slot) (owned : e.role.owns slot = true)
    (taken : e.take a frame = (route, ran, after)) :
    e.Quiet after ∧
      ((∃ callback, (slot, callback) ∈ e.connection.replies.pending ∧ ran = some callback ∧
          route = some .replied ∧ after.connection.replies = e.connection.replies.erase slot) ∨
        ran = none ∧ (route = none ∨ route = some .orphan) ∧
          after.connection.replies = e.connection.replies) := by
  obtain ⟨counted, quiet, same, unread | ⟨m, carried, routed⟩⟩ := take_cases (a := a) carries
  · cases taken.symm.trans unread
    exact ⟨quiet, .inr ⟨rfl, .inl rfl, same⟩⟩
  · have own : counted.role.owns slot = true := by rwa [role, Connection.role, same]
    rw [route_of_owned carried own] at routed
    cases taken.symm.trans routed
    obtain ⟨quietly, outcome⟩ := routeAnswer_cases (e := counted) plain carried
    refine ⟨quiet.trans quietly, ?_⟩
    rw [← same]
    rcases outcome with ⟨callback, waits, resolved, replied, erased⟩ | ⟨orphan, unchanged⟩
    · exact .inl ⟨callback, waits, by rw [if_pos replied, resolved]; rfl, by rw [replied], erased⟩
    · exact .inr ⟨by rw [orphan]; rfl, .inr (by rw [orphan]), unchanged⟩

/-- A frame for a slot of the other end calls nothing back, and all that comes of it is for that slot. -/
theorem take_request (truthful : e.connection.pipeline.Truthful)
    (plain : a.Plain (Message.Faithful e.connection.pipeline))
    (carries : e.connection.pipeline.Carries frame slot) (other : e.role.owns slot = false)
    (drained : e.connection.outbound = [] ∧ e.parked = []) (taken : e.take a frame = (route, ran, after)) :
    after.Answers e.connection.pipeline e.connection.replies slot ∧ ran = none ∧
      (route = none ∨ route = some .handled ∨ route = some .notHandled) := by
  obtain ⟨counted, quiet, same, unread | ⟨m, carried, routed⟩⟩ := take_cases (a := a) carries
  all_goals
    have nothing : counted.Answers e.connection.pipeline e.connection.replies slot :=
      ⟨quiet.pipeline, same, by simp [quiet.outbound, drained.1], by simp [quiet.parked, drained.2]⟩
  · cases taken.symm.trans unread
    exact ⟨nothing, rfl, .inl rfl⟩
  · have foreign : counted.role.owns slot = false := by rwa [role, Connection.role, same]
    rw [route_of_not_owned carried foreign] at routed
    cases taken.symm.trans routed
    refine ⟨nothing.routeCall truthful plain carried, ?_⟩
    rcases routeCall_fst (e := counted) (a := a) (m := m) with handled | unhandled
    · exact ⟨by rw [handled]; rfl, .inr (.inl (by rw [handled]))⟩
    · exact ⟨by rw [unhandled]; rfl, .inr (.inr (by rw [unhandled]))⟩

end Endpoint

end PeerLink
