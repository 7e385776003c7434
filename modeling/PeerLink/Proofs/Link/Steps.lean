import PeerLink.Proofs.Link

/-!
What each step of the two ends keeps: a request that is outstanding has its slot for itself, so an answer finds
the callback of its request or none; a call or an answer is under way only for a request that was taken in.
-/
namespace PeerLink.Link

variable {β σ : Type} {p : Pipeline} {r : Role} {mine theirs : Party β σ} {events : List Event} {e : Event}
  {n : Nat}

def Ran (r : Role) (n : Nat) (events : List Event) : Prop :=
  ∃ origin route, .taken r origin route (some n) ∈ events

/-- The end has taken in a request of the other end, without running a callback. -/
def Took (r : Role) (n : Nat) (events : List Event) : Prop := ∃ route, .taken r (.request n) route none ∈ events

/-- An end treats a frame as what it is, after all that has happened before. A frame that holds no message for
the pipeline is dropped, and an answer that comes too late is for nobody. -/
def Event.Fits (before : List Event) : Event → Prop
  | .taken _ (.request _) route ran =>
    ran = none ∧ (route = none ∨ route = some .handled ∨ route = some .notHandled)
  | .taken r (.answer n) route ran =>
    Took r.other n before ∧
      ((route = some .replied ∧ ran = some n ∧ ¬Ran r n before) ∨
        ran = none ∧ (route = none ∨ route = some .orphan))
  | _ => True

def Correlated (events : List Event) : Prop :=
  ∀ before e behind, events = before ++ e :: behind → e.Fits before

theorem Correlated.snoc (correlated : Correlated events) (fits : e.Fits events) :
    Correlated (events ++ [e]) := by
  intro before other behind split
  rcases List.eq_nil_or_concat behind with rfl | ⟨between, last, rfl⟩
  · obtain ⟨rfl, same⟩ := List.append_inj' split rfl
    cases same
    exact fits
  · rw [List.concat_eq_append, ← List.cons_append, ← List.append_assoc] at split
    exact correlated before other between (List.append_inj' split rfl).1

theorem ran_snoc :
    Ran r n (events ++ [e]) ↔ Ran r n events ∨ ∃ origin route, e = .taken r origin route (some n) := by
  simp only [Ran, List.mem_append, List.mem_singleton]
  constructor
  · rintro ⟨origin, route, earlier | last⟩
    · exact .inl ⟨origin, route, earlier⟩
    · exact .inr ⟨origin, route, last.symm⟩
  · rintro (⟨origin, route, earlier⟩ | ⟨origin, route, last⟩)
    · exact ⟨origin, route, .inl earlier⟩
    · exact ⟨origin, route, .inr last.symm⟩

theorem Took.later (took : Took r n events) : Took r n (events ++ [e]) := by
  obtain ⟨route, present⟩ := took
  exact ⟨route, List.mem_append_left _ present⟩

/-- What every step keeps at the first end. A callback that has run waits no more, and calls and answers are for
requests that were taken in. -/
structure Kept (p : Pipeline) (events : List Event) (r : Role) (mine theirs : Party β σ) : Prop where
  drained : mine.Drained p
  sound : Sound p r mine theirs
  spent : ∀ n, Ran r n events → n < mine.made ∧ ∀ slot, (slot, n) ∉ mine.replies.pending
  holds : ∀ n job, (n, job) ∈ mine.held → Took r n events
  answers : ∀ n frame, (.answer n, frame) ∈ mine.wire → Took r n events

theorem Kept.move {mine' theirs' : Party β σ} (kept : Kept p events r mine theirs)
    (moves : Moves p r mine theirs mine' theirs') (drained : mine'.Drained p)
    (ran : ∀ origin route n, e = .taken r origin route (some n) →
      n < mine.made ∧ ∀ slot, (slot, n) ∉ mine'.replies.pending)
    (holds : ∀ n job, (n, job) ∈ mine'.held → (n, job) ∈ mine.held ∨ Took r n (events ++ [e]))
    (answers : ∀ n frame, (.answer n, frame) ∈ mine'.wire →
      (.answer n, frame) ∈ mine.wire ∨ Took r n (events ++ [e])) :
    Kept p (events ++ [e]) r mine' theirs' where
  drained := drained
  sound := kept.sound.move moves
  spent := by
    intro n now
    rw [moves.made]
    rcases ran_snoc.mp now with before | ⟨origin, route, last⟩
    · obtain ⟨older, spent⟩ := kept.spent n before
      exact ⟨older, fun slot waiting => spent slot (moves.waits _ waiting)⟩
    · exact ran origin route n last
  holds := by
    intro n job held
    rcases holds n job held with old | took
    · exact (kept.holds n job old).later
    · exact took
  answers := by
    intro n frame under
    rcases answers n frame under with old | took
    · exact (kept.answers n frame old).later
    · exact took

/-- The requests of an end at which nothing happens. Frames that it has sent may be taken off its wire. -/
theorem Kept.watch {mine' : Party β σ} {wire : List (Origin × Bytes)} (peer : Kept p events r.other theirs mine)
    (rest : ∀ entry ∈ wire, entry ∈ theirs.wire)
    (held : ∀ n job, (n, job) ∈ mine'.held → (n, job) ∈ mine.held ∨
      Outstanding theirs mine n ∧ job.message.replySlot = some (slotOf r.other n))
    (answered : ∀ n frame, (.answer n, frame) ∈ mine'.wire → (.answer n, frame) ∈ mine.wire ∨
      Outstanding theirs mine n ∧ p.Carries frame (slotOf r.other n))
    (elsewhere : ∀ origin route n, e ≠ .taken r.other origin route (some n)) :
    Kept p (events ++ [e]) r.other { theirs with wire } mine' := by
  refine peer.move ⟨rfl, rfl, rfl, fun _ => id, ?_, held, answered⟩
    ⟨peer.drained.pipeline, peer.drained.outbound, peer.drained.parked⟩ ?_ (fun _ _ => .inl) ?_
  · intro n frame under
    exact rest _ under
  · intro origin route n happened
    exact absurd happened (elsewhere origin route n)
  · intro n frame under
    exact .inl (rest _ under)

/-! ### Steps -/

/-- A request that is made in time gets the slot of its number. -/
theorem Kept.registered (own : Kept p events r mine theirs) {m : Message} {result : Except Fault Nat}
    {connection : Connection Nat} (truthful : p.Truthful)
    (faithful : ∀ m', m.setReplySlot (slotOf r mine.made) = .ok m' → m'.Faithful p)
    (timely : ∀ n, Outstanding mine theirs n → InTime n mine.made)
    (requested : mine.endpoint.connection.sendWithReply? m mine.made = some (result, connection)) :
    connection.pipeline = p ∧ connection.replies.role = mine.replies.role ∧
      connection.replies.counter = mine.replies.counter + 1 ∧
      (∀ entry ∈ connection.replies.pending, entry ∈ mine.replies.pending ∨
        entry = (slotOf r mine.made, mine.made)) ∧
      ∀ frame ∈ connection.outbound, p.Carries frame (slotOf r mine.made) := by
  obtain ⟨pipeline, outbound, -⟩ := own.drained
  have first : mine.replies.role.slot mine.replies.counter = slotOf r mine.made := by
    rw [own.sound.role, own.sound.counter, slotOf]
  have vacant : mine.replies.isPending (mine.replies.role.slot mine.replies.counter) = false := by
    rw [first, ReplyTable.isPending_eq_false, List.mem_map]
    rintro ⟨⟨_, n⟩, waits, rfl⟩
    have outstanding : Outstanding mine theirs n := .waits waits
    exact slotOf_ne (own.sound.made n outstanding) (timely n outstanding) (own.sound.waits _ n waits).symm
  obtain ⟨same, role, counter, sent⟩ := Connection.sendWithReply?_cases vacant (pipeline ▸ truthful)
    (first.symm ▸ pipeline ▸ faithful) requested
  rw [first, pipeline, outbound] at sent
  refine ⟨same.trans pipeline, role, counter, ?_, ?_⟩
  · intro entry waiting
    rcases sent with ⟨-, kept⟩ | ⟨pending, -⟩
    · exact .inl (kept entry waiting)
    · rw [pending] at waiting
      exact (List.mem_cons.mp waiting).symm
  · intro frame queued
    rcases sent with ⟨nothing, -⟩ | ⟨-, sent, carries, whole⟩
    · rw [nothing] at queued
      cases queued
    · rw [whole] at queued
      obtain rfl := List.mem_singleton.mp queued
      exact carries

section Steps

variable (own : Kept p events r mine theirs) (peer : Kept p events r.other theirs mine)
include own peer

theorem Kept.request {m : Message} {result : Except Fault Nat} {connection : Connection Nat}
    (truthful : p.Truthful) (faithful : ∀ m', m.setReplySlot (slotOf r mine.made) = .ok m' → m'.Faithful p)
    (timely : ∀ n, Outstanding mine theirs n → InTime n mine.made)
    (requested : mine.endpoint.connection.sendWithReply? m mine.made = some (result, connection)) :
    let mine' := { mine.after (.request mine.made) { mine.endpoint with connection } with made := mine.made + 1 }
    Kept p (events ++ [.requested r]) r mine' theirs ∧
      Kept p (events ++ [.requested r]) r.other theirs mine' := by
  intro mine'
  obtain ⟨pipeline, role, counter, waits, frames⟩ := own.registered truthful faithful timely requested
  have asked : ∀ n frame, (.request n, frame) ∈ mine'.wire → (.request n, frame) ∈ mine.wire ∨
      n = mine.made ∧ p.Carries frame (slotOf r mine.made) := by
    intro n frame under
    rcases Party.mem_wire_after.mp under with old | ⟨_, queued, new⟩
    · exact .inl old
    · cases new
      exact .inr ⟨rfl, frames _ queued⟩
  have answers : ∀ n frame, (.answer n, frame) ∈ mine'.wire → (.answer n, frame) ∈ mine.wire := by
    intro n frame under
    rcases Party.mem_wire_after.mp under with old | ⟨_, -, new⟩
    · exact old
    · cases new
  have held : mine'.held = mine.held := by simp [mine', Party.after, own.drained.parked]
  constructor
  · refine ⟨⟨pipeline, rfl, rfl⟩, own.sound.request timely role counter rfl waits asked, ?_, ?_, ?_⟩
    · intro n ran
      rcases ran_snoc.mp ran with before | ⟨_, _, last⟩
      · obtain ⟨older, spent⟩ := own.spent n before
        refine ⟨Nat.lt_succ_of_lt older, ?_⟩
        intro slot waiting
        rcases waits _ waiting with old | new
        · exact spent slot old
        · cases new
          exact Nat.lt_irrefl _ older
      · cases last
    · intro n job kept
      exact (own.holds n job (held ▸ kept)).later
    · intro n frame under
      exact (own.answers n frame (answers n frame under)).later
  · refine peer.watch (fun _ => id) ?_ ?_ (by simp)
    · intro n job kept
      exact .inl (held ▸ kept)
    · intro n frame under
      exact .inl (answers n frame under)

theorem Kept.cancel (slot : Nat) :
    Kept p (events ++ [.cancelled r]) r (mine.cancel slot) theirs ∧
      Kept p (events ++ [.cancelled r]) r.other theirs (mine.cancel slot) := by
  constructor
  · refine own.move ⟨rfl, rfl, rfl, ?_, fun _ _ => id, fun _ _ => .inl, fun _ _ => .inl⟩
      ⟨own.drained.pipeline, own.drained.outbound, own.drained.parked⟩ (by simp)
      (fun _ _ => .inl) (fun _ _ => .inl)
    intro entry waiting
    exact (ReplyTable.mem_erase.mp waiting).1
  · exact peer.watch (fun _ => id) (fun _ _ => .inl) (fun _ _ => .inl) (by simp)

/-- What an end does for a request of the other end leaves its own requests alone. -/
theorem Kept.serve {endpoint : Endpoint β Nat σ} {k : Nat} {wire : List (Origin × Bytes)}
    {held : List (Nat × Job β)} (answers : endpoint.Answers p mine.replies (slotOf r.other k))
    (outstanding : Outstanding theirs mine k) (took : Took r k (events ++ [e]))
    (unran : ∀ side origin route n, e ≠ .taken side origin route (some n))
    (rest : ∀ entry ∈ wire, entry ∈ theirs.wire) (left : ∀ entry ∈ held, entry ∈ mine.held) :
    let mine' := Party.after { mine with held } (.answer k) endpoint
    Kept p (events ++ [e]) r mine' { theirs with wire } ∧
      Kept p (events ++ [e]) r.other { theirs with wire } mine' := by
  intro mine'
  obtain ⟨pipeline, replies, frames, jobs⟩ := answers
  have calls : ∀ n job, (n, job) ∈ mine'.held →
      (n, job) ∈ mine.held ∨ n = k ∧ job.message.replySlot = some (slotOf r.other k) := by
    intro n job kept
    rcases Party.mem_held_after.mp kept with old | ⟨_, parked, new⟩
    · exact .inl (left _ old)
    · cases new
      exact .inr ⟨rfl, jobs _ parked⟩
  have asked : ∀ n frame, (.request n, frame) ∈ mine'.wire → (.request n, frame) ∈ mine.wire := by
    intro n frame under
    rcases Party.mem_wire_after.mp under with old | ⟨_, -, new⟩
    · exact old
    · cases new
  have answered : ∀ n frame, (.answer n, frame) ∈ mine'.wire →
      (.answer n, frame) ∈ mine.wire ∨ n = k ∧ p.Carries frame (slotOf r.other k) := by
    intro n frame under
    rcases Party.mem_wire_after.mp under with old | ⟨_, queued, new⟩
    · exact .inl old
    · cases new
      exact .inr ⟨rfl, frames _ queued⟩
  constructor
  · refine own.move ⟨?_, ?_, rfl, ?_, asked, fun _ _ => .inl, ?_⟩ ⟨pipeline, rfl, rfl⟩ ?_ ?_ ?_
    · exact congrArg ReplyTable.role replies
    · exact congrArg ReplyTable.counter replies
    · intro entry waiting
      exact replies ▸ waiting
    · intro n frame under
      exact .inl (rest _ under)
    · intro origin route n ran
      exact absurd ran (unran r origin route n)
    · intro n job kept
      exact (calls n job kept).imp_right (fun ⟨same, _⟩ => same ▸ took)
    · intro n frame under
      exact (answered n frame under).imp_right (fun ⟨same, _⟩ => same ▸ took)
  · refine peer.watch rest ?_ ?_ (unran r.other)
    · intro n job kept
      exact (calls n job kept).imp_right (fun ⟨same, carried⟩ => same ▸ ⟨outstanding, carried⟩)
    · intro n frame under
      exact (answered n frame under).imp_right (fun ⟨same, carries⟩ => same ▸ ⟨outstanding, carries⟩)

variable {a : Application β Nat σ} {k : Nat} {frame : Bytes} {rest : List (Origin × Bytes)}
  {route : Option Route} {ran : Option Nat} {endpoint : Endpoint β Nat σ}

theorem Kept.takeRequest (truthful : p.Truthful) (plain : a.Plain (Message.Faithful p))
    (oldest : theirs.wire = (.request k, frame) :: rest)
    (taken : mine.endpoint.take a frame = (route, ran, endpoint)) (happened : e = .taken r (.request k) route ran) :
    let mine' := mine.after (.answer k) endpoint
    Kept p (events ++ [e]) r mine' { theirs with wire := rest } ∧
      Kept p (events ++ [e]) r.other { theirs with wire := rest } mine' ∧ e.Fits events := by
  subst happened
  have under : (.request k, frame) ∈ theirs.wire := oldest ▸ List.mem_cons_self
  obtain ⟨rfl, outbound, parked⟩ := own.drained
  have side : mine.endpoint.role = r := own.sound.role
  have other : mine.endpoint.role.owns (slotOf r.other k) = false := by
    rw [side]
    exact Role.not_owns_of_other (Role.owns_slot r.other (UInt32.ofNat k))
  obtain ⟨answers, rfl, fits⟩ :=
    Endpoint.take_request truthful plain (peer.sound.asked k frame under) other ⟨outbound, parked⟩ taken
  obtain ⟨first, second⟩ := Kept.serve (e := .taken r (.request k) route none) own peer answers (.asked under)
    ⟨route, by simp⟩ (by simp) (fun _ kept => oldest ▸ List.mem_cons_of_mem _ kept) (fun _ => id)
  exact ⟨first, second, rfl, fits⟩

omit peer in
/-- Two requests that are outstanding have different slots, so an answer finds its own callback or none. -/
theorem Kept.resolved (plain : a.Plain (Message.Faithful p)) (under : (.answer k, frame) ∈ theirs.wire)
    (taken : mine.endpoint.take a frame = (route, ran, endpoint)) :
    mine.endpoint.Quiet endpoint ∧ endpoint.connection.replies.role = mine.replies.role ∧
      endpoint.connection.replies.counter = mine.replies.counter ∧
      (∀ entry ∈ endpoint.connection.replies.pending, entry ∈ mine.replies.pending) ∧
      (ran = some k ∧ route = some .replied ∧ (∃ slot, (slot, k) ∈ mine.replies.pending) ∧
          (∀ slot, (slot, k) ∉ endpoint.connection.replies.pending) ∨
        ran = none ∧ (route = none ∨ route = some .orphan)) := by
  have side : mine.endpoint.role = r := own.sound.role
  have owned : mine.endpoint.role.owns (slotOf r k) = true := by
    rw [side]
    exact Role.owns_slot r (UInt32.ofNat k)
  have carries : mine.endpoint.connection.pipeline.Carries frame (slotOf r k) := by
    rw [own.drained.pipeline]
    exact own.sound.answered k frame under
  obtain ⟨quiet, outcome⟩ := Endpoint.take_answer plain carries owned taken
  refine ⟨quiet, ?_⟩
  rcases outcome with ⟨callback, waits, rfl, rfl, erased⟩ | ⟨rfl, dropped, unchanged⟩
  · obtain rfl := own.sound.apart callback k (.waits waits) (.answered under) (own.sound.waits _ callback waits).symm
    rw [erased]
    refine ⟨rfl, rfl, fun _ left => (ReplyTable.mem_erase.mp left).1, .inl ⟨rfl, rfl, ⟨_, waits⟩, ?_⟩⟩
    intro slot left
    obtain ⟨old, elsewhere⟩ := ReplyTable.mem_erase.mp left
    exact elsewhere (own.sound.waits slot callback old)
  · rw [unchanged]
    exact ⟨rfl, rfl, fun _ => id, .inr ⟨rfl, dropped⟩⟩

theorem Kept.takeAnswer (plain : a.Plain (Message.Faithful p)) (oldest : theirs.wire = (.answer k, frame) :: rest)
    (taken : mine.endpoint.take a frame = (route, ran, endpoint)) (happened : e = .taken r (.answer k) route ran) :
    let mine' := mine.after (.answer k) endpoint
    Kept p (events ++ [e]) r mine' { theirs with wire := rest } ∧
      Kept p (events ++ [e]) r.other { theirs with wire := rest } mine' ∧ e.Fits events := by
  intro mine'
  subst happened
  have under : (.answer k, frame) ∈ theirs.wire := oldest ▸ List.mem_cons_self
  obtain ⟨quiet, role, counter, waits, outcome⟩ := own.resolved plain under taken
  have wire : mine'.wire = mine.wire := by simp [mine', Party.after, quiet.outbound, own.drained.outbound]
  have held : mine'.held = mine.held := by simp [mine', Party.after, quiet.parked, own.drained.parked]
  have rests : ∀ entry ∈ rest, entry ∈ theirs.wire := fun _ kept => oldest ▸ List.mem_cons_of_mem _ kept
  refine ⟨?_, ?_, ?_⟩
  · refine own.move ⟨role, counter, rfl, waits, ?_, fun _ _ => .inl, ?_⟩
      ⟨quiet.pipeline.trans own.drained.pipeline, rfl, rfl⟩ ?_ ?_ ?_
    · intro n frame sent
      exact wire ▸ sent
    · intro n frame sent
      exact .inl (rests _ sent)
    · intro origin route n last
      rcases outcome with ⟨rfl, -, ⟨_, waited⟩, gone⟩ | ⟨rfl, -⟩
      · cases last
        exact ⟨own.sound.made _ (.waits waited), gone⟩
      · cases last
    · intro n job kept
      exact .inl (held ▸ kept)
    · intro n frame sent
      exact .inl (wire ▸ sent)
  · refine peer.watch rests ?_ ?_ ?_
    · intro n job kept
      exact .inl (held ▸ kept)
    · intro n frame sent
      exact .inl (wire ▸ sent)
    · intro origin route n last
      exact r.other_ne (Event.taken.inj last).1.symm
  · refine ⟨peer.answers k frame under, ?_⟩
    rcases outcome with ⟨rfl, rfl, ⟨slot, waited⟩, -⟩ | dropped
    · exact .inl ⟨rfl, rfl, fun before => (own.spent k before).2 slot waited⟩
    · exact .inr dropped

theorem Kept.call {index : Nat} {job : Job β} (truthful : p.Truthful) (plain : a.Plain (Message.Faithful p))
    (held : mine.held[index]? = some (k, job)) :
    let mine' := Party.after { mine with held := mine.held.eraseIdx index } (.answer k)
      (mine.endpoint.invoke a job)
    Kept p (events ++ [.called r k]) r mine' theirs ∧
      Kept p (events ++ [.called r k]) r.other theirs mine' := by
  have kept : (k, job) ∈ mine.held := List.mem_of_getElem? held
  have ready : mine.endpoint.Answers p mine.replies (slotOf r.other k) :=
    ⟨own.drained.pipeline, rfl, by simp [own.drained.outbound], by simp [own.drained.parked]⟩
  exact own.serve peer (ready.invoke truthful plain (peer.sound.held k job kept)) (.held kept)
    (own.holds k job kept).later (by simp) (fun _ => id) (fun _ => List.mem_of_mem_eraseIdx)

end Steps

theorem Step.kept {apps : Role → Application β Nat σ} {l l' : Link β σ} (truthful : p.Truthful)
    (plain : ∀ r, (apps r).Plain (Message.Faithful p)) (step : Step apps (Message.Faithful p) InTime l e l')
    (kept : ∀ r, Kept p events r (l r) (l r.other)) :
    (∀ r, Kept p (events ++ [e]) r (l' r) (l' r.other)) ∧ e.Fits events := by
  obtain ⟨r, command, allowed, performed⟩ := step
  have own := kept r
  have peer := kept r.other
  rw [Role.other_other] at peer
  have both {mine theirs : Party β σ} (first : Kept p (events ++ [e]) r mine theirs)
      (second : Kept p (events ++ [e]) r.other theirs mine) (q : Role) :
      Kept p (events ++ [e]) q (pair r mine theirs q) (pair r mine theirs q.other) := by
    rcases Role.eq_or_other r q with rfl | rfl
    · rwa [pair_self, pair_other]
    · rwa [Role.other_other, pair_self, pair_other]
  cases command with
  | request m =>
    obtain ⟨⟨result, connection⟩, requested, performed⟩ := Option.bind_eq_some_iff.mp performed
    cases performed
    obtain ⟨first, second⟩ := own.request peer truthful allowed.1 allowed.2 requested
    exact ⟨both first second, trivial⟩
  | cancel slot =>
    cases performed
    obtain ⟨first, second⟩ := own.cancel peer slot
    exact ⟨both first second, trivial⟩
  | take =>
    simp only [perform] at performed
    split at performed
    · cases performed
    · next origin frame wire oldest =>
      cases performed
      cases origin with
      | request k =>
        obtain ⟨first, second, fits⟩ := own.takeRequest peer truthful (plain r) oldest rfl rfl
        exact ⟨both first second, fits⟩
      | answer k =>
        obtain ⟨first, second, fits⟩ := own.takeAnswer peer (plain r) oldest rfl rfl
        exact ⟨both first second, fits⟩
  | call index =>
    obtain ⟨⟨k, job⟩, held, performed⟩ := Option.bind_eq_some_iff.mp performed
    cases performed
    obtain ⟨first, second⟩ := own.call peer truthful (plain r) held
    exact ⟨both first second, trivial⟩

end PeerLink.Link
