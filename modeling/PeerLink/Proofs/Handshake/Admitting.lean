import PeerLink.Proofs.Handshake
import PeerLink.Proofs.Handshake.Key
import PeerLink.Proofs.Handshake.Stream
import PeerLink.Proofs.Handshake.Verdicts

/-!
Whom the server's side of a handshake admits, and what all others get to see of it. The peer has proven itself if the
whole challenge went out and four bytes came back in time that are the key when they are checked. Then, and only
then, the host is asked for an id, once; and no byte goes out behind the challenge unless the host gives one.
-/
namespace PeerLink

variable {σ : Type}

namespace Handshake

/-- What the peer is asked with: both numbers, each in four bytes, the least significant one first. -/
def greeting (asked : Challenge) : Bytes :=
  Bytes.ofNat 4 asked.first.toUInt32.toNat ++ Bytes.ofNat 4 asked.second.toUInt32.toNat

/-- What it is told once it is admitted: its id, as wide as both ends have agreed. -/
def welcome (width : IdWidth) (id : UInt24) : Bytes :=
  match width with
  | .three => Bytes.ofNat 3 id.toNat
  | .four => Bytes.ofNat 4 id.toNat

/-- The peer has been asked in full, and what came back in time is the key and is checked before the deadline. -/
structure Proven (asked : Challenge) (timeout lag : Nat) (s : Stream) : Prop where
  heard : s.fits (greeting asked) = true
  answered : ∃ t, s.due 4 = some t ∧ t ≤ s.now + timeout ∧ t + lag < s.now + timeout
  key : s.unread.take 4 = Bytes.ofNat 4 asked.key.toUInt32.toNat

/-- What may come of a run on a stream and a host. -/
structure Exact (asked : Challenge) (timeout lag : Nat) (width : IdWidth) (allocate : σ → Except Fault UInt24 × σ)
    (s : Stream) (host : σ) (ran : Except Fault UInt24 × Stream × σ) : Prop where
  allocated : Proven asked timeout lag s → ran.2.2 = (allocate host).2
  not_allocated : ¬ Proven asked timeout lag s → ran.2.2 = host
  refused : Proven asked timeout lag s → ∀ fault, (allocate host).1 = .error fault →
    ran.1 = .error fault ∧ ran.2.1.written = s.written ++ greeting asked
  granted : Proven asked timeout lag s → ∀ id, (allocate host).1 = .ok id →
    ran.1 = (if s.fits (greeting asked ++ welcome width id) then .ok id else .error (.io "write limit reached")) ∧
      ran.2.1.written = s.written ++ s.fitting (greeting asked ++ welcome width id)
  unproven : ¬ Proven asked timeout lag s →
    (∃ fault, ran.1 = .error fault) ∧ ran.2.1.written = s.written ++ s.fitting (greeting asked)
  /-- The answer came in time, but it is wrong or checked too late. -/
  rejected : ¬ Proven asked timeout lag s → s.fits (greeting asked) = true →
    (∃ t, s.due 4 = some t ∧ t ≤ s.now + timeout) → ran.1 = .error .handshakeRejected
  unread : ∃ taken, s.unread = taken ++ ran.2.1.unread ∧ taken.length ≤ 4

variable {asked : Challenge} {timeout lag t : Nat} {width : IdWidth} {allocate : σ → Except Fault UInt24 × σ}
  {s : Stream} {host : σ}

/-- What is done for a peer that has proven itself. -/
def grant (width : IdWidth) (allocate : σ → Except Fault UInt24 × σ) : Exchange σ UInt24 := do
  let id ← Exchange.call allocate
  Exchange.write (width.encode id)
  return id

theorem run_grant : grant width allocate (s, host) =
    match allocate host with
    | (.error fault, host) => (.error fault, s, host)
    | (.ok id, host) =>
      (if s.fits (width.encode id) then .ok id else .error (.io "write limit reached"), s.wrote (width.encode id),
        host) := by
  simp only [grant, Exchange.bind_run, Exchange.call]
  rcases allocate host with ⟨fault | id, host⟩
  · rfl
  · simp only [Exchange.write, Stream.write_eq]
    cases s.fits (width.encode id) with
    | true => rfl
    | false => rfl

theorem encode_eq_welcome (id : UInt24) : width.encode id = welcome width id := by
  cases width with
  | three => rfl
  | four => rfl

theorem sent_start (deadline : Nat) : (start asked deadline).challenge.1 = greeting asked := rfl

theorem ite_verdict {α : Type} (deadline now : Nat) (answer : Bytes) (rejected accepted : α) :
    (if ((start asked deadline).challenge.2.validate now answer).state ≠ .accepted then rejected else accepted) =
      if now < deadline ∧ answer = asked.answer then accepted else rejected := by
  rw [state_validate]
  by_cases right : now < deadline ∧ answer = asked.answer
  · simp [right, challenge, start]
  · have wrong : ¬ ((start asked deadline).challenge.2.state = .awaitingClientKey ∧
        now < (start asked deadline).challenge.2.deadline ∧ answer = (start asked deadline).challenge.2.asked.answer) :=
      fun accepted => right accepted.2
    rw [if_neg wrong, if_neg right]
    rfl

theorem serveAfter_cut (cut : s.fits (greeting asked) = false) :
    serveAfter lag asked timeout width allocate (s, host) =
      (.error (.io "write limit reached"), s.wrote (greeting asked), host) := by
  simp only [serveAfter, Exchange.bind_run, Exchange.now, Exchange.write, Stream.write_eq, sent_start, cut]
  rfl

section Heard

variable (lag width allocate host) (heard : s.fits (greeting asked) = true)

include heard

theorem serveAfter_late (late : ∀ t, s.due answerSize = some t → s.now + timeout < t) :
    ∃ fault rest now, serveAfter lag asked timeout width allocate (s, host) =
        (.error fault, { s.wrote (greeting asked) with incoming := rest, now }, host) ∧
      ∃ taken, s.unread = taken ++ rest.flatMap Arrival.bytes ∧ taken.length < answerSize := by
  obtain ⟨fault, rest, now, read, taken⟩ :=
    Stream.read_of_late (s := s.wrote (greeting asked)) .earlyEnd (by decide) late
  refine ⟨fault, rest, now, ?_, taken⟩
  simp only [serveAfter, Exchange.bind_run, Exchange.now, Exchange.write, Stream.write_eq, sent_start, heard,
    Exchange.read, if_true, read]

/-- The four bytes have come in time; what happens then depends on what they are and on when they are checked. -/
theorem serveAfter_answered (due : s.due answerSize = some t) (inTime : t ≤ s.now + timeout) :
    ∃ rest : List Arrival, rest.flatMap Arrival.bytes = s.unread.drop answerSize ∧
      serveAfter lag asked timeout width allocate (s, host) =
        (if t + lag < s.now + timeout ∧ s.unread.take answerSize = asked.answer then grant width allocate
          else throw Fault.handshakeRejected)
          ({ s.wrote (greeting asked) with incoming := rest, now := t + lag }, host) := by
  obtain ⟨rest, read, left, -⟩ := Stream.read_of_due (s := s.wrote (greeting asked)) .earlyEnd due inTime
  refine ⟨rest, left, ?_⟩
  simp only [serveAfter, Exchange.bind_run, Exchange.now, ite_verdict, Exchange.write, Stream.write_eq, sent_start,
    heard, Exchange.read, if_true, read, Exchange.pause]
  rfl

theorem proven_iff (due : s.due answerSize = some t) (inTime : t ≤ s.now + timeout) :
    Proven asked timeout lag s ↔ t + lag < s.now + timeout ∧ s.unread.take answerSize = asked.answer := by
  rw [Challenge.answer_eq]
  constructor
  · rintro ⟨-, ⟨time, same, -, early⟩, key⟩
    rw [due] at same
    cases same
    exact ⟨early, key⟩
  · rintro ⟨early, key⟩
    exact ⟨heard, ⟨t, due, inTime, early⟩, key⟩

end Heard

theorem exact_of_unproven {fault : Fault} {later : Stream} (unproven : ¬ Proven asked timeout lag s)
    (rejected : s.fits (greeting asked) = true → (∃ t, s.due answerSize = some t ∧ t ≤ s.now + timeout) →
      fault = .handshakeRejected)
    (written : later.written = s.written ++ s.fitting (greeting asked))
    (unread : ∃ taken, s.unread = taken ++ later.unread ∧ taken.length ≤ answerSize) :
    Exact asked timeout lag width allocate s host (.error fault, later, host) where
  allocated proven := absurd proven unproven
  not_allocated _ := rfl
  refused proven := absurd proven unproven
  granted proven := absurd proven unproven
  unproven _ := ⟨⟨fault, rfl⟩, written⟩
  rejected _ heard inTime := congrArg Except.error (rejected heard inTime)
  unread := unread

theorem exact_of_proven {later : Stream} (proven : Proven asked timeout lag s)
    (same_writes : ∀ bs, later.fits bs = (s.wrote (greeting asked)).fits bs ∧
      (later.wrote bs).written = ((s.wrote (greeting asked)).wrote bs).written)
    (written : later.written = s.written ++ greeting asked)
    (unread : ∃ taken, s.unread = taken ++ later.unread ∧ taken.length ≤ answerSize) :
    Exact asked timeout lag width allocate s host (grant width allocate (later, host)) := by
  rw [run_grant]
  rcases called : allocate host with ⟨fault | id, after⟩
  · exact {
      allocated := fun _ => (congrArg Prod.snd called).symm
      not_allocated := fun unproven => absurd proven unproven
      refused := fun _ other failed => by
        rw [called] at failed
        cases failed
        exact ⟨rfl, written⟩
      granted := fun _ id succeeded => by
        rw [called] at succeeded
        cases succeeded
      unproven := fun unproven => absurd proven unproven
      rejected := fun unproven => absurd proven unproven
      unread }
  · exact {
      allocated := fun _ => (congrArg Prod.snd called).symm
      not_allocated := fun unproven => absurd proven unproven
      refused := fun _ fault failed => by
        rw [called] at failed
        cases failed
      granted := fun _ other succeeded => by
        rw [called] at succeeded
        cases succeeded
        rw [← encode_eq_welcome, Stream.fits_append, proven.heard, Stream.fitting_append, ← List.append_assoc]
        rw [Bool.true_and, ← (same_writes _).1]
        exact ⟨rfl, (same_writes _).2⟩
      unproven := fun unproven => absurd proven unproven
      rejected := fun unproven => absurd proven unproven
      unread }

/-- Nobody but a peer that has proven itself is admitted or told more than the challenge, at whatever time
its answer is checked. -/
theorem exact_serve (asked : Challenge) (timeout : Nat) (width : IdWidth) (allocate : σ → Except Fault UInt24 × σ) :
    serve asked timeout width allocate = serveAfter 0 asked timeout width allocate ∧
      ∀ lag s host, Exact asked timeout lag width allocate s host
        (serveAfter lag asked timeout width allocate (s, host)) := by
  refine ⟨rfl, fun lag s host => ?_⟩
  cases heard : s.fits (greeting asked) with
  | false =>
    rw [serveAfter_cut heard]
    apply exact_of_unproven
    · intro proven
      rw [proven.heard] at heard
      cases heard
    · intro whole
      rw [heard] at whole
      cases whole
    · rfl
    · exact ⟨[], rfl, Nat.zero_le _⟩
  | true =>
    by_cases inTime : ∃ t, s.due answerSize = some t ∧ t ≤ s.now + timeout
    · obtain ⟨t, due, inTime⟩ := inTime
      have right_iff := proven_iff lag heard due inTime
      obtain ⟨rest, left, ran⟩ := serveAfter_answered lag width allocate host heard due inTime
      have unread : ∃ taken, s.unread = taken ++ rest.flatMap Arrival.bytes ∧ taken.length ≤ answerSize :=
        ⟨s.unread.take answerSize, by rw [left, List.take_append_drop], List.length_take_le ..⟩
      rw [ran]
      by_cases right : t + lag < s.now + timeout ∧ s.unread.take answerSize = asked.answer
      · rw [if_pos right]
        exact exact_of_proven (right_iff.mpr right) (fun _ => ⟨rfl, rfl⟩)
          (congrArg (s.written ++ ·) (Stream.fitting_of_fits heard)) unread
      · rw [if_neg right]
        exact exact_of_unproven (right ∘ right_iff.mp) (fun _ _ => rfl) rfl unread
    · obtain ⟨fault, rest, now, ran, taken, split, few⟩ := serveAfter_late lag width allocate host heard
        fun t due => Nat.lt_of_not_le fun early => inTime ⟨t, due, early⟩
      rw [ran]
      refine exact_of_unproven ?_ (fun _ answered => absurd answered inTime) rfl ⟨taken, split, Nat.le_of_lt few⟩
      rintro ⟨-, ⟨t, due, early, -⟩, -⟩
      exact inTime ⟨t, due, early⟩

/-- A peer that answers with the key, in two pieces, and goes on with the start of a frame. -/
def knowing : Stream where
  incoming := [⟨3, [232, 26]⟩, ⟨4, [106, 77, 3, 0]⟩]
  ending := .silent
  written := []
  room := none
  grain := 2
  now := 40

/-- A peer whose answer differs in its last bit. -/
def guessing : Stream := { knowing with incoming := [⟨3, [232, 26]⟩, ⟨4, [106, 76, 3, 0]⟩] }

/-- Both are asked with the same eight bytes. One is given an id behind them, in four bytes; the other gets nothing more,
and no id is allocated for it. -/
theorem exact_serve_asked :
    let asked : Challenge := ⟨-2, 772⟩
    let counted : Nat → Except Fault UInt24 × Nat := fun n => (.ok 65543, n + 1)
    let admitted := serve asked 1000 .four counted (knowing, 0)
    let rejected := serve asked 1000 .four counted (guessing, 0)
    Proven asked 1000 0 knowing ∧ admitted.1 = .ok 65543 ∧ admitted.2.2 = 1 ∧
      admitted.2.1.written = [254, 255, 255, 255, 4, 3, 0, 0] ++ [7, 0, 1, 0] ∧
      ¬ Proven asked 1000 0 guessing ∧ rejected.1 = .error .handshakeRejected ∧ rejected.2.2 = 0 ∧
      rejected.2.1.written = [254, 255, 255, 255, 4, 3, 0, 0] := by
  intro asked counted admitted rejected
  obtain ⟨-, exact⟩ := exact_serve asked 1000 .four counted
  have right : Exact asked 1000 0 .four counted knowing 0 admitted := exact 0 knowing 0
  have wrong : Exact asked 1000 0 .four counted guessing 0 rejected := exact 0 guessing 0
  clear_value admitted rejected
  have proven : Proven asked 1000 0 knowing := ⟨rfl, ⟨47, rfl, by decide, by decide⟩, by decide⟩
  have unproven : ¬ Proven asked 1000 0 guessing := fun other => absurd other.key (by decide)
  obtain ⟨given, written⟩ := right.granted proven 65543 rfl
  have refused := wrong.rejected unproven rfl ⟨47, rfl, by decide⟩
  obtain ⟨-, asked_only⟩ := wrong.unproven unproven
  exact ⟨proven, given.trans (if_pos rfl), right.allocated proven, written.trans (by decide), unproven, refused,
    wrong.not_allocated unproven, asked_only.trans (by decide)⟩

end Handshake

end PeerLink
