import PeerLink.Handshake.Verdict

/-!
The verdicts of one handshake. Whoever validates settles it, but a challenge arms it again, whatever its verdict was.
A verdict is therefore final as long as nobody answers a challenge that was sent behind it.
-/
namespace PeerLink.Handshake

inductive Call where
  | challenge
  | validate (now : Nat) (answer : Bytes)

/-- What validating has answered over a sequence of calls. -/
def verdicts (h : Handshake) : List Call → List HandshakeState
  | [] => []
  | .challenge :: calls => verdicts h.challenge.2 calls
  | .validate now answer :: calls => (h.validate now answer).state :: verdicts (h.validate now answer) calls

/-- Nobody is admitted behind a rejection, and nobody twice. -/
structure Final (verdicts : List HandshakeState) : Prop where
  rejected : ∀ before behind, verdicts = before ++ .rejected :: behind → .accepted ∉ behind
  once : verdicts.count .accepted ≤ 1

/-- A challenge is answered at once, rightly and in time. -/
def Answered (asked : Challenge) (deadline : Nat) (calls : List Call) : Prop :=
  ∃ now < deadline, [.challenge, .validate now asked.answer] <:+: calls

/-- A challenge that was sent behind a verdict is answered. -/
def Reopened (asked : Challenge) (deadline : Nat) (calls : List Call) : Prop :=
  ∃ before now answer behind, calls = before ++ .validate now answer :: behind ∧ Answered asked deadline behind

variable {h : Handshake} {calls : List Call} {asked : Challenge} {deadline now : Nat} {answer : Bytes}

theorem state_validate : (h.validate now answer).state =
    if h.state = .awaitingClientKey ∧ now < h.deadline ∧ answer = h.asked.answer then .accepted else .rejected := by
  simp only [validate, isExpired, decide_eq_false_iff_not, Nat.not_le]

theorem state_validate_ne : (h.validate now answer).state ≠ .awaitingClientKey := by
  rw [state_validate]
  split
  · nofun
  · nofun

theorem accepted_or_rejected {verdict : HandshakeState} (given : verdict ∈ h.verdicts calls) :
    verdict = .accepted ∨ verdict = .rejected := by
  induction calls generalizing h with
  | nil => cases given
  | cons call calls ih =>
    cases call with
    | challenge => exact ih given
    | validate now answer =>
      rcases List.mem_cons.mp given with rfl | later
      · rw [state_validate]
        split
        · exact .inl rfl
        · exact .inr rfl
      · exact ih later

/-! ### Which calls admit the peer -/

theorem not_answered_nil : ¬ Answered asked deadline [] := by
  rintro ⟨now, -, inside⟩
  cases List.infix_nil.mp inside

theorem answered_cons_challenge : Answered asked deadline (.challenge :: calls) ↔
    (∃ now < deadline, ∃ behind, calls = .validate now asked.answer :: behind) ∨ Answered asked deadline calls := by
  simp only [Answered, List.infix_cons_iff, List.cons_prefix_cons, true_and]
  constructor
  · rintro ⟨now, inTime, ⟨behind, rfl⟩ | inside⟩
    · exact .inl ⟨now, inTime, behind, rfl⟩
    · exact .inr ⟨now, inTime, inside⟩
  · rintro (⟨now, inTime, behind, rfl⟩ | ⟨now, inTime, inside⟩)
    · exact ⟨now, inTime, .inl ⟨behind, rfl⟩⟩
    · exact ⟨now, inTime, .inr inside⟩

theorem answered_cons_validate :
    Answered asked deadline (.validate now answer :: calls) ↔ Answered asked deadline calls := by
  simp [Answered, List.infix_cons_iff]

theorem answered_challenge_validate : Answered asked deadline (.challenge :: .validate now answer :: calls) ↔
    (now < deadline ∧ answer = asked.answer) ∨ Answered asked deadline calls := by
  rw [answered_cons_challenge, answered_cons_validate]
  apply or_congr_left
  constructor
  · rintro ⟨_, inTime, behind, ⟨⟩⟩
    exact ⟨inTime, rfl⟩
  · rintro ⟨inTime, rfl⟩
    exact ⟨now, inTime, calls, rfl⟩

/-- A handshake that waits for its key is as good as one that is sent a challenge first. -/
def armed (h : Handshake) : List Call := if h.state = .awaitingClientKey then [.challenge] else []

theorem accepted_mem_verdicts : .accepted ∈ h.verdicts calls ↔ Answered h.asked h.deadline (h.armed ++ calls) := by
  induction calls generalizing h with
  | nil =>
    have unanswered : ¬ Answered h.asked h.deadline h.armed := by
      unfold armed
      split
      · simp [answered_cons_challenge, not_answered_nil]
      · exact not_answered_nil
    simpa [verdicts] using unanswered
  | cons call calls ih =>
    cases call with
    | challenge =>
      have waits : h.challenge.2.armed = [.challenge] := rfl
      rw [verdicts, ih, waits, armed]
      split
      · simp [answered_cons_challenge, Handshake.challenge]
      · rfl
    | validate now answer =>
      have settled : (h.validate now answer).armed = [] := if_neg state_validate_ne
      rw [verdicts, List.mem_cons, ih, settled, List.nil_append, eq_comm, state_validate, armed]
      by_cases waits : h.state = .awaitingClientKey
      · simp [waits, answered_challenge_validate, validate]
      · simp [waits, answered_cons_validate, validate]

/-! ### Final verdicts -/

theorem reopened_cons_challenge : Reopened asked deadline (.challenge :: calls) ↔ Reopened asked deadline calls := by
  constructor
  · rintro ⟨before, now, answer, behind, split, answered⟩
    cases before with
    | nil => cases split
    | cons first before =>
      obtain ⟨-, split⟩ := List.cons.inj split
      exact ⟨before, now, answer, behind, split, answered⟩
  · rintro ⟨before, now, answer, behind, rfl, answered⟩
    exact ⟨.challenge :: before, now, answer, behind, rfl, answered⟩

theorem reopened_cons_validate :
    Reopened asked deadline (.validate now answer :: calls) ↔ Answered asked deadline calls := by
  constructor
  · rintro ⟨before, now', answer', behind, split, time, inTime, inside⟩
    cases before with
    | nil =>
      cases split
      exact ⟨time, inTime, inside⟩
    | cons first before =>
      obtain ⟨-, rfl⟩ := List.cons.inj split
      refine ⟨time, inTime, inside.trans ?_⟩
      exact ⟨before ++ [.validate now' answer'], [], by simp⟩
  · intro answered
    exact ⟨[], now, answer, calls, rfl, answered⟩

theorem accepted_mem_tail : .accepted ∈ (h.verdicts calls).tail ↔ Reopened h.asked h.deadline calls := by
  induction calls generalizing h with
  | nil =>
    constructor
    · nofun
    · rintro ⟨before, now, answer, behind, split, -⟩
      cases before with
      | nil => cases split
      | cons => cases split
  | cons call calls ih =>
    cases call with
    | challenge => rw [verdicts, ih, reopened_cons_challenge, Handshake.challenge]
    | validate now answer =>
      have settled : (h.validate now answer).armed = [] := if_neg state_validate_ne
      rw [verdicts, List.tail_cons, accepted_mem_verdicts, settled, reopened_cons_validate]
      rfl

/-- Verdicts are final if all but the first are rejections. -/
theorem final_of_tail {verdicts : List HandshakeState} (none_later : .accepted ∉ verdicts.tail) : Final verdicts := by
  cases verdicts with
  | nil =>
    constructor
    · intro before behind split
      cases before with
      | nil => cases split
      | cons => cases split
    · simp
  | cons first later =>
    constructor
    · intro before behind split admitted
      apply none_later
      cases before with
      | nil =>
        cases split
        exact admitted
      | cons =>
        cases split
        simp [admitted]
    · have none : later.count .accepted = 0 := List.count_eq_zero.mpr none_later
      rw [List.count_cons, none]
      split
      · exact Nat.le_refl 1
      · exact Nat.zero_le 1

/-- A verdict is final exactly if no challenge behind it is answered. -/
theorem final_iff : Final (h.verdicts calls) ↔ ¬ Reopened h.asked h.deadline calls := by
  rw [← accepted_mem_tail]
  constructor
  · intro final later
    cases given : h.verdicts calls with
    | nil =>
      rw [given] at later
      cases later
    | cons first rest =>
      rw [given] at later final
      rcases accepted_or_rejected (given ▸ List.mem_cons_self : first ∈ h.verdicts calls) with rfl | rfl
      · have twice := final.once
        rw [List.count_cons_self] at twice
        exact Nat.not_lt.mpr twice (Nat.succ_lt_succ (List.count_pos_iff.mpr later))
      · exact final.rejected [] rest rfl later
  · exact final_of_tail

/-- A wrong key is rejected, and after a second challenge the right one is accepted. -/
theorem second_guess : ¬ Final ((start ⟨5, 9⟩ 30000).verdicts
    [.challenge, .validate 10 [0, 0, 0, 0], .challenge, .validate 20 (Challenge.answer ⟨5, 9⟩)]) := by
  have given : (start ⟨5, 9⟩ 30000).verdicts
      [.challenge, .validate 10 [0, 0, 0, 0], .challenge, .validate 20 (Challenge.answer ⟨5, 9⟩)] =
        [.rejected, .accepted] := by
    decide
  rw [given]
  intro final
  exact final.rejected [] [.accepted] rfl List.mem_cons_self

end PeerLink.Handshake
