import Mathlib.Data.List.Induction
import PeerLink.Proofs.Handshake.Key
import PeerLink.Proofs.Handshake.Verdicts

/-!
Each verdict of a handshake told by the calls before it. A key is accepted if it is the right one, comes before the
deadline and answers a challenge that was sent behind the last verdict. All that the calls leave in the state is
whether such a challenge is there.
-/
namespace PeerLink

theorem Challenge.ofBytes_toBytes (c : Challenge) : ofBytes c.toBytes = c := by
  have front : c.toBytes.take 4 = Bytes.ofNat 4 c.first.toUInt32.toNat :=
    List.take_left' (Bytes.length_ofNat ..)
  have back : c.toBytes.drop 4 = Bytes.ofNat 4 c.second.toUInt32.toNat :=
    List.drop_left' (Bytes.length_ofNat ..)
  have whole (w : UInt32) : UInt32.ofNat (Bytes.toNat (Bytes.ofNat 4 w.toNat)) = w := by
    have fits : w.toNat % Bytes.capacity 4 = w.toNat := Nat.mod_eq_of_lt w.toNat_lt
    rw [Bytes.toNat_ofNat, fits, UInt32.ofNat_toNat]
  rw [ofBytes, front, back, whole, whole, Int32.toInt32_toUInt32, Int32.toInt32_toUInt32]

namespace Handshake

def step (h : Handshake) : Call → Handshake
  | .challenge => h.challenge.2
  | .validate now answer => h.validate now answer

def after (h : Handshake) (calls : List Call) : Handshake := calls.foldl step h

def sent (h : Handshake) : List Call → List Bytes
  | [] => []
  | .challenge :: calls => h.challenge.1 :: sent h.challenge.2 calls
  | .validate now answer :: calls => sent (h.validate now answer) calls

/-- A challenge was sent behind the last verdict, or behind the start if there is none. -/
def Fresh (calls : List Call) : Prop :=
  ∃ before behind, calls = before ++ .challenge :: behind ∧ ∀ now answer, .validate now answer ∉ behind

variable {h : Handshake} {calls : List Call} {asked : Challenge} {deadline now : Nat} {answer bytes : Bytes}

theorem not_fresh_nil : ¬Fresh [] := by
  rintro ⟨before, behind, split, -⟩
  cases before with
  | nil => cases split
  | cons => cases split

theorem fresh_challenge : Fresh (calls ++ [.challenge]) := ⟨calls, [], rfl, fun _ _ => List.not_mem_nil⟩

theorem not_fresh_validate : ¬Fresh (calls ++ [.validate now answer]) := by
  rintro ⟨before, behind, split, silent⟩
  cases behind using List.reverseRecOn with
  | nil =>
    have last := congrArg List.getLast? split
    simp at last
  | append_singleton behind last =>
    rw [← List.cons_append, ← List.append_assoc] at split
    obtain rfl := List.singleton_inj.mp (List.append_inj' split rfl).2
    exact silent now answer (List.mem_append_right behind (List.mem_singleton_self _))

theorem asked_step (h : Handshake) (call : Call) : (h.step call).asked = h.asked := by
  cases call with
  | challenge => rfl
  | validate => rfl

theorem deadline_step (h : Handshake) (call : Call) : (h.step call).deadline = h.deadline := by
  cases call with
  | challenge => rfl
  | validate => rfl

theorem after_snoc (h : Handshake) (calls : List Call) (call : Call) :
    h.after (calls ++ [call]) = (h.after calls).step call := List.foldl_append ..

theorem asked_after (h : Handshake) (calls : List Call) : (h.after calls).asked = h.asked := by
  induction calls using List.reverseRecOn with
  | nil => rfl
  | append_singleton calls call ih => rw [after_snoc, asked_step, ih]

theorem deadline_after (h : Handshake) (calls : List Call) : (h.after calls).deadline = h.deadline := by
  induction calls using List.reverseRecOn with
  | nil => rfl
  | append_singleton calls call ih => rw [after_snoc, deadline_step, ih]

/-- A key is awaited exactly as long as the last challenge has had no verdict. -/
theorem state_after : ((start asked deadline).after calls).state = .awaitingClientKey ↔ Fresh calls := by
  cases calls using List.reverseRecOn with
  | nil => exact iff_of_false nofun not_fresh_nil
  | append_singleton calls call =>
    rw [after_snoc]
    cases call with
    | challenge => exact iff_of_true rfl fresh_challenge
    | validate => exact iff_of_false state_validate_ne not_fresh_validate

theorem verdicts_append (h : Handshake) (before behind : List Call) :
    h.verdicts (before ++ behind) = h.verdicts before ++ (h.after before).verdicts behind := by
  induction before generalizing h with
  | nil => rfl
  | cons call before ih =>
    cases call with
    | challenge => exact ih h.challenge.2
    | validate now answer => exact congrArg ((h.validate now answer).state :: ·) (ih (h.validate now answer))

/-- Every challenge that goes out spells the same two numbers. -/
theorem eq_of_mem_sent (went : bytes ∈ h.sent calls) : bytes = h.asked.toBytes := by
  induction calls generalizing h with
  | nil => cases went
  | cons call calls ih =>
    cases call with
    | challenge =>
      rcases List.mem_cons.mp went with rfl | later
      · rfl
      · exact ih (h := h.challenge.2) later
    | validate now answer => exact ih (h := h.validate now answer) went

/-- A key is accepted exactly if a challenge was sent behind the last verdict, the deadline is not reached, and its
bytes spell the key of the challenge; else it is rejected. What a client makes of a challenge that it was sent is such a
key. What is called behind it does not matter. -/
theorem verdict_exact (asked : Challenge) (created timeout : Nat) (before behind : List Call) (now : Nat)
    (answer : Bytes) :
    ∃ verdict, (start asked (created + timeout)).verdicts (before ++ .validate now answer :: behind) =
        (start asked (created + timeout)).verdicts before ++
          verdict :: ((start asked (created + timeout)).after (before ++ [.validate now answer])).verdicts behind ∧
      (verdict = .accepted ↔
        Fresh before ∧ now < created + timeout ∧ answer = Bytes.ofNat 4 asked.key.toUInt32.toNat) ∧
      (verdict ≠ .accepted → verdict = .rejected) ∧
      (Fresh before → now < created + timeout →
        ∀ bytes ∈ (start asked (created + timeout)).sent before, answer = (Challenge.ofBytes bytes).answer →
          verdict = .accepted) := by
  have exact : (((start asked (created + timeout)).after before).validate now answer).state = _ := state_validate
  rw [asked_after, deadline_after] at exact
  have accepted : (((start asked (created + timeout)).after before).validate now answer).state = .accepted ↔
      Fresh before ∧ now < created + timeout ∧ answer = asked.answer := by
    rw [exact, ← state_after]
    split
    · next right => exact iff_of_true rfl right
    · next wrong => exact iff_of_false nofun wrong
  refine ⟨(((start asked (created + timeout)).after before).validate now answer).state, ?_, ?_, ?_, ?_⟩
  · rw [verdicts_append, after_snoc]
    rfl
  · rw [accepted, Challenge.answer_eq]
  · intro refused
    rw [exact] at refused ⊢
    split
    · next right => exact absurd (if_pos right) refused
    · rfl
  · intro fresh inTime bytes went answers
    rw [eq_of_mem_sent went, Challenge.ofBytes_toBytes] at answers
    exact accepted.mpr ⟨fresh, inTime, answers⟩

/-- The right key comes too early, then a wrong one, the right one unasked, the right one, and once more too late. -/
example : (start ⟨5, 9⟩ 30).verdicts
    [.validate 1 (Challenge.answer ⟨5, 9⟩), .challenge, .validate 2 [0, 0, 0, 0], .validate 3 (Challenge.answer ⟨5, 9⟩),
      .challenge, .challenge, .validate 29 (Challenge.answer ⟨5, 9⟩), .challenge,
      .validate 30 (Challenge.answer ⟨5, 9⟩)] = [.rejected, .rejected, .rejected, .accepted, .rejected] := by
  decide

end Handshake

end PeerLink
