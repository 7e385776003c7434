import PeerLink.Handshake.Exchange

/-!
What reading and writing do to a stream. A read of so many bytes succeeds if all of them have come by its deadline,
whatever pieces they came in, and leaves alone what comes behind them. What is written is cut off where the room
ends, however few bytes each write takes.
-/
namespace PeerLink

/-- How a read fails that wanted more bytes than there are. -/
def StreamEnd.fault (ended : Fault) : StreamEnd → Fault
  | .closed => ended
  | .silent => .timeout

namespace Stream

variable {arrivals : List Arrival} {ending : StreamEnd} {ended : Fault} {now n t deadline : Nat} {got bs : Bytes}
  {s : Stream}

/-- The time at which so many bytes have come, if they ever do. -/
def dueFrom : List Arrival → (now n : Nat) → Option Nat
  | _, now, 0 => some now
  | [], _, _ + 1 => none
  | a :: as, now, n + 1 =>
    if n + 1 ≤ a.bytes.length then some (now + a.delay) else dueFrom as (now + a.delay) (n + 1 - a.bytes.length)

def due (s : Stream) (n : Nat) : Option Nat := dueFrom s.incoming s.now n

def fitting (s : Stream) (bs : Bytes) : Bytes := s.room.elim bs bs.take

def fits (s : Stream) (bs : Bytes) : Bool := s.room.all (bs.length ≤ ·)

def wrote (s : Stream) (bs : Bytes) : Stream :=
  { s with written := s.written ++ s.fitting bs, room := s.room.map (· - bs.length) }

/-! ### Reading -/

theorem le_of_dueFrom (due : dueFrom arrivals now n = some t) : now ≤ t := by
  fun_induction dueFrom arrivals now n with
  | case1 =>
    cases due
    exact Nat.le_refl _
  | case2 => cases due
  | case3 =>
    cases due
    exact Nat.le_add_right ..
  | case4 _ _ _ _ _ ih => exact Nat.le_trans (Nat.le_add_right ..) (ih due)

theorem collect_of_due (due : dueFrom arrivals now n = some t) (inTime : t ≤ deadline) :
    ∃ rest, collect ending deadline ended arrivals now n got =
        (.ok (got ++ (arrivals.flatMap Arrival.bytes).take n), rest, t) ∧
      rest.flatMap Arrival.bytes = (arrivals.flatMap Arrival.bytes).drop n ∧
      ∀ a ∈ rest, a.delay = 0 ∨ a ∈ arrivals := by
  fun_induction dueFrom arrivals now n generalizing got with
  | case1 arrivals now =>
    cases due
    exact ⟨arrivals, by simp [collect], rfl, fun a present => .inr present⟩
  | case2 => cases due
  | case3 a as now n enough =>
    cases due
    refine ⟨⟨0, a.bytes.drop (n + 1)⟩ :: as, ?_, ?_, ?_⟩
    · simp [collect, Nat.not_lt.mpr inTime, Bytes.split?, enough, List.take_append_of_le_length enough]
    · simp [List.drop_append_of_le_length enough]
    · simp +contextual
  | case4 a as now n short ih =>
    have early := Nat.le_trans (le_of_dueFrom due) inTime
    have few := Nat.lt_of_not_le short
    have all_taken := Bytes.split?_eq_none_iff.mpr few
    obtain ⟨rest, collected, left, later⟩ := @ih (got ++ a.bytes) due
    refine ⟨rest, ?_, ?_, ?_⟩
    · simp [collect, Nat.not_lt.mpr early, all_taken, collected, List.take_append,
        List.take_of_length_le (Nat.le_of_lt few)]
    · simp [left, List.drop_append, List.drop_of_length_le (Nat.le_of_lt few)]
    · intro other present
      exact (later other present).imp_right (List.mem_cons_of_mem a)

theorem collect_of_passed {a : Arrival} (passed : deadline < now + a.delay) :
    collect ending deadline ended (a :: arrivals) now (n + 1) got =
      (.error .timeout, ⟨now + a.delay - deadline, a.bytes⟩ :: arrivals, max now deadline) := by
  simp only [collect, if_pos passed]

theorem collect_of_late (positive : 0 < n) (late : ∀ t, dueFrom arrivals now n = some t → deadline < t) :
    ∃ fault rest time, collect ending deadline ended arrivals now n got = (.error fault, rest, time) ∧
      ∃ taken, arrivals.flatMap Arrival.bytes = taken ++ rest.flatMap Arrival.bytes ∧ taken.length < n := by
  fun_induction dueFrom arrivals now n generalizing got with
  | case1 => cases positive
  | case2 =>
    cases ending with
    | closed => exact ⟨_, _, _, rfl, [], rfl, positive⟩
    | silent => exact ⟨_, _, _, rfl, [], rfl, positive⟩
  | case3 a as now n enough => exact ⟨_, _, _, collect_of_passed (late _ rfl), [], rfl, positive⟩
  | case4 a as now n short ih =>
    by_cases passed : deadline < now + a.delay
    · exact ⟨_, _, _, collect_of_passed passed, [], rfl, positive⟩
    · have few := Nat.lt_of_not_le short
      have all_taken := Bytes.split?_eq_none_iff.mpr few
      obtain ⟨fault, rest, time, collected, taken, split, below⟩ := @ih (got ++ a.bytes) (by omega) late
      refine ⟨fault, rest, time, ?_, a.bytes ++ taken, ?_, ?_⟩
      · simp only [collect, if_neg passed, all_taken, collected]
      · simp [split]
      · rw [List.length_append]
        omega

theorem read_of_due (ended : Fault) (due : s.due n = some t) (inTime : t ≤ deadline) :
    ∃ rest, s.read n deadline ended = (.ok (s.unread.take n), { s with incoming := rest, now := t }) ∧
      rest.flatMap Arrival.bytes = s.unread.drop n ∧ ∀ a ∈ rest, a.delay = 0 ∨ a ∈ s.incoming := by
  obtain ⟨rest, collected, left, later⟩ := collect_of_due due inTime
  refine ⟨rest, ?_, left, later⟩
  rw [read, collected, List.nil_append]
  rfl

theorem read_of_late (ended : Fault) (positive : 0 < n) (late : ∀ t, s.due n = some t → deadline < t) :
    ∃ fault rest now, s.read n deadline ended = (.error fault, { s with incoming := rest, now }) ∧
      ∃ taken, s.unread = taken ++ rest.flatMap Arrival.bytes ∧ taken.length < n := by
  obtain ⟨fault, rest, now, collected, taken⟩ := collect_of_late positive late
  refine ⟨fault, rest, now, ?_, taken⟩
  rw [read, collected]

/-! ### Everything at once -/

theorem dueFrom_at_once (ready : ∀ a ∈ arrivals, a.delay = 0) :
    dueFrom arrivals now n = if n ≤ (arrivals.flatMap Arrival.bytes).length then some now else none := by
  fun_induction dueFrom arrivals now n with
  | case1 => simp
  | case2 => simp
  | case3 a as now n enough =>
    have whole : n + 1 ≤ ((a :: as).flatMap Arrival.bytes).length := by
      rw [List.flatMap_cons, List.length_append]
      omega
    rw [if_pos whole, ready a List.mem_cons_self]
    rfl
  | case4 a as now n short ih =>
    rw [ih (fun other present => ready other (List.mem_cons_of_mem a present)), ready a List.mem_cons_self,
      List.flatMap_cons, List.length_append]
    simp only [Nat.add_zero]
    congr 1
    apply propext
    omega

theorem collect_short_at_once (ready : ∀ a ∈ arrivals, a.delay = 0) (running : now ≤ deadline)
    (short : (arrivals.flatMap Arrival.bytes).length < n) :
    ∃ time, collect ending deadline ended arrivals now n got = (.error (ending.fault ended), [], time) := by
  obtain ⟨m, rfl⟩ := Nat.exists_eq_succ_of_ne_zero (Nat.ne_zero_of_lt short)
  induction arrivals generalizing m got with
  | nil =>
    cases ending with
    | closed => exact ⟨_, rfl⟩
    | silent => exact ⟨_, rfl⟩
  | cons a as ih =>
    rw [List.flatMap_cons, List.length_append] at short
    have few : a.bytes.length < m + 1 := by omega
    have all_taken := Bytes.split?_eq_none_iff.mpr few
    have more : m + 1 - a.bytes.length = m - a.bytes.length + 1 := by omega
    obtain ⟨time, collected⟩ := @ih (got ++ a.bytes) (fun other present => ready other (List.mem_cons_of_mem a present))
      (m - a.bytes.length) (by omega)
    refine ⟨time, ?_⟩
    simp only [collect, ready a List.mem_cons_self, Nat.add_zero, if_neg (Nat.not_lt.mpr running), all_taken, more,
      collected]

theorem read_at_once (ended : Fault) (ready : ∀ a ∈ s.incoming, a.delay = 0) (running : s.now ≤ deadline)
    (enough : n ≤ s.unread.length) :
    ∃ rest, s.read n deadline ended = (.ok (s.unread.take n), { s with incoming := rest }) ∧
      rest.flatMap Arrival.bytes = s.unread.drop n ∧ ∀ a ∈ rest, a.delay = 0 := by
  have due : s.due n = some s.now := (dueFrom_at_once ready).trans (if_pos enough)
  obtain ⟨rest, taken, left, later⟩ := read_of_due ended due running
  exact ⟨rest, taken, left, fun a present => (later a present).elim id (ready a)⟩

theorem read_short_at_once (ended : Fault) (ready : ∀ a ∈ s.incoming, a.delay = 0) (running : s.now ≤ deadline)
    (short : s.unread.length < n) :
    ∃ now, s.read n deadline ended = (.error (s.ending.fault ended), { s with incoming := [], now }) := by
  obtain ⟨now, collected⟩ := collect_short_at_once ready running short
  refine ⟨now, ?_⟩
  rw [read, collected]

/-! ### Writing -/

theorem fitting_append (first second : Bytes) :
    s.fitting (first ++ second) = s.fitting first ++ (s.wrote first).fitting second := by
  unfold fitting wrote
  cases s.room with
  | none => rfl
  | some room => exact List.take_append

theorem wrote_append (first second : Bytes) : s.wrote (first ++ second) = (s.wrote first).wrote second := by
  have room : s.room.map (· - (first ++ second).length) = (s.room.map (· - first.length)).map (· - second.length) := by
    cases s.room with
    | none => rfl
    | some room => simp [Nat.sub_sub]
  unfold wrote
  rw [fitting_append, room, ← List.append_assoc]
  rfl

theorem fitting_of_fits (fits : s.fits bs = true) : s.fitting bs = bs := by
  unfold Stream.fits at fits
  unfold fitting
  cases room : s.room with
  | none => rfl
  | some room =>
    simp only [room, Option.all_some, decide_eq_true_eq] at fits
    exact List.take_of_length_le fits

theorem fits_append (first second : Bytes) :
    s.fits (first ++ second) = (s.fits first && (s.wrote first).fits second) := by
  unfold fits wrote
  cases s.room with
  | none => rfl
  | some room =>
    rw [Bool.eq_iff_iff]
    simp
    omega

/-- Where not everything fits, nothing fits any more. -/
theorem wrote_of_not_fits {first : Bytes} (cut : s.fits first = false) (second : Bytes) :
    (s.wrote first).fitting second = [] ∧ (s.wrote first).wrote second = s.wrote first := by
  unfold fits at cut
  cases limited : s.room with
  | none =>
    rw [limited] at cut
    cases cut
  | some room =>
    simp only [limited, Option.all_some, decide_eq_false_iff_not, Nat.not_le] at cut
    have none_left : room - first.length = 0 := Nat.sub_eq_zero_of_le (Nat.le_of_lt cut)
    constructor
    · simp [fitting, wrote, limited, none_left]
    · simp [fitting, wrote, limited, none_left]

theorem put_cons (piece : Bytes) (pieces : List Bytes) : s.put (piece :: pieces) =
    if s.fits piece then (s.wrote piece).put pieces else (.error (.io "write limit reached"), s.wrote piece) := by
  rw [put]
  split
  · next unlimited => simp [fits, fitting, wrote, unlimited]
  · next room limited =>
    simp only [fits, fitting, wrote, limited, Option.all_some, Option.elim_some, Option.map_some, decide_eq_true_eq]
    by_cases beyond : room < piece.length
    · rw [if_pos beyond, if_neg (Nat.not_le.mpr beyond)]
    · rw [if_neg beyond, if_pos (Nat.not_lt.mp beyond)]

theorem put_eq (pieces : List Bytes) : s.put pieces =
    (if s.fits pieces.flatten then .ok () else .error (.io "write limit reached"), s.wrote pieces.flatten) := by
  induction pieces generalizing s with
  | nil =>
    obtain ⟨incoming, ending, written, room, grain, now⟩ := s
    cases room with
    | none => simp [put, fits, fitting, wrote]
    | some room => simp [put, fits, fitting, wrote]
  | cons piece pieces ih =>
    rw [put_cons, List.flatten_cons, fits_append, wrote_append]
    cases whole : s.fits piece with
    | true => simp [ih]
    | false => simp [(wrote_of_not_fits whole pieces.flatten).2]

/-- How many bytes each write takes does not matter. -/
theorem write_eq (bs : Bytes) : s.write bs =
    (if s.fits bs then .ok () else .error (.io "write limit reached"), s.wrote bs) := by
  rw [write, put_eq, Bytes.flatten_runs]

end Stream

end PeerLink
