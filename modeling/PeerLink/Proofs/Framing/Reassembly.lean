import PeerLink.Proofs.Framing

/-!
Streams that nobody vouches for. Whatever the bytes are and however they arrive, the frames that are handed out
and the place where the receiver stops depend on the bytes alone. Only the count of bytes that had come when
a length was found too small, which its refusal mentions, depends on the reads.
-/
namespace PeerLink.Framing

variable {f : Framing} {buffer frame rest : Bytes} {e : Fault}

/-- How a length outside the limits is refused. -/
def refusal (f : Framing) (declared buffered : Nat) : Fault :=
  if declared < f.least then .lengthMismatch declared buffered else .oversizedFrame declared

theorem next?_some (h : f.next? buffer = .ok (some (frame, rest))) :
    buffer = frame ++ rest ∧ f.Takes frame := by
  unfold next? at h
  split at h
  · cases h
  · next head _ declared =>
    simp only at h
    split at h
    · cases h
    · next least =>
      split at h
      · cases h
      · next most =>
        obtain ⟨rfl, length⟩ := Bytes.split?_eq_some (Except.ok.inj h)
        have room := f.prefix_lt_least
        obtain ⟨front, width⟩ := Bytes.split?_eq_some declared
        have first : (frame ++ rest).take lengthPrefix = frame.take lengthPrefix :=
          List.take_append_of_le_length (by omega)
        have start : frame.take lengthPrefix = head := by rw [← first, front, List.take_left' width]
        refine ⟨rfl, ?_, ?_, ?_⟩
        · omega
        · omega
        · rw [start, length]

theorem next?_error (h : f.next? buffer = .error e) :
    lengthPrefix ≤ buffer.length ∧
      e = f.refusal (Bytes.toNat (buffer.take lengthPrefix)) buffer.length := by
  unfold next? at h
  split at h
  · cases h
  · next head behind declared =>
    obtain ⟨front, width⟩ := Bytes.split?_eq_some declared
    have start : buffer.take lengthPrefix = head := by rw [front, List.take_left' width]
    have enough : lengthPrefix ≤ buffer.length := by
      rw [front, List.length_append]
      omega
    rw [start, refusal]
    simp only at h
    split at h
    · next small =>
      rw [if_pos small]
      exact ⟨enough, (Except.error.inj h).symm⟩
    · next least =>
      rw [if_neg least]
      split at h
      · exact ⟨enough, (Except.error.inj h).symm⟩
      · cases h

/-- Bytes cut into frames up to where no frame can be taken. -/
structure Splits (f : Framing) (bytes : Bytes) (c : Cut) : Prop where
  whole : c.frames.flatten ++ c.rest = bytes
  takes : ∀ frame ∈ c.frames, f.Takes frame
  stops : f.next? c.rest =
    match c.fault with
    | none => .ok none
    | some e => .error e

theorem splits_cut (buffer : Bytes) : f.Splits buffer (f.cut buffer) := by
  fun_induction cut f buffer with
  | case1 buffer e refused => exact ⟨rfl, by simp, refused⟩
  | case2 buffer waits => exact ⟨rfl, by simp, waits⟩
  | case3 buffer frame rest taken later ih =>
    obtain ⟨rfl, takes⟩ := next?_some taken
    refine ⟨?_, ?_, ih.stops⟩
    · rw [List.flatten_cons, List.append_assoc, ih.whole]
    · intro other inside
      rcases List.mem_cons.mp inside with rfl | behind
      · exact takes
      · exact ih.takes other behind

/-- A receiver takes its reads in turn, all of them unless it stops at a refusal. -/
theorem splits_receive (reads : List Bytes) (waits : f.next? buffer = .ok none) :
    ∃ fed unread, f.Splits fed (f.receive buffer reads) ∧ fed ++ unread = buffer ++ reads.flatten ∧
      ((f.receive buffer reads).fault = none → unread = []) := by
  induction reads generalizing buffer with
  | nil => exact ⟨buffer, [], ⟨rfl, by simp [receive], waits⟩, rfl, fun _ => rfl⟩
  | cons read reads ih =>
    have now := f.splits_cut (buffer ++ read)
    cases refused : (f.cut (buffer ++ read)).fault with
    | none =>
      obtain ⟨fed, unread, later, read_so_far, complete⟩ := ih (next?_rest refused)
      rw [receive_cons_of_none refused]
      refine ⟨(f.cut (buffer ++ read)).frames.flatten ++ fed, unread, ⟨?_, ?_, later.stops⟩, ?_, complete⟩
      · rw [List.flatten_append, List.append_assoc, later.whole]
      · intro frame inside
        rcases List.mem_append.mp inside with earlier | behind
        · exact now.takes frame earlier
        · exact later.takes frame behind
      · rw [List.append_assoc, read_so_far, ← List.append_assoc, now.whole, List.flatten_cons,
          List.append_assoc]
    | some e =>
      have stops : f.receive buffer (read :: reads) = f.cut (buffer ++ read) := by
        simp only [receive, refused]
      rw [stops]
      refine ⟨buffer ++ read, reads.flatten, now, ?_, fun none => ?_⟩
      · rw [List.flatten_cons, List.append_assoc]
      · rw [refused] at none
        cases none

/-- Where a receiver stands in its stream: behind the frames that it has handed out. If it has stopped, the two
bytes there say why. -/
theorem stand_of_splits {c : Cut} {fed unread stream : Bytes} (splits : f.Splits fed c)
    (whole : fed ++ unread = stream) (complete : c.fault = none → unread = []) :
    ∃ left, c.frames.flatten ++ left = stream ∧ c.rest <+: left ∧
      (c.fault = none ∧ c.rest = left ∨
        c.fault = some (f.refusal (Bytes.toNat (left.take lengthPrefix)) c.rest.length)) := by
  refine ⟨c.rest ++ unread, ?_, List.prefix_append _ _, ?_⟩
  · rw [← List.append_assoc, splits.whole, whole]
  · have stops := splits.stops
    cases fault : c.fault with
    | none =>
      rw [complete fault, List.append_nil]
      exact .inl ⟨rfl, rfl⟩
    | some e =>
      rw [fault] at stops
      obtain ⟨enough, rfl⟩ := next?_error stops
      rw [List.take_append_of_le_length enough]
      exact .inr rfl

/-- Two receivers of the same bytes hand out the same frames, each of them whole and within the limits, and
either wait with the same bytes or stop at the same place over the same length. -/
theorem receive_congr (least most : Nat) {one two : List Bytes} (same : one.flatten = two.flatten) :
    let f := within least most
    let first := f.receive [] one
    let second := f.receive [] two
    first.frames = second.frames ∧ (∀ frame ∈ first.frames, f.Takes frame) ∧
      ∃ left, first.frames.flatten ++ left = one.flatten ∧
        (first.fault = none ∧ second.fault = none ∧ first.rest = left ∧ second.rest = left ∨
          first.rest <+: left ∧ second.rest <+: left ∧
            first.fault = some (f.refusal (Bytes.toNat (left.take lengthPrefix)) first.rest.length) ∧
            second.fault = some (f.refusal (Bytes.toNat (left.take lengthPrefix)) second.rest.length)) := by
  intro f first second
  have empty : f.next? [] = .ok none := rfl
  obtain ⟨frames, faults, -⟩ := receive_eq_cut one empty
  obtain ⟨frames', faults', -⟩ := receive_eq_cut two empty
  rw [← same] at frames' faults'
  have handed : first.frames = second.frames := frames.trans frames'.symm
  have stopped : first.fault.isSome = second.fault.isSome := faults.trans faults'.symm
  obtain ⟨_, _, splits, whole, complete⟩ := splits_receive one empty
  obtain ⟨_, _, splits', whole', complete'⟩ := splits_receive two empty
  obtain ⟨left, place, buffered, ends⟩ := stand_of_splits splits whole complete
  obtain ⟨left', place', buffered', ends'⟩ := stand_of_splits splits' whole' complete'
  obtain rfl : left = left' := by
    have aligned : first.frames.flatten ++ left = first.frames.flatten ++ left' := by
      rw [place, handed, place', same]
    exact List.append_cancel_left aligned
  refine ⟨handed, splits.takes, left, place, ?_⟩
  rcases ends with ⟨waits, all⟩ | refused
  · rcases ends' with ⟨waits', all'⟩ | refused'
    · exact .inl ⟨waits, waits', all, all'⟩
    · simp only [first, second, waits, refused'] at stopped
      cases stopped
  · rcases ends' with ⟨waits', all'⟩ | refused'
    · simp only [first, second, refused, waits'] at stopped
      cases stopped
    · exact .inr ⟨buffered, buffered', refused, refused'⟩

def emptyMessage : Bytes := [10, 0, 0, 0, 0, 0, 0, 0, 0, 0]

/-- A message and a length that is too small, in reads that cut both lengths in two. -/
theorem receive_congr_hostile :
    [[10], emptyMessage.tail ++ [4], [0], [1]].flatten = [emptyMessage ++ [4, 0, 1]].flatten ∧
      let cutUp := (within 10 1024).receive [] [[10], emptyMessage.tail ++ [4], [0], [1]]
      cutUp.frames = [emptyMessage] ∧ ∃ buffered, cutUp.fault = some (.lengthMismatch 4 buffered) := by
  have same : [[10], emptyMessage.tail ++ [4], [0], [1]].flatten = [emptyMessage ++ [4, 0, 1]].flatten := rfl
  have whole : (within 10 1024).receive [] [emptyMessage ++ [4, 0, 1]] =
      ⟨[emptyMessage], some (.lengthMismatch 4 3), [4, 0, 1]⟩ := by cbv
  obtain ⟨frames, -, left, place, ends⟩ := receive_congr 10 1024 same
  rw [whole] at frames ends
  rw [frames] at place
  have aligned : emptyMessage ++ left = emptyMessage ++ [4, 0, 1] := place
  obtain rfl := List.append_cancel_left aligned
  refine ⟨same, frames, ?_⟩
  rcases ends with ⟨-, waits, -⟩ | ⟨-, -, refused, -⟩
  · cases waits
  · exact ⟨_, refused⟩

end PeerLink.Framing
