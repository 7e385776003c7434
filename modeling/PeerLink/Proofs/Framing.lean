import PeerLink.Framing

/-!
Cutting a stream while it arrives. A frame that is complete stays the same whatever follows it, so cutting
after each read hands out what cutting the whole stream at once would: the same frames, and a refusal
if and only if the whole is refused. The bytes left over are the same if there is no refusal.
-/
namespace PeerLink.Framing

variable {f : Framing} {buffer more frame rest : Bytes} {e : Fault}

theorem split?_more {n : Nat} {head : Bytes} (h : Bytes.split? n buffer = some (head, rest)) :
    Bytes.split? n (buffer ++ more) = some (head, rest ++ more) := by
  obtain ⟨rfl, rfl⟩ := Bytes.split?_eq_some h
  rw [List.append_assoc, Bytes.split?_append]

theorem next?_append (h : f.next? buffer = .ok (some (frame, rest))) :
    f.next? (buffer ++ more) = .ok (some (frame, rest ++ more)) := by
  unfold next? at h ⊢
  split at h
  · cases h
  · next head _ declared =>
    simp only [split?_more declared] at h ⊢
    split at h
    · cases h
    · next least =>
      split at h
      · cases h
      · next most =>
        rw [if_neg least, if_neg most, split?_more (Except.ok.inj h)]

theorem next?_append_error (more : Bytes) (h : f.next? buffer = .error e) :
    ∃ e', f.next? (buffer ++ more) = .error e' := by
  unfold next? at h ⊢
  split at h
  · cases h
  · next head _ declared =>
    simp only [split?_more declared] at h ⊢
    split at h
    · next least => exact ⟨_, if_pos least⟩
    · next least =>
      split at h
      · next most => exact ⟨_, by rw [if_neg least, if_pos most]⟩
      · cases h

/-! ### One buffer -/

theorem cut_of_error (h : f.next? buffer = .error e) : f.cut buffer = ⟨[], some e, buffer⟩ := by
  rw [cut]
  split
  · next refused =>
    rw [h] at refused
    cases refused
    rfl
  · next waits =>
    rw [h] at waits
    cases waits
  · next taken =>
    rw [h] at taken
    cases taken

theorem cut_of_none (h : f.next? buffer = .ok none) : f.cut buffer = ⟨[], none, buffer⟩ := by
  rw [cut]
  split
  · next refused =>
    rw [h] at refused
    cases refused
  · rfl
  · next taken =>
    rw [h] at taken
    cases taken

theorem cut_of_some (h : f.next? buffer = .ok (some (frame, rest))) :
    f.cut buffer = ⟨frame :: (f.cut rest).frames, (f.cut rest).fault, (f.cut rest).rest⟩ := by
  rw [cut]
  split
  · next refused =>
    rw [h] at refused
    cases refused
  · next waits =>
    rw [h] at waits
    cases waits
  · next taken =>
    rw [h] at taken
    cases taken
    rfl

theorem next?_rest (h : (f.cut buffer).fault = none) : f.next? (f.cut buffer).rest = .ok none := by
  fun_induction cut f buffer with
  | case1 => cases h
  | case2 buffer waits => exact waits
  | case3 buffer frame rest taken later ih => exact ih h

/-- Bytes that follow a buffer are cut behind what the buffer left. -/
theorem cut_append (more : Bytes) (h : (f.cut buffer).fault = none) :
    f.cut (buffer ++ more) =
      ⟨(f.cut buffer).frames ++ (f.cut ((f.cut buffer).rest ++ more)).frames,
        (f.cut ((f.cut buffer).rest ++ more)).fault, (f.cut ((f.cut buffer).rest ++ more)).rest⟩ := by
  fun_induction cut f buffer with
  | case1 => cases h
  | case2 => rfl
  | case3 buffer frame rest taken later ih =>
    rw [cut_of_some (next?_append taken), ih h]
    rfl

/-- Behind a length that is refused nothing is cut off. -/
theorem cut_append_of_fault (more : Bytes) (h : (f.cut buffer).fault.isSome) :
    (f.cut (buffer ++ more)).frames = (f.cut buffer).frames ∧ (f.cut (buffer ++ more)).fault.isSome := by
  fun_induction cut f buffer with
  | case1 buffer e refused =>
    obtain ⟨e', still⟩ := next?_append_error more refused
    rw [cut_of_error still]
    exact ⟨rfl, rfl⟩
  | case2 => cases h
  | case3 buffer frame rest taken later ih =>
    obtain ⟨frames, fault⟩ := ih h
    rw [cut_of_some (next?_append taken)]
    exact ⟨congrArg (frame :: ·) frames, fault⟩

/-! ### Read after read -/

/-- Takes reads one after the other and hands out the frames that each of them completes, up to a refusal. -/
def receive (f : Framing) : (buffer : Bytes) → (reads : List Bytes) → Cut
  | buffer, [] => ⟨[], none, buffer⟩
  | buffer, read :: reads =>
    let now := f.cut (buffer ++ read)
    match now.fault with
    | some _ => now
    | none =>
      let later := f.receive now.rest reads
      ⟨now.frames ++ later.frames, later.fault, later.rest⟩

theorem receive_cons_of_none {read : Bytes} {reads : List Bytes} (h : (f.cut (buffer ++ read)).fault = none) :
    f.receive buffer (read :: reads) =
      ⟨(f.cut (buffer ++ read)).frames ++ (f.receive (f.cut (buffer ++ read)).rest reads).frames,
        (f.receive (f.cut (buffer ++ read)).rest reads).fault,
        (f.receive (f.cut (buffer ++ read)).rest reads).rest⟩ := by
  simp only [receive, h]

/-- However a stream is cut into reads, the frames are those of the whole stream. -/
theorem receive_eq_cut (reads : List Bytes) (waits : f.next? buffer = .ok none) :
    (f.receive buffer reads).frames = (f.cut (buffer ++ reads.flatten)).frames ∧
      (f.receive buffer reads).fault.isSome = (f.cut (buffer ++ reads.flatten)).fault.isSome ∧
      ((f.cut (buffer ++ reads.flatten)).fault = none →
        (f.receive buffer reads).rest = (f.cut (buffer ++ reads.flatten)).rest) := by
  induction reads generalizing buffer with
  | nil =>
    rw [List.flatten_nil, List.append_nil, cut_of_none waits]
    exact ⟨rfl, rfl, fun _ => rfl⟩
  | cons read reads ih =>
    rw [List.flatten_cons, ← List.append_assoc]
    cases refused : (f.cut (buffer ++ read)).fault with
    | none =>
      obtain ⟨frames, fault, left⟩ := ih (next?_rest refused)
      rw [cut_append reads.flatten refused, receive_cons_of_none refused]
      exact ⟨congrArg ((f.cut (buffer ++ read)).frames ++ ·) frames, fault, left⟩
    | some e =>
      have fault : (f.cut (buffer ++ read)).fault.isSome := by
        rw [refused]
        rfl
      obtain ⟨frames, still⟩ := cut_append_of_fault reads.flatten fault
      have stops : f.receive buffer (read :: reads) = f.cut (buffer ++ read) := by
        simp only [receive, refused]
      rw [stops]
      refine ⟨frames.symm, fault.trans still.symm, fun none => ?_⟩
      rw [none] at still
      cases still

/-! ### Streams of frames -/

/-- A frame within the limits that begins with its own length. -/
structure Takes (f : Framing) (frame : Bytes) : Prop where
  least : f.least ≤ frame.length
  most : frame.length ≤ f.most
  declares : Bytes.toNat (frame.take lengthPrefix) = frame.length

theorem next?_of_takes (h : f.Takes frame) (rest : Bytes) :
    f.next? (frame ++ rest) = .ok (some (frame, rest)) := by
  have width : (frame.take lengthPrefix).length = lengthPrefix := by
    have room := f.prefix_lt_least
    have least := h.least
    rw [List.length_take]
    omega
  have parts : Bytes.split? lengthPrefix frame = some (frame.take lengthPrefix, frame.drop lengthPrefix) :=
    if_pos width
  simp only [next?, split?_more parts, h.declares, if_neg (Nat.not_lt.mpr h.least),
    if_neg (Nat.not_lt.mpr h.most), Bytes.split?_append]

theorem cut_flatten {frames : List Bytes} (h : ∀ frame ∈ frames, f.Takes frame) :
    f.cut frames.flatten = ⟨frames, none, []⟩ := by
  induction frames with
  | nil => exact cut_of_none rfl
  | cons frame frames ih =>
    have first := next?_of_takes (h frame List.mem_cons_self) frames.flatten
    have later := ih (fun next inside => h next (List.mem_cons_of_mem frame inside))
    rw [List.flatten_cons, cut_of_some first, later]

/-- Frames that the receiver takes arrive one by one and leave nothing behind, however their stream is cut. -/
theorem receive_flatten {frames reads : List Bytes} (h : ∀ frame ∈ frames, f.Takes frame)
    (same : reads.flatten = frames.flatten) : f.receive [] reads = ⟨frames, none, []⟩ := by
  have empty : f.next? [] = .ok none := rfl
  obtain ⟨handed, fault, left⟩ := receive_eq_cut reads empty
  rw [List.nil_append, same, cut_flatten h] at handed fault left
  have clean : (f.receive [] reads).fault = none := by
    rw [← Option.isNone_iff_eq_none, ← Option.not_isSome, fault]
    rfl
  calc f.receive [] reads
      = ⟨(f.receive [] reads).frames, (f.receive [] reads).fault, (f.receive [] reads).rest⟩ := rfl
    _ = ⟨frames, none, []⟩ := by rw [handed, clean, left rfl]

end PeerLink.Framing
