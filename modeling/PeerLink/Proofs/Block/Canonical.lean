import PeerLink.Proofs.Block.Walk

/-!
What a read block says about the bytes it was read from. It depends on its own bytes alone, of which there is at least
one, and for almost every type these are the bytes that its value is written as. So nobody can go on reading for ever.
-/
namespace PeerLink

variable {α : Type}

namespace Reader

/-! ### Nothing behind the end is looked at -/

/-- What is read is the same, whatever follows. -/
def Local (item : Reader α) : Prop :=
  ∀ bs a rest, item bs = .ok (a, rest) → ∀ more, item (bs ++ more) = .ok (a, rest ++ more)

theorem local_take (n : Nat) : (take n).Local := by
  intro bs head rest h more
  obtain ⟨rfl, rfl⟩ := take_eq_ok h
  rw [List.append_assoc, take_append]

theorem local_nat (width : Nat) : (nat width).Local := by
  intro bs n rest h more
  obtain ⟨rfl, small⟩ := nat_ok h
  rw [List.append_assoc, nat_ofNat_append, Nat.mod_eq_of_lt small]

theorem local_prefixed : prefixed.Local := by
  intro bs run rest h more
  unfold prefixed at h ⊢
  split at h
  · next n behind sized =>
    simp only [local_nat 2 bs n behind sized more, local_take n behind run rest h more]
  · cases h

theorem local_enclosed (value : Bytes → Except Fault α) : (enclosed value).Local := by
  intro bs a rest h more
  obtain ⟨run, taken, valued⟩ := enclosed_ok h
  simp only [enclosed, local_prefixed bs run rest taken more, valued]
  rfl

theorem Local.manyOnto {item : Reader α} (h : item.Local) (n : Nat) (read : List α) :
    (manyOnto item n read).Local := by
  induction n generalizing read with
  | zero =>
    intro bs as rest taken more
    cases taken
    rfl
  | succ n ih =>
    intro bs as rest taken more
    simp only [Reader.manyOnto] at taken ⊢
    split at taken
    · next a behind first =>
      simp only [h bs a behind first more, ih (a :: read) behind as rest taken more]
    · cases taken

/-! ### A run is its length and its bytes -/

theorem prefixed_ok {bs run rest : Bytes} (h : prefixed bs = .ok (run, rest)) :
    ∃ out, run.withPrefix = .ok out ∧ bs = out ++ rest := by
  unfold prefixed at h
  split at h
  · next n behind sized =>
    obtain ⟨rfl, small⟩ := nat_ok sized
    obtain ⟨rfl, rfl⟩ := take_eq_ok h
    exact ⟨_, if_pos small, (List.append_assoc _ run rest).symm⟩
  · cases h

theorem length_prefixed_lt {bs run rest : Bytes} (h : prefixed bs = .ok (run, rest)) :
    rest.length < bs.length := by
  unfold prefixed at h
  split at h
  · next n behind sized =>
    obtain ⟨rfl, -⟩ := nat_ok sized
    have shorter := (leavesEnd_take n behind run rest h).length_le
    rw [List.length_append, Bytes.length_ofNat]
    omega
  · cases h

theorem length_enclosed_lt {value : Bytes → Except Fault α} {bs rest : Bytes} {a : α}
    (h : enclosed value bs = .ok (a, rest)) : rest.length < bs.length := by
  obtain ⟨run, taken, -⟩ := enclosed_ok h
  exact length_prefixed_lt taken

end Reader

namespace Scalar

theorem local_decode (t : Scalar α) : t.decode.Local := by
  intro bs v rest h more
  unfold decode at h ⊢
  split at h
  · cases h
  · next n behind read =>
    simp only [Reader.local_nat t.width bs n behind read more]
    split at h
    · cases h
      rfl
    · cases h

theorem width_pos (t : Scalar α) : 0 < t.width := by
  cases t <;> decide

/-- No two numbers stand for one value. Every number but 0 is true. -/
def IsCanonical : Scalar α → Prop
  | bool => False
  | _ => True

theorem toNat_of_ofNat? {t : Scalar α} (canonical : t.IsCanonical) {n : Nat} {v : α}
    (small : n < Bytes.capacity t.width) (meant : t.ofNat? n = some v) : t.toNat v = n := by
  cases t with
  | bool => exact canonical.elim
  | char =>
    rw [ofNat?] at meant
    split at meant
    · next valid =>
      cases meant
      rw [Char.ofNat, dif_pos valid]
      rfl
    · cases meant
  | _ =>
    cases meant
    exact Nat.mod_eq_of_lt small

theorem decode_ok {t : Scalar α} {bs rest : Bytes} {v : α} (h : t.decode bs = .ok (v, rest)) :
    ∃ n, n < Bytes.capacity t.width ∧ t.ofNat? n = some v ∧ bs = Bytes.ofNat t.width n ++ rest := by
  unfold decode at h
  split at h
  · cases h
  · next n behind read =>
    obtain ⟨rfl, small⟩ := Reader.nat_ok read
    split at h
    · next v' meant =>
      cases h
      exact ⟨n, small, meant, rfl⟩
    · cases h

theorem canonical_decode {t : Scalar α} (canonical : t.IsCanonical) {bs rest : Bytes} {v : α}
    (h : t.decode bs = .ok (v, rest)) : bs = t.encode v ++ rest := by
  obtain ⟨n, small, meant, rfl⟩ := decode_ok h
  rw [encode, toNat_of_ofNat? canonical small meant]

theorem canonical_manyOnto {t : Scalar α} (canonical : t.IsCanonical) {n : Nat} {read vs : List α}
    {bs rest : Bytes} (h : Reader.manyOnto t.decode n read bs = .ok (vs, rest)) :
    ∃ later, vs = read.reverse ++ later ∧ later.length = n ∧ bs = later.flatMap t.encode ++ rest := by
  induction n generalizing read bs with
  | zero =>
    cases h
    exact ⟨[], (List.append_nil _).symm, rfl, rfl⟩
  | succ n ih =>
    simp only [Reader.manyOnto] at h
    split at h
    · next v behind first =>
      obtain ⟨later, rfl, counted, rfl⟩ := ih h
      refine ⟨v :: later, ?_, congrArg (· + 1) counted, ?_⟩
      · rw [List.reverse_cons, List.append_assoc, List.singleton_append]
      · rw [canonical_decode canonical first, List.flatMap_cons, List.append_assoc]
    · cases h

theorem canonical_many {t : Scalar α} (canonical : t.IsCanonical) {n : Nat} {vs : List α} {bs rest : Bytes}
    (h : Reader.many t.decode n bs = .ok (vs, rest)) : vs.length = n ∧ bs = vs.flatMap t.encode ++ rest := by
  obtain ⟨later, rfl, counted, spelled⟩ := canonical_manyOnto canonical h
  exact ⟨counted, spelled⟩

end Scalar

namespace Block

theorem local_decode (block : Block α) : block.decode.Local := by
  intro bs v rest h more
  cases block with
  | scalar t => exact t.local_decode bs v rest h more
  | bytes => exact Reader.local_prefixed bs v rest h more
  | array t =>
    simp only [decode] at h ⊢
    split at h
    · cases h
    · next n behind counted =>
      split at h
      · next fits =>
        have room : n * t.width ≤ (behind ++ more).length := by
          rw [List.length_append]
          exact Nat.le_add_right_of_le fits
        simp only [Reader.local_nat 2 bs n behind counted more, if_pos room]
        exact t.local_decode.manyOnto n [] behind v rest h more
      · cases h
  | text =>
    rw [decode_text] at h ⊢
    exact Reader.local_enclosed textOf bs v rest h more
  | wideText =>
    rw [decode_wideText] at h ⊢
    exact Reader.local_enclosed wideTextOf bs v rest h more
  | object f =>
    rw [decode_object] at h ⊢
    exact Reader.local_enclosed (objectOf f) bs v rest h more

/-- A block that is read takes at least a byte. -/
theorem length_decode_lt {block : Block α} {bs rest : Bytes} {v : α} (h : block.decode bs = .ok (v, rest)) :
    rest.length < bs.length := by
  cases block with
  | scalar t =>
    obtain ⟨n, -, -, rfl⟩ := Scalar.decode_ok h
    have positive := t.width_pos
    rw [List.length_append, Bytes.length_ofNat]
    omega
  | bytes => exact Reader.length_prefixed_lt h
  | array t =>
    simp only [decode] at h
    split at h
    · cases h
    · next n behind counted =>
      obtain ⟨rfl, -⟩ := Reader.nat_ok counted
      split at h
      · have shorter := (t.leavesEnd_decode.manyOnto n [] behind v rest h).length_le
        rw [List.length_append, Bytes.length_ofNat]
        omega
      · cases h
  | text => exact Reader.length_enclosed_lt (decode_text ▸ h)
  | wideText => exact Reader.length_enclosed_lt (decode_wideText ▸ h)
  | object f => exact Reader.length_enclosed_lt (decode_object f ▸ h)

/-! ### The bytes of a value -/

theorem textOf_ok {run : Bytes} {s : String} (h : textOf run = .ok s) : s.toUTF8.toList = run := by
  unfold textOf String.fromUTF8? at h
  split at h
  · next meant =>
    cases h
    split at meant
    · cases meant
      rw [toList_eq]
      exact congrArg Array.toList List.data_toByteArray
    · cases meant
  · cases h

theorem wideUnits_of_ofWideUnits? {run : Bytes} {s : String} (h : ofWideUnits? run = some s) :
    wideUnits s = run := by
  unfold ofWideUnits? at h
  split at h
  · next whole =>
    split at h
    · next cs rest read =>
      cases h
      obtain ⟨counted, spelled⟩ := Scalar.canonical_many (t := .char) trivial read
      have length := congrArg List.length spelled
      have units : Scalar.char.width = 4 := rfl
      rw [List.length_append, Scalar.length_flatMap, counted, units] at length
      have empty : rest.length = 0 := by omega
      rw [List.eq_nil_of_length_eq_zero empty, List.append_nil] at spelled
      rw [wideUnits, String.toList_ofList]
      exact spelled.symm
    · cases h
  · cases h

theorem wideTextOf_ok {run : Bytes} {s : String} (h : wideTextOf run = .ok s) : wideUnits s = run := by
  unfold wideTextOf at h
  split at h
  · next meant =>
    cases h
    exact wideUnits_of_ofWideUnits? meant
  · cases h

/-- Truth values and what is made of them have several spellings, and what an object has is up to its format. -/
def IsCanonical : Block α → Prop
  | scalar t | array t => t.IsCanonical
  | text | wideText | bytes => True
  | object _ => False

/-- The bytes that were taken are those that the value is written as. -/
theorem canonical_decode {block : Block α} (canonical : block.IsCanonical) {bs rest : Bytes} {v : α}
    (h : block.decode bs = .ok (v, rest)) : ∃ out, block.encode v = .ok out ∧ bs = out ++ rest := by
  cases block with
  | scalar t => exact ⟨t.encode v, rfl, Scalar.canonical_decode canonical h⟩
  | bytes => exact Reader.prefixed_ok h
  | object f => exact canonical.elim
  | array t =>
    simp only [decode] at h
    split at h
    · cases h
    · next n behind counted =>
      obtain ⟨rfl, small⟩ := Reader.nat_ok counted
      split at h
      · obtain ⟨rfl, rfl⟩ := Scalar.canonical_many canonical h
        exact ⟨_, if_pos small, (List.append_assoc _ _ rest).symm⟩
      · cases h
  | text =>
    obtain ⟨run, taken, meant⟩ := Reader.enclosed_ok (decode_text ▸ h)
    rw [encode, textOf_ok meant]
    exact Reader.prefixed_ok taken
  | wideText =>
    obtain ⟨run, taken, meant⟩ := Reader.enclosed_ok (decode_wideText ▸ h)
    rw [encode, wideTextOf_ok meant]
    exact Reader.prefixed_ok taken

/-! ### Reading on -/

/-- Asks for one kind of block after the other until there is one, each time where the last request left the cursor. -/
def walkFirst : List ((α : Type) × Block α) → Cursor → Option Entry × Cursor
  | [], c => (none, c)
  | ⟨_, block⟩ :: others, c =>
    match block.walk c with
    | (.ok value, c) => (some ⟨block, value⟩, c)
    | (.error _, c) => walkFirst others c

/-- A loop that ends after some turns. It reads a block in each, for which it may `ask` in several ways, by what it has
read so far and where it stands, and goes on until nothing remains or nothing is read. -/
inductive Ends (ask : List Entry → Cursor → List ((α : Type) × Block α)) : Nat → List Entry → Cursor → Prop
  | exhausted {read c} (empty : c.remaining = 0) : Ends ask 0 read c
  | refused {read c stop} (failed : walkFirst (ask read c) c = (none, stop)) : Ends ask 0 read c
  | turn {read c entry behind turns} (left : c.remaining ≠ 0)
    (taken : walkFirst (ask read c) c = (some entry, behind))
    (later : Ends ask turns (read ++ [entry]) behind) : Ends ask (turns + 1) read c

theorem walk_error {block : Block α} {c stop : Cursor} {e : Fault} (h : block.walk c = (.error e, stop)) :
    stop = c := by
  rw [walk_eq] at h
  split at h
  · cases h
  · cases h
    rfl

theorem walk_ok {block : Block α} {c behind : Cursor} {v : α} (h : block.walk c = (.ok v, behind)) :
    block.decode c.rest = .ok (v, behind.rest) ∧ behind = c.before behind.rest := by
  cases read : block.decode c.rest with
  | ok taken =>
    rw [block.follows_walk.ok read] at h
    cases h
    exact ⟨rfl, rfl⟩
  | error e =>
    rw [block.follows_walk.error read] at h
    cases h

theorem remaining_walkFirst_lt {forms : List ((α : Type) × Block α)} {c behind : Cursor} {entry : Entry}
    (h : walkFirst forms c = (some entry, behind)) : behind.remaining < c.remaining := by
  induction forms with
  | nil => cases h
  | cons form others ih =>
    obtain ⟨type, block⟩ := form
    simp only [walkFirst] at h
    split at h
    · next taken =>
      cases h
      exact length_decode_lt (walk_ok taken).1
    · next failed =>
      -- The others are asked for where this one was.
      rw [walk_error failed] at h
      exact ih h

/-- Each turn leaves fewer bytes, so there are at most as many turns as bytes. -/
theorem ends_le (ask : List Entry → Cursor → List ((α : Type) × Block α)) (read : List Entry) (c : Cursor) :
    ∃ turns, turns ≤ c.remaining ∧ Ends ask turns read c := by
  by_cases empty : c.remaining = 0
  · exact ⟨0, Nat.zero_le _, .exhausted empty⟩
  · rcases step : walkFirst (ask read c) c with ⟨_ | entry, behind⟩
    · exact ⟨0, Nat.zero_le _, .refused step⟩
    · have fewer := remaining_walkFirst_lt step
      obtain ⟨turns, bound, later⟩ := ends_le ask (read ++ [entry]) behind
      exact ⟨turns + 1, Nat.lt_of_le_of_lt bound fewer, .turn empty step later⟩
termination_by c.remaining

/-- What is read at a position is there, and is not nothing. -/
theorem exists_passed {block : Block α} {bs rest : Bytes} {position : Nat} {v : α}
    (h : block.decode (bs.drop position) = .ok (v, rest)) :
    ∃ passed, 1 ≤ passed.length ∧ position + passed.length ≤ bs.length ∧ bs.drop position = passed ++ rest := by
  obtain ⟨passed, whole⟩ := block.leavesEnd_decode _ v rest h
  have fewer := length_decode_lt h
  have length := congrArg List.length whole
  rw [List.length_append, List.length_drop] at length
  rw [List.length_drop] at fewer
  exact ⟨passed, by omega, by omega, whole.symm⟩

theorem before_ofBytes {bs passed rest : Bytes} {position : Nat} (inside : position + passed.length ≤ bs.length)
    (ahead : bs.drop position = passed ++ rest) :
    (Cursor.ofBytes bs position).before rest = .ofBytes bs (position + passed.length) := by
  have start : min position bs.length = position := Nat.min_eq_left (Nat.le_of_add_right_le inside)
  have stop : min (position + passed.length) bs.length = position + passed.length := Nat.min_eq_left inside
  have left : bs.drop (position + passed.length) = rest := by rw [← List.drop_drop, ahead, List.drop_left]
  rw [Cursor.ofBytes, Cursor.before, ahead, List.length_append, Nat.add_sub_cancel, Cursor.ofBytes, start, stop, left]

/-- Reading a block anywhere in a byte string. If it fails, the cursor has not moved. If it succeeds, the cursor has
passed at least one byte, the value and the way are the same whatever is appended, and the bytes passed are what the
value is written as, unless that is a truth value, an array of them, or an object. So a loop that reads while
there is anything and no read fails ends, however it chooses what to read. -/
theorem walk_canonical (block : Block α) (bs : Bytes) (position : Nat) :
    (Cursor.ofBytes bs position).read block.decode =
      (match block.walk (.ofBytes bs position) with
      | (.ok v, behind) => .ok (v, behind)
      | (.error e, _) => .error e) ∧
    (∀ e stop, block.walk (.ofBytes bs position) = (.error e, stop) → stop = .ofBytes bs position) ∧
    (∀ v behind, block.walk (.ofBytes bs position) = (.ok v, behind) →
      ∃ n, 1 ≤ n ∧ position + n ≤ bs.length ∧ behind = .ofBytes bs (position + n) ∧
        (∀ more, block.walk (.ofBytes (bs ++ more) position) = (.ok v, .ofBytes (bs ++ more) (position + n))) ∧
        (block.IsCanonical → block.encode v = .ok ((bs.drop position).take n))) ∧
    ∀ ask, ∃ turns, turns ≤ (Cursor.ofBytes bs position).remaining ∧ Ends ask turns [] (.ofBytes bs position) := by
  refine ⟨?_, fun e stop failed => walk_error failed, ?_, fun ask => ends_le ask [] _⟩
  · rw [walk_eq]
    cases Cursor.read (.ofBytes bs position) block.decode <;> rfl
  · intro v behind succeeded
    obtain ⟨read, moved⟩ := walk_ok succeeded
    obtain ⟨passed, some, inside, ahead⟩ := exists_passed read
    refine ⟨passed.length, some, inside, ?_, fun more => ?_, fun canonical => ?_⟩
    · rw [← before_ofBytes inside ahead, ← moved]
    · have longer : (bs ++ more).drop position = passed ++ (behind.rest ++ more) := by
        rw [List.drop_append_of_le_length (Nat.le_of_add_right_le inside), ahead, List.append_assoc]
      have inside' : position + passed.length ≤ (bs ++ more).length := by
        rw [List.length_append]
        exact Nat.le_add_right_of_le inside
      have again : block.decode ((bs ++ more).drop position) = .ok (v, behind.rest ++ more) := by
        rw [List.drop_append_of_le_length (Nat.le_of_add_right_le inside)]
        exact block.local_decode _ v behind.rest read more
      rw [← before_ofBytes inside' longer]
      exact block.follows_walk.ok again
    · obtain ⟨out, written, spelled⟩ := canonical_decode canonical read
      have same : out = passed := List.append_cancel_right (spelled.symm.trans ahead)
      rw [ahead, List.take_left, written, same]

/-- Two arrays of characters behind one other byte. The second number of the first is no character, and the cursor goes
back in front of the count. The other array is read, and has six bytes. -/
theorem walk_canonical_characters :
    (∃ e, (array .char).walk (.ofBytes [7, 2, 0, 0x61, 0, 0, 0, 0, 0xd8, 0, 0] 1) =
      (.error e, .ofBytes [7, 2, 0, 0x61, 0, 0, 0, 0, 0xd8, 0, 0] 1)) ∧
    ∃ n, (array .char).walk (.ofBytes [7, 1, 0, 0x61, 0, 0, 0, 9] 1) =
        (.ok ['a'], .ofBytes [7, 1, 0, 0x61, 0, 0, 0, 9] (1 + n)) ∧ 1 ≤ n ∧
      (array .char).encode ['a'] = .ok ([1, 0, 0x61, 0, 0, 0, 9].take n) := by
  obtain ⟨-, unmoved, -⟩ := walk_canonical (array .char) [7, 2, 0, 0x61, 0, 0, 0, 0, 0xd8, 0, 0] 1
  obtain ⟨-, -, moved, -⟩ := walk_canonical (array .char) [7, 1, 0, 0x61, 0, 0, 0, 9] 1
  obtain ⟨n, some, -, behind, -, written⟩ := moved ['a'] ⟨7, [9]⟩ rfl
  refine ⟨⟨.invalidChar, ?_⟩, n, ?_, some, written trivial⟩
  · rw [← unmoved .invalidChar _ rfl]
    rfl
  · rw [← behind]
    rfl

end Block

end PeerLink
