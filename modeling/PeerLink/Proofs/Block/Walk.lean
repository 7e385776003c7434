import PeerLink.Block.Walk
import PeerLink.Proofs.Block

/-!
A walk over a block does what the reader of the block does: it ends with the same value or fault, behind the block if
there is one, and where it began if there is none. Steps taken with a copy of the cursor may fail anywhere.
-/
namespace PeerLink

variable {α β : Type}

def Cursor.before (c : Cursor) (rest : Bytes) : Cursor :=
  ⟨c.position + (c.rest.length - rest.length), rest⟩

theorem Cursor.before_before {c : Cursor} {behind rest : Bytes} (first : behind.length ≤ c.rest.length)
    (second : rest.length ≤ behind.length) : (c.before behind).before rest = c.before rest := by
  simp only [before, mk.injEq, and_true]
  omega

theorem Cursor.before_self (c : Cursor) : c.before c.rest = c := by
  rw [before, Nat.sub_self, Nat.add_zero]

namespace Reader

/-- Reads a run behind its length as the value that it stands for. -/
def enclosed (value : Bytes → Except Fault α) : Reader α := fun bs =>
  match prefixed bs with
  | .error e => .error e
  | .ok (run, rest) => (value run).map (·, rest)

theorem enclosed_ok {value : Bytes → Except Fault α} {bs rest : Bytes} {a : α}
    (h : enclosed value bs = .ok (a, rest)) : ∃ run, prefixed bs = .ok (run, rest) ∧ value run = .ok a := by
  unfold enclosed at h
  split at h
  · cases h
  · next run behind taken =>
    obtain ⟨a', valued, same⟩ := ok_of_map h
    cases same
    exact ⟨run, taken, valued⟩

end Reader

namespace Walk

/-! ### Steps one after the other -/

theorem pure_run (a : α) (c : Cursor) : (pure a : Walk α) c = (.ok a, c) := rfl

theorem bind_ok {walk : Walk α} {next : α → Walk β} {c behind : Cursor} {a : α} (h : walk c = (.ok a, behind)) :
    (walk >>= next) c = next a behind := by
  simp only [bind, ExceptT.bind, ExceptT.mk, StateT.bind, h, ExceptT.bindCont]

theorem bind_error {walk : Walk α} {next : α → Walk β} {c stop : Cursor} {e : Fault} (h : walk c = (.error e, stop)) :
    (walk >>= next) c = (.error e, stop) := by
  simp only [bind, ExceptT.bind, ExceptT.mk, StateT.bind, h, ExceptT.bindCont]
  rfl

/-- A walk that ends as a reader does, though a failure may leave the cursor anywhere. -/
structure Tracks (walk : Walk α) (item : Reader α) : Prop where
  ok : ∀ {c a rest}, item c.rest = .ok (a, rest) → walk c = (.ok a, c.before rest)
  error : ∀ {c e}, item c.rest = .error e → ∃ stop, walk c = (.error e, stop)

/-- A walk that ends as a reader does, and where it began if it fails. -/
structure Follows (walk : Walk α) (item : Reader α) : Prop where
  ok : ∀ {c a rest}, item c.rest = .ok (a, rest) → walk c = (.ok a, c.before rest)
  error : ∀ {c e}, item c.rest = .error e → walk c = (.error e, c)

theorem Tracks.ahead {walk : Walk α} {item : Reader α} (h : walk.Tracks item) : (ahead walk).Follows item where
  ok read := by simp only [Walk.ahead, h.ok read]
  error failed := by
    obtain ⟨stop, stopped⟩ := h.error failed
    simp only [Walk.ahead, stopped]

theorem follows_take (n : Nat) : (take n).Follows (Reader.take n) where
  ok {c head rest} read := by
    obtain ⟨whole, width⟩ := Reader.take_eq_ok read
    have long : ¬c.remaining < n := by
      rw [Cursor.remaining, whole, List.length_append, width]
      omega
    have front : c.rest.take n = head := by rw [whole, ← width, List.take_left]
    have behind : c.rest.drop n = rest := by rw [whole, ← width, List.drop_left]
    have moved : c.rest.length - rest.length = n := by rw [whole, List.length_append, width, Nat.add_sub_cancel]
    rw [take, if_neg long, front, behind, Cursor.before, moved]
  error {c e} failed := by
    unfold Reader.take at failed
    split at failed
    · cases failed
    · next short =>
      cases failed
      exact if_pos (Bytes.split?_eq_none_iff.mp short)

theorem follows_nat (width : Nat) : (nat width).Follows (Reader.nat width) where
  ok read := by
    unfold Reader.nat at read
    split at read
    · next taken =>
      cases read
      rw [nat, bind_ok ((follows_take width).ok taken), pure_run]
    · cases read
  error failed := by
    unfold Reader.nat at failed
    split at failed
    · cases failed
    · next short =>
      cases failed
      rw [nat, bind_error ((follows_take width).error short)]

theorem follows_prefixed : prefixed.Follows Reader.prefixed where
  ok {c run rest} read := by
    unfold Reader.prefixed at read
    split at read
    · next n behind sized =>
      have first := (Reader.leavesEnd_nat 2 _ _ _ sized).length_le
      have second := (Reader.leavesEnd_take n _ _ _ read).length_le
      have taken := (follows_take n).ok (c := c.before behind) read
      simp only [prefixed, (follows_nat 2).ok sized, taken, Cursor.before_before first second]
    · cases read
  error {c e} failed := by
    unfold Reader.prefixed at failed
    split at failed
    · next n behind sized =>
      have short := (follows_take n).error (c := c.before behind) failed
      simp only [prefixed, (follows_nat 2).ok sized, short]
    · next unsized =>
      cases failed
      simp only [prefixed, (follows_nat 2).error unsized]

theorem follows_u24 : u24.Follows Reader.u24 where
  ok read := by
    unfold Reader.u24 at read
    split at read
    · next taken =>
      cases read
      rw [u24, bind_ok ((follows_take UInt24.width).ok taken), pure_run]
    · cases read
  error failed := by
    unfold Reader.u24 at failed
    split at failed
    · cases failed
    · next short =>
      cases failed
      rw [u24, bind_error ((follows_take UInt24.width).error short)]

theorem follows_enclosed (value : Bytes → Except Fault α) : (enclosed value).Follows (Reader.enclosed value) := by
  -- The run may be there and stand for nothing; the copy of the cursor is then behind it.
  refine Tracks.ahead ⟨?_, ?_⟩
  · intro c a rest read
    obtain ⟨run, taken, valued⟩ := Reader.enclosed_ok read
    rw [bind_ok (follows_prefixed.ok taken), valued]
    rfl
  · intro c e failed
    unfold Reader.enclosed at failed
    split at failed
    · next short =>
      cases failed
      exact ⟨c, bind_error (follows_prefixed.error short)⟩
    · next run behind taken =>
      rw [bind_ok (follows_prefixed.ok taken)]
      cases valued : value run with
      | ok a =>
        rw [valued] at failed
        cases failed
      | error e' =>
        rw [valued] at failed
        cases failed
        exact ⟨c.before behind, rfl⟩

theorem Follows.manyOnto {walk : Walk α} {item : Reader α} (h : walk.Follows item) (leaves : item.LeavesEnd) (n : Nat)
    (read : List α) : (manyOnto walk n read).Tracks (Reader.manyOnto item n read) := by
  induction n generalizing read with
  | zero =>
    refine ⟨fun taken => ?_, fun failed => ?_⟩
    · cases taken
      rw [Cursor.before_self]
      rfl
    · cases failed
  | succ n ih =>
    refine ⟨fun {c as rest} taken => ?_, fun {c e} failed => ?_⟩
    · simp only [Reader.manyOnto] at taken
      split at taken
      · next a behind first =>
        have later := (ih (a :: read)).ok (c := c.before behind) taken
        rw [Walk.manyOnto, bind_ok (h.ok first), later, Cursor.before_before (leaves _ _ _ first).length_le]
        exact (leaves.manyOnto n (a :: read) _ _ _ taken).length_le
      · cases taken
    · simp only [Reader.manyOnto] at failed
      split at failed
      · next a behind first =>
        rw [Walk.manyOnto, bind_ok (h.ok first)]
        exact (ih (a :: read)).error (c := c.before behind) failed
      · next stopped =>
        cases failed
        exact ⟨c, by rw [Walk.manyOnto, bind_error (h.error stopped)]⟩

end Walk

namespace Scalar

theorem tracks_numberWalk (t : Scalar α) : t.numberWalk.Tracks t.decode where
  ok {c v rest} read := by
    unfold decode at read
    split at read
    · cases read
    · next n behind taken =>
      rw [numberWalk, Walk.bind_ok ((Walk.follows_nat t.width).ok taken)]
      split at read
      · next v' meant =>
        cases read
        rw [meant]
        rfl
      · cases read
  error {c e} failed := by
    unfold decode at failed
    split at failed
    · next short =>
      cases failed
      exact ⟨c, by rw [numberWalk, Walk.bind_error ((Walk.follows_nat t.width).error short)]⟩
    · next n behind taken =>
      rw [numberWalk, Walk.bind_ok ((Walk.follows_nat t.width).ok taken)]
      split at failed
      · cases failed
      · next meant =>
        cases failed
        rw [meant]
        exact ⟨c.before behind, rfl⟩

/-- Where every number stands for a value, the number is all that may be missing. -/
theorem follows_numberWalk {t : Scalar α} (total : ∀ n, t.ofNat? n ≠ none) : t.numberWalk.Follows t.decode where
  ok := t.tracks_numberWalk.ok
  error {c e} failed := by
    unfold decode at failed
    split at failed
    · next short =>
      cases failed
      rw [numberWalk, Walk.bind_error ((Walk.follows_nat t.width).error short)]
    · next n behind taken =>
      split at failed
      · cases failed
      · next meant => exact absurd meant (total n)

theorem follows_walk (t : Scalar α) : t.walk.Follows t.decode := by
  cases t with
  | char => exact (tracks_numberWalk .char).ahead
  | _ => exact follows_numberWalk fun n meant => by cases meant

end Scalar

namespace Block

theorem decode_text : text.decode = Reader.enclosed textOf := by
  funext bs
  simp only [decode, Reader.enclosed]
  cases Reader.prefixed bs with
  | error e => rfl
  | ok taken =>
    simp only [textOf]
    cases String.fromUTF8? taken.1.toByteArray <;> rfl

theorem decode_wideText : wideText.decode = Reader.enclosed wideTextOf := by
  funext bs
  simp only [decode, Reader.enclosed]
  cases Reader.prefixed bs with
  | error e => rfl
  | ok taken =>
    simp only [wideTextOf]
    cases ofWideUnits? taken.1 <;> rfl

theorem decode_object (f : ObjectFormat α) : (object f).decode = Reader.enclosed (objectOf f) := by
  funext bs
  simp only [decode, Reader.enclosed]
  cases Reader.prefixed bs with
  | error e => rfl
  | ok taken =>
    simp only [objectOf]
    cases f.read taken.1 <;> rfl

/-- The count is all that is read of an array that does not fit. -/
theorem itemsWalk_counted {t : Scalar α} {c : Cursor} {n : Nat} {behind : Bytes}
    (counted : Reader.nat 2 c.rest = .ok (n, behind)) :
    itemsWalk t c c =
      if behind.length < n * t.width then (.error (.bufferUnderrun (n * t.width + 2) c.remaining), c.before behind)
      else Walk.manyOnto t.walk n [] (c.before behind) := by
  rw [itemsWalk, Walk.bind_ok ((Walk.follows_nat 2).ok counted)]
  change (if behind.length < n * t.width then throw _ else Walk.manyOnto t.walk n [] : Walk (List α))
    (c.before behind) = _
  split <;> rfl

theorem follows_array (t : Scalar α) : (array t).walk.Follows (array t).decode where
  ok {c vs rest} read := by
    simp only [decode] at read
    split at read
    · cases read
    · next n behind counted =>
      split at read
      · next fits =>
        have items := (t.follows_walk.manyOnto t.leavesEnd_decode n []).ok (c := c.before behind) read
        have first := (Reader.leavesEnd_nat 2 _ _ _ counted).length_le
        have second := (t.leavesEnd_decode.manyOnto n [] _ _ _ read).length_le
        rw [Cursor.before_before first second] at items
        simp only [walk, Walk.ahead, itemsWalk_counted counted, if_neg (Nat.not_lt.mpr fits), items]
      · cases read
  error {c e} failed := by
    simp only [decode] at failed
    split at failed
    · next short =>
      cases failed
      simp only [walk, Walk.ahead, itemsWalk, Walk.bind_error ((Walk.follows_nat 2).error short)]
    · next n behind counted =>
      split at failed
      · next fits =>
        obtain ⟨stop, items⟩ :=
          (t.follows_walk.manyOnto t.leavesEnd_decode n []).error (c := c.before behind) failed
        simp only [walk, Walk.ahead, itemsWalk_counted counted, if_neg (Nat.not_lt.mpr fits), items]
      · next beyond =>
        cases failed
        simp only [walk, Walk.ahead, itemsWalk_counted counted, if_pos (Nat.not_le.mp beyond)]
        rfl

theorem follows_walk (block : Block α) : block.walk.Follows block.decode := by
  cases block with
  | scalar t => exact t.follows_walk
  | bytes => exact Walk.follows_prefixed
  | text => exact decode_text ▸ Walk.follows_enclosed textOf
  | wideText => exact decode_wideText ▸ Walk.follows_enclosed wideTextOf
  | object f => exact decode_object f ▸ Walk.follows_enclosed (objectOf f)
  | array t => exact follows_array t

/-- A walk does what a read does, and when it fails the cursor has not moved. -/
theorem walk_eq (block : Block α) (c : Cursor) :
    block.walk c =
      match c.read block.decode with
      | .ok (v, behind) => (.ok v, behind)
      | .error e => (.error e, c) := by
  cases read : block.decode c.rest with
  | ok taken => simp only [Cursor.read, read, block.follows_walk.ok read, Cursor.before]
  | error e => simp only [Cursor.read, read, block.follows_walk.error read]

end Block
end PeerLink
