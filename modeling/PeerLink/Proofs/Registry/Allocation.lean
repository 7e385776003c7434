import PeerLink.Proofs.Server.Admission

/-!
Which ids an allocation finds. It tries one candidate less than 24 bits tell apart, and zero is one of those it may try,
so it leaves out the candidate just before the one it starts from. If that is the only id left, the allocation reports
that there is none.
-/
namespace PeerLink

variable {κ : Type}

namespace Registry

variable {r : Registry κ} {id : UInt24}

def Free (r : Registry κ) (id : UInt24) : Prop := id ≠ 0 ∧ r.has id = false

/-- The candidate that is left out. -/
def untried (r : Registry κ) : UInt24 := UInt24.truncate (r.counter.toNat + 0xffffff)

/-- Whoever there is a place and an id for is given one, and all others are refused. -/
structure Complete (r : Registry κ) : Prop where
  found : r.size < r.limit → (∃ id, r.Free id) → ∃ id, r.allocate.1 = .ok id ∧ r.Free id
  refused : ¬ (r.size < r.limit ∧ ∃ id, r.Free id) → ∃ reason, r.allocate.1 = .error (.handshake reason)
  exhausted : r.allocate.1 = .error .idSpaceExhausted → ∀ id, ¬ r.Free id

theorem truncate_succ_add (counter : UInt32) (k : Nat) :
    UInt24.truncate ((counter + 1).toNat + k) = UInt24.truncate (counter.toNat + (k + 1)) := by
  -- The counter wraps at a multiple of what an id wraps at.
  apply UInt24.ext
  simp only [UInt24.toNat_truncate, UInt24.size, UInt32.toNat_add, UInt32.toNat_one]
  omega

theorem search_eq_none {n : Nat} {counter : UInt32} :
    (r.search n counter).1 = none ↔ ∀ k < n, ¬ r.Free (UInt24.truncate (counter.toNat + k)) := by
  induction n generalizing counter with
  | zero => simp [search]
  | succ n ih =>
    simp only [search, Nat.forall_lt_succ_left, ← truncate_succ_add, Nat.add_zero]
    by_cases taken : UInt24.truncate counter.toNat = 0 ∨ r.has (UInt24.truncate counter.toNat) = true
    · rw [if_pos taken, ih]
      have first : ¬ r.Free (UInt24.truncate counter.toNat) := by
        simpa [Free, ← or_iff_not_imp_left] using taken
      exact (and_iff_right first).symm
    · rw [if_neg taken]
      have first : r.Free (UInt24.truncate counter.toNat) := by simpa [Free] using taken
      simp [first]

/-- All candidates but one are tried. -/
theorem exists_try_iff : (∃ k < 0xffffff, UInt24.truncate (r.counter.toNat + k) = id) ↔ id ≠ r.untried := by
  have small := id.toNat_lt
  simp only [untried, UInt24.ext_iff, UInt24.toNat_truncate, UInt24.size, ne_eq]
  constructor
  · rintro ⟨k, below, tried⟩
    omega
  · intro other
    refine ⟨(id.toNat + 0x1000000 - r.counter.toNat % 0x1000000) % 0x1000000, ?_, ?_⟩
    · omega
    · omega

theorem search_counter_eq_none :
    (r.search 0xffffff r.counter).1 = none ↔ ∀ id, r.Free id → id = r.untried := by
  rw [search_eq_none]
  constructor
  · intro tried id free
    by_contra other
    obtain ⟨k, below, rfl⟩ := exists_try_iff.mpr other
    exact tried k below free
  · intro only k below free
    exact exists_try_iff.mp ⟨k, below, rfl⟩ (only _ free)

theorem allocate_of_full (full : r.limit ≤ r.size) : r.allocate.1 = .error .serverFull := by
  rw [allocate, if_pos full]

theorem allocate_of_untried (room : r.size < r.limit) (only : ∀ id, r.Free id → id = r.untried) :
    r.allocate.1 = .error .idSpaceExhausted := by
  have none_found := search_counter_eq_none.mpr only
  rw [allocate, if_neg (Nat.not_le.mpr room)]
  split
  · next found =>
    rw [found] at none_found
    cases none_found
  · rfl

theorem allocate_of_tried (room : r.size < r.limit) (free : r.Free id) (other : id ≠ r.untried) :
    ∃ id, r.allocate.1 = .ok id ∧ r.Free id := by
  have some_found : (r.search 0xffffff r.counter).1 ≠ none :=
    fun none_found => other (search_counter_eq_none.mp none_found id free)
  rw [allocate, if_neg (Nat.not_le.mpr room)]
  split
  · next id counter found => exact ⟨id, rfl, search_ok found⟩
  · next none_found =>
    rw [none_found] at some_found
    exact absurd rfl some_found

theorem not_complete (room : r.size < r.limit) (free : r.Free r.untried) (only : ∀ id, r.Free id → id = r.untried) :
    ¬ r.Complete := by
  intro complete
  obtain ⟨id, found, -⟩ := complete.found room ⟨_, free⟩
  rw [allocate_of_untried room only] at found
  cases found

/-- An allocation answers as it should unless there is a place and the only id for it is the one that it does not
try. -/
theorem complete_iff :
    r.Complete ↔ ¬ (r.size < r.limit ∧ r.Free r.untried ∧ ∀ id, r.Free id → id = r.untried) := by
  constructor
  · rintro complete ⟨room, free, only⟩
    exact not_complete room free only complete
  · intro spared
    have found (room : r.size < r.limit) (some_free : ∃ id, r.Free id) : ∃ id, r.allocate.1 = .ok id ∧ r.Free id := by
      obtain ⟨id, free⟩ := some_free
      by_cases other : ∃ id, r.Free id ∧ id ≠ r.untried
      · obtain ⟨id, free, other⟩ := other
        exact allocate_of_tried room free other
      · have only : ∀ id, r.Free id → id = r.untried := by simpa using other
        exact absurd ⟨room, only id free ▸ free, only⟩ spared
    refine ⟨found, fun hopeless => ?_, fun exhausted id free => ?_⟩
    · by_cases room : r.size < r.limit
      · exact ⟨_, allocate_of_untried room fun id free => absurd ⟨room, id, free⟩ hopeless⟩
      · exact ⟨_, allocate_of_full (Nat.not_lt.mp room)⟩
    · by_cases room : r.size < r.limit
      · obtain ⟨other, given, -⟩ := found room ⟨id, free⟩
        rw [given] at exhausted
        cases exhausted
      · rw [allocate_of_full (Nat.not_lt.mp room)] at exhausted
        simp [Fault.serverFull, Fault.idSpaceExhausted] at exhausted

/-! ### A server that was full -/

theorem has_of_size_eq_capacity (named : r.has 0 = false) (full : r.size = capacity) (nonzero : id ≠ 0) :
    r.has id = true := by
  by_contra free
  rw [Bool.not_eq_true] at free
  -- Otherwise there would be an id for one connection more.
  have more : (r.insert (Lobby.fresh id)).size = r.size + 1 := size_insert_of_not_has free
  have still : (r.insert (Lobby.fresh id)).has 0 = false := by
    apply Bool.eq_false_iff.mpr
    intro zero
    rcases has_insert zero with own | old
    · exact nonzero own.symm
    · rw [named] at old
      cases old
  have fits := size_le_capacity still
  omega

theorem free_erase_iff {other : UInt24} (named : r.has 0 = false) (full : r.size = capacity) (nonzero : id ≠ 0) :
    (r.erase id).Free other ↔ other = id := by
  rw [Free, ← Bool.not_eq_true, has_erase_iff]
  constructor
  · rintro ⟨nonzero, gone⟩
    by_contra apart
    exact gone ⟨apart, has_of_size_eq_capacity named full nonzero⟩
  · rintro rfl
    exact ⟨nonzero, fun ⟨apart, _⟩ => apart rfl⟩

/-- Every id has been given out in turn, and the last one has become free again. The counter has come round to zero,
and the search for an id ends just before the free one. -/
theorem last_id_untried :
    ∃ events, ∃ l : Lobby Unit, Run (Lobby.Step 1) (.opening capacity) events l ∧
      l.registry.size < l.registry.limit ∧ l.registry.Free 0xffffff ∧
      l.registry.allocate.1 = .error .idSpaceExhausted ∧ ¬ l.registry.Complete := by
  have filling : Lobby.Reaches Unit capacity 1 capacity 0 :=
    Lobby.reaches_in_turn Nat.zero_lt_one (Nat.le_refl capacity) (Nat.le_refl capacity)
  obtain ⟨events, l, run, filled⟩ := filling
  have named := (Lobby.bounded_of_run run).live
  have nonzero : (0xffffff : UInt24) ≠ 0 := by decide
  have left : (l.registry.erase 0xffffff).untried = 0xffffff := by
    have counter : (l.registry.erase 0xffffff).counter = UInt32.ofNat (capacity + 1) := filled.counter
    rw [untried, counter]
    rfl
  have room : (l.registry.erase 0xffffff).size < (l.registry.erase 0xffffff).limit := by
    have limit : (l.registry.erase 0xffffff).limit = capacity := filled.limit_eq
    rw [limit, ← filled.size_eq]
    exact size_erase_lt (has_of_size_eq_capacity named filled.size_eq nonzero)
  have free : (l.registry.erase 0xffffff).Free 0xffffff := (free_erase_iff named filled.size_eq nonzero).mpr rfl
  have only (id : UInt24) (other : (l.registry.erase 0xffffff).Free id) : id = (l.registry.erase 0xffffff).untried := by
    rw [left]
    exact (free_erase_iff named filled.size_eq nonzero).mp other
  exact ⟨_, _, run.snoc (.leave 0xffffff), room, free, allocate_of_untried room only,
    not_complete room (left.symm ▸ free) only⟩

end Registry

end PeerLink
