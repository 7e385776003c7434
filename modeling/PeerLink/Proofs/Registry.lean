import Mathlib.Data.Finset.Card
import Mathlib.Order.Interval.Finset.Nat
import PeerLink.Proofs.Connection
import PeerLink.Proofs.Entries
import PeerLink.Registry

/-!
The registry seen by id: what entering, erasing and changing connections does to the connection under each id,
and to how many there are. An id that is allocated is free and not zero.
-/
namespace PeerLink.Registry

variable {κ : Type} {r : Registry κ} {c : Connection κ} {id : UInt24}

/-- Ids are distinct, so what is found is what is there. -/
theorem get?_eq_some : r.get? id = some c ↔ (id, c) ∈ r.live := lookup_eq_some r.distinct

theorem get?_insert_self : (r.insert c).get? c.id = some c :=
  get?_eq_some.mpr List.mem_cons_self

theorem get?_erase_of_ne {other : UInt24} (ne : other ≠ id) : (r.erase id).get? other = r.get? other := by
  apply Option.ext
  intro found
  rw [get?_eq_some, get?_eq_some, erase, List.mem_filter]
  simp [ne]

theorem get?_erase_self : (r.erase id).get? id = none := by
  rw [Option.eq_none_iff_forall_ne_some]
  intro found present
  rw [get?_eq_some, erase, List.mem_filter] at present
  simp at present

theorem get?_insert_of_ne (ne : id ≠ c.id) : (r.insert c).get? id = r.get? id := by
  rw [← get?_erase_of_ne (r := r) ne, get?, insert, List.lookup_cons]
  have apart : (id == c.id) = false := by simpa using ne
  rw [apart]
  rfl

theorem get?_map (f : UInt24 → Connection κ → Connection κ) : (r.map f).get? id = (r.get? id).map (f id) := by
  apply Option.ext
  intro found
  rw [get?_eq_some, Option.map_eq_some_iff, Registry.map, List.mem_map]
  constructor
  · rintro ⟨⟨_, c⟩, live, ⟨rfl, rfl⟩⟩
    exact ⟨c, get?_eq_some.mpr live, rfl⟩
  · rintro ⟨c, live, rfl⟩
    exact ⟨(id, c), get?_eq_some.mp live, rfl⟩

/-- What a change has made of a connection is gone with it. -/
theorem erase_map {f : UInt24 → Connection κ → Connection κ} (others : ∀ other ≠ id, ∀ c, f other c = c) :
    (r.map f).erase id = r.erase id := by
  have live : (r.live.map fun entry => (entry.1, f entry.1 entry.2)).filter (·.1 != id) =
      r.live.filter (·.1 != id) := by
    rw [List.filter_map]
    refine (List.map_congr_left ?_).trans (List.map_id _)
    rintro ⟨other, c⟩ kept
    have apart : other ≠ id := by simpa using (List.mem_filter.mp kept).2
    exact Prod.ext rfl (others other apart c)
  change mk _ _ _ _ = mk _ _ _ _
  rw [mk.injEq]
  exact ⟨live, rfl, rfl⟩

theorem pending_eq_zero : r.pending = 0 ↔ ∀ id c, r.get? id = some c → c.pending = 0 := by
  have sum (entries : List (UInt24 × Connection κ)) (n : Nat) :
      entries.foldl (fun n entry => n + entry.2.pending.toNat) n = 0 ↔
        n = 0 ∧ ∀ entry ∈ entries, entry.2.pending = 0 := by
    induction entries generalizing n with
    | nil => simp
    | cons entry entries ih =>
      rw [List.foldl_cons, ih, Nat.add_eq_zero_iff, and_assoc, List.forall_mem_cons]
      simp [← UInt64.toNat_inj]
  refine (sum r.live 0).trans ?_
  simp only [get?_eq_some, true_and, Prod.forall]

/-! ### Connections under their own ids -/

/-- Every connection stands under its own id. -/
def Keyed (r : Registry κ) : Prop := ∀ id c, r.get? id = some c → c.id = id

theorem keyed_new (limit : Nat) : (new limit : Registry κ).Keyed := by
  intro id c found
  cases found

theorem Keyed.erase (keyed : r.Keyed) (id : UInt24) : (r.erase id).Keyed := by
  intro other c found
  rw [get?_eq_some, Registry.erase, List.mem_filter] at found
  exact keyed other c (get?_eq_some.mpr found.1)

theorem Keyed.insert (keyed : r.Keyed) (c : Connection κ) : (r.insert c).Keyed := by
  intro id found present
  by_cases own : id = c.id
  · subst own
    rw [get?_insert_self] at present
    cases present
    rfl
  · rw [get?_insert_of_ne own] at present
    exact keyed id found present

theorem Keyed.map (keyed : r.Keyed) {f : UInt24 → Connection κ → Connection κ}
    (same : ∀ id c, (f id c).id = c.id) : (r.map f).Keyed := by
  intro id found present
  rw [get?_map] at present
  obtain ⟨c, live, rfl⟩ := Option.map_eq_some_iff.mp present
  rw [same]
  exact keyed id c live

/-- Looking for an id moves the counter and nothing else. -/
theorem Keyed.allocate (keyed : r.Keyed) : r.allocate.2.Keyed := by
  unfold Registry.allocate
  split
  · exact keyed
  · split
    · exact keyed
    · exact keyed

theorem Keyed.queueFor (keyed : r.Keyed) (wanted : UInt24 → Connection κ → Bool) (frame : Bytes) :
    (r.queueFor wanted frame).2.Keyed := by
  apply keyed.map
  intro id c
  dsimp only
  split
  · cases sent : c.sendFrame frame with
    | error fault => rfl
    | ok c' =>
      obtain ⟨-, rfl⟩ := Connection.sendFrame_ok sent
      rfl
  · rfl

theorem Keyed.relay (keyed : r.Keyed) (m : Message) (sender : Connection κ) : (r.relay m sender).2.Keyed := by
  unfold Registry.relay
  split
  · exact keyed.queueFor _ _
  · exact keyed

/-! ### Size and free ids -/

/-- How many connections there are ids for. -/
abbrev capacity : Nat := UInt24.size - 1

theorem has_iff : r.has id = true ↔ id ∈ r.live.map Prod.fst := by
  simp [has, List.any_eq_true]

theorem size_erase_le : (r.erase id).size ≤ r.size := List.length_filter_le ..

theorem erase_of_not_has (free : r.has id = false) : (r.erase id).live = r.live := by
  apply List.filter_eq_self.mpr
  intro entry present
  have apart : entry.1 ≠ id := by
    rintro rfl
    rw [has_iff.mpr (List.mem_map_of_mem present)] at free
    cases free
  simpa using apart

theorem size_insert_le : (r.insert c).size ≤ r.size + 1 := Nat.succ_le_succ size_erase_le

theorem size_insert_of_not_has (free : r.has c.id = false) : (r.insert c).size = r.size + 1 := by
  change (r.erase c.id).live.length + 1 = r.live.length + 1
  rw [erase_of_not_has free]

theorem has_insert (h : (r.insert c).has id = true) : id = c.id ∨ r.has id = true := by
  rw [has_iff, insert, List.map_cons, List.mem_cons] at h
  rcases h with rfl | h
  · exact .inl rfl
  · obtain ⟨entry, present, rfl⟩ := List.mem_map.mp h
    exact .inr (has_iff.mpr (List.mem_map_of_mem (List.mem_filter.mp present).1))

theorem has_erase_iff {other : UInt24} : (r.erase other).has id = true ↔ id ≠ other ∧ r.has id = true := by
  have kept : (r.erase other).live.map Prod.fst = (r.live.map Prod.fst).filter (· != other) := by
    rw [List.filter_map]
    rfl
  rw [has_iff, has_iff, kept, List.mem_filter, bne_iff_ne, and_comm]

theorem has_erase {other : UInt24} (h : (r.erase other).has id = true) : r.has id = true := (has_erase_iff.mp h).2

theorem size_erase_lt (present : r.has id = true) : (r.erase id).size < r.size := by
  obtain ⟨entry, live, rfl⟩ := List.mem_map.mp (has_iff.mp present)
  apply List.length_filter_lt_length_iff_exists.mpr
  exact ⟨entry, live, by simp⟩

/-- An id that is given is free, and never zero. -/
theorem search_ok {n : Nat} {counter counter' : UInt32} (h : r.search n counter = (some id, counter')) :
    id ≠ 0 ∧ r.has id = false := by
  induction n generalizing counter with
  | zero => cases h
  | succ n ih =>
    rw [search] at h
    split at h
    · exact ih h
    · next free =>
      cases h
      rw [not_or, Bool.not_eq_true] at free
      exact free

/-- All that an allocation does to a registry, and all that it promises of an id. -/
theorem allocate_cases : ∃ counter, r.allocate.2 = { r with counter } ∧
    ∀ id, r.allocate.1 = .ok id → r.size < r.limit ∧ id ≠ 0 ∧ r.has id = false := by
  unfold allocate
  split
  · exact ⟨r.counter, rfl, nofun⟩
  · next room =>
    split
    · next id counter found =>
      refine ⟨counter, rfl, ?_⟩
      rintro _ ⟨rfl⟩
      exact ⟨Nat.not_le.mp room, search_ok found⟩
    · exact ⟨_, rfl, nofun⟩

/-- The candidate of the counter is given if it is free. -/
theorem allocate_of_free (room : r.size < r.limit) (named : UInt24.truncate r.counter.toNat ≠ 0)
    (free : r.has (UInt24.truncate r.counter.toNat) = false) :
    r.allocate = (.ok (UInt24.truncate r.counter.toNat), { r with counter := r.counter + 1 }) := by
  have found : r.search 0xffffff r.counter =
      (some (UInt24.truncate r.counter.toNat), r.counter + 1) := by
    rw [search, if_neg]
    simp [named, free]
  simp only [allocate, if_neg (Nat.not_le.mpr room), found]

/-- Ids other than zero are all that a registry can hold. -/
theorem size_le_capacity (named : r.has 0 = false) : r.size ≤ capacity := by
  have distinct : ((r.live.map Prod.fst).map UInt24.toNat).Nodup :=
    r.distinct.map (fun _ _ => UInt24.ext)
  have inside : ((r.live.map Prod.fst).map UInt24.toNat).toFinset ⊆ Finset.Icc 1 capacity := by
    intro n present
    obtain ⟨id, live, rfl⟩ := List.mem_map.mp (List.mem_toFinset.mp present)
    have below : id.toNat < UInt24.size := id.toNat_lt
    have positive : id.toNat ≠ 0 := by
      intro zero
      obtain rfl : id = 0 := UInt24.ext zero
      rw [has_iff.mpr live] at named
      cases named
    exact Finset.mem_Icc.mpr ⟨Nat.pos_of_ne_zero positive, Nat.le_sub_one_of_lt below⟩
  have count := Finset.card_le_card inside
  rwa [List.toFinset_card_of_nodup distinct, List.length_map, List.length_map, Nat.card_Icc] at count

end PeerLink.Registry
