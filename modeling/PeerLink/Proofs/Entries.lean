/-! Lists of entries in which no key stands twice. -/
namespace PeerLink

variable {α β : Type} [BEq α] [LawfulBEq α] {entries : List (α × β)} {key : α} {value : β}

theorem lookup_eq_some (distinct : (entries.map Prod.fst).Nodup) :
    entries.lookup key = some value ↔ (key, value) ∈ entries := by
  constructor
  · intro found
    obtain ⟨before, behind, split, -⟩ := List.lookup_eq_some_iff.mp found
    rw [split]
    simp
  · intro present
    obtain ⟨before, behind, split⟩ := List.append_of_mem present
    refine List.lookup_eq_some_iff.mpr ⟨before, behind, split, ?_⟩
    intro entry earlier
    rw [split, List.map_append, List.nodup_append] at distinct
    have apart := distinct.2.2 entry.1 (List.mem_map_of_mem earlier) key (by simp)
    simpa using apart.symm

theorem filter_key {α β : Type} [DecidableEq α] {entries : List (α × β)} {key : α} {value : β}
    (distinct : (entries.map Prod.fst).Nodup) (present : (key, value) ∈ entries) :
    entries.filter (fun entry => entry.1 = key) = [(key, value)] := by
  obtain ⟨before, behind, split⟩ := List.append_of_mem present
  rw [split, List.map_append, List.map_cons, List.nodup_append, List.nodup_cons] at distinct
  obtain ⟨-, ⟨not_behind, -⟩, apart⟩ := distinct
  have before_nil : before.filter (fun entry => entry.1 = key) = [] := by
    rw [List.filter_eq_nil_iff]
    intro entry inside same
    exact apart entry.1 (List.mem_map_of_mem inside) key List.mem_cons_self (of_decide_eq_true same)
  have behind_nil : behind.filter (fun entry => entry.1 = key) = [] := by
    rw [List.filter_eq_nil_iff]
    intro entry inside same
    exact not_behind (List.mem_map.mpr ⟨entry, inside, of_decide_eq_true same⟩)
  rw [split, List.filter_append, before_nil, List.filter_cons_of_pos (by simp), behind_nil, List.nil_append]

end PeerLink
