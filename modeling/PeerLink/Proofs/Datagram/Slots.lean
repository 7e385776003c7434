import Mathlib.Data.List.Perm.Basic
import PeerLink.Datagram.Slots

/-!
The map of the newest datagrams and the order of their heads stay in step: no head has two turns, and a head has a
turn exactly while a datagram waits for it. Seen through `toList`, adding a datagram and taking the next one are then
operations on a list.
-/
namespace PeerLink

/-- Datagrams in the order in which they are sent. -/
abbrev DatagramList := List (UInt16 × Bytes)

namespace DatagramList

/-- The datagram takes the place of the one with the same head, or else the last place. -/
def push (l : DatagramList) (head : UInt16) (frame : Bytes) : Bool × DatagramList :=
  if head ∈ l.map Prod.fst then (true, l.map fun entry => if entry.1 = head then (head, frame) else entry)
  else (false, l ++ [(head, frame)])

def pop? : DatagramList → Option ((UInt16 × Bytes) × DatagramList)
  | [] => none
  | entry :: l => some (entry, l)

end DatagramList

namespace DatagramSlots

/-- Every head that has a turn has one turn and one datagram, and no other datagram waits. -/
structure InStep (s : DatagramSlots) : Prop where
  distinct : s.order.Nodup
  waits : ∀ head, head ∈ s.order ↔ head ∈ s.newest

variable {s s' : DatagramSlots} {head : UInt16} {frame : Bytes} {entry : UInt16 × Bytes}

theorem inStep_empty : InStep ∅ where
  distinct := List.nodup_nil
  waits head := by
    change head ∈ [] ↔ head ∈ (∅ : Std.HashMap UInt16 Bytes)
    simp

namespace InStep

theorem exists_frame (h : s.InStep) (turn : head ∈ s.order) : ∃ frame, s.newest[head]? = some frame := by
  have waits := Std.HashMap.mem_iff_isSome_getElem?.mp ((h.waits head).mp turn)
  exact Option.isSome_iff_exists.mp waits

theorem heads_toList (h : s.InStep) : s.toList.map Prod.fst = s.order := by
  rw [toList, List.map_filterMap]
  have same : ∀ head ∈ s.order, ((s.newest[head]?).map (head, ·)).map Prod.fst = some head := by
    intro head turn
    obtain ⟨frame, found⟩ := h.exists_frame turn
    rw [found]
    rfl
  rw [List.filterMap_congr same, List.filterMap_some]

theorem size_eq (h : s.InStep) : s.size = s.order.length := by
  have perm : s.newest.keys.Perm s.order := by
    rw [List.perm_ext_iff_of_nodup Std.HashMap.nodup_keys h.distinct]
    intro head
    rw [Std.HashMap.mem_keys, h.waits]
  rw [size, ← Std.HashMap.length_keys, perm.length_eq]

theorem size_toList (h : s.InStep) : s.toList.length = s.size := by
  rw [h.size_eq, ← h.heads_toList, List.length_map]

theorem toList_eq_nil (h : s.InStep) : s.toList = [] ↔ s.order = [] := by
  rw [← h.heads_toList, List.map_eq_nil_iff]

/-! ### Adding -/

theorem push_of_mem (h : s.InStep) (turn : head ∈ s.order) (frame : Bytes) :
    s.push head frame = (true, ⟨s.newest.insert head frame, s.order⟩) :=
  if_pos (Std.HashMap.contains_iff_mem.mpr ((h.waits head).mp turn))

theorem push_of_not_mem (h : s.InStep) (vacant : head ∉ s.order) (frame : Bytes) :
    s.push head frame = (false, ⟨s.newest.insert head frame, s.order ++ [head]⟩) := by
  refine if_neg ?_
  rwa [Std.HashMap.contains_iff_mem, ← h.waits]

theorem push (h : s.InStep) (head : UInt16) (frame : Bytes) : (s.push head frame).2.InStep := by
  by_cases turn : head ∈ s.order
  · rw [h.push_of_mem turn]
    refine ⟨h.distinct, fun other => ?_⟩
    rw [Std.HashMap.mem_insert, beq_iff_eq, ← h.waits other]
    constructor
    · exact .inr
    · rintro (rfl | waits)
      · exact turn
      · exact waits
  · rw [h.push_of_not_mem turn]
    refine ⟨?_, fun other => ?_⟩
    · exact (List.perm_append_singleton head s.order).nodup_iff.mpr (List.nodup_cons.mpr ⟨turn, h.distinct⟩)
    · rw [List.mem_append, List.mem_singleton, Std.HashMap.mem_insert, beq_iff_eq, h.waits other, or_comm, eq_comm]

/-- Adding a datagram is adding it to the list. -/
theorem toList_push (h : s.InStep) (head : UInt16) (frame : Bytes) :
    DatagramList.push s.toList head frame = ((s.push head frame).1, (s.push head frame).2.toList) := by
  rw [DatagramList.push, h.heads_toList]
  by_cases turn : head ∈ s.order
  · rw [if_pos turn, h.push_of_mem turn]
    refine Prod.ext rfl ?_
    simp only [toList, List.map_filterMap]
    refine List.filterMap_congr fun other before => ?_
    obtain ⟨old, found⟩ := h.exists_frame before
    by_cases same : other = head
    · rw [same] at found
      simp [same, found]
    · simp [same, found, Std.HashMap.getElem?_insert, Ne.symm same]
  · rw [if_neg turn, h.push_of_not_mem turn]
    refine Prod.ext rfl ?_
    have untouched : ∀ other ∈ s.order, (s.newest.insert head frame)[other]? = s.newest[other]? := by
      intro other before
      have apart : head ≠ other := fun same => turn (same ▸ before)
      simp [Std.HashMap.getElem?_insert, apart]
    simp only [toList, List.filterMap_append]
    congr 1
    · exact List.filterMap_congr fun other before => by rw [untouched other before]
    · simp

/-! ### Taking -/

/-- The next head has a datagram, so no turn is skipped. -/
theorem pop?_cons (h : s.InStep) {order : List UInt16} (turns : s.order = head :: order) :
    ∃ frame, s.newest[head]? = some frame ∧ s.pop? = some ((head, frame), ⟨s.newest.erase head, order⟩) := by
  obtain ⟨frame, found⟩ := h.exists_frame (turns ▸ List.mem_cons_self)
  refine ⟨frame, found, ?_⟩
  rw [pop?, turns, popFrom, found]

theorem pop?_nil (empty : s.order = []) : s.pop? = none := by
  rw [pop?, empty, popFrom]

theorem pop? (h : s.InStep) (taken : s.pop? = some (entry, s')) : s'.InStep := by
  cases turns : s.order with
  | nil =>
    rw [pop?_nil turns] at taken
    cases taken
  | cons head order =>
    obtain ⟨frame, found, popped⟩ := h.pop?_cons turns
    rw [popped] at taken
    cases taken
    have distinct := h.distinct
    rw [turns, List.nodup_cons] at distinct
    refine ⟨distinct.2, fun other => ?_⟩
    rw [Std.HashMap.mem_erase, ← h.waits, turns, List.mem_cons, beq_eq_false_iff_ne]
    constructor
    · intro later
      exact ⟨fun same => distinct.1 (same ▸ later), .inr later⟩
    · rintro ⟨apart, rfl | later⟩
      · exact absurd rfl apart
      · exact later

/-- Taking the next datagram is taking it from the list. -/
theorem toList_pop? (h : s.InStep) :
    DatagramList.pop? s.toList = s.pop?.map fun (entry, s) => (entry, s.toList) := by
  cases turns : s.order with
  | nil => rw [pop?_nil turns, h.toList_eq_nil.mpr turns, DatagramList.pop?, Option.map_none]
  | cons head order =>
    obtain ⟨frame, found, popped⟩ := h.pop?_cons turns
    have distinct := h.distinct
    rw [turns, List.nodup_cons] at distinct
    have untouched : ∀ other ∈ order, (s.newest.erase head)[other]? = s.newest[other]? := by
      intro other later
      have apart : head ≠ other := fun same => distinct.1 (same ▸ later)
      simp [Std.HashMap.getElem?_erase, apart]
    have rest : toList ⟨s.newest.erase head, order⟩ = order.filterMap fun head => (s.newest[head]?).map (head, ·) :=
      List.filterMap_congr fun other later => by rw [untouched other later]
    rw [popped, toList, turns, List.filterMap_cons, found, ← rest]
    rfl

theorem pop?_eq_none (h : s.InStep) : s.pop? = none ↔ s.toList = [] := by
  rw [← Option.map_eq_none_iff, ← h.toList_pop?]
  cases s.toList with
  | nil => simp [DatagramList.pop?]
  | cons entry l => simp [DatagramList.pop?]

theorem pop?_eq_some (h : s.InStep) (taken : s.pop? = some (entry, s')) : s.toList = entry :: s'.toList := by
  have square := h.toList_pop?
  rw [taken, Option.map_some] at square
  cases waiting : s.toList with
  | nil =>
    rw [waiting] at square
    cases square
  | cons first l =>
    rw [waiting] at square
    cases square
    rfl

theorem length_pop? (h : s.InStep) (taken : s.pop? = some (entry, s')) : s.order.length = s'.order.length + 1 := by
  rw [← h.heads_toList, ← (h.pop? taken).heads_toList, h.pop?_eq_some taken, List.map_cons, List.length_cons]

end InStep

end DatagramSlots

end PeerLink
