import PeerLink.Message
import PeerLink.Role

/-!
Requests that wait for an answer. A request carries the number of a slot in its type, the answer
comes back with the same type, and the callback kept in the slot runs on it. Nothing else tells an
answer from a request, so each end numbers its own requests from its own half of the slots: a message
with a slot of the own half is an answer, one with a slot of the other half is a request.

A free slot is looked for with a counter of 32 bits that wraps around.
-/
namespace PeerLink

/-- Slots that a type has room for. -/
abbrev slotCount : Nat := UInt24.size - replyBase

namespace Role

def firstSlot : Role → Nat
  | client => 0
  | server => slotCount / 2

def span : Role → Nat
  | client => slotCount / 2
  | server => slotCount - slotCount / 2

def owns (r : Role) (slot : Nat) : Bool :=
  r.firstSlot ≤ slot ∧ slot < r.firstSlot + r.span

/-- The slot that a counter stands for. -/
def slot (r : Role) (counter : UInt32) : Nat := r.firstSlot + counter.toNat % r.span

theorem span_pos (r : Role) : 0 < r.span := by cases r <;> decide

/-- However often the counter wraps, it stays in the half of its end. -/
theorem owns_slot (r : Role) (counter : UInt32) : r.owns (r.slot counter) = true :=
  decide_eq_true ⟨Nat.le_add_right .., Nat.add_lt_add_left (Nat.mod_lt _ r.span_pos) _⟩

end Role

/-- The callbacks of one end by slot. -/
structure ReplyTable (κ : Type) where
  role : Role
  /-- The counter that the next search starts from. -/
  counter : UInt32
  pending : List (Nat × κ)
  distinct : (pending.map Prod.fst).Nodup

namespace ReplyTable

variable {κ : Type}

def new (role : Role) : ReplyTable κ := ⟨role, 0, [], by simp⟩

instance : Inhabited (ReplyTable κ) := ⟨new .client⟩

def size (t : ReplyTable κ) : Nat := t.pending.length

def isEmpty (t : ReplyTable κ) : Bool := t.pending.isEmpty

def isPending (t : ReplyTable κ) (slot : Nat) : Bool := t.pending.any (·.1 == slot)

theorem isPending_eq_false {t : ReplyTable κ} {slot : Nat} :
    t.isPending slot = false ↔ slot ∉ t.pending.map Prod.fst := by
  simp only [isPending, List.any_eq_false, List.mem_map]
  constructor
  · rintro h ⟨e, he, rfl⟩
    exact h e he (by simp)
  · intro h e he hs
    exact h ⟨e, he, by simpa using hs⟩

/-- The first free slot from a counter on, and the counter behind it. The number bounds the slots that
are tried. -/
def probe (t : ReplyTable κ) : Nat → UInt32 → Option (Nat × UInt32)
  | 0, _ => none
  | n + 1, counter =>
    if t.isPending (t.role.slot counter) then t.probe n (counter + 1)
    else some (t.role.slot counter, counter + 1)

/-- What a search finds is free. -/
theorem isPending_probe {t : ReplyTable κ} {n : Nat} {counter behind : UInt32} {slot : Nat}
    (h : t.probe n counter = some (slot, behind)) : t.isPending slot = false := by
  induction n generalizing counter with
  | zero => cases h
  | succ n ih =>
    rw [probe] at h
    split at h
    · exact ih h
    · next hf =>
      cases h
      simpa using hf

/-- Slots that a search tries at most. The counter may wrap on the way, where the slots that follow each
other do not, so one round through the half is not enough. -/
def probes (r : Role) : Nat := 2 * r.span - 1

/-- Keeps a callback in a free slot. There is none only if all slots of the half are taken. -/
def register? (t : ReplyTable κ) (callback : κ) : Option (Nat × ReplyTable κ) :=
  match h : t.probe (probes t.role) t.counter with
  | none => none
  | some (slot, counter) => some (slot, ⟨t.role, counter, (slot, callback) :: t.pending, by
      rw [List.map_cons, List.nodup_cons]
      exact ⟨isPending_eq_false.mp (isPending_probe h), t.distinct⟩⟩)

def erase (t : ReplyTable κ) (slot : Nat) : ReplyTable κ :=
  { t with
    pending := t.pending.filter (·.1 != slot)
    distinct := t.distinct.sublist (List.filter_sublist.map _) }

/-- Takes the callback out that waits for a message. -/
def resolve? (t : ReplyTable κ) (answer : Message) : Option (κ × ReplyTable κ) :=
  match answer.replySlot with
  | none => none
  | some slot => (t.pending.lookup slot).map (·, t.erase slot)

/-- Forgets a slot, and tells whether a request waited in it. -/
def cancel (t : ReplyTable κ) (slot : Nat) : Bool × ReplyTable κ := (t.isPending slot, t.erase slot)

/-- Forgets all slots. The counter goes on from where it is. -/
def clear (t : ReplyTable κ) : ReplyTable κ := { t with pending := [], distinct := by simp }

def describe (t : ReplyTable κ) : String := s!"ReplyTable \x7b pending: {t.size} \x7d"

end ReplyTable

end PeerLink
