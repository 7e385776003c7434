import PeerLink.Message

/-! The reply slot that a type carries, and how it gets there. -/
namespace PeerLink

theorem MessageKind.ofType_eq_reply {type : UInt24} {slot : Nat} :
    ofType type = .reply slot ↔ type.toNat = replyBase + slot := by
  have base : replyBase = 10 := rfl
  unfold ofType
  split
  · simp only [reduceCtorEq, false_iff]
    omega
  · simp only [reduceCtorEq, false_iff]
    omega
  · simp only [reduceCtorEq, false_iff]
    omega
  · split
    · simp only [MessageKind.reply.injEq]
      omega
    · simp only [reduceCtorEq, false_iff]
      omega

namespace Message

theorem type_setType (m : Message) (type : UInt24) : (m.setType type).type = type := by
  unfold setType
  split
  · assumption
  · rfl

/-- The slot in a type is what the type is above ten. -/
theorem replySlot_eq_some {m : Message} {slot : Nat} :
    m.replySlot = some slot ↔ m.type.toNat = replyBase + slot := by
  rw [← MessageKind.ofType_eq_reply, replySlot, kind]
  split
  · next found => rw [found, Option.some.injEq, MessageKind.reply.injEq]
  · next other =>
    simp only [reduceCtorEq, false_iff]
    exact other slot

theorem kind_of_replySlot {m : Message} {slot : Nat} (carried : m.replySlot = some slot) :
    m.kind = .reply slot :=
  MessageKind.ofType_eq_reply.mpr (replySlot_eq_some.mp carried)

theorem setReplySlot_eq (m : Message) {slot : Nat} (fits : slot + replyBase < UInt24.size) :
    m.setReplySlot slot = .ok (m.setType ⟨slot + replyBase, fits⟩) := by
  have narrow : ¬0xffffffff < slot + replyBase := by
    have size : UInt24.size = 16777216 := rfl
    omega
  rw [setReplySlot, if_neg narrow, UInt24.check, UInt24.ofNat?, dif_pos fits]
  rfl

/-- Nothing but the type, and with it the kept frame, changes. -/
theorem setReplySlot_ok {m m' : Message} {slot : Nat} (h : m.setReplySlot slot = .ok m') :
    m.setType m'.type = m' := by
  unfold setReplySlot at h
  split at h
  · cases h
  · cases checked : UInt24.check (slot + replyBase) with
    | error fault =>
      rw [checked] at h
      cases h
    | ok type =>
      rw [checked] at h
      cases h
      rw [type_setType]

end Message

end PeerLink
