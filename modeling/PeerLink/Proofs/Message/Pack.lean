import Mathlib.Data.List.Induction
import PeerLink.Message.Pack
import PeerLink.Proofs.Message

/-!
The form of a pack: entries one behind another. An entry delimits itself, so reading goes from one to the next,
whatever stands behind the last of them, and ends where no entry begins. Packing stops at the first message that has
another head or for which there is no room.
-/
namespace PeerLink.Message

variable {m packed packed' : Message} {ms before behind : List Message} {bs rest body : Bytes} {client : UInt24}
  {head : UInt16} {fault : Fault}

/-! ### One entry -/

/-- The entry of a client and a body. -/
def spell (client : UInt24) (body : Bytes) : Bytes :=
  (UInt24.truncate (entryPrefix + body.length)).toBytes ++ client.toBytes ++ body

/-- The length of the entry can be told. -/
def Enterable (body : Bytes) : Prop := entryPrefix + body.length < UInt24.size

theorem length_spell : (spell client body).length = entryPrefix + body.length := by
  simp only [spell, List.length_append, UInt24.length_toBytes]
  rfl

theorem entry_eq (short : Enterable m.body) : m.entry = .ok (spell m.client m.body) := by
  have checked := UInt24.check_toNat (UInt24.truncate (entryPrefix + m.body.length))
  rw [UInt24.toNat_truncate, Nat.mod_eq_of_lt short] at checked
  rw [entry, checked]
  rfl

theorem enterable_of_entry (h : m.entry = .ok bs) : Enterable m.body := by
  apply Nat.lt_of_not_le
  intro long
  rw [entry, UInt24.check, UInt24.ofNat?_eq_none_iff.mpr long] at h
  cases h

theorem readEntry?_spell_append (short : Enterable body) :
    readEntry? (spell client body ++ rest) = some (client, body, rest) := by
  have field (a : UInt24) (behind : Bytes) : Bytes.split? UInt24.width (a.toBytes ++ behind) = some (a.toBytes, behind) :=
    Bytes.split?_append a.toBytes behind
  have told : (UInt24.truncate (entryPrefix + body.length)).toNat = entryPrefix + body.length :=
    Nat.mod_eq_of_lt short
  have long : ¬ entryPrefix + body.length < entryPrefix := Nat.not_lt.mpr (Nat.le_add_right entryPrefix _)
  simp only [ readEntry?, spell, List.append_assoc, field, Option.bind_eq_bind, Option.bind_some,
    UInt24.ofBytes_toBytes, told, if_neg long, Nat.add_sub_cancel_left, Bytes.split?_append]
  rfl

theorem spell_of_read (h : readEntry? bs = some (client, body, rest)) :
    Enterable body ∧ bs = spell client body ++ rest := by
  obtain ⟨size, told, rfl⟩ := readEntry?_eq_some h
  rw [Enterable, spell, ← told, UInt24.truncate_toNat]
  exact ⟨size.toNat_lt, rfl⟩

theorem toNat_take_toBytes (a : UInt24) (behind : Bytes) :
    Bytes.toNat ((a.toBytes ++ behind).take UInt24.width) = a.toNat := by
  rw [List.take_left' a.length_toBytes, ← UInt24.toNat_ofBytes a.length_toBytes, UInt24.ofBytes_toBytes]

/-- No entry begins where its prefix does not fit, and none where the length that stands there is too small for one or
larger than what is left. -/
theorem readEntry?_eq_none_iff : readEntry? bs = none ↔ bs.length < entryPrefix ∨
    Bytes.toNat (bs.take UInt24.width) < entryPrefix ∨ bs.length < Bytes.toNat (bs.take UInt24.width) := by
  constructor
  · intro none
    rcases sized : Bytes.split? UInt24.width bs with - | ⟨size, behindSize⟩
    · have short := Bytes.split?_eq_none_iff.mp sized
      exact .inl (Nat.lt_of_lt_of_le short (by decide))
    obtain ⟨rfl, width⟩ := Bytes.split?_eq_some sized
    rw [List.take_left' width, List.length_append, width]
    rcases named : Bytes.split? UInt24.width behindSize with - | ⟨client, behindClient⟩
    · have short := Bytes.split?_eq_none_iff.mp named
      exact .inl (Nat.add_lt_add_left short UInt24.width)
    obtain ⟨rfl, width'⟩ := Bytes.split?_eq_some named
    by_cases small : Bytes.toNat size < entryPrefix
    · exact .inr (.inl small)
    · right
      right
      have cut : ∀ body rest, ¬ Bytes.split? (Bytes.toNat size - entryPrefix) behindClient = some (body, rest) := by
        simpa [ readEntry?, sized, named, UInt24.toNat_ofBytes width, small] using none
      have short := Bytes.split?_eq_none_iff.mp (Option.eq_none_iff_forall_ne_some.mpr fun p => cut p.1 p.2)
      have width : entryPrefix = UInt24.width + UInt24.width := rfl
      rw [List.length_append, width']
      omega
  · intro bad
    rcases read : readEntry? bs with - | ⟨client, body, rest⟩
    · rfl
    · obtain ⟨size, told, rfl⟩ := readEntry?_eq_some read
      simp only [List.append_assoc, toNat_take_toBytes, told, List.length_append,
        UInt24.length_toBytes] at bad
      have width : entryPrefix = 3 + 3 := rfl
      omega

/-! ### All entries -/

def spelled (m : Message) : Bytes := spell m.client m.body

def room : List Message → Nat
  | [] => 0
  | m :: ms => entryPrefix + m.body.length + room ms

theorem length_flatMap_spelled : (ms.flatMap spelled).length = room ms := by
  induction ms with
  | nil => rfl
  | cons m ms ih => rw [List.flatMap_cons, List.length_append, ih, spelled, length_spell, room]

theorem room_append : room (before ++ behind) = room before + room behind := by
  rw [← length_flatMap_spelled, List.flatMap_append, List.length_append, length_flatMap_spelled,
    length_flatMap_spelled]

theorem entries_of_none (h : readEntry? bs = none) : entries bs = [] := by
  rw [entries]
  split
  · rfl
  · next read =>
    rw [h] at read
    cases read

theorem entries_of_some (h : readEntry? bs = some (client, body, rest)) :
    entries bs = (client, body) :: entries rest := by
  rw [entries]
  split
  · next read =>
    rw [h] at read
    cases read
  · next read =>
    rw [h] at read
    cases read
    rfl

theorem entries_flatMap_append (short : ∀ m ∈ ms, Enterable m.body) :
    entries (ms.flatMap spelled ++ rest) = ms.map (fun m => (m.client, m.body)) ++ entries rest := by
  induction ms with
  | nil => rfl
  | cons m ms ih =>
    obtain ⟨first, later⟩ := List.forall_mem_cons.mp short
    rw [List.flatMap_cons, List.append_assoc, spelled, entries_of_some (readEntry?_spell_append first), ih later]
    rfl

/-- What is read are entries as they would be written, up to where none begins. -/
theorem exists_rest (bs : Bytes) : ∃ rest, readEntry? rest = none ∧
    bs = ((entries bs).flatMap fun (client, body) => spell client body) ++ rest := by
  fun_induction entries bs with
  | case1 bs none => exact ⟨bs, none, rfl⟩
  | case2 bs client body behind read ih =>
    obtain ⟨rest, none, split⟩ := ih
    refine ⟨rest, none, ?_⟩
    rw [List.flatMap_cons, List.append_assoc, ← split]
    exact (spell_of_read read).2

/-! ### Packing -/

/-- The message with entries of these behind its body. -/
def holding (packed : Message) (ms : List Message) : Message :=
  { packed with body := packed.body ++ ms.flatMap spelled }

theorem size_holding : (packed.holding ms).size = packed.size + room ms := by
  rw [size, holding, List.length_append, length_flatMap_spelled, size, Nat.add_assoc]

theorem holding_cons : packed.holding (m :: ms) = (packed.holding [m]).holding ms := by
  simp [holding]

theorem enterable_of_room (fits : room ms ≤ maxFrameSize) (mem : m ∈ ms) : Enterable m.body := by
  obtain ⟨before, behind, rfl⟩ := List.append_of_mem mem
  rw [room_append, room] at fits
  have small : maxFrameSize < UInt24.size := by decide
  exact Nat.lt_of_le_of_lt (by omega) small

theorem packOnto_of_other_head (other : m.head ≠ packed.head) : packed.packOnto (m :: ms) = .error .mixedHeads := by
  rw [packOnto, if_pos other]

theorem packOnto_cons (same : m.head = packed.head) (short : Enterable m.body) : packed.packOnto (m :: ms) =
    if maxFrameSize < packed.size + room [m] then .error (.oversizedFrame (packed.size + room [m]))
    else (packed.holding [m]).packOnto ms := by
  rw [packOnto, if_neg (not_not_intro same), entry_eq short]
  simp only [length_spell, holding, room, Nat.add_zero, List.flatMap_singleton, spelled]

/-- Packing goes on behind messages that there was room for. -/
theorem packOnto_append (heads : ∀ m ∈ before, m.head = packed.head)
    (fits : packed.size + room before ≤ maxFrameSize) :
    packed.packOnto (before ++ behind) = (packed.holding before).packOnto behind := by
  induction before generalizing packed with
  | nil => simp [holding]
  | cons m before ih =>
    obtain ⟨same, later⟩ := List.forall_mem_cons.mp heads
    have short : Enterable m.body :=
      enterable_of_room (Nat.le_trans (Nat.le_add_left _ packed.size) fits) List.mem_cons_self
    have split : room (m :: before) = room [m] + room before := by
      rw [← room_append, List.singleton_append]
    rw [split, ← Nat.add_assoc, ← size_holding] at fits
    have small : ¬ maxFrameSize < packed.size + room [m] := by
      rw [← size_holding]
      omega
    rw [List.cons_append, packOnto_cons same short, if_neg small, @ih (packed.holding [m]) later fits, ← holding_cons]

theorem packOnto_ok (h : packed.packOnto ms = .ok packed') : (∀ m ∈ ms, m.head = packed.head) ∧
    packed' = packed.holding ms ∧ (packed.size ≤ maxFrameSize → packed'.size ≤ maxFrameSize) := by
  induction ms generalizing packed with
  | nil =>
    cases h
    simp [holding]
  | cons m ms ih =>
    by_cases same : m.head = packed.head
    · have short : Enterable m.body := by
        rw [packOnto, if_neg (not_not_intro same)] at h
        cases entered : m.entry with
        | ok bs => exact enterable_of_entry entered
        | error fault =>
          rw [entered] at h
          cases h
      rw [packOnto_cons same short, ← size_holding] at h
      split at h
      · cases h
      · next small =>
        obtain ⟨heads, rfl, fits⟩ := ih h
        exact ⟨List.forall_mem_cons.mpr ⟨same, heads⟩, holding_cons.symm, fun _ => fits (Nat.not_lt.mp small)⟩
    · rw [packOnto_of_other_head same] at h
      cases h

/-! ### Packs -/

/-- These messages have this head, and one frame has room for all of them. -/
structure Packs (head : UInt16) (ms : List Message) : Prop where
  heads : ∀ m ∈ ms, m.head = head
  fits : headerSize + room ms ≤ maxFrameSize

theorem packs_nil : Packs head [] where
  heads := by nofun
  fits := by decide

theorem Packs.size_holding_le (packs : Packs head ms) : ((new head).holding ms).size ≤ maxFrameSize := by
  rw [size_holding]
  exact packs.fits

theorem pack_append (packs : Packs head before) :
    pack head (before ++ behind) = ((new head).holding before).packOnto behind :=
  packOnto_append packs.heads packs.fits

theorem pack_eq (packs : Packs head ms) : pack head ms = .ok ((new head).holding ms) := by
  rw [← List.append_nil ms, pack_append packs, packOnto, List.append_nil]

theorem pack_ok (h : pack head ms = .ok packed) : Packs head ms ∧ packed = (new head).holding ms := by
  obtain ⟨heads, rfl, fits⟩ := packOnto_ok h
  have small := fits (size_withHeader_le 0 head 0)
  rw [size_holding] at small
  exact ⟨⟨heads, small⟩, rfl⟩

/-! ### What is in the way -/

/-- A message that cannot join those before it, and what is reported of it. -/
inductive Hinders (head : UInt16) (before : List Message) (m : Message) : Fault → Prop
  | otherHead (other : m.head ≠ head) : Hinders head before m .mixedHeads
  | noRoom (same : m.head = head) (full : maxFrameSize < headerSize + room (before ++ [m])) :
    Hinders head before m (.oversizedFrame (headerSize + room (before ++ [m])))

theorem pack_of_hinders (packs : Packs head before) (short : Enterable m.body) (hinders : Hinders head before m fault) :
    pack head (before ++ m :: behind) = .error fault := by
  rw [pack_append packs]
  cases hinders with
  | otherHead other => exact packOnto_of_other_head other
  | noRoom same full =>
    have size : ((new head).holding before).size + room [m] = headerSize + room (before ++ [m]) := by
      rw [size_holding, room_append, ← Nat.add_assoc]
      rfl
    rw [packOnto_cons same short, size, if_pos full]

/-- Messages that cannot be packed begin with some that can, up to one that hinders. -/
theorem exists_hinders (h : ¬ Packs head ms) :
    ∃ before m behind fault, ms = before ++ m :: behind ∧ Packs head before ∧ Hinders head before m fault := by
  induction ms using List.reverseRecOn with
  | nil => exact absurd packs_nil h
  | append_singleton ms last ih =>
    by_cases packs : Packs head ms
    · by_cases same : last.head = head
      · have full : maxFrameSize < headerSize + room (ms ++ [last]) := by
          apply Nat.lt_of_not_le
          intro fits
          exact h ⟨List.forall_mem_append.mpr ⟨packs.heads, by simpa using same⟩, fits⟩
        exact ⟨ms, last, [], _, rfl, packs, .noRoom same full⟩
      · exact ⟨ms, last, [], _, rfl, packs, .otherHead same⟩
    · obtain ⟨before, m, behind, fault, rfl, found⟩ := ih packs
      exact ⟨before, m, behind ++ [last], fault, by simp, found⟩

theorem pack_eq_error_iff (short : ∀ m ∈ ms, Enterable m.body) : pack head ms = .error fault ↔
    ∃ before m behind, ms = before ++ m :: behind ∧ Packs head before ∧ Hinders head before m fault := by
  constructor
  · intro failed
    have unpackable : ¬ Packs head ms := by
      intro packs
      rw [pack_eq packs] at failed
      cases failed
    obtain ⟨before, m, behind, first, rfl, packs, hinders⟩ := exists_hinders unpackable
    have same : pack head (before ++ m :: behind) = .error first := pack_of_hinders packs (short m (by simp)) hinders
    rw [failed] at same
    cases same
    exact ⟨before, m, behind, rfl, packs, hinders⟩
  · rintro ⟨before, m, behind, rfl, packs, hinders⟩
    exact pack_of_hinders packs (short m (by simp)) hinders

end PeerLink.Message
