import PeerLink.Proofs.Message.Bounds

/-!
Packing and unpacking undo each other. What was packed comes out as it went in, whatever harmless bytes follow it. The
other way round, what is unpacked from any body packs to the beginning of that body, up to where no entry begins.
-/
namespace PeerLink.Message

variable {m packed : Message} {ms : List Message} {tail : Bytes} {head : UInt16}

theorem Obtained.enterable (obtained : m.Obtained) : Enterable m.body := by
  have fits := obtained.inBounds.fits
  have small : headerSize + entryPrefix + maxFrameSize < UInt24.size := by decide
  rw [size] at fits
  rw [Enterable]
  omega

/-- Nothing that is too short for the prefix of an entry, or that starts with a length of zero, begins with one. -/
theorem entries_of_harmless (harmless : tail.length < entryPrefix ∨ [0, 0, 0] <+: tail) : entries tail = [] := by
  apply entries_of_none
  rw [readEntry?_eq_none_iff]
  rcases harmless with short | ⟨rest, rfl⟩
  · exact .inl short
  · exact .inr (.inl (by simp [Bytes.toNat]))

theorem flatMap_unpack (m : Message) :
    m.unpack.flatMap spelled = (entries m.body).flatMap fun (client, body) => spell client body := by
  rw [unpack, List.flatMap_map]
  rfl

theorem head_of_mem_unpack {inner : Message} (inside : inner ∈ m.unpack) : inner.head = m.head := by
  obtain ⟨entry, -, rfl⟩ := List.mem_map.mp inside
  rfl

theorem head_setType (m : Message) (type : UInt24) : (m.setType type).head = m.head := by
  unfold setType
  split
  · rfl
  · rfl

theorem packs_unpack (fits : m.size ≤ maxFrameSize) : Packs m.head m.unpack where
  heads := fun _ inside => head_of_mem_unpack inside
  fits := by
    obtain ⟨rest, -, split⟩ := exists_rest m.body
    have length := congrArg List.length split
    rw [← flatMap_unpack, List.length_append, length_flatMap_spelled] at length
    rw [size] at fits
    omega

theorem Packs.enterable (packs : Packs head ms) : ∀ m ∈ ms, Enterable m.body :=
  fun _ inside => enterable_of_room (Nat.le_trans (Nat.le_add_left _ headerSize) packs.fits) inside

theorem body_of_pack (h : pack head ms = .ok packed) : packed.body = ms.flatMap spelled := by
  obtain ⟨-, rfl⟩ := pack_ok h
  rfl

/-- Messages can be packed exactly if all have this head and one frame has room for them. Otherwise, whatever messages
they are, the first that has another head or for which there is no room is reported. Once packed, they come out in order
under the head and whatever type the pack was given, with the clients and bodies they had, if what follows them is
harmless. -/
theorem unpack_pack (head : UInt16) (ms : List Message) :
    ((∃ packed, pack head ms = .ok packed) ↔ (∀ m ∈ ms, m.head = head) ∧ headerSize + room ms ≤ maxFrameSize) ∧
    ((∀ m ∈ ms, m.Obtained) → ∀ fault, pack head ms = .error fault ↔
      ∃ before m behind, ms = before ++ m :: behind ∧ Packs head before ∧ Hinders head before m fault) ∧
    ∀ packed, pack head ms = .ok packed → ∀ type tail, tail.length < entryPrefix ∨ [0, 0, 0] <+: tail →
      unpack { packed.setType type with body := packed.body ++ tail } =
        ms.map fun m => { withHeader m.client head type with body := m.body } := by
  refine ⟨⟨?_, ?_⟩, ?_, ?_⟩
  · rintro ⟨packed, done⟩
    exact ⟨(pack_ok done).1.heads, (pack_ok done).1.fits⟩
  · rintro ⟨heads, fits⟩
    exact ⟨_, pack_eq ⟨heads, fits⟩⟩
  · intro obtained fault
    exact pack_eq_error_iff fun m mem => (obtained m mem).enterable
  · intro packed done type tail harmless
    have read : entries (packed.body ++ tail) = ms.map fun m => (m.client, m.body) := by
      rw [body_of_pack done, entries_flatMap_append (pack_ok done).1.enterable, entries_of_harmless harmless,
        List.append_nil]
    have same : (packed.setType type).head = head := by
      rw [head_setType, (pack_ok done).2]
      rfl
    rw [unpack, read, same, type_setType, List.map_map]
    rfl

def brief : Message := { withHeader 3 5 1 with body := [1, 2] }

theorem obtained_brief : brief.Obtained := .ofBytes (rfl : ofBytes [12, 0, 3, 0, 0, 5, 0, 1, 0, 0, 1, 2] = _)

/-- Two messages are packed, one of them empty, and seven bytes follow. A third one with another head hinders. -/
theorem unpack_pack_followed :
    (∃ packed, pack 5 [brief, withHeader 4 5 0] = .ok packed ∧
      unpack { packed.setType 12 with body := packed.body ++ [0, 0, 0, 9, 9, 9, 9] } =
        [{ withHeader 3 5 12 with body := [1, 2] }, withHeader 4 5 12]) ∧
    pack 5 [brief, withHeader 4 6 0, withHeader 4 5 0] = .error .mixedHeads := by
  obtain ⟨packable, -, read⟩ := unpack_pack 5 [brief, withHeader 4 5 0]
  obtain ⟨-, refused, -⟩ := unpack_pack 5 [brief, withHeader 4 6 0, withHeader 4 5 0]
  constructor
  · obtain ⟨packed, done⟩ := packable.mpr ⟨by decide, by decide⟩
    exact ⟨packed, done, read packed done 12 _ (.inr ⟨[9, 9, 9, 9], rfl⟩)⟩
  · have obtained : ∀ m ∈ [brief, withHeader 4 6 0, withHeader 4 5 0], m.Obtained := by
      simp [obtained_brief, Obtained.withHeader]
    exact (refused obtained _).mpr
      ⟨[brief], withHeader 4 6 0, [withHeader 4 5 0], rfl, ⟨by decide, by decide⟩, .otherHead (by decide)⟩

/-- What is unpacked can be packed again, and gives the beginning of the body up to where no entry begins. No pack of
other messages gives a longer one. -/
theorem pack_unpack (obtained : m.Obtained) : ∃ packed rest, pack m.head m.unpack = .ok packed ∧
    m.body = packed.body ++ rest ∧
    (rest.length < entryPrefix ∨ Bytes.toNat (rest.take UInt24.width) < entryPrefix ∨
      rest.length < Bytes.toNat (rest.take UInt24.width)) ∧
    ∀ ms other, pack m.head ms = .ok other → other.body <+: m.body → other.body <+: packed.body := by
  obtain ⟨rest, none, split⟩ := exists_rest m.body
  have again := pack_eq (packs_unpack obtained.inBounds.fits)
  refine ⟨_, rest, again, ?_, readEntry?_eq_none_iff.mp none, ?_⟩
  · rw [body_of_pack again, flatMap_unpack]
    exact split
  · rintro ms other done ⟨behind, begins⟩
    have first : entries (ms.flatMap spelled ++ behind) = ms.map (fun m => (m.client, m.body)) ++ entries behind :=
      entries_flatMap_append (pack_ok done).1.enterable
    rw [← body_of_pack done, begins] at first
    rw [body_of_pack again, body_of_pack done, flatMap_unpack, first, List.flatMap_append, List.flatMap_map]
    exact List.prefix_append _ _

/-- An entry is followed by one that would be too short for its own prefix. -/
def torn : Message := { withHeader 1 5 0 with body := [8, 0, 0, 3, 0, 0, 1, 2, 5, 0, 0, 1, 1, 1, 1] }

theorem pack_unpack_torn : ∃ packed rest, pack torn.head torn.unpack = .ok packed ∧
    packed.body = [8, 0, 0, 3, 0, 0, 1, 2] ∧ rest = [5, 0, 0, 1, 1, 1, 1] ∧ torn.body = packed.body ++ rest ∧
    (rest.length < entryPrefix ∨ Bytes.toNat (rest.take UInt24.width) < entryPrefix ∨
      rest.length < Bytes.toNat (rest.take UInt24.width)) := by
  have obtained : torn.Obtained := .ofBytes
    (rfl : ofBytes [25, 0, 1, 0, 0, 5, 0, 0, 0, 0, 8, 0, 0, 3, 0, 0, 1, 2, 5, 0, 0, 1, 1, 1, 1] = _)
  obtain ⟨packed, rest, again, split, stop, -⟩ := pack_unpack obtained
  have read : torn.unpack = [{ withHeader 3 5 0 with body := [1, 2] }] := by
    rw [unpack, entries_of_some (rfl : readEntry? torn.body = some (3, [1, 2], _)), entries_of_none rfl]
    rfl
  have taken : packed.body = [8, 0, 0, 3, 0, 0, 1, 2] := by
    rw [body_of_pack again, read]
    rfl
  have left : rest = [5, 0, 0, 1, 1, 1, 1] := by
    rw [taken] at split
    simpa [torn] using split.symm
  exact ⟨packed, rest, again, taken, left, split, stop⟩

end PeerLink.Message
