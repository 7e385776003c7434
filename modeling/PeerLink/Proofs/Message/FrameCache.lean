import PeerLink.Proofs.Message.Pack
import PeerLink.Proofs.Message.ReplySlot

/-!
The frame that a message keeps. Every operation that changes the header or the body drops it, so a frame that
is kept spells the message as it is. It spells it under the pipeline that made the frame, which need
not be the one that asks for it: a message that already has a frame is never encoded again.
-/
namespace PeerLink.Message

/-- Messages made by any sequence of operations with the pipelines in use, each with the pipeline that its
kept frame was made for. Copying a message and taking its bytes leave it as it is. -/
inductive Reached (used : Pipeline → Prop) : Message → (maker : Option Pipeline) → Prop
  | withHeader (client head type) : Reached used (Message.withHeader client head type) none
  | ofBytes {bs m} (read : Message.ofBytes bs = .ok m) : Reached used m none
  | ofFrame {q frame m} (inUse : used q) (read : Message.ofFrame q frame = .ok m) : Reached used m (some q)
  | pack {head ms m} (packed : Message.pack head ms = .ok m) : Reached used m none
  | unpack {outer inner maker} (before : Reached used outer maker) (inside : inner ∈ outer.unpack) :
    Reached used inner none
  | setClient {m maker} (before : Reached used m maker) (client) :
    Reached used (m.setClient client) (if m.client = client then maker else none)
  | setHead {m maker} (before : Reached used m maker) (head) :
    Reached used (m.setHead head) (if m.head = head then maker else none)
  | setType {m maker} (before : Reached used m maker) (type) :
    Reached used (m.setType type) (if m.type = type then maker else none)
  | setReplySlot {m m' maker slot} (before : Reached used m maker)
    (changed : m.setReplySlot slot = .ok m') : Reached used m' (if m.type = m'.type then maker else none)
  | set {m m' maker} {α : Type} {block : Block α} {v : α} (before : Reached used m maker)
    (changed : m.set block v = .ok m') : Reached used m' none
  | get {m m' maker} {α : Type} {block : Block α} {v : α} (before : Reached used m maker)
    (read : m.get block = .ok (v, m')) : Reached used m' maker
  | rewind {m maker} (before : Reached used m maker) : Reached used m.rewind maker
  | serialize {m m' maker q drawn frame} (before : Reached used m maker) (inUse : used q)
    (serialized : m.serialize q drawn = .ok (frame, m')) : Reached used m' (some (maker.getD q))

variable {used : Pipeline → Prop} {m m' : Message} {maker : Option Pipeline} {p q : Pipeline}

/-- The message fits a frame, and a kept frame gives its header and body back to the pipeline that made it. -/
structure Coherent (used : Pipeline → Prop) (m : Message) (maker : Option Pipeline) : Prop where
  fits : m.size ≤ maxFrameSize
  isPacked : m.frame.isSome = maker.isSome
  decodes : ∀ frame ∈ m.frame, ∀ q ∈ maker, used q ∧ q.decode frame = .ok (m.header ++ m.body)

/-- A pipeline has read the message in a frame or has made the frame of it. -/
def MadeBy (q : Pipeline) (m : Message) (frame : Bytes) : Prop :=
  q.decode frame = .ok (m.header ++ m.body) ∨ ∃ drawn, q.encode drawn (m.header ++ m.body) = .ok frame

/-- The message fits a frame, and a kept frame is of its header and body, whether or not it gives them back. -/
structure Stems (used : Pipeline → Prop) (m : Message) (maker : Option Pipeline) : Prop where
  fits : m.size ≤ maxFrameSize
  isPacked : m.frame.isSome = maker.isSome
  made : ∀ frame ∈ m.frame, ∀ q ∈ maker, used q ∧ MadeBy q m frame

theorem Stems.coherent (undo : ∀ q, used q → q.Lossless) (stems : Stems used m maker) :
    Coherent used m maker where
  fits := stems.fits
  isPacked := stems.isPacked
  decodes := by
    intro frame kept q maker
    obtain ⟨inUse, decoded | ⟨drawn, encoded⟩⟩ := stems.made frame kept q maker
    · exact ⟨inUse, decoded⟩
    · refine ⟨inUse, undo q inUse _ ?_ drawn frame encoded⟩
      rw [length_append_body]
      exact stems.fits

/-! ### Messages without a frame -/

theorem Stems.of_unpacked (fits : m.size ≤ maxFrameSize) (unpacked : m.frame = none) :
    Stems used m none where
  fits := fits
  isPacked := by
    rw [unpacked]
    rfl
  made := by
    intro frame kept
    rw [unpacked] at kept
    cases kept

theorem size_append (m : Message) (bs : Bytes) :
    size { m with body := m.body ++ bs } = m.size + bs.length := by
  rw [size, size, List.length_append, Nat.add_assoc]

theorem set_ok {α : Type} {block : Block α} {v : α} (h : m.set block v = .ok m') :
    m'.size ≤ maxFrameSize ∧ m'.frame = none := by
  unfold set at h
  split at h
  · cases h
  · next bs _ =>
    simp only at h
    split at h
    · cases h
    · next fits =>
      cases h
      rw [← size_append] at fits
      exact ⟨Nat.not_lt.mp fits, rfl⟩

theorem length_of_mem_entries {bs body : Bytes} {client : UInt24} (h : (client, body) ∈ entries bs) :
    body.length ≤ bs.length := by
  fun_induction entries bs with
  | case1 => cases h
  | case2 bs c first rest read ih =>
    obtain ⟨size, -, rfl⟩ := readEntry?_eq_some read
    simp only [List.length_append]
    rcases List.mem_cons.mp h with same | later
    · cases same
      omega
    · have tail := ih later
      omega

theorem of_mem_unpack (inner : m' ∈ m.unpack) : m'.size ≤ m.size ∧ m'.frame = none := by
  obtain ⟨⟨client, body⟩, entry, rfl⟩ := List.mem_map.mp inner
  exact ⟨Nat.add_le_add_left (length_of_mem_entries entry) headerSize, rfl⟩

/-! ### Operations on a message that may have one -/

/-- A frame that is kept stays that of its maker; a new one is that of the pipeline that was asked for it. -/
theorem maker_of_serialize {drawn : Draw} {frame : Bytes} (tied : m.frame.isSome = maker.isSome)
    (serialized : m.serialize q drawn = .ok (frame, m')) :
    m.frame = some frame ∧ m' = m ∧ some (maker.getD q) = maker ∨
      maker = none ∧ m.size ≤ maxFrameSize ∧ q.encode drawn (m.header ++ m.body) = .ok frame ∧
        m' = { m with frame := some frame } := by
  rcases serialize_cases serialized with ⟨kept, same⟩ | ⟨unpacked, fits, encoded, same⟩
  · rw [kept] at tied
    obtain ⟨made, rfl⟩ := Option.isSome_iff_exists.mp tied.symm
    exact .inl ⟨kept, same, rfl⟩
  · rw [unpacked] at tied
    exact .inr ⟨Option.isNone_iff_eq_none.mp (Option.isSome_eq_false_iff.mp tied.symm), fits, encoded, same⟩

namespace Stems

theorem cursor (stems : Stems used m maker) (cursor : Nat) : Stems used { m with cursor } maker :=
  ⟨stems.fits, stems.isPacked, stems.made⟩

theorem setClient (stems : Stems used m maker) (client : UInt24) :
    Stems used (m.setClient client) (if m.client = client then maker else none) := by
  unfold Message.setClient
  split
  · exact stems
  · exact of_unpacked stems.fits rfl

theorem setHead (stems : Stems used m maker) (head : UInt16) :
    Stems used (m.setHead head) (if m.head = head then maker else none) := by
  unfold Message.setHead
  split
  · exact stems
  · exact of_unpacked stems.fits rfl

theorem setType (stems : Stems used m maker) (type : UInt24) :
    Stems used (m.setType type) (if m.type = type then maker else none) := by
  unfold Message.setType
  split
  · exact stems
  · exact of_unpacked stems.fits rfl

theorem ofFrame {frame : Bytes} (inUse : used q) (read : Message.ofFrame q frame = .ok m) :
    Stems used m (some q) := by
  obtain ⟨decoded, fits, -, kept⟩ := ofFrame_ok read
  refine ⟨fits, by rw [kept]; rfl, ?_⟩
  rintro other same _ ⟨rfl⟩
  obtain rfl : frame = other := Option.some.inj (kept.symm.trans same)
  exact ⟨inUse, .inl decoded⟩

theorem serialize {drawn : Draw} {frame : Bytes} (stems : Stems used m maker) (inUse : used q)
    (serialized : m.serialize q drawn = .ok (frame, m')) :
    Stems used m' (some (maker.getD q)) ∧ m'.header = m.header ∧ m'.body = m.body ∧ m'.frame = some frame := by
  rcases maker_of_serialize stems.isPacked serialized with ⟨kept, rfl, same⟩ | ⟨rfl, fits, encoded, rfl⟩
  · rw [same]
    exact ⟨stems, rfl, rfl, kept⟩
  · refine ⟨⟨fits, rfl, ?_⟩, rfl, rfl, rfl⟩
    rintro _ ⟨rfl⟩ _ ⟨rfl⟩
    exact ⟨inUse, .inr ⟨drawn, encoded⟩⟩

end Stems

theorem Coherent.serialize {drawn : Draw} {frame : Bytes} (coherent : Coherent used m maker) (inUse : used q)
    (undo : q.Lossless) (serialized : m.serialize q drawn = .ok (frame, m')) :
    Coherent used m' (some (maker.getD q)) ∧ m'.header = m.header ∧ m'.body = m.body ∧
      m'.frame = some frame := by
  rcases maker_of_serialize coherent.isPacked serialized with ⟨kept, rfl, same⟩ | ⟨rfl, fits, encoded, rfl⟩
  · rw [same]
    exact ⟨coherent, rfl, rfl, kept⟩
  · refine ⟨⟨fits, rfl, ?_⟩, rfl, rfl, rfl⟩
    rintro _ ⟨rfl⟩ _ ⟨rfl⟩
    refine ⟨inUse, undo _ ?_ drawn _ encoded⟩
    rw [length_append_body]
    exact fits

theorem get_ok {α : Type} {block : Block α} {v : α} (h : m.get block = .ok (v, m')) :
    ∃ cursor, m' = { m with cursor } := by
  unfold get at h
  split at h
  · cases h
    exact ⟨_, rfl⟩
  · cases h

/-- No sequence of operations leaves a kept frame stale. -/
theorem Reached.stems (reached : Reached used m maker) : Stems used m maker := by
  induction reached with
  | withHeader client head type => exact .of_unpacked (size_withHeader_le client head type) rfl
  | ofBytes read =>
    obtain ⟨-, fits, -, unpacked⟩ := ofBytes_ok read
    exact .of_unpacked fits unpacked
  | ofFrame inUse read => exact .ofFrame inUse read
  | pack packed =>
    obtain ⟨packs, rfl⟩ := pack_ok packed
    exact .of_unpacked packs.size_holding_le rfl
  | unpack _ inside ih =>
    obtain ⟨fits, unpacked⟩ := of_mem_unpack inside
    exact .of_unpacked (Nat.le_trans fits ih.fits) unpacked
  | setClient _ client ih => exact ih.setClient client
  | setHead _ head ih => exact ih.setHead head
  | setType _ type ih => exact ih.setType type
  | @setReplySlot m m' _ _ _ changed ih =>
    have changedType := ih.setType m'.type
    rwa [setReplySlot_ok changed] at changedType
  | set _ changed _ =>
    obtain ⟨fits, unpacked⟩ := set_ok changed
    exact .of_unpacked fits unpacked
  | get _ read ih =>
    obtain ⟨cursor, rfl⟩ := get_ok read
    exact ih.cursor cursor
  | rewind _ ih => exact ih.cursor headerSize
  | serialize _ inUse serialized ih => exact (ih.serialize inUse serialized).1

theorem Reached.coherent (undo : ∀ q, used q → q.Lossless) (reached : Reached used m maker) :
    Coherent used m maker := reached.stems.coherent undo

/-- Whatever operations and pipelines a message went through, the frame that it gives away is that of its
current header and body, for the pipeline that made the frame. -/
theorem decode_serialize {drawn : Draw} {frame : Bytes} (undo : ∀ q, used q → q.Lossless)
    (reached : Reached used m maker) (inUse : used p)
    (serialized : m.serialize p drawn = .ok (frame, m')) :
    used (maker.getD p) ∧ (maker.getD p).decode frame = m.toBytes ∧
      m.toBytes = .ok (m.header ++ m.body) := by
  have coherent := reached.coherent undo
  obtain ⟨kept, header, body, packed⟩ := coherent.serialize inUse (undo p inUse) serialized
  obtain ⟨made, decoded⟩ := kept.decodes frame packed (maker.getD p) rfl
  rw [header, body] at decoded
  exact ⟨made, decoded.trans (toBytes_eq coherent.fits).symm, toBytes_eq coherent.fits⟩

/-- A message that came without encryption, passed on to a peer that turns messages around. -/
def relayed : Message :=
  { withHeader 7 1 0 with frame := some [10, 0, 7, 0, 0, 1, 0, 0, 0, 0] }

theorem reached_relayed (inUse : used .passthrough) : Reached used relayed (some .passthrough) :=
  .ofFrame inUse (rfl : ofFrame .passthrough [10, 0, 7, 0, 0, 1, 0, 0, 0, 0] = .ok relayed)

/-- Under both pipelines in use, the one that made the frame reads it. -/
theorem decode_serialize_relayed :
    ∃ p frame, Pipeline.build .reverse none .none = .ok p ∧
      relayed.serialize p default = .ok (frame, relayed) ∧
      Pipeline.passthrough.decode frame = relayed.toBytes := by
  have built : Pipeline.build .reverse none .none = .ok ⟨.reverse, CompressionKind.none.build⟩ := rfl
  have undo : ∀ q ∈ [⟨.reverse, CompressionKind.none.build⟩, Pipeline.passthrough], q.Lossless := by
    intro q inUse
    simp only [List.mem_cons, List.not_mem_nil, or_false] at inUse
    rcases inUse with rfl | rfl
    · exact Pipeline.lossless_uncompressed built
    · exact Pipeline.lossless_passthrough
  have reached := reached_relayed (List.mem_cons_of_mem ⟨.reverse, CompressionKind.none.build⟩
    (List.mem_singleton_self Pipeline.passthrough))
  have serialized : relayed.serialize ⟨.reverse, CompressionKind.none.build⟩ default =
      .ok ([10, 0, 7, 0, 0, 1, 0, 0, 0, 0], relayed) := rfl
  exact ⟨_, _, built, serialized, (decode_serialize undo reached List.mem_cons_self serialized).2.1⟩

/-- The pipeline that asks for the frame does not read it. -/
theorem relayed_kept_frame :
    ∃ p frame, Pipeline.build .reverse none .none = .ok p ∧ p.Lossless ∧
      Pipeline.passthrough.Lossless ∧ Reached (· ∈ [p, .passthrough]) relayed (some .passthrough) ∧
      relayed.serialize p default = .ok (frame, relayed) ∧ p.decode frame ≠ relayed.toBytes := by
  have built : Pipeline.build .reverse none .none = .ok ⟨.reverse, CompressionKind.none.build⟩ := rfl
  refine ⟨_, _, built, Pipeline.lossless_uncompressed built, Pipeline.lossless_passthrough,
    reached_relayed (by simp), rfl, ?_⟩
  intro same
  cases same

end PeerLink.Message
