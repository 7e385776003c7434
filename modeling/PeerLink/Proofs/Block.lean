import PeerLink.Block
import PeerLink.Proofs.Reader

/-!
Blocks read back. Each block is told from what follows it by its width, by the length in front of it or by the
count of its items, so any run of blocks is read again by asking for the same types in the same order,
and the reader stops exactly behind them.
-/
namespace PeerLink

/-- What was written can be read, whatever is left of it then. -/
def ObjectFormat.Inverts {α : Type} (f : ObjectFormat α) : Prop :=
  ∀ v out, f.write v = some out → ∃ left, f.read out = some (v, left)

theorem Reader.manyOnto_flatMap {α : Type} (t : Scalar α) (vs read : List α) (rest : Bytes) :
    manyOnto t.decode vs.length read (vs.flatMap t.encode ++ rest) = .ok (read.reverse ++ vs, rest) := by
  induction vs generalizing read with
  | nil =>
    rw [List.append_nil]
    rfl
  | cons v vs ih =>
    rw [List.length_cons, manyOnto, List.flatMap_cons, List.append_assoc]
    simp only [t.decode_encode, ih, List.reverse_cons, List.append_assoc, List.singleton_append]

theorem Reader.many_flatMap {α : Type} (t : Scalar α) (vs : List α) (rest : Bytes) :
    many t.decode vs.length (vs.flatMap t.encode ++ rest) = .ok (vs, rest) :=
  manyOnto_flatMap t vs [] rest

theorem Scalar.length_flatMap {α : Type} (t : Scalar α) (vs : List α) :
    (vs.flatMap t.encode).length = vs.length * t.width := by
  induction vs with
  | nil => exact (Nat.zero_mul _).symm
  | cons v vs ih => rw [List.flatMap_cons, List.length_append, t.length_encode, ih, List.length_cons,
      Nat.add_comm, Nat.succ_mul]

theorem Scalar.leavesEnd_decode {α : Type} (t : Scalar α) : t.decode.LeavesEnd := by
  intro bs v rest h
  unfold decode at h
  split at h
  · cases h
  · next n behind read =>
    split at h
    · cases h
      exact Reader.leavesEnd_nat t.width bs n rest read
    · cases h

namespace Block

variable {α : Type} {v : α} {out : Bytes}

/-- Reading a block does not look behind the end of what is there, and puts nothing back in front. -/
theorem leavesEnd_decode (block : Block α) : block.decode.LeavesEnd := by
  intro bs v rest h
  cases block with
  | scalar t => exact t.leavesEnd_decode bs v rest h
  | bytes => exact Reader.leavesEnd_prefixed bs v rest h
  | array t =>
    simp only [decode] at h
    split at h
    · cases h
    · next n behind counted =>
      split at h
      · exact (t.leavesEnd_decode.manyOnto n [] behind v rest h).trans (Reader.leavesEnd_nat 2 bs n behind counted)
      · cases h
  | text | wideText | object =>
    simp only [decode] at h
    split at h
    · cases h
    · next raw behind read =>
      split at h
      · cases h
        exact Reader.leavesEnd_prefixed bs raw rest read
      · cases h

theorem ofWideUnits?_wideUnits (s : String) : ofWideUnits? (wideUnits s) = some s := by
  have length : (wideUnits s).length = s.toList.length * 4 := Scalar.char.length_flatMap s.toList
  have whole : (wideUnits s).length % 4 = 0 := by omega
  have count : (wideUnits s).length / 4 = s.toList.length := by omega
  have units := Reader.many_flatMap Scalar.char s.toList []
  rw [List.append_nil] at units
  rw [ofWideUnits?, if_pos whole, count, wideUnits, units]
  exact congrArg some String.ofList_toList

theorem toList_loop (bs : ByteArray) (i : Nat) (taken : Bytes) :
    ByteArray.toList.loop bs i taken = taken.reverse ++ bs.data.toList.drop i := by
  fun_induction ByteArray.toList.loop bs i taken with
  | case1 i taken inside ih =>
    have bound : i < bs.data.toList.length := inside
    have next : bs.get! i = bs.data.toList[i] := getElem!_pos bs.data i inside
    rw [ih, List.drop_eq_getElem_cons bound, next, List.reverse_cons, List.append_assoc]
    rfl
  | case2 i taken outside =>
    rw [List.drop_eq_nil_of_le (Nat.le_of_not_lt outside), List.append_nil]

theorem toList_eq (bs : ByteArray) : bs.toList = bs.data.toList := by
  rw [ByteArray.toList, toList_loop]
  rfl

theorem fromUTF8?_toUTF8 (s : String) : String.fromUTF8? s.toUTF8.toList.toByteArray = some s := by
  have same : s.toUTF8.toList.toByteArray = s.toUTF8 := by
    apply ByteArray.ext
    rw [List.data_toByteArray, toList_eq]
  rw [same, String.fromUTF8?, String.toUTF8_eq_toByteArray, dif_pos s.isValidUTF8]
  rfl

/-- Only an object depends on what it is made of. -/
def Inverts : Block α → Prop
  | object f => f.Inverts
  | _ => True

/-- A block ends where its encoding does, whatever comes behind. -/
theorem decode_append {block : Block α} (inverts : block.Inverts) (encoded : block.encode v = .ok out)
    (rest : Bytes) : block.decode (out ++ rest) = .ok (v, rest) := by
  cases block with
  | scalar t =>
    cases encoded
    exact t.decode_encode v rest
  | text => simp only [decode, Reader.prefixed_withPrefix encoded, fromUTF8?_toUTF8]
  | wideText => simp only [decode, Reader.prefixed_withPrefix encoded, ofWideUnits?_wideUnits]
  | bytes => exact Reader.prefixed_withPrefix encoded rest
  | array t =>
    rw [encode] at encoded
    split at encoded
    · next short =>
      cases encoded
      have count : v.length % Bytes.capacity 2 = v.length := Nat.mod_eq_of_lt short
      have room : v.length * t.width ≤ (v.flatMap t.encode ++ rest).length := by
        rw [List.length_append, t.length_flatMap]
        exact Nat.le_add_right _ _
      rw [decode, List.append_assoc]
      simp only [Reader.nat_ofNat_append, count, if_pos room, Reader.many_flatMap]
    · cases encoded
  | object f =>
    rw [encode] at encoded
    split at encoded
    · next raw written =>
      obtain ⟨left, read⟩ := inverts v raw written
      simp only [decode, Reader.prefixed_withPrefix encoded, read]
    · cases encoded

/-- A value and the block that carries it. -/
structure Entry where
  {type : Type}
  block : Block type
  value : type

def Entry.form (e : Entry) : (α : Type) × Block α := ⟨e.type, e.block⟩

def writeAll : List Entry → Except Fault Bytes
  | [] => .ok []
  | e :: es => do return (← e.block.encode e.value) ++ (← writeAll es)

def readAll : List ((α : Type) × Block α) → Cursor → Except Fault (List Entry × Cursor)
  | [], c => .ok ([], c)
  | ⟨_, block⟩ :: later, c =>
    match c.read block.decode with
    | .error e => .error e
    | .ok (value, c) =>
      match readAll later c with
      | .error e => .error e
      | .ok (es, c) => .ok (⟨block, value⟩ :: es, c)

theorem read_append {block : Block α} (inverts : block.Inverts) (encoded : block.encode v = .ok out)
    (position : Nat) (rest : Bytes) :
    Cursor.read ⟨position, out ++ rest⟩ block.decode = .ok (v, ⟨position + out.length, rest⟩) := by
  have taken : (out ++ rest).length - rest.length = out.length := by
    rw [List.length_append, Nat.add_sub_cancel]
  simp only [Cursor.read, decode_append inverts encoded, taken]

theorem readAll_append {es : List Entry} (inverts : ∀ e ∈ es, e.block.Inverts)
    (written : writeAll es = .ok out) (position : Nat) (rest : Bytes) :
    readAll (es.map Entry.form) ⟨position, out ++ rest⟩ = .ok (es, ⟨position + out.length, rest⟩) := by
  induction es generalizing out position with
  | nil =>
    cases written
    rfl
  | cons e es ih =>
    obtain ⟨first, encoded, written⟩ := ok_of_bind written
    obtain ⟨later, others, joined⟩ := ok_of_bind written
    cases joined
    have read := read_append (inverts e List.mem_cons_self) encoded position (later ++ rest)
    have inside := ih (fun other member => inverts other (List.mem_cons_of_mem e member)) others
      (position + first.length)
    simp only [List.map_cons, Entry.form, readAll, List.append_assoc, read, inside, List.length_append,
      Nat.add_assoc]

/-- Any values that could be written come back, and the reader stands where the writer stopped. -/
theorem readAll_writeAll {es : List Entry} (inverts : ∀ e ∈ es, e.block.Inverts)
    (written : writeAll es = .ok out) (rest : Bytes) :
    readAll (es.map Entry.form) (Cursor.ofBytes (out ++ rest) 0) = .ok (es, ⟨out.length, rest⟩) := by
  have start : Cursor.ofBytes (out ++ rest) 0 = ⟨0, out ++ rest⟩ := by
    rw [Cursor.ofBytes, Nat.zero_min]
    rfl
  rw [start, readAll_append inverts written, Nat.zero_add]

/-- A text and a wide one, an array without items, a NaN with a payload and an object, in front of three bytes
that look like the start of a block. -/
theorem readAll_writeAll_mixed :
    ∃ es out, es = [(⟨text, "é"⟩ : Entry), ⟨wideText, "a€"⟩, ⟨array .i64, []⟩, ⟨scalar .f32, ⟨0x7fa00001⟩⟩,
        ⟨object .flag, true⟩] ∧
      writeAll es = .ok out ∧ out.length = 23 ∧
      readAll (es.map Entry.form) (Cursor.ofBytes (out ++ [1, 0, 7]) 0) = .ok (es, ⟨23, [1, 0, 7]⟩) := by
  have inverts : ∀ e ∈ [(⟨text, "é"⟩ : Entry), ⟨wideText, "a€"⟩, ⟨array .i64, []⟩,
      ⟨scalar .f32, ⟨0x7fa00001⟩⟩, ⟨object .flag, true⟩], e.block.Inverts := by
    intro e member
    simp only [List.mem_cons, List.not_mem_nil, or_false] at member
    rcases member with rfl | rfl | rfl | rfl | rfl
    · trivial
    · trivial
    · trivial
    · trivial
    · intro v out written
      cases v <;> cases written <;> exact ⟨[], rfl⟩
  have written : writeAll [(⟨text, "é"⟩ : Entry), ⟨wideText, "a€"⟩, ⟨array .i64, []⟩,
      ⟨scalar .f32, ⟨0x7fa00001⟩⟩, ⟨object .flag, true⟩] =
      .ok [2, 0, 0xc3, 0xa9, 8, 0, 0x61, 0, 0, 0, 0xac, 0x20, 0, 0, 0, 0, 1, 0, 0xa0, 0x7f, 1, 0, 1] := by
    simp only [writeAll, encode, toList_eq]
    rfl
  exact ⟨_, _, rfl, written, rfl, readAll_writeAll inverts written [1, 0, 7]⟩

end Block

end PeerLink
