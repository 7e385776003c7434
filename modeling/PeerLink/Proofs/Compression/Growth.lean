import PeerLink.Proofs.Compression

/-!
How far compressed strings unfold. An LZ4 block keeps within the size in front of it; a Zstandard message gives at
most a full block for each byte. So a decoder whose limit is that high has no limit, and one with a lower limit
differs from it only by what it refuses.
-/
namespace PeerLink

theorem Bytes.of_split?_bind {α : Type} {n : Nat} {bs : Bytes} {f : Bytes × Bytes → Option α} {a : α}
    (h : (Bytes.split? n bs).bind f = some a) :
    ∃ head rest, rest.length + n = bs.length ∧ f (head, rest) = some a := by
  obtain ⟨⟨head, rest⟩, parts, next⟩ := Option.bind_eq_some_iff.mp h
  obtain ⟨rfl, rfl⟩ := Bytes.split?_eq_some parts
  exact ⟨head, rest, by rw [List.length_append, Nat.add_comm], next⟩

/-- What a check leaves of a success. -/
theorem of_ite_none {α : Type} {refused : Prop} [Decidable refused] {x : Option α} {a : α}
    (h : (if refused then none else x) = some a) : x = some a := by
  split at h
  · cases h
  · exact h

namespace Lz4

theorem size_unfold {limit : Nat} {bs : Bytes} {out result : Array UInt8}
    (h : unfold limit bs out = some result) : result.size ≤ limit := by
  fun_induction unfold limit bs out with
  | case1 => cases h
  | case2 => cases h
  | case3 _ _ _ _ _ fits =>
    rw [← Option.some.inj h]
    exact Nat.not_lt.mp fits
  | case4 => cases h
  | case5 _ _ _ _ _ _ _ _ _ _ _ ih => exact ih h

theorem length_decode {limit : Nat} {packed plain : Bytes} (h : decode limit packed = some plain) :
    plain.length ≤ Bytes.toNat (packed.take 4) ∧ plain.length ≤ limit := by
  unfold decode at h
  split at h
  · cases h
  · next size block parts =>
    obtain ⟨rfl, width⟩ := Bytes.split?_eq_some parts
    simp only at h
    split at h
    · cases h
    · next within =>
      obtain ⟨result, unfolded, rfl⟩ := Option.map_eq_some_iff.mp h
      rw [List.take_left' width, Array.length_toList]
      have short := size_unfold unfolded
      exact ⟨short, Nat.le_trans short (Nat.not_lt.mp within)⟩

end Lz4

namespace Zstd

/-! A reader that takes at least one byte for each full block it adds keeps below the bound, and so do several such
readers in a row. -/

theorem blockLimit_mul_lt {m n : Nat} (fewer : m < n) : blockLimit * m + blockLimit ≤ blockLimit * n := by
  rw [← Nat.mul_succ]
  exact Nat.mul_le_mul_left blockLimit fewer

theorem size_unfoldBlock_le {limit : Nat} {carry carry' : Carry} {bs : Bytes} {out out' : Array UInt8}
    (h : unfoldBlock limit carry bs out = some (out', carry')) : out'.size ≤ out.size + limit := by
  simp only [unfoldBlock, Option.bind_eq_bind, Option.bind_eq_some_iff] at h
  obtain ⟨⟨literals, code, _⟩, -, ⟨n, _⟩, -, h⟩ := h
  split at h
  · split at h
    · cases h
    · next fits =>
      cases h
      rw [Array.size_append]
      omega
  · simp only [Option.bind_eq_some_iff] at h
    obtain ⟨_, -, _, -, _, -, _, -, _, -, p, -, h⟩ := h
    split at h
    · cases h
    · next fits =>
      cases h
      exact Nat.not_lt.mp fits

theorem size_block?_le {limit : Nat} {carry carry' : Carry} {bs rest : Bytes} {out out' : Array UInt8}
    {last : Bool} (h : block? limit carry bs out = some (last, out', carry', rest)) :
    out'.size ≤ out.size + limit := by
  unfold block? at h
  split at h
  · cases h
  · next head body parts =>
    simp only at h
    split at h
    · cases h
    · next fits =>
      split at h
      · split at h
        · cases h
        · next run behind taken =>
          cases h
          have width := (Bytes.split?_eq_some taken).2
          simp only [Array.size_append, List.size_toArray, width]
          exact Nat.add_le_add_left (Nat.not_lt.mp fits) out.size
      · split at h
        · cases h
        · cases h
          rw [Array.size_append, Array.size_replicate]
          exact Nat.add_le_add_left (Nat.not_lt.mp fits) out.size
      · split at h
        · cases h
        · split at h
          · cases h
          · next unfolded =>
            cases h
            exact size_unfoldBlock_le unfolded
      · cases h

theorem size_blocks?_le {limit blockMax : Nat} {carry : Carry} {bs rest : Bytes} {out result : Array UInt8}
    (small : blockMax ≤ blockLimit) (h : blocks? limit blockMax carry bs out = some (result, rest)) :
    result.size + blockLimit * rest.length ≤ out.size + blockLimit * bs.length := by
  fun_induction blocks? limit blockMax carry bs out with
  | case1 => cases h
  | case2 => cases h
  | case3 carry bs out out' carry' rest' fits block =>
    cases h
    have grown := size_block?_le block
    have spent := blockLimit_mul_lt (length_block? block)
    omega
  | case4 carry bs out last out' carry' rest' block fits more ih =>
    have grown := size_block?_le block
    have spent := blockLimit_mul_lt (length_block? block)
    have inside := ih h
    omega

theorem length_read? {bs content : Bytes} {header : Header} (h : Header.read? bs = some (header, content)) :
    content.length ≤ bs.length := by
  cases bs with
  | nil => cases h
  | cons descriptor bs =>
    simp only [Header.read?, Option.bind_eq_bind, Option.pure_def, Option.bind_none, Option.bind_some] at h
    rw [List.length_cons]
    replace h := of_ite_none h
    -- The window takes a byte of its own or none; the other two fields are the same in both cases.
    split at h
    · obtain ⟨_, _, named, h⟩ := Bytes.of_split?_bind h
      dsimp only at h
      obtain ⟨_, _, sized, h⟩ := Bytes.of_split?_bind (of_ite_none h)
      cases of_ite_none h
      dsimp only
      omega
    · split at h
      · cases h
      · split at h
        · obtain ⟨_, _, named, h⟩ := Bytes.of_split?_bind h
          dsimp only at h
          obtain ⟨_, _, sized, h⟩ := Bytes.of_split?_bind (of_ite_none h)
          cases of_ite_none h
          rw [List.length_cons]
          dsimp only
          omega
        · cases h

theorem length_finish? {header : Header} {out : Array UInt8} {bs rest : Bytes}
    (h : header.finish? out bs = some rest) : rest.length ≤ bs.length := by
  replace h := of_ite_none h
  split at h
  · split at h
    · cases h
    · next sum behind parts =>
      split at h
      · cases h
        obtain ⟨rfl, -⟩ := Bytes.split?_eq_some parts
        rw [List.length_append]
        exact Nat.le_add_left _ _
      · cases h
  · cases h
    exact Nat.le_refl _

theorem size_frame?_le {limit : Nat} {bs rest : Bytes} {more : Array UInt8}
    (h : frame? limit bs = some (more, rest)) :
    more.size + blockLimit * rest.length ≤ blockLimit * bs.length := by
  unfold frame? at h
  simp only [Option.bind_eq_bind, Option.pure_def] at h
  obtain ⟨head, behind, taken, h⟩ := Bytes.of_split?_bind h
  dsimp only at h
  split at h
  · obtain ⟨⟨header, content⟩, described, h⟩ := Option.bind_eq_some_iff.mp h
    obtain ⟨⟨out, tail⟩, unfolded, h⟩ := Option.bind_eq_some_iff.mp h
    obtain ⟨_, finished, h⟩ := Option.bind_eq_some_iff.mp h
    dsimp only at unfolded finished
    cases h
    have opening : content.length ≤ bs.length := by
      have shorter := length_read? described
      omega
    calc out.size + blockLimit * rest.length
        ≤ out.size + blockLimit * tail.length :=
          Nat.add_le_add_left (Nat.mul_le_mul_left blockLimit (length_finish? finished)) out.size
      _ ≤ 0 + blockLimit * content.length := size_blocks?_le (Nat.min_le_right _ _) unfolded
      _ = blockLimit * content.length := Nat.zero_add _
      _ ≤ blockLimit * bs.length := Nat.mul_le_mul_left blockLimit opening
  · split at h
    · obtain ⟨size, _, sized, h⟩ := Bytes.of_split?_bind h
      dsimp only at h
      obtain ⟨_, rest, skipped, h⟩ := Bytes.of_split?_bind h
      cases h
      have shorter : rest.length ≤ bs.length := by omega
      calc (#[] : Array UInt8).size + blockLimit * rest.length
          = blockLimit * rest.length := Nat.zero_add _
        _ ≤ blockLimit * bs.length := Nat.mul_le_mul_left blockLimit shorter
    · cases h

theorem size_frames?_le {limit fuel : Nat} {bs : Bytes} {out result : Array UInt8}
    (h : frames? limit fuel bs out = some result) : result.size ≤ out.size + blockLimit * bs.length := by
  induction fuel generalizing bs out with
  | zero => cases h
  | succ fuel ih =>
    simp only [frames?, Option.bind_eq_bind, Option.bind_eq_some_iff] at h
    obtain ⟨⟨more, rest⟩, frame, h⟩ := h
    have bound := size_frame?_le frame
    dsimp only at h
    split at h
    · cases h
      rw [Array.size_append]
      omega
    · have later := ih h
      rw [Array.size_append] at later
      omega

/-- No message unfolds to more than a full block for each byte. -/
theorem length_decode {limit : Nat} {packed plain : Bytes} (h : decode limit packed = some plain) :
    plain.length ≤ blockLimit * packed.length := by
  obtain ⟨result, unfolded, rfl⟩ := Option.map_eq_some_iff.mp h
  have bound := size_frames?_le unfolded
  rwa [Array.size_empty, Nat.zero_add] at bound

end Zstd
end PeerLink
