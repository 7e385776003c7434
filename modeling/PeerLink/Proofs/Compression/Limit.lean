import PeerLink.Compression.Coders
import PeerLink.Proofs.Compression.Growth

/-!
The limit of decompression. It is kept by two means: the size in front of an LZ4 message, which is looked at before the
message is unfolded, and the count of bytes that a Zstandard reader has handed out so far. Both refuse from the
first byte too many on and nothing before, whoever made the message and in whatever pieces it comes.
-/
namespace PeerLink

section Pieces

variable {ρ : Type} {read : ρ → Option (Bytes × ρ)} {reader : ρ}

/-- No reader, not even one without an end, gets more past the limit. -/
theorem length_gather {limit : Nat} {out all : Bytes} (room : out.length ≤ limit)
    (h : gather limit read reader out = some all) : all.length ≤ limit := by
  fun_induction gather limit read reader out with
  | case1 => cases h
  | case2 reader out =>
    cases h
    exact room
  | case3 => cases h
  | case4 reader out b piece rest answer fits ih => exact ih (Nat.not_lt.mp fits) h

/-- What a reader hands out from now on: pieces that are not empty, and then its end. -/
inductive Delivers (read : ρ → Option (Bytes × ρ)) : ρ → Bytes → Prop
  | ended {reader rest} (answer : read reader = some ([], rest)) : Delivers read reader []
  | piece {reader rest b bs later} (answer : read reader = some (b :: bs, rest))
    (goesOn : Delivers read rest later) : Delivers read reader (b :: bs ++ later)

/-- The pieces are put together again, unless they are too much together. Where they are cut does not matter. -/
theorem gather_of_delivers {limit : Nat} {out later : Bytes} (delivers : Delivers read reader later)
    (room : out.length ≤ limit) :
    gather limit read reader out = if (out ++ later).length ≤ limit then some (out ++ later) else none := by
  induction delivers generalizing out with
  | ended answer =>
    rw [gather, answer, List.append_nil]
    exact (if_pos room).symm
  | @piece reader rest b bs later answer goesOn ih =>
    rw [gather, answer, ← List.append_assoc]
    by_cases fits : (out ++ b :: bs).length ≤ limit
    · simp only [if_neg (Nat.not_lt.mpr fits), ih fits]
    · have beyond : ¬(out ++ b :: bs ++ later).length ≤ limit := by
        intro within
        rw [List.length_append] at within
        exact fits (Nat.le_trans (Nat.le_add_right _ _) within)
      simp only [if_pos (Nat.not_le.mp fits), if_neg beyond]

end Pieces

namespace Lz4

theorem decode_of_size_le {limit : Nat} {packed size block : Bytes}
    (parts : Bytes.split? 4 packed = some (size, block)) (within : Bytes.toNat size ≤ limit) :
    decode limit packed = (unfold (Bytes.toNat size) block #[]).map Array.toList := by
  rw [decode, parts]
  exact if_neg (Nat.not_lt.mpr within)

end Lz4

namespace Coders

variable {c : Coders}

/-- What coders are documented to do: a decoder undoes its encoder, the size of an LZ4 message stands in front of it,
and a Zstandard reader hands out the whole message. Sizes in four bytes can be told of messages below 4 GiB. -/
structure Documented (c : Coders) : Prop where
  lz4_size : ∀ plain, plain.length < Bytes.capacity 4 →
    (c.lz4Encode plain).take 4 = Bytes.ofNat 4 plain.length
  lz4_decode : ∀ plain, plain.length < Bytes.capacity 4 → c.lz4Decode (c.lz4Encode plain) = some plain
  zstd_read : ∀ plain, ∃ packed reader, c.zstdEncode plain = some packed ∧ c.zstdOpen packed = some reader ∧
    Delivers (c.zstdRead pieceRoom) reader plain

theorem empty_le : ([] : Bytes).length ≤ decompressedLimit := Nat.zero_le decompressedLimit

/-- Whatever the coders make of a string, no more of it than the limit is given away. -/
theorem length_decompress {kind : CompressionKind} {packed plain : Bytes} (compressed : kind ≠ .none)
    (h : c.decompress kind packed = .ok plain) : plain.length ≤ decompressedLimit := by
  cases kind with
  | none => exact absurd rfl compressed
  | lz4 =>
    simp only [decompress] at h
    split at h
    · cases h
    · split at h
      · cases h
      · split at h
        · cases h
        · split at h
          · cases h
          · next fits =>
            cases h
            exact Nat.not_lt.mp fits
  | zstd =>
    simp only [decompress] at h
    split at h
    · cases h
    · split at h
      · cases h
      · next gathered =>
        cases h
        exact length_gather empty_le gathered

theorem decompress_lz4 (documented : c.Documented) {plain : Bytes} (small : plain.length < Bytes.capacity 4) :
    c.decompress .lz4 (c.lz4Encode plain) =
      if plain.length ≤ decompressedLimit then .ok plain else .error .decompressionFailure := by
  have front := documented.lz4_size plain small
  have width : ((c.lz4Encode plain).take 4).length = 4 := by rw [front, Bytes.length_ofNat]
  have parts : Bytes.split? 4 (c.lz4Encode plain) =
      some (Bytes.ofNat 4 plain.length, (c.lz4Encode plain).drop 4) := by
    rw [← front]
    exact if_pos width
  have size : Bytes.toNat (Bytes.ofNat 4 plain.length) = plain.length := by
    rw [Bytes.toNat_ofNat, Nat.mod_eq_of_lt small]
  simp only [decompress, parts, size, documented.lz4_decode plain small]
  by_cases fits : plain.length ≤ decompressedLimit
  · rw [if_neg (Nat.not_lt.mpr fits), if_neg (Nat.not_lt.mpr fits), if_pos fits]
  · rw [if_pos (Nat.not_le.mp fits), if_neg fits]

theorem decompress_zstd {packed plain : Bytes} {reader : c.ZstdReader} (opened : c.zstdOpen packed = some reader)
    (delivers : Delivers (c.zstdRead pieceRoom) reader plain) :
    c.decompress .zstd packed =
      if plain.length ≤ decompressedLimit then .ok plain else .error .decompressionFailure := by
  have gathered := gather_of_delivers delivers empty_le
  rw [List.nil_append] at gathered
  simp only [decompress, opened, gathered]
  by_cases fits : plain.length ≤ decompressedLimit
  · rw [if_pos fits, if_pos fits]
  · rw [if_neg fits, if_neg fits]

/-! ### The coders of this library -/

theorem delivers_own (left : Bytes) : Delivers (own.zstdRead pieceRoom) left left := by
  cases left with
  | nil => exact .ended rfl
  | cons b bs =>
    have answer : own.zstdRead pieceRoom (b :: bs) = some (b :: bs.take 8191, bs.drop 8191) := rfl
    have pieces := Delivers.piece answer (delivers_own (bs.drop 8191))
    rwa [List.cons_append, List.take_append_drop] at pieces
termination_by left.length
decreasing_by
  rw [List.length_drop, List.length_cons]
  omega

theorem lz4Encode_own (plain : Bytes) : own.lz4Encode plain = Lz4.encode plain := by rw [own]

theorem lz4Decode_own (packed : Bytes) : own.lz4Decode packed = Lz4.decode (Bytes.capacity 4) packed := rfl

theorem zstdEncode_own (plain : Bytes) : own.zstdEncode plain = some (Zstd.encode plain) := by
  rw [own]

theorem zstdOpen_own (packed : Bytes) :
    own.zstdOpen packed = Zstd.decode (Zstd.blockLimit * packed.length) packed := rfl

theorem own_documented : own.Documented where
  lz4_size plain _ := by rw [lz4Encode_own, Lz4.take_encode]
  lz4_decode plain small := by
    have read := Lz4.decode_limit (Lz4.take_encode plain) small (Lz4.decode_encode small) (Bytes.capacity 4)
    rwa [if_pos (Nat.le_of_lt small), ← lz4Decode_own, ← lz4Encode_own] at read
  zstd_read plain := by
    have written := Zstd.decode_encode plain
    have read := Zstd.decode_limit written (Zstd.blockLimit * (Zstd.encode plain).length)
    rw [if_pos (Zstd.length_decode written), ← zstdOpen_own] at read
    exact ⟨Zstd.encode plain, plain, zstdEncode_own plain, read, delivers_own plain⟩

theorem compress_own (kind : CompressionKind) (plain : Bytes) :
    own.compress kind plain = .ok (kind.compress plain) := by
  cases kind with
  | none => rfl
  | lz4 => rw [compress, lz4Encode_own, CompressionKind.compress]
  | zstd => rw [compress, zstdEncode_own, CompressionKind.compress]

/-- The strategies of this library are those with its own coders. -/
theorem decompress_own (kind : CompressionKind) (packed : Bytes) :
    own.decompress kind packed = kind.build.decompress packed := by
  cases kind with
  | none => rfl
  | lz4 =>
    simp only [decompress, CompressionKind.build, CompressionKind.decompress?]
    cases parts : Bytes.split? 4 packed with
    | none => simp only [Lz4.decode, parts]
    | some halves =>
      obtain ⟨size, block⟩ := halves
      have narrow : Bytes.toNat size < Bytes.capacity 4 := by
        have bound := Bytes.toNat_lt size
        rwa [(Bytes.split?_eq_some parts).2] at bound
      have unlimited := Lz4.decode_of_size_le parts (Nat.le_of_lt narrow)
      by_cases fits : Bytes.toNat size ≤ decompressedLimit
      · have limited := Lz4.decode_of_size_le parts fits
        have same : own.lz4Decode packed = Lz4.decode decompressedLimit packed := unlimited.trans limited.symm
        simp only [if_neg (Nat.not_lt.mpr fits), same]
        cases read : Lz4.decode decompressedLimit packed with
        | none => rfl
        | some plain => exact if_neg (Nat.not_lt.mpr (Lz4.length_decode read).2)
      · have refused : Lz4.decode decompressedLimit packed = none := by
          rw [Lz4.decode, parts]
          exact if_pos (Nat.not_le.mp fits)
        simp only [if_pos (Nat.not_le.mp fits), refused]
  | zstd =>
    cases opened : own.zstdOpen packed with
    | none =>
      have refused : Zstd.decode decompressedLimit packed = none := by
        cases read : Zstd.decode decompressedLimit packed with
        | none => rfl
        | some plain =>
          have unlimited := Zstd.decode_limit read (Zstd.blockLimit * packed.length)
          rw [if_pos (Zstd.length_decode read)] at unlimited
          cases opened.symm.trans unlimited
      simp only [decompress, opened, CompressionKind.build, CompressionKind.decompress?, refused]
    | some plain =>
      have limited := Zstd.decode_limit opened decompressedLimit
      rw [decompress_zstd opened (delivers_own plain)]
      simp only [CompressionKind.build, CompressionKind.decompress?, limited]
      by_cases fits : plain.length ≤ decompressedLimit
      · rw [if_pos fits, if_pos fits]
      · rw [if_neg fits, if_neg fits]

/-- No string is unfolded to more than 65535 bytes, whoever made it. What was compressed comes back if it has at most
that many bytes and is refused if it has more, in whatever pieces a reader hands it out. -/
theorem decompress_exact_at_limit (documented : c.Documented) (kind : CompressionKind) :
    (kind ≠ .none → ∀ packed plain, (c.build kind).decompress packed = .ok plain → plain.length ≤ 65535) ∧
      ∀ plain : Bytes, (kind = .lz4 → plain.length < Bytes.capacity 4) →
        ((c.build kind).compress plain >>= (c.build kind).decompress) =
          if kind = .none ∨ plain.length ≤ 65535 then .ok plain else .error .decompressionFailure := by
  refine ⟨fun compressed packed plain => length_decompress compressed, fun plain small => ?_⟩
  cases kind with
  | none => rfl
  | lz4 =>
    have answer := decompress_lz4 documented (small rfl)
    simp only [reduceCtorEq, false_or]
    exact answer
  | zstd =>
    obtain ⟨packed, reader, written, opened, delivers⟩ := documented.zstd_read plain
    have answer := decompress_zstd opened delivers
    simp only [build, compress, written, reduceCtorEq, false_or]
    exact answer

/-- The strategies of this library, on as many zeros as a frame holds and on one more. -/
theorem decompress_exact_at_limit_zeros :
    own.Documented ∧
      CompressionKind.zstd.build.decompress (CompressionKind.zstd.compress (List.replicate 65535 0)) =
        .ok (List.replicate 65535 0) ∧
      CompressionKind.lz4.build.decompress (CompressionKind.lz4.compress (List.replicate 65536 0)) =
        .error .decompressionFailure := by
  have exact_own : ∀ (kind : CompressionKind) (plain : Bytes), plain.length < Bytes.capacity 4 →
      kind.build.decompress (kind.compress plain) =
        if kind = .none ∨ plain.length ≤ 65535 then .ok plain else .error .decompressionFailure := by
    intro kind plain small
    have answer := (decompress_exact_at_limit own_documented kind).2 plain (fun _ => small)
    rw [← answer, ← decompress_own]
    simp only [build, compress_own, bind, Except.bind]
  have most := exact_own .zstd (List.replicate 65535 0) (by rw [List.length_replicate]; decide)
  have beyond := exact_own .lz4 (List.replicate 65536 0) (by rw [List.length_replicate]; decide)
  rw [List.length_replicate, if_pos (.inr (Nat.le_refl 65535))] at most
  rw [List.length_replicate, if_neg (by decide)] at beyond
  exact ⟨own_documented, most, beyond⟩

end Coders
end PeerLink
