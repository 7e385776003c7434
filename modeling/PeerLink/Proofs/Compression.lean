import PeerLink.Compression
import PeerLink.Proofs.Compression.Zstd

/-!
What an encoder may write and what its decoder makes of it. An encoder is free to choose among all forms that
the decoder, without its limit, takes back to the message; the limit then decides alone whether the
message comes back. The encoders of the definitions are two of the many that these theorems allow.
-/
namespace PeerLink

namespace Lz4

theorem lengthMore_moreBytes (n m : Nat) (rest : Bytes) :
    lengthMore n (moreBytes m ++ rest) = some (n + m, rest) := by
  have runs : ∀ q n, lengthMore n (List.replicate q 255 ++ ([UInt8.ofNat (m % 255)] ++ rest)) =
      some (n + 255 * q + m % 255, rest) := by
    intro q
    induction q with
    | zero =>
      intro n
      have low : m % 255 < 255 := Nat.mod_lt m (by decide)
      have value : (UInt8.ofNat (m % 255)).toNat = m % 255 := by
        rw [UInt8.toNat_ofNat', Nat.mod_eq_of_lt (Nat.lt_trans low (by decide))]
      have stop : UInt8.ofNat (m % 255) ≠ 255 := by
        intro full
        rw [full] at value
        exact absurd value.symm (Nat.ne_of_lt low)
      simp only [List.replicate_zero, List.nil_append, List.singleton_append, lengthMore, if_neg stop, value]
      rfl
    | succ q ih =>
      intro n
      rw [List.replicate_succ, List.cons_append, lengthMore, if_pos rfl, ih]
      have sum : n + 255 + 255 * q = n + 255 * (q + 1) := by omega
      rw [sum]
  have split : n + 255 * (m / 255) + m % 255 = n + m := by
    have parts := Nat.div_add_mod m 255
    omega
  rw [moreBytes, List.append_assoc, runs, split]

theorem lengthFrom_lengthBytes (n : Nat) (rest : Bytes) :
    lengthFrom (lengthBytes n).1 ((lengthBytes n).2 ++ rest) = some (n, rest) := by
  unfold lengthBytes
  split
  · next short => exact if_neg (Nat.ne_of_lt short)
  · next long =>
    have whole : 15 + (n - 15) = n := by omega
    rw [lengthFrom, if_pos rfl, lengthMore_moreBytes, whole]

theorem lengthBytes_fst_lt (n : Nat) : (lengthBytes n).1 < 16 := by
  unfold lengthBytes
  split
  · next short => exact Nat.lt_trans short (by decide)
  · exact Nat.lt_succ_self 15

theorem readSequence_writeLast (literals : Bytes) :
    readSequence (writeLast literals) = some (⟨literals, none⟩, []) := by
  have small := lengthBytes_fst_lt literals.length
  have token : (UInt8.ofNat (16 * (lengthBytes literals.length).1)).toNat / 16 =
      (lengthBytes literals.length).1 := by
    rw [UInt8.toNat_ofNat', Nat.mod_eq_of_lt (by omega)]
    omega
  have run : Bytes.split? literals.length literals = some (literals, []) := by
    have all := Bytes.split?_append literals []
    rwa [List.append_nil] at all
  simp only [writeLast, readSequence, token, lengthFrom_lengthBytes, run]

/-- The size in front is that of the message, so it is the only thing that the limit decides on. -/
theorem decode_limit {big : Nat} {packed plain : Bytes} (sized : packed.take 4 = Bytes.ofNat 4 plain.length)
    (small : plain.length < Bytes.capacity 4) (h : decode big packed = some plain) (limit : Nat) :
    decode limit packed = if plain.length ≤ limit then some plain else none := by
  unfold decode at h ⊢
  split at h
  · cases h
  · next head block parts =>
    have front : packed.take 4 = head := by
      obtain ⟨rfl, width⟩ := Bytes.split?_eq_some parts
      exact List.take_left' width
    have size : Bytes.toNat head = plain.length := by
      rw [← front, sized, Bytes.toNat_ofNat, Nat.mod_eq_of_lt small]
    simp only [size] at h ⊢
    split at h
    · cases h
    · rw [h]
      by_cases fits : plain.length ≤ limit
      · rw [if_neg (Nat.not_lt.mpr fits), if_pos fits]
      · rw [if_pos (Nat.not_le.mp fits), if_neg fits]

theorem decode_store {bs : Bytes} (small : bs.length < Bytes.capacity 4) :
    decode bs.length (store bs) = some bs := by
  have size : Bytes.toNat (Bytes.ofNat 4 bs.length) = bs.length := by
    rw [Bytes.toNat_ofNat, Nat.mod_eq_of_lt small]
  have parts : Bytes.split? 4 (store bs) = some (Bytes.ofNat 4 bs.length, writeLast bs) :=
    Bytes.split?_append (Bytes.ofNat 4 bs.length) (writeLast bs)
  have whole : unfold bs.length (writeLast bs) #[] = some bs.toArray := by
    rw [unfold]
    split
    · next refused =>
      rw [readSequence_writeLast] at refused
      cases refused
    · next read =>
      rw [readSequence_writeLast] at read
      cases read
      simp
  simp only [decode, parts, size, Nat.lt_irrefl, if_false, whole, Option.map_some]

theorem decode_encode {bs : Bytes} (small : bs.length < Bytes.capacity 4) :
    decode bs.length (encode bs) = some bs := by
  unfold encode
  simp only
  split
  · next read => exact read
  · exact decode_store small

theorem take_encode (bs : Bytes) : (encode bs).take 4 = Bytes.ofNat 4 bs.length := by
  unfold encode
  simp only
  split
  · simp only [shorten, List.append_assoc]
    exact List.take_left' (Bytes.length_ofNat 4 _)
  · exact List.take_left' (Bytes.length_ofNat 4 _)

end Lz4

namespace CompressionKind

/-- Forms that an encoder of a kind may write for a message: those that the decoder takes back to it under
some limit. LZ4 blocks also stand behind the size of the message. -/
def Spells : (kind : CompressionKind) → (packed plain : Bytes) → Prop
  | none, packed, plain => packed = plain
  | lz4, packed, plain =>
    packed.take 4 = Bytes.ofNat 4 plain.length ∧ ∃ limit, Lz4.decode limit packed = some plain
  | zstd, packed, plain => ∃ limit, Zstd.decode limit packed = some plain

/-- Encoders of a kind. They may choose any form, or none, for each message that the size in front of a block
can describe. -/
def Writes (kind : CompressionKind) (pack : Bytes → Except Fault Bytes) : Prop :=
  ∀ plain packed, plain.length < Bytes.capacity 4 → pack plain = .ok packed → kind.Spells packed plain

/-- Whatever form an encoder chose, decompression gives the message back exactly if it is not too long. -/
theorem decompress?_of_spells {kind : CompressionKind} {packed plain : Bytes}
    (small : plain.length < Bytes.capacity 4) (h : kind.Spells packed plain) :
    kind.decompress? packed =
      if kind = none ∨ plain.length ≤ decompressedLimit then some plain else Option.none := by
  cases kind with
  | none =>
    cases h
    rfl
  | lz4 =>
    obtain ⟨sized, limit, read⟩ := h
    simp only [decompress?, Lz4.decode_limit sized small read, reduceCtorEq, false_or]
  | zstd =>
    obtain ⟨limit, read⟩ := h
    simp only [decompress?, Zstd.decode_limit read, reduceCtorEq, false_or]

theorem writes_compress (kind : CompressionKind) : kind.Writes kind.build.compress := by
  rintro plain packed small written
  cases Except.ok.inj written
  cases kind with
  | none => rfl
  | lz4 => exact ⟨Lz4.take_encode plain, plain.length, Lz4.decode_encode small⟩
  | zstd => exact ⟨plain.length, Zstd.decode_encode plain⟩

theorem ne_nil_of_spells {kind : CompressionKind} {packed plain : Bytes} (h : kind.Spells packed plain)
    (nonempty : plain ≠ []) : packed ≠ [] := by
  rintro rfl
  cases kind with
  | none => exact nonempty h.symm
  | lz4 =>
    obtain ⟨-, limit, read⟩ := h
    cases read
  | zstd =>
    obtain ⟨limit, read⟩ := h
    cases read

/-- Nothing is the form of no message but the empty one. -/
theorem decompress_nil (kind : CompressionKind) {plain : Bytes}
    (h : kind.build.decompress [] = .ok plain) : plain = [] := by
  cases kind with
  | none => exact (Except.ok.inj h).symm
  | lz4 => cases h
  | zstd => cases h

end CompressionKind

end PeerLink
