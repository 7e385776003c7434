import PeerLink.Pipeline
import PeerLink.Proofs.Cipher
import PeerLink.Proofs.Compression
import PeerLink.Proofs.Reader

/-!
The pipeline from end to end. Encoding bounds the frame, not what compression was given, and decompression
bounds what it gives. A message that encryption lengthens past the one bound may therefore compress
to a frame within the other, and such a frame is refused; every other frame gives its message back.
-/
namespace PeerLink

theorem EncryptionKind.sealedLength_lt (kind : EncryptionKind) {n : Nat}
    (short : n ≤ maxFrameSize) : kind.sealedLength n < Bytes.capacity 4 := by
  have bound : Bytes.capacity 4 = 4294967296 := rfl
  have most : maxFrameSize = 65535 := rfl
  cases kind <;> simp only [EncryptionKind.sealedLength] <;> omega

namespace Pipeline

variable {encryption : EncryptionKind} {key : Option Bytes} {compression : CompressionKind} {p : Pipeline}
  {pack : Bytes → Except Fault Bytes} {drawn : Draw} {message frame : Bytes}

/-- The pipeline with another encoder for its compressed forms. -/
def packedBy (p : Pipeline) (pack : Bytes → Except Fault Bytes) : Pipeline :=
  { p with compressor := { p.compressor with compress := pack } }

/-- Its own encoder is one of those. -/
theorem packedBy_compress (p : Pipeline) : p.packedBy p.compressor.compress = p := rfl

@[simp] theorem isPassthrough_packedBy (p : Pipeline) : (p.packedBy pack).isPassthrough = p.isPassthrough :=
  rfl

/-! ### The length in front -/

theorem enclose_ok {content : Bytes} (h : enclose content = .ok frame) :
    frame.length = lengthPrefix + content.length ∧ frame.length ≤ maxFrameSize ∧
      Bytes.toNat (frame.take lengthPrefix) = frame.length ∧ disclose frame = .ok content := by
  simp only [enclose] at h
  split at h
  · cases h
  · next fits =>
    cases h
    have width : (Bytes.ofNat 2 (lengthPrefix + content.length)).length = lengthPrefix :=
      Bytes.length_ofNat 2 _
    have total : (Bytes.ofNat 2 (lengthPrefix + content.length) ++ content).length =
        lengthPrefix + content.length := by
      rw [List.length_append, width]
    have value : Bytes.toNat (Bytes.ofNat 2 (lengthPrefix + content.length)) =
        lengthPrefix + content.length := by
      rw [Bytes.toNat_ofNat]
      exact Nat.mod_eq_of_lt (Nat.lt_succ_of_le (Nat.not_lt.mp fits))
    have parts := Bytes.split?_append (Bytes.ofNat 2 (lengthPrefix + content.length)) content
    rw [width] at parts
    refine ⟨total, ?_, ?_, ?_⟩
    · rw [total]
      exact Nat.not_lt.mp fits
    · rw [List.take_left' width, value, total]
    · simp only [disclose, parts, value, total, if_true]

theorem disclose_ok {content : Bytes} (h : disclose frame = .ok content) :
    frame.length = lengthPrefix + content.length ∧ Bytes.toNat (frame.take lengthPrefix) = frame.length := by
  unfold disclose at h
  split at h
  · cases h
  · next head rest parts =>
    split at h
    · next declares =>
      cases h
      obtain ⟨rfl, width⟩ := Bytes.split?_eq_some parts
      refine ⟨?_, ?_⟩
      · rw [List.length_append, width]
      · rw [List.take_left' width, declares]
    · cases h

/-! ### What is built -/

theorem eq_of_build (built : build encryption key compression = .ok p) :
    ∃ e, encryption.build key = .ok e ∧ p = ⟨e, compression.build⟩ := by
  obtain ⟨e, made, same⟩ := ok_of_bind built
  cases same
  exact ⟨e, made, rfl⟩

theorem isPassthrough_of_build (built : build encryption key compression = .ok p) :
    p.isPassthrough = (decide (encryption = .none) && decide (compression = .none)) := by
  obtain ⟨e, made, rfl⟩ := eq_of_build built
  rw [isPassthrough, EncryptionKind.isIdentity_of_build made]
  rfl

theorem encode_ok (active : p.isPassthrough = false) (encoded : p.encode drawn message = .ok frame) :
    ∃ sealed packed, p.encryptor.encrypt drawn message = .ok sealed ∧
      p.compressor.compress sealed = .ok packed ∧ enclose packed = .ok frame := by
  rw [encode, if_neg (Bool.eq_false_iff.mp active)] at encoded
  obtain ⟨sealed, encrypted, encoded⟩ := ok_of_bind encoded
  obtain ⟨packed, compressed, enclosed⟩ := ok_of_bind encoded
  exact ⟨sealed, packed, encrypted, compressed, enclosed⟩

theorem encode_of_active {sealed packed : Bytes} (active : p.isPassthrough = false)
    (encrypted : p.encryptor.encrypt drawn message = .ok sealed)
    (compressed : p.compressor.compress sealed = .ok packed) : p.encode drawn message = enclose packed := by
  rw [encode, if_neg (Bool.eq_false_iff.mp active), encrypted]
  simp only [bind, Except.bind, compressed]

theorem compression_of_passthrough (built : build encryption key compression = .ok p)
    (passes : p.isPassthrough = true) : compression = .none := by
  rw [isPassthrough_of_build built] at passes
  exact of_decide_eq_true (Bool.and_eq_true_iff.mp passes).2

/-- The limit of decompression bears on what encryption made of the message, not on the message. -/
theorem decode_built (built : build encryption key compression = .ok p) (packs : compression.Writes pack)
    (short : message.length ≤ maxFrameSize) (encoded : (p.packedBy pack).encode drawn message = .ok frame) :
    (p.packedBy pack).decode frame =
      if compression = .none ∨ encryption.sealedLength message.length ≤ decompressedLimit then .ok message
      else .error .decompressionFailure := by
  by_cases passes : (p.packedBy pack).isPassthrough = true
  · rw [encode, if_pos passes] at encoded
    cases encoded
    rw [decode, if_pos passes, if_pos (Or.inl (compression_of_passthrough built passes))]
  · have active : (p.packedBy pack).isPassthrough = false := Bool.eq_false_iff.mpr passes
    obtain ⟨sealed, packed, encrypted, compressed, enclosed⟩ := encode_ok active encoded
    obtain ⟨-, -, -, disclosed⟩ := enclose_ok enclosed
    obtain ⟨e, made, rfl⟩ := eq_of_build built
    obtain ⟨length, decrypted⟩ := EncryptionKind.decrypt_of_encrypt made encrypted
    have small : sealed.length < Bytes.capacity 4 := by
      rw [length]
      exact encryption.sealedLength_lt short
    have unpacked := CompressionKind.decompress?_of_spells small (packs sealed packed small compressed)
    rw [length] at unpacked
    rw [decode, if_neg passes, disclosed]
    by_cases room : compression = .none ∨ encryption.sealedLength message.length ≤ decompressedLimit
    · rw [if_pos room] at unpacked ⊢
      simp only [packedBy, bind, Except.bind, CompressionKind.build, unpacked]
      exact decrypted
    · rw [if_neg room] at unpacked ⊢
      simp only [packedBy, bind, Except.bind, CompressionKind.build, unpacked]

/-- Decoding undoes encoding for a message, whatever is drawn. -/
def Undoes (p : Pipeline) (message : Bytes) : Prop :=
  ∀ drawn frame, p.encode drawn message = .ok frame → p.decode frame = .ok message

/-- Decoding undoes encoding for whatever fits a frame. -/
def Lossless (p : Pipeline) : Prop :=
  ∀ message, message.length ≤ maxFrameSize → p.Undoes message

theorem lossless_of_build (built : build encryption key compression = .ok p)
    (packs : compression.Writes pack)
    (room : compression = .none ∨ ∀ n ≤ maxFrameSize, encryption.sealedLength n ≤ decompressedLimit) :
    (p.packedBy pack).Lossless := by
  intro message short drawn frame encoded
  rw [decode_built built packs short encoded]
  exact if_pos (room.imp_right (fun each => each _ short))

theorem lossless_uncompressed (built : build encryption key .none = .ok p) : p.Lossless := by
  obtain ⟨e, -, rfl⟩ := eq_of_build built
  have lossless := lossless_of_build built (CompressionKind.writes_compress .none) (.inl rfl)
  rwa [packedBy_compress ⟨e, CompressionKind.none.build⟩] at lossless

theorem lossless_passthrough : passthrough.Lossless :=
  lossless_uncompressed (rfl : build .none none .none = _)

/-- A frame fits its length and says it. It gives its message back unless compression was given more than
decompression may give, which takes encryption that lengthens. -/
theorem decode_of_encode (built : build encryption key compression = .ok p) (packs : compression.Writes pack)
    (short : message.length ≤ maxFrameSize) (encoded : (p.packedBy pack).encode drawn message = .ok frame) :
    frame.length ≤ maxFrameSize ∧
      (p.isPassthrough = true → frame = message) ∧
      (p.isPassthrough = false → Bytes.toNat (frame.take lengthPrefix) = frame.length) ∧
      (p.packedBy pack).decode frame =
        if compression = .none ∨ encryption.sealedLength message.length ≤ decompressedLimit then .ok message
        else .error .decompressionFailure := by
  have decoded := decode_built built packs short encoded
  by_cases passes : p.isPassthrough = true
  · rw [encode, isPassthrough_packedBy, if_pos passes] at encoded
    cases encoded
    exact ⟨short, fun _ => rfl, fun active => absurd passes (Bool.eq_false_iff.mp active), decoded⟩
  · have active : (p.packedBy pack).isPassthrough = false := Bool.eq_false_iff.mpr passes
    obtain ⟨_, _, -, -, enclosed⟩ := encode_ok active encoded
    obtain ⟨-, fits, declares, -⟩ := enclose_ok enclosed
    exact ⟨fits, fun h => absurd h passes, fun _ => declares, decoded⟩

/-- A short message under a repeated key, in a block without repeats. -/
theorem decode_of_encode_stored :
    ∃ p frame, build .xor (some [42]) .lz4 = .ok p ∧
      (p.packedBy (fun bs => .ok (Lz4.store bs))).encode default [7, 0, 1, 0, 2, 0, 0, 3, 0, 0] = .ok frame ∧
      frame.length = 17 ∧
      (p.packedBy (fun bs => .ok (Lz4.store bs))).decode frame = .ok [7, 0, 1, 0, 2, 0, 0, 3, 0, 0] := by
  have packs : CompressionKind.lz4.Writes (fun bs => .ok (Lz4.store bs)) := by
    intro plain packed small written
    cases Except.ok.inj written
    exact ⟨List.take_left' (Bytes.length_ofNat 4 _), plain.length, Lz4.decode_store small⟩
  have built : build .xor (some [42]) .lz4 = .ok ⟨.xor [42], CompressionKind.lz4.build⟩ := rfl
  have short : ([7, 0, 1, 0, 2, 0, 0, 3, 0, 0] : Bytes).length ≤ maxFrameSize := by decide
  refine ⟨_, _, built, rfl, rfl, ?_⟩
  have encoded : (packedBy ⟨.xor [42], CompressionKind.lz4.build⟩
      (fun bs => .ok (Lz4.store bs))).encode default [7, 0, 1, 0, 2, 0, 0, 3, 0, 0] = .ok _ := rfl
  exact (decode_of_encode built packs short encoded).2.2.2

/-- The longest message, of which a chained cipher makes one byte more than decompression may give. Its blocks
encrypt to zeros, so the frame has 31 bytes. -/
theorem lengthened_message_refused :
    ∃ p message frame, build .aes256Cbc (some [0x6b]) .zstd = .ok p ∧
      CompressionKind.zstd.Writes (fun bs => .ok (Zstd.encodeRun 65520 bs)) ∧
      headerSize ≤ message.length ∧ message.length ≤ maxFrameSize ∧
      (p.packedBy (fun bs => .ok (Zstd.encodeRun 65520 bs))).encode default message = .ok frame ∧
      (p.packedBy (fun bs => .ok (Zstd.encodeRun 65520 bs))).decode frame ≠ .ok message := by
  let k := Ciphers.own.chained [0x6b]
  obtain ⟨last, width, encrypted⟩ := Aes.Chained.encrypt_zeroImage (Ciphers.own_documented.chained [0x6b]) rfl 4095
  have length : (k.zeroImage 4095).length = 65535 := k.length_zeroImage 4095
  have packs : CompressionKind.zstd.Writes (fun bs => .ok (Zstd.encodeRun 65520 bs)) := by
    intro plain packed _ written
    cases Except.ok.inj written
    exact ⟨plain.length, Zstd.decode_encodeRun 65520 plain⟩
  have packed : Zstd.encodeRun 65520 (k.encrypt (k.zeroImage 4095)) = Zstd.runFrame 0 65520 last := by
    rw [encrypted]
    exact Zstd.encodeRun_run 0 (by decide) (width ▸ by decide)
  have built : build .aes256Cbc (some [0x6b]) .zstd =
      .ok ⟨.aes [0x6b], CompressionKind.zstd.build⟩ := rfl
  have encoded : (packedBy ⟨.aes [0x6b], CompressionKind.zstd.build⟩
      (fun bs => .ok (Zstd.encodeRun 65520 bs))).encode default (k.zeroImage 4095) =
        .ok (Bytes.ofNat 2 31 ++ Zstd.runFrame 0 65520 last) := by
    have total : (Zstd.runFrame 0 65520 last).length = 29 := by rw [Zstd.length_runFrame, width]
    have sealed : (Encryptor.aes [0x6b]).encrypt default (k.zeroImage 4095) =
        .ok (k.encrypt (k.zeroImage 4095)) := rfl
    have enclosed : enclose (Zstd.runFrame 0 65520 last) =
        .ok (Bytes.ofNat 2 31 ++ Zstd.runFrame 0 65520 last) := by
      rw [enclose, total]
      rfl
    exact (encode_of_active rfl sealed (congrArg Except.ok packed)).trans enclosed
  refine ⟨_, _, _, built, packs, ?_, ?_, encoded, ?_⟩
  · rw [length]
    decide
  · exact Nat.le_of_eq length
  · rw [decode_built built packs (Nat.le_of_eq length) encoded, length]
    intro same
    cases same

end Pipeline

end PeerLink
