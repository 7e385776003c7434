import PeerLink.Fault.Object
import PeerLink.Proofs.Block

/-!
Faults that were sent as nested objects. Writing counts all constructors and reading only those that can be read, so
what is read is two constructors further on: some faults turn into another one, and the fields of the others
are no fields of what they are taken for.
-/
namespace PeerLink

namespace ObjectFormat

variable {n : Nat} {s : String} {out : Bytes}

theorem write_number {width : Nat} (written : (number width).write n = some out) :
    n < Bytes.capacity width ∧ out = Bytes.ofNat width n := by
  simp only [number] at written
  split at written
  · next small =>
    cases written
    exact ⟨small, rfl⟩
  · cases written

theorem read_number (width n : Nat) (rest : Bytes) :
    (number width).read (Bytes.ofNat width n ++ rest) = some (n % Bytes.capacity width, rest) := by
  simp only [number, Reader.nat_ofNat_append]
  rfl

theorem lossless_number (width : Nat) : (number width).Lossless := by
  intro n out rest written
  obtain ⟨small, rfl⟩ := write_number written
  rw [read_number, Nat.mod_eq_of_lt small]

theorem lossless_bytes : bytes.Lossless := by
  intro v out rest written
  obtain ⟨count, counted, rfl⟩ := Option.map_eq_some_iff.mp written
  have read := lossless_number 8 v.length count (v ++ rest) counted
  simp only [bytes, List.append_assoc, read, Option.bind_eq_bind, Option.bind_some, Bytes.split?_append]

theorem lossless_text : text.Lossless := by
  intro s out rest written
  have read := lossless_bytes s.toUTF8.toList out rest written
  simp only [text, read, Option.bind_eq_bind, Option.bind_some, Block.fromUTF8?_toUTF8]
  rfl

end ObjectFormat

namespace Fault

variable {e : Fault} {fields out : Bytes}

/-- A number taken for the length of a text, and the bytes of another one for the text. -/
def asText? (declared actual : Nat) : Option String :=
  (Bytes.split? declared (Bytes.ofNat 8 actual)).bind fun (raw, _) => String.fromUTF8? raw.toByteArray

/-- What a fault is read as, if as anything. -/
def misread : Fault → Option Fault
  | .bufferUnderrun needed _ => some (.oversizedFrame needed)
  | .lengthMismatch declared actual => (asText? declared actual).map .malformedBlock
  | .oversizedFrame size => some (.valueOutOfRange (size % Bytes.capacity 4))
  | .malformedBlock reason => some (.invalidPack reason)
  | .invalidPack _ => some .decryptionFailure
  | .missingKey _ => some .encryptionFailure
  | .decryptionFailure => some .compressionFailure
  | .encryptionFailure => some .decompressionFailure
  | .duplicateAction _ => some .handshakeRejected
  | .handshake _ => some .connectionClosed
  | .connectionClosed => some .timeout
  | .transport reason => some (.config reason)
  | _ => none

theorem position_misread {other : Fault} (read : e.misread = some other) :
    other.position = e.position + unreadable := by
  cases e with
  | lengthMismatch declared actual =>
    obtain ⟨reason, -, rfl⟩ := Option.map_eq_some_iff.mp read
    rfl
  | _ => cases read <;> rfl

theorem write_format (written : format.write e = some out) :
    ∃ fields, e.writeFields = some fields ∧ out = Bytes.ofNat 4 e.position ++ fields := by
  simp only [format, Option.bind_eq_bind, Option.bind_eq_some_iff] at written
  obtain ⟨index, indexed, fields, inside, ⟨⟩⟩ := written
  obtain ⟨-, rfl⟩ := ObjectFormat.write_number indexed
  exact ⟨fields, inside, rfl⟩

theorem read_format (e : Fault) (fields : Bytes) :
    format.read (Bytes.ofNat 4 e.position ++ fields) = readFields (unreadable + e.position) fields := by
  have small : e.position % Bytes.capacity 4 = e.position := by cases e <;> rfl
  have index := ObjectFormat.read_number 4 e.position fields
  rw [small] at index
  simp only [format, bind, StateT.bind, index, Option.bind_some]

theorem map_readField {α : Type} (item : ObjectReader α) (make : α → Fault) (bs : Bytes) :
    ((do return make (← item) : ObjectReader Fault) bs).map Prod.fst = ((item bs).map Prod.fst).map make := by
  simp only [bind, StateT.bind]
  cases item bs with
  | none => rfl
  | some read => rfl

theorem readFields_text {s : String} {make : String → Fault} (written : ObjectFormat.text.write s = some fields) :
    ((do return make (← ObjectFormat.text.read) : ObjectReader Fault) fields).map Prod.fst = some (make s) := by
  have read := ObjectFormat.lossless_text s fields [] written
  rw [List.append_nil] at read
  rw [map_readField, read]
  rfl

theorem write_numbers {a b : Nat} (written : ((ObjectFormat.number 8).pair (ObjectFormat.number 8)).write (a, b) = some fields) :
    a < Bytes.capacity 8 ∧ fields = Bytes.ofNat 8 a ++ Bytes.ofNat 8 b := by
  simp only [ObjectFormat.pair, Option.bind_eq_bind, Option.bind_eq_some_iff] at written
  obtain ⟨first, one, second, two, ⟨⟩⟩ := written
  obtain ⟨small, rfl⟩ := ObjectFormat.write_number one
  obtain ⟨-, rfl⟩ := ObjectFormat.write_number two
  exact ⟨small, rfl⟩

theorem readFields_writeFields (written : e.writeFields = some fields) :
    (readFields (unreadable + e.position) fields).map Prod.fst = e.misread := by
  cases e with
  | io | serialization => cases written
  | malformedBlock | transport => exact readFields_text written
  | bufferUnderrun needed remaining =>
    obtain ⟨small, rfl⟩ := write_numbers written
    refine (map_readField (ObjectFormat.number 8).read .oversizedFrame _).trans ?_
    rw [ObjectFormat.read_number, Nat.mod_eq_of_lt small]
    rfl
  | lengthMismatch declared actual =>
    obtain ⟨small, rfl⟩ := write_numbers written
    refine (map_readField ObjectFormat.text.read .malformedBlock _).trans (congrArg (Option.map _) ?_)
    simp only [ObjectFormat.text, ObjectFormat.bytes, ObjectFormat.read_number, Nat.mod_eq_of_lt small, asText?,
      Option.bind_eq_bind, Option.bind_some]
    cases Bytes.split? declared (Bytes.ofNat 8 actual) with
    | none => rfl
    | some run =>
      simp only [Option.bind_some]
      cases String.fromUTF8? run.1.toByteArray with
      | none => rfl
      | some reason => rfl
  | oversizedFrame size =>
    obtain ⟨-, rfl⟩ := ObjectFormat.write_number written
    refine (map_readField (ObjectFormat.number 4).read .valueOutOfRange _).trans ?_
    have low : Bytes.ofNat 8 size = Bytes.ofNat 4 size ++ Bytes.ofNat 4 (size / 256 / 256 / 256 / 256) := rfl
    rw [low, ObjectFormat.read_number]
    rfl
  | valueOutOfRange value =>
    obtain ⟨-, rfl⟩ := ObjectFormat.write_number written
    rfl
  | compressionFailure | decompressionFailure | handshakeRejected | timeout =>
    cases written
    rfl
  | _ => rfl

/-- What follows the object plays no part, and no fault is read as itself. -/
theorem decode_encode_fault (encoded : (Block.object format).encode e = .ok out) (rest : Bytes) :
    (Block.object format).decode (out ++ rest) =
        e.misread.elim (.error (.serialization "bytes are no written form")) (fun other => .ok (other, rest)) ∧
      (Block.object format).decode (out ++ rest) ≠ .ok (e, rest) := by
  have read : (Block.object format).decode (out ++ rest) =
      e.misread.elim (.error (.serialization "bytes are no written form")) (fun other => .ok (other, rest)) := by
    rw [Block.encode] at encoded
    split at encoded
    · next raw written =>
      obtain ⟨fields, inside, rfl⟩ := write_format written
      rw [← readFields_writeFields inside]
      simp only [Block.decode, Reader.prefixed_withPrefix encoded, read_format]
      cases readFields (unreadable + e.position) fields with
      | none => rfl
      | some taken => rfl
    · cases encoded
  refine ⟨read, ?_⟩
  rw [read]
  cases known : e.misread with
  | none =>
    intro same
    cases same
  | some other =>
    intro same
    cases same
    have further := position_misread known
    simp [unreadable] at further

/-- The missing bytes of an underrun turn into the size of a frame. -/
theorem decode_encode_fault_underrun :
    (Block.object format).encode (.bufferUnderrun 8 3) =
        .ok [20, 0, 2, 0, 0, 0, 8, 0, 0, 0, 0, 0, 0, 0, 3, 0, 0, 0, 0, 0, 0, 0] ∧
      (Block.object format).decode [20, 0, 2, 0, 0, 0, 8, 0, 0, 0, 0, 0, 0, 0, 3, 0, 0, 0, 0, 0, 0, 0, 7] =
        .ok (.oversizedFrame 8, [7]) := by
  have encoded : (Block.object format).encode (.bufferUnderrun 8 3) =
      .ok [20, 0, 2, 0, 0, 0, 8, 0, 0, 0, 0, 0, 0, 0, 3, 0, 0, 0, 0, 0, 0, 0] := rfl
  exact ⟨encoded, (decode_encode_fault encoded [7]).1⟩

/-- A closed connection arrives as a timeout, and a timeout not at all. -/
theorem timeout_lost :
    (Block.object format).encode .connectionClosed = .ok [4, 0, 16, 0, 0, 0] ∧
      (Block.object format).decode [4, 0, 16, 0, 0, 0] = .ok (.timeout, []) ∧
      (Block.object format).encode .timeout = .ok [4, 0, 18, 0, 0, 0] ∧
      (Block.object format).decode [4, 0, 18, 0, 0, 0] = .error (.serialization "bytes are no written form") := by
  exact ⟨rfl, rfl, rfl, rfl⟩

end Fault

end PeerLink
