import PeerLink.Compression.Repeats

/-!
The LZ4 block format behind the size of the message in four bytes. A block is a row of sequences: a byte
with the two lengths, longer lengths continued in further bytes, the literal bytes, and the distance
of the repeat; the last sequence ends after its literals. The size in front is the most that a block
may unfold to.
-/
namespace PeerLink.Lz4

abbrev minimumRepeat : Nat := 4

/-- Continues a length: bytes of 255 and then one that is less. -/
def lengthMore : Nat → Bytes → Option (Nat × Bytes)
  | _, [] => none
  | n, b :: bs => if b = 255 then lengthMore (n + 255) bs else some (n + b.toNat, bs)

/-- A length that starts in half a byte; 15 means that it goes on. -/
def lengthFrom (half : Nat) (bs : Bytes) : Option (Nat × Bytes) :=
  if half = 15 then lengthMore 15 bs else some (half, bs)

theorem length_lengthMore {n m : Nat} {bs rest : Bytes} (h : lengthMore n bs = some (m, rest)) :
    rest.length ≤ bs.length := by
  induction bs generalizing n with
  | nil => cases h
  | cons b bs ih =>
    unfold lengthMore at h
    split at h
    · have := ih h; simp only [List.length_cons]; omega
    · cases h; simp only [List.length_cons]; omega

theorem length_lengthFrom {half m : Nat} {bs rest : Bytes} (h : lengthFrom half bs = some (m, rest)) :
    rest.length ≤ bs.length := by
  unfold lengthFrom at h
  split at h
  · exact length_lengthMore h
  · cases h; exact Nat.le_refl _

/-- What one sequence holds. The last one has no repeat. -/
structure Sequence where
  literals : Bytes
  back : Option (Nat × Nat)

def readSequence : Bytes → Option (Sequence × Bytes)
  | [] => none
  | token :: bs =>
    match lengthFrom (token.toNat / 16) bs with
    | none => none
    | some (n, bs) =>
      match Bytes.split? n bs with
      | none => none
      | some (literals, []) => some (⟨literals, none⟩, [])
      | some (_, [_]) => none
      | some (literals, low :: high :: bs) =>
        match lengthFrom (token.toNat % 16) bs with
        | none => none
        | some (m, bs) =>
          some (⟨literals, some (Bytes.toNat [low, high], m + minimumRepeat)⟩, bs)

/-- A sequence takes at least its first byte, so the sequences of a block come to an end. -/
theorem length_readSequence {bs rest : Bytes} {s : Sequence} (h : readSequence bs = some (s, rest)) :
    rest.length < bs.length := by
  cases bs with
  | nil => cases h
  | cons token bs =>
    rw [readSequence] at h
    cases h₁ : lengthFrom (token.toNat / 16) bs with
    | none => rw [h₁] at h; cases h
    | some p =>
      obtain ⟨n, bs₁⟩ := p
      have l₁ := length_lengthFrom h₁
      rw [h₁] at h
      cases h₂ : Bytes.split? n bs₁ with
      | none => simp only [h₂] at h; cases h
      | some q =>
        obtain ⟨literals, tail⟩ := q
        have l₂ := congrArg List.length (Bytes.split?_eq_some h₂).1
        rw [List.length_append] at l₂
        rw [List.length_cons]
        rcases tail with _ | ⟨low, _ | ⟨high, bs₂⟩⟩
        · simp only [h₂] at h; cases h; simp only [List.length_nil]; omega
        · simp only [h₂] at h; cases h
        · simp only [h₂] at h
          cases h₃ : lengthFrom (token.toNat % 16) bs₂ with
          | none => simp only [h₃] at h; cases h
          | some r =>
            have l₃ := length_lengthFrom h₃
            simp only [h₃] at h
            cases h
            simp only [List.length_cons] at l₂
            omega

/-- Unfolds the sequences of a block behind `out`, to at most `limit` bytes in all. -/
def unfold (limit : Nat) (bs : Bytes) (out : Array UInt8) : Option (Array UInt8) :=
  match _h : readSequence bs with
  | none => none
  | some (⟨literals, back⟩, rest) =>
    let out := out ++ literals.toArray
    if limit < out.size then none
    else
      match back with
      | none => some out
      | some (distance, length) =>
        if distance = 0 ∨ out.size < distance ∨ limit < out.size + length then none
        else unfold limit rest (Repeat.extend out distance length)
termination_by bs.length
decreasing_by exact length_readSequence _h

/-- The message of a block behind its size, if the size is within `limit`. -/
def decode (limit : Nat) (bs : Bytes) : Option Bytes :=
  match Bytes.split? 4 bs with
  | none => none
  | some (head, block) =>
    let size := Bytes.toNat head
    if limit < size then none else (unfold size block #[]).map Array.toList

/-- The bytes that continue a length of `n + 15`. -/
def moreBytes (n : Nat) : Bytes :=
  List.replicate (n / 255) 255 ++ [UInt8.ofNat (n % 255)]

/-- The first half of a length and the bytes that continue it. -/
def lengthBytes (n : Nat) : Nat × Bytes :=
  if n < 15 then (n, []) else (15, moreBytes (n - 15))

def writeLast (literals : Bytes) : Bytes :=
  let (half, more) := lengthBytes literals.length
  UInt8.ofNat (16 * half) :: (more ++ literals)

def writeRepeat (r : Repeat) : Bytes :=
  let (half, more) := lengthBytes r.literals.length
  let (half', more') := lengthBytes (r.length - minimumRepeat)
  UInt8.ofNat (16 * half + half') :: (more ++ r.literals ++ Bytes.ofNat 2 r.distance ++ more')

/-- The size of a message and a block without repeats. -/
def store (bs : Bytes) : Bytes :=
  Bytes.ofNat 4 bs.length ++ writeLast bs

/-- The size of a message and a block with the repeats found in it. The last five bytes are literal, and
no repeat begins in the last twelve. -/
def shorten (bs : Bytes) : Bytes :=
  let data := bs.toArray
  let (repeats, tail) := Repeat.factor data (data.size - 12) (data.size - 5)
  Bytes.ofNat 4 data.size ++ repeats.flatMap writeRepeat ++ writeLast tail

/-- A block that decodes to the message: the one with repeats if reading it back proves it right. -/
def encode (bs : Bytes) : Bytes :=
  let out := shorten bs
  if decode bs.length out = some bs then out else store bs

end PeerLink.Lz4
