import PeerLink.Compression.Zstd.Block
import PeerLink.Compression.Zstd.XxHash

/-!
Zstandard frames. A message is a row of frames; a frame is a header, blocks up to the one marked last,
and a checksum where the header says so. Frames of another kind are skipped. A message that ends inside
a frame, or that unfolds to more than its limit, is refused.
-/
namespace PeerLink.Zstd

def magic : Bytes := [0x28, 0xb5, 0x2f, 0xfd]

/-- The largest window that a frame may ask for. -/
abbrev windowLimit : Nat := 0x8000001

/-- A frame that announces at most this many bytes is unfolded in one go, whatever window it asks for. -/
abbrev oneGo : Nat := 8192

structure Header where
  window : Nat
  /-- The count of bytes that the frame says it unfolds to. -/
  announced : Option Nat
  checked : Bool

/-- The window of a byte: a power of two and some eighths of it. -/
def windowSize (b : UInt8) : Nat :=
  let base := 1 <<< (10 + b.toNat / 8)
  base + base / 8 * (b.toNat % 8)

/-- Reads the header behind the first four bytes. A dictionary cannot be asked for by number. -/
def Header.read? : Bytes → Option (Header × Bytes)
  | [] => none
  | descriptor :: bs => do
    let d := descriptor.toNat
    let single := d / 32 % 2 = 1
    if d / 8 % 2 = 1 then none
    let (window, bs) ←
      if single then some (none, bs)
      else
        match bs with
        | [] => none
        | b :: bs => if b.toNat / 8 ≤ 21 then some (some (windowSize b), bs) else none
    let (dictionary, bs) ← Bytes.split? ([0, 1, 2, 4].getD (d % 4) 0) bs
    if Bytes.toNat dictionary ≠ 0 then none
    let width := if d / 64 = 0 ∧ single then 1 else [0, 2, 4, 8].getD (d / 64) 0
    let (size, bs) ← Bytes.split? width bs
    let announced := if width = 0 then none
      else some (Bytes.toNat size + if width = 2 then 256 else 0)
    let window := window.getD (announced.getD 0)
    if windowLimit < window ∧ oneGo < announced.getD windowLimit then none
    return (⟨window, announced, d / 4 % 2 = 1⟩, bs)

/-- One block behind `out`: whether it is the last, and what it leaves. -/
def block? (limit : Nat) (carry : Carry) (bs : Bytes) (out : Array UInt8) :
    Option (Bool × Array UInt8 × Carry × Bytes) :=
  match Bytes.split? 3 bs with
  | none => none
  | some (head, bs) =>
    let head := Bytes.toNat head
    let size := head / 8
    let last := head % 2 = 1
    if limit < size then none
    else
      match head / 2 % 4 with
      | 0 =>
        match Bytes.split? size bs with
        | none => none
        | some (run, bs) => some (last, out ++ run.toArray, carry, bs)
      | 1 =>
        match bs with
        | [] => none
        | b :: bs => some (last, out ++ Array.replicate size b, carry, bs)
      | 2 =>
        match Bytes.split? size bs with
        | none => none
        | some (content, bs) =>
          match unfoldBlock limit carry content out with
          | none => none
          | some (out, carry) => some (last, out, carry, bs)
      | _ => none

/-- A block takes at least the bytes of its header, so the blocks of a frame come to an end. -/
theorem length_block? {limit : Nat} {carry carry' : Carry} {bs rest : Bytes} {out out' : Array UInt8}
    {last : Bool} (h : block? limit carry bs out = some (last, out', carry', rest)) :
    rest.length < bs.length := by
  unfold block? at h
  cases hs : Bytes.split? 3 bs with
  | none => simp only [hs] at h; cases h
  | some p =>
    obtain ⟨head, body⟩ := p
    have hl := Bytes.split?_eq_some hs
    have hlen := congrArg List.length hl.1
    rw [List.length_append, hl.2] at hlen
    simp only [hs] at h
    split at h
    · cases h
    · split at h
      · cases hr : Bytes.split? (Bytes.toNat head / 8) body with
        | none => simp only [hr] at h; cases h
        | some q =>
          have := congrArg List.length (Bytes.split?_eq_some hr).1
          rw [List.length_append] at this
          simp only [hr, Option.some.injEq, Prod.mk.injEq] at h
          rw [← h.2.2.2]
          omega
      · cases body with
        | nil => cases h
        | cons b body =>
          simp only [Option.some.injEq, Prod.mk.injEq] at h
          rw [List.length_cons] at hlen
          rw [← h.2.2.2]
          omega
      · cases hr : Bytes.split? (Bytes.toNat head / 8) body with
        | none => simp only [hr] at h; cases h
        | some q =>
          have := congrArg List.length (Bytes.split?_eq_some hr).1
          rw [List.length_append] at this
          simp only [hr] at h
          split at h
          · cases h
          · simp only [Option.some.injEq, Prod.mk.injEq] at h
            rw [← h.2.2.2]
            omega
      · cases h

/-- The blocks of a frame, unfolded behind `out` to at most `limit` bytes in all. -/
def blocks? (limit blockMax : Nat) (carry : Carry) (bs : Bytes) (out : Array UInt8) :
    Option (Array UInt8 × Bytes) :=
  match _h : block? blockMax carry bs out with
  | none => none
  | some (last, out, carry, rest) =>
    if limit < out.size then none
    else if last then some (out, rest)
    else blocks? limit blockMax carry rest out
termination_by bs.length
decreasing_by exact length_block? _h

/-- Checks what a frame announced and its checksum; gives what follows the frame. -/
def Header.finish? (h : Header) (out : Array UInt8) (bs : Bytes) : Option Bytes :=
  if h.announced.any (· ≠ out.size) then none
  else if h.checked then
    match Bytes.split? 4 bs with
    | none => none
    | some (sum, bs) =>
      if Bytes.toNat sum = (XxHash.hash out.toList).toNat % 0x100000000 then some bs else none
  else some bs

/-- One frame, unfolded to at most `limit` bytes, and what follows it. -/
def frame? (limit : Nat) (bs : Bytes) : Option (Array UInt8 × Bytes) := do
  let (head, bs) ← Bytes.split? 4 bs
  if head = magic then
    let (header, bs) ← Header.read? bs
    let (out, bs) ← blocks? limit (min header.window blockLimit) .start bs #[]
    return (out, ← header.finish? out bs)
  else if Bytes.toNat head / 16 = 0x184d2a5 then
    let (size, bs) ← Bytes.split? 4 bs
    let (_, bs) ← Bytes.split? (Bytes.toNat size) bs
    return (#[], bs)
  else none

/-- The frames of a message, at most `fuel` of them, behind `out`. -/
def frames? (limit : Nat) : (fuel : Nat) → Bytes → Array UInt8 → Option (Array UInt8)
  | 0, _, _ => none
  | fuel + 1, bs, out => do
    let (more, rest) ← frame? (limit - out.size) bs
    let out := out ++ more
    if rest.isEmpty then return out
    frames? limit fuel rest out

/-- The message that a row of frames stands for, if it has at most `limit` bytes. Each frame takes at least
one byte, so the count of bytes bounds that of frames. -/
def decode (limit : Nat) (bs : Bytes) : Option Bytes :=
  (frames? limit bs.length bs #[]).map Array.toList

end PeerLink.Zstd
