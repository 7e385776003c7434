/-!
Byte strings and the little-endian numbers inside them. A number is written in a fixed count of bytes,
least significant first; `toNat_ofNat` says that reading undoes writing up to what fits in that count.
-/
namespace PeerLink

abbrev Bytes := List UInt8

/-- A fact about all bytes, from a look at each of the 256. -/
theorem forall_byte {P : UInt8 → Prop} (h : ∀ n : Fin 256, P (UInt8.ofNat n)) (b : UInt8) : P b := by
  have hb := h ⟨b.toNat, b.toNat_lt⟩
  simpa using hb

namespace Bytes

/-- The `width` low base-256 digits of `n`, least significant first. -/
def ofNat : (width n : Nat) → Bytes
  | 0, _ => []
  | w + 1, n => UInt8.ofNat n :: ofNat w (n / 256)

/-- The number whose base-256 digits are the bytes, least significant first. -/
def toNat : Bytes → Nat
  | [] => 0
  | b :: bs => b.toNat + 256 * toNat bs

/-- How many numbers a count of bytes tells apart. -/
def capacity : (width : Nat) → Nat
  | 0 => 1
  | w + 1 => 256 * capacity w

def split? (n : Nat) (bs : Bytes) : Option (Bytes × Bytes) :=
  let head := bs.take n
  if head.length = n then some (head, bs.drop n) else none

/-- Runs of `n + 1` bytes, in order; the last one may be shorter, none is empty. -/
def runs (n : Nat) : Bytes → List Bytes
  | [] => []
  | b :: bs => (b :: bs.take n) :: runs n (bs.drop n)
termination_by bs => bs.length
decreasing_by simp only [List.length_drop, List.length_cons]; omega

/-- Cutting loses no byte. -/
theorem flatten_runs (n : Nat) (bs : Bytes) : (runs n bs).flatten = bs := by
  fun_induction runs n bs with
  | case1 => rfl
  | case2 b bs ih => rw [List.flatten_cons, ih, List.cons_append, List.take_append_drop]

@[simp] theorem length_ofNat (w n : Nat) : (ofNat w n).length = w := by
  induction w generalizing n with
  | zero => rfl
  | succ w ih => simp [ofNat, ih]

/-- What does not fit in the digits is lost. -/
theorem toNat_ofNat (w n : Nat) : toNat (ofNat w n) = n % capacity w := by
  induction w generalizing n with
  | zero => simp [ofNat, toNat, capacity, Nat.mod_one]
  | succ w ih => rw [ofNat, toNat, ih, UInt8.toNat_ofNat', capacity, Nat.mod_mul (x := n)]

theorem toNat_lt (bs : Bytes) : toNat bs < capacity bs.length := by
  induction bs with
  | nil => simp [toNat, capacity]
  | cons b bs ih =>
    have hb := b.toNat_lt
    rw [toNat, List.length_cons, capacity]
    omega

theorem ofNat_toNat (bs : Bytes) : ofNat bs.length (toNat bs) = bs := by
  induction bs with
  | nil => rfl
  | cons b bs ih =>
    have hb := b.toNat_lt
    have hq : (b.toNat + 256 * toNat bs) / 256 = toNat bs := by omega
    have hr : UInt8.ofNat (b.toNat + 256 * toNat bs) = b := by
      apply UInt8.toNat_inj.mp
      rw [UInt8.toNat_ofNat']
      omega
    rw [List.length_cons, ofNat, toNat, hq, ih, hr]

theorem split?_append (as bs : Bytes) : split? as.length (as ++ bs) = some (as, bs) := by
  simp [split?]

theorem split?_eq_some {n : Nat} {bs head rest : Bytes} (h : split? n bs = some (head, rest)) :
    bs = head ++ rest ∧ head.length = n := by
  simp only [split?] at h
  split at h
  · next hn =>
    simp only [Option.some.injEq, Prod.mk.injEq] at h
    obtain ⟨rfl, rfl⟩ := h
    exact ⟨(List.take_append_drop n bs).symm, hn⟩
  · cases h

theorem split?_eq_none_iff {n : Nat} {bs : Bytes} : split? n bs = none ↔ bs.length < n := by
  simp only [split?]
  split
  · next hn =>
    rw [List.length_take] at hn
    simp only [reduceCtorEq, false_iff]
    omega
  · next hn =>
    rw [List.length_take] at hn
    simp only [true_iff]
    omega

end Bytes

end PeerLink
