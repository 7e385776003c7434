import PeerLink.Bytes

/-!
Hexadecimal text: bytes as pairs of digits in their order, and numbers with the most significant digit
first. Written digits are lower case, read ones may be of either case.
-/
namespace PeerLink.Hex

def digit (n : Nat) : Char := if n < 10 then .ofNat (48 + n) else .ofNat (87 + n)

def value? (c : Char) : Option Nat :=
  if '0' ≤ c ∧ c ≤ '9' then some (c.toNat - 48)
  else if 'a' ≤ c ∧ c ≤ 'f' then some (c.toNat - 87)
  else if 'A' ≤ c ∧ c ≤ 'F' then some (c.toNat - 55)
  else none

theorem value?_digit {n : Nat} (h : n < 16) : value? (digit n) = some n :=
  (by decide : ∀ n : Fin 16, value? (digit n.val) = some n.val) ⟨n, h⟩

/-- The low digits of a number, as many as wanted. -/
def digits : (count n : Nat) → List Char
  | 0, _ => []
  | count + 1, n => digits count (n / 16) ++ [digit (n % 16)]

def ofNat (count n : Nat) : String := String.ofList (digits count n)

def toNat? (s : String) : Option Nat := s.toList.foldlM (fun n c => (n * 16 + ·) <$> value? c) 0

/-- Bytes as pairs of digits. -/
def encodeList (bs : Bytes) : List Char :=
  bs.flatMap fun b => [digit (b.toNat / 16), digit (b.toNat % 16)]

/-- The bytes of pairs of digits. -/
def decodeList? : List Char → Option Bytes
  | [] => some []
  | [_] => none
  | a :: b :: cs => do
    let high ← value? a
    let low ← value? b
    return UInt8.ofNat (high * 16 + low) :: (← decodeList? cs)

theorem decodeList?_encodeList (bs : Bytes) : decodeList? (encodeList bs) = some bs := by
  induction bs with
  | nil => rfl
  | cons b bs ih =>
    have hb := b.toNat_lt
    have hv : UInt8.ofNat (b.toNat / 16 * 16 + b.toNat % 16) = b := by
      rw [Nat.div_add_mod', UInt8.ofNat_toNat]
    rw [encodeList, List.flatMap_cons, ← encodeList]
    simp only [List.cons_append, List.nil_append, decodeList?,
      value?_digit (show b.toNat / 16 < 16 by omega), value?_digit (show b.toNat % 16 < 16 by omega), ih,
      Option.bind_eq_bind, Option.bind_some, hv]
    rfl

def encode (bs : Bytes) : String := String.ofList (encodeList bs)

def decode? (s : String) : Option Bytes := decodeList? s.toList

/-- Bytes that are written are read again. -/
theorem decode?_encode (bs : Bytes) : decode? (encode bs) = some bs := by
  rw [decode?, encode, String.toList_ofList]
  exact decodeList?_encodeList bs

end PeerLink.Hex
