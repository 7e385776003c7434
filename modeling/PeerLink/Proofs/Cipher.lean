import PeerLink.Cipher
import PeerLink.Proofs.Cipher.Aes

/-! Every strategy that can be built undoes what it did, whatever nonce it drew, and the length of a
message alone decides how long it gets. Of the ciphers only what is documented of them is used, and the ciphers of this
library keep to it. -/
namespace PeerLink

/-- Combining with a row that is long enough can be undone place by place. -/
theorem zipWith_undo {α β : Type} {f g : α → β → α} (undo : ∀ a b, g (f a b) b = a)
    {as : List α} {bs : List β} (h : as.length ≤ bs.length) :
    List.zipWith g (List.zipWith f as bs) bs = as := by
  induction as generalizing bs with
  | nil => rfl
  | cons a as ih =>
    cases bs with
    | nil => contradiction
    | cons b bs =>
      simp only [List.zipWith_cons_cons, undo, ih (Nat.le_of_succ_le_succ h)]

theorem length_flatMap_const {α : Type} {f : α → Bytes} {n : Nat} (h : ∀ a, (f a).length = n)
    (as : List α) : (as.flatMap f).length = n * as.length := by
  induction as with
  | nil => rfl
  | cons a as ih =>
    rw [List.flatMap_cons, List.length_append, ih, h, List.length_cons, Nat.mul_succ, Nat.add_comm]

/-! ### Keys from passwords -/

theorem PasswordKey.length_derive (password : Bytes) (context : String) (n : Nat) :
    (derive password context n).length = n := by
  have whole : ∀ (m : Hmac) (salt : Bytes) (i : Nat), (block m salt i).length = 32 := fun _ _ _ => rfl
  simp only [derive, List.length_take, length_flatMap_const (fun i => whole _ _ (i + 1)), List.length_range]
  omega

/-! ### Sealed messages -/

namespace ChaCha

theorem Row.length_toBytes (r : Row) : r.toBytes.length = 16 := by
  simp [Row.toBytes]

theorem Key.length_block (k : Key) (nonce : Bytes) (number : Nat) :
    (k.block nonce number).length = 64 := by
  simp only [Key.block, List.length_append, Row.length_toBytes]

theorem Key.length_stream (k : Key) (nonce : Bytes) (number n : Nat) :
    n ≤ (k.stream nonce number n).length := by
  have total : (k.stream nonce number n).length = 64 * ((n + 63) / 64) := by
    rw [Key.stream, length_flatMap_const (fun i => k.length_block nonce (number + i)), List.length_range]
  omega

theorem Key.length_apply (k : Key) (nonce : Bytes) (number : Nat) (bs : Bytes) :
    (k.apply nonce number bs).length = bs.length := by
  have enough := k.length_stream nonce number bs.length
  rw [Key.apply, List.length_zipWith, Nat.min_eq_left enough]

theorem Key.apply_apply (k : Key) (nonce : Bytes) (number : Nat) (bs : Bytes) :
    k.apply nonce number (k.apply nonce number bs) = bs := by
  have same : k.apply nonce number (k.apply nonce number bs) =
      List.zipWith (· ^^^ ·) (k.apply nonce number bs) (k.stream nonce number bs.length) := by
    rw [Key.apply, k.length_apply]
  rw [same]
  exact zipWith_undo Aes.xor_cancel_right (k.length_stream nonce number bs.length)

end ChaCha

namespace Sealed

theorem length_tag (k : ChaCha.Key) (nonce hidden : Bytes) : (tag k nonce hidden).length = tagLength :=
  Bytes.length_ofNat 16 _

theorem length_lock (key : ChaCha.Key) (nonce bs : Bytes) : (lock key nonce bs).length = bs.length + tagLength := by
  simp only [lock, List.length_append, ChaCha.Key.length_apply, length_tag]

theorem unlock?_lock (key : ChaCha.Key) (nonce bs : Bytes) : unlock? key nonce (lock key nonce bs) = some bs := by
  rw [unlock?, length_lock, Nat.add_sub_cancel, lock]
  have hidden := ChaCha.Key.length_apply (key.forNonce (nonce.take 16)) (nonce.drop 16) 1 bs
  simp only [List.take_left' hidden, List.drop_left' hidden, if_true, ChaCha.Key.apply_apply]

end Sealed

/-! ### Strategies -/

namespace Encryptor

theorem length_cycle {key : Bytes} (h : key ≠ []) (n : Nat) : (cycle key n).length = n := by
  have pos : 0 < key.length := List.length_pos_iff.mpr h
  have total : ∀ q, (List.replicate q key).flatten.length = q * key.length := by
    intro q
    induction q with
    | zero => simp
    | succ q ih =>
      rw [List.replicate_succ, List.flatten_cons, List.length_append, ih, Nat.succ_mul, Nat.add_comm]
  have enough : n ≤ (n + key.length - 1) / key.length * key.length := by
    have split := Nat.div_add_mod (n + key.length - 1) key.length
    have rest := Nat.mod_lt (n + key.length - 1) pos
    rw [Nat.mul_comm] at split
    omega
  rw [cycle, List.length_take, total, Nat.min_eq_left enough]

/-- The byte and the place that each byte of a message is shifted by. -/
def signs (key : Bytes) (n : Nat) : List (UInt8 × Nat) :=
  List.zip (cycle key n) (List.range n)

theorem length_signs {key : Bytes} (h : key ≠ []) (n : Nat) : (signs key n).length = n := by
  rw [signs, List.length_zip, length_cycle h, List.length_range, Nat.min_self]

/-- What `shift` does to one byte. -/
def turn (alternating forward : Bool) (b : UInt8) (s : UInt8 × Nat) : UInt8 :=
  if forward ^^ (alternating && s.2 % 2 == 1) then b + s.1 else b - s.1

theorem shift_eq (key : Bytes) (alternating forward : Bool) (bs : Bytes) :
    shift key alternating forward bs = List.zipWith (turn alternating forward) bs (signs key bs.length) :=
  rfl

/-- Each direction undoes the other. -/
theorem turn_turn (alternating forward : Bool) (b : UInt8) (s : UInt8 × Nat) :
    turn alternating (!forward) (turn alternating forward b s) s = b := by
  unfold turn
  rw [Bool.not_xor]
  cases forward ^^ (alternating && s.2 % 2 == 1)
  · exact UInt8.sub_add_cancel b s.1
  · exact UInt8.add_sub_cancel b s.1

theorem length_shift {key : Bytes} (h : key ≠ []) (alternating forward : Bool) (bs : Bytes) :
    (shift key alternating forward bs).length = bs.length := by
  rw [shift_eq, List.length_zipWith, length_signs h, Nat.min_self]

theorem shift_shift {key : Bytes} (h : key ≠ []) (alternating forward : Bool) (bs : Bytes) :
    shift key alternating (!forward) (shift key alternating forward bs) = bs := by
  rw [shift_eq key alternating (!forward), length_shift h, shift_eq]
  exact zipWith_undo (turn_turn alternating forward) (Nat.le_of_eq (length_signs h bs.length).symm)

end Encryptor

namespace Ciphers

variable {c : Ciphers}

/-- What is documented of the ciphers: key material has the length asked for, under a key of 32 bytes the block cipher
is a permutation and its inverse, padding is strict, and what was locked under a nonce is unlocked under it, sixteen
bytes longer. -/
structure Documented (c : Ciphers) : Prop where
  length_derive : ∀ password purpose n, (c.derive password purpose n).length = n
  blockCipher : ∀ key : Bytes, key.length = 32 → (c.blockCipher key).Lawful
  length_pad : ∀ bs, (c.pad bs).length = 16 * (bs.length / 16 + 1)
  unpad?_pad : ∀ bs, c.unpad? (c.pad bs) = some bs
  pad_of_unpad? : ∀ bs plain, bs.length % 16 = 0 → c.unpad? bs = some plain → c.pad plain = bs
  lock : ∀ key : Bytes, key.length = 32 → ∀ (nonce : Nonce) (bs sealed : Bytes),
    (c.sealer key).lock nonce.bytes bs = some sealed →
      sealed.length = bs.length + Sealed.tagLength ∧ (c.sealer key).unlock? nonce.bytes sealed = some bs

theorem own_documented : own.Documented where
  length_derive := PasswordKey.length_derive
  blockCipher key _ := (Aes.Keys.ofBytes key).lawful_cipher
  length_pad := Aes.length_pad
  unpad?_pad := Aes.unpad?_pad
  pad_of_unpad? _ _ := Aes.pad_of_unpad?
  lock key _ nonce bs _ locked := by
    cases locked
    exact ⟨Sealed.length_lock _ nonce.bytes bs, Sealed.unlock?_lock _ nonce.bytes bs⟩

theorem Documented.chained (documented : c.Documented) (password : Bytes) : (c.chained password).Lawful where
  cipher := by
    apply documented.blockCipher
    rw [List.length_take, documented.length_derive]
    rfl
  length_pad := documented.length_pad
  unpad?_pad := documented.unpad?_pad
  pad_of_unpad? := documented.pad_of_unpad?

theorem decrypt_aes (password bs plain : Bytes) :
    (c.aes password).decrypt bs = .ok plain ↔ (c.chained password).decrypt? bs = some plain := by
  simp only [aes]
  cases (c.chained password).decrypt? bs <;> simp

theorem encrypt_xchacha {password bs sealed : Bytes} {drawn : Draw} :
    (c.xchacha password).encrypt drawn bs = .ok sealed ↔
      ∃ nonce locked, drawn = some nonce ∧ (c.sealerOf password).lock nonce.bytes bs = some locked ∧
        sealed = nonce.bytes ++ locked := by
  simp only [xchacha]
  cases drawn with
  | none => simp
  | some nonce => cases locked : (c.sealerOf password).lock nonce.bytes bs <;> simp [locked, eq_comm]

/-- The nonce in front is where the length says, and it opens what is behind it. -/
theorem decrypt_xchacha (documented : c.Documented) {password bs locked : Bytes} {nonce : Nonce}
    (sealed : (c.sealerOf password).lock nonce.bytes bs = some locked) :
    (nonce.bytes ++ locked).length = bs.length + 40 ∧
      (c.xchacha password).decrypt (nonce.bytes ++ locked) = .ok bs := by
  obtain ⟨length, unlocked⟩ := documented.lock _ (documented.length_derive ..) nonce bs locked sealed
  have total : (nonce.bytes ++ locked).length = bs.length + 40 := by
    rw [List.length_append, nonce.length_eq, length]
    exact Nat.add_left_comm 24 bs.length 16
  have long : ¬(nonce.bytes ++ locked).length < 24 + Sealed.tagLength := by
    rw [total]
    exact Nat.not_lt.mpr (Nat.le_add_left 40 bs.length)
  refine ⟨total, ?_⟩
  simp only [xchacha, if_neg long, List.take_left' nonce.length_eq, List.drop_left' nonce.length_eq]
  rw [sealerOf, unlocked]

end Ciphers

def EncryptionKind.sealedLength : EncryptionKind → (n : Nat) → Nat
  | aes256Cbc, n => 16 * (n / 16 + 1)
  | xchacha20Poly1305, n => n + 40
  | _, n => n

namespace Ciphers

variable {c : Ciphers} {kind : EncryptionKind} {key : Option Bytes} {e : Encryptor} {drawn : Draw} {bs : Bytes}

/-- The strategy under a key that is good enough for it. -/
def strategy (c : Ciphers) : EncryptionKind → (key : Bytes) → Encryptor
  | .none, _ => .identity
  | .reverse, _ => .reverse
  | .bitFlip, _ => .bitFlip
  | .xor, key => .xor key
  | .substitution, key => .substitution key false
  | .substitutionShift, key => .substitution key true
  | .aes256Cbc, key => c.aes key
  | .xchacha20Poly1305, key => c.xchacha key

theorem strategy_of_build (built : c.build kind key = .ok e) :
    (kind.requiresKey = true → key.getD [] ≠ []) ∧ e = c.strategy kind (key.getD []) := by
  unfold build at built
  simp only at built
  split at built
  · cases built
  · next keyed =>
    refine ⟨?_, ?_⟩
    · intro required empty
      simp [required, empty] at keyed
    · cases kind <;> exact (Except.ok.inj built).symm

theorem isIdentity_of_build (built : c.build kind key = .ok e) : e.isIdentity = decide (kind = .none) := by
  obtain ⟨-, rfl⟩ := strategy_of_build built
  cases kind <;> rfl

/-- The sealing strategy gets its nonce, and seals; no other one needs any. -/
def Serves (c : Ciphers) (kind : EncryptionKind) (key : Option Bytes) (drawn : Draw) (bs : Bytes) : Prop :=
  kind = .xchacha20Poly1305 → ∃ nonce, drawn = some nonce ∧
    ((c.sealerOf (key.getD [])).lock nonce.bytes bs).isSome = true

/-- Each strategy that can be built encrypts every message, and decrypts the result to the message. -/
theorem decrypt_encrypt (documented : c.Documented) (built : c.build kind key = .ok e)
    (serves : c.Serves kind key drawn bs) :
    ∃ sealed, e.encrypt drawn bs = .ok sealed ∧ sealed.length = kind.sealedLength bs.length ∧
      e.decrypt sealed = .ok bs := by
  obtain ⟨keyed, rfl⟩ := strategy_of_build built
  cases kind with
  | none => exact ⟨bs, rfl, rfl, rfl⟩
  | reverse => exact ⟨bs.reverse, rfl, List.length_reverse, congrArg Except.ok (List.reverse_reverse bs)⟩
  | bitFlip =>
    refine ⟨bs.map (~~~·), rfl, List.length_map _, congrArg Except.ok ?_⟩
    simp [List.map_map, Function.comp_def]
  | xor =>
    have count := Encryptor.length_cycle (keyed rfl) bs.length
    have length : (List.zipWith (· ^^^ ·) bs (Encryptor.cycle (key.getD []) bs.length)).length =
        bs.length := by
      rw [List.length_zipWith, count, Nat.min_self]
    refine ⟨_, rfl, length, congrArg Except.ok ?_⟩
    rw [length]
    exact zipWith_undo Aes.xor_cancel_right (Nat.le_of_eq count.symm)
  | substitution | substitutionShift =>
    exact ⟨_, rfl, Encryptor.length_shift (keyed rfl) _ _ bs,
      congrArg Except.ok (Encryptor.shift_shift (keyed rfl) _ true bs)⟩
  | aes256Cbc =>
    have lawful := documented.chained (key.getD [])
    exact ⟨_, rfl, Aes.Chained.length_encrypt lawful bs,
      (decrypt_aes _ _ bs).mpr (Aes.Chained.decrypt?_encrypt lawful bs)⟩
  | xchacha20Poly1305 =>
    obtain ⟨nonce, rfl, seals⟩ := serves rfl
    obtain ⟨locked, sealed⟩ := Option.isSome_iff_exists.mp seals
    obtain ⟨length, opened⟩ := decrypt_xchacha documented sealed
    exact ⟨_, encrypt_xchacha.mpr ⟨nonce, locked, rfl, sealed, rfl⟩, length, opened⟩

/-- What was encrypted had what it needs. -/
theorem serves_of_encrypt {sealed : Bytes} (built : c.build kind key = .ok e)
    (encrypted : e.encrypt drawn bs = .ok sealed) : c.Serves kind key drawn bs := by
  rintro rfl
  obtain ⟨-, rfl⟩ := strategy_of_build built
  obtain ⟨nonce, locked, drew, seals, -⟩ := encrypt_xchacha.mp encrypted
  exact ⟨nonce, drew, Option.isSome_iff_exists.mpr ⟨locked, seals⟩⟩

theorem decrypt_of_encrypt {sealed : Bytes} (documented : c.Documented) (built : c.build kind key = .ok e)
    (encrypted : e.encrypt drawn bs = .ok sealed) :
    sealed.length = kind.sealedLength bs.length ∧ e.decrypt sealed = .ok bs := by
  obtain ⟨same, encrypted', undone⟩ := decrypt_encrypt documented built (serves_of_encrypt built encrypted)
  rw [encrypted] at encrypted'
  cases encrypted'
  exact undone

end Ciphers

namespace EncryptionKind

variable {kind : EncryptionKind} {key : Option Bytes} {e : Encryptor} {drawn : Draw} {bs : Bytes}

theorem isIdentity_of_build (built : kind.build key = .ok e) : e.isIdentity = decide (kind = none) :=
  Ciphers.isIdentity_of_build built

/-- A nonce is there if the strategy is the one that takes it. -/
def Drawn (kind : EncryptionKind) (drawn : Draw) : Prop := kind = xchacha20Poly1305 → drawn.isSome = true

theorem decrypt_encrypt (built : kind.build key = .ok e) (there : kind.Drawn drawn) (bs : Bytes) :
    ∃ sealed, e.encrypt drawn bs = .ok sealed ∧ sealed.length = kind.sealedLength bs.length ∧
      e.decrypt sealed = .ok bs := by
  apply Ciphers.decrypt_encrypt Ciphers.own_documented built
  intro sealing
  obtain ⟨nonce, drew⟩ := Option.isSome_iff_exists.mp (there sealing)
  exact ⟨nonce, drew, rfl⟩

theorem decrypt_of_encrypt {sealed : Bytes} (built : kind.build key = .ok e)
    (encrypted : e.encrypt drawn bs = .ok sealed) :
    sealed.length = kind.sealedLength bs.length ∧ e.decrypt sealed = .ok bs :=
  Ciphers.decrypt_of_encrypt Ciphers.own_documented built encrypted

/-- No strategy finds a message in nothing. -/
theorem decrypt_nil (built : kind.build key = .ok e) {bs : Bytes} (h : e.decrypt [] = .ok bs) :
    bs = [] := by
  obtain ⟨-, rfl⟩ := Ciphers.strategy_of_build built
  cases kind with
  | none | reverse | bitFlip | xor | substitution | substitutionShift => exact (Except.ok.inj h).symm
  | aes256Cbc =>
    have nothing : (Ciphers.own.chained (key.getD [])).decrypt? [] = Option.none := by
      rw [Aes.Chained.decrypt?, Aes.blocks?_nil]
      rfl
    have found := (Ciphers.decrypt_aes _ [] bs).mp h
    rw [nothing] at found
    cases found
  | xchacha20Poly1305 => cases h

end EncryptionKind

end PeerLink
