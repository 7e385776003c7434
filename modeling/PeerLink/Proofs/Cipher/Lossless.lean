import PeerLink.Proofs.Cipher

/-!
Every strategy that can be built is a lossless code, with ciphers of any make that keep to what is documented of them.
All but the sealing one have a single form for each message, so that decryption gives away what was encrypted, and the
ones that only disguise a message take any bytes in either direction and keep their count.
-/
namespace PeerLink.EncryptionKind

open Ciphers (Documented Serves own)

variable {c : Ciphers} {kind : EncryptionKind} {key : Option Bytes} {e : Encryptor} {drawn : Draw} {bs : Bytes}

theorem exists_build : (∃ e, c.build kind key = .ok e) ↔ (kind.requiresKey = true → key.getD [] ≠ []) := by
  constructor
  · rintro ⟨e, built⟩
    exact (Ciphers.strategy_of_build built).1
  · intro keyed
    have accepted : ¬ (kind.requiresKey && (key.getD []).isEmpty) = true := by
      simpa using keyed
    exact ⟨_, if_neg accepted⟩

theorem sealedLength_eq (notAes : kind ≠ aes256Cbc) (notSealed : kind ≠ xchacha20Poly1305) (n : Nat) :
    kind.sealedLength n = n := by
  cases kind with
  | none | reverse | bitFlip | xor | substitution | substitutionShift => rfl
  | aes256Cbc | xchacha20Poly1305 => contradiction

/-- A disguise can also be put on by decryption, and encryption then takes it off. -/
theorem encrypt_decrypt (documented : c.Documented) (built : c.build kind key = .ok e) (notAes : kind ≠ aes256Cbc)
    (notSealed : kind ≠ xchacha20Poly1305) (drawn : Draw) (bs : Bytes) :
    ∃ opened, e.decrypt bs = .ok opened ∧ opened.length = bs.length ∧ e.encrypt drawn opened = .ok bs := by
  have serves : c.Serves kind key drawn bs := fun sealing => absurd sealing notSealed
  obtain ⟨sealed, encrypted, length, decrypted⟩ := Ciphers.decrypt_encrypt documented built serves
  obtain ⟨keyed, rfl⟩ := Ciphers.strategy_of_build built
  cases kind with
  -- Both directions are the same.
  | none | reverse | bitFlip | xor => exact ⟨sealed, encrypted, length, decrypted⟩
  | substitution | substitutionShift =>
    exact ⟨_, rfl, Encryptor.length_shift (keyed rfl) _ _ bs,
      congrArg Except.ok (Encryptor.shift_shift (keyed rfl) _ false bs)⟩
  | aes256Cbc | xchacha20Poly1305 => contradiction

theorem encrypt_of_decrypt (documented : c.Documented) (built : c.build kind key = .ok e)
    (notSealed : kind ≠ xchacha20Poly1305) (drawn : Draw) {sealed : Bytes} (opened : e.decrypt sealed = .ok bs) :
    e.encrypt drawn bs = .ok sealed := by
  by_cases notAes : kind = aes256Cbc
  · subst notAes
    obtain ⟨-, rfl⟩ := Ciphers.strategy_of_build built
    have found := (Ciphers.decrypt_aes (key.getD []) sealed bs).mp opened
    exact congrArg Except.ok (Aes.Chained.encrypt_of_decrypt? (documented.chained (key.getD [])) found)
  · obtain ⟨same, decrypted, -, encrypted⟩ := encrypt_decrypt documented built notAes notSealed drawn sealed
    rw [opened] at decrypted
    cases decrypted
    exact encrypted

/-- A strategy is built unless it lacks a key that it requires. Then every message that it encrypts comes back, and it
encrypts every message, the sealing one if it gets a nonce and the sealing itself does not fail. Except for the sealing
strategy, only what a message is encrypted to is decrypted to that message. And except for the two real ciphers, both
directions take everything and keep its length. The ciphers of this library are as documented, and they never fail to
seal. -/
theorem lossless_code (kind : EncryptionKind) (key : Option Bytes) :
    own.Documented ∧ (∀ nonce bs, own.Serves kind key (some nonce) bs) ∧
    ∀ c : Ciphers, c.Documented →
      ((∃ e, c.build kind key = .ok e) ↔ (kind.requiresKey = true → key.getD [] ≠ [])) ∧
      ∀ e, c.build kind key = .ok e →
        (∀ drawn bs sealed, e.encrypt drawn bs = .ok sealed → e.decrypt sealed = .ok bs) ∧
        (∀ drawn bs, c.Serves kind key drawn bs → ∃ sealed, e.encrypt drawn bs = .ok sealed) ∧
        (kind ≠ xchacha20Poly1305 → ∀ drawn sealed bs, e.decrypt sealed = .ok bs → e.encrypt drawn bs = .ok sealed) ∧
        (kind ≠ aes256Cbc → kind ≠ xchacha20Poly1305 → ∀ drawn bs,
          (∃ sealed, e.encrypt drawn bs = .ok sealed ∧ sealed.length = bs.length) ∧
            ∃ opened, e.decrypt bs = .ok opened ∧ opened.length = bs.length) := by
  refine ⟨Ciphers.own_documented, fun nonce bs _ => ⟨nonce, rfl, rfl⟩, fun c documented => ⟨exists_build, ?_⟩⟩
  intro e built
  refine ⟨?_, ?_, ?_, ?_⟩
  · intro drawn bs sealed encrypted
    exact (Ciphers.decrypt_of_encrypt documented built encrypted).2
  · intro drawn bs serves
    obtain ⟨sealed, encrypted, -, -⟩ := Ciphers.decrypt_encrypt documented built serves
    exact ⟨sealed, encrypted⟩
  · intro notSealed drawn sealed bs
    exact encrypt_of_decrypt documented built notSealed drawn
  · intro notAes notSealed drawn bs
    have serves : c.Serves kind key drawn bs := fun sealing => absurd sealing notSealed
    obtain ⟨sealed, encrypted, length, -⟩ := Ciphers.decrypt_encrypt documented built serves
    obtain ⟨opened, decrypted, kept, -⟩ := encrypt_decrypt documented built notAes notSealed drawn bs
    refine ⟨⟨sealed, encrypted, ?_⟩, opened, decrypted, kept⟩
    rw [length, sealedLength_eq notAes notSealed]

/-- The key is shorter than the message, and every second byte is shifted down. -/
theorem lossless_code_alternating : ∃ e, substitutionShift.build (some [1, 2, 3]) = .ok e ∧
    e.encrypt .none [10, 10, 10, 10, 10] = .ok [11, 8, 13, 9, 12] ∧
    e.decrypt [11, 8, 13, 9, 12] = .ok [10, 10, 10, 10, 10] := by
  obtain ⟨documented, -, code⟩ := lossless_code substitutionShift (some [1, 2, 3])
  obtain ⟨keyed, undone⟩ := code own documented
  obtain ⟨e, built⟩ := keyed.mpr (by decide)
  obtain ⟨back, -, -, -⟩ := undone e built
  have shifted : e.encrypt .none [10, 10, 10, 10, 10] = .ok [11, 8, 13, 9, 12] := by
    cases built
    rfl
  exact ⟨e, built, shifted, back .none _ _ shifted⟩

end PeerLink.EncryptionKind
