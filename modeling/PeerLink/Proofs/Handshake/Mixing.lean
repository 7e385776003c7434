import Mathlib.Logic.Function.Basic
import PeerLink.Proofs.Handshake.Key
import PeerLink.Proofs.Handshake.Verdicts

/-!
Mixing loses nothing. Every step from the numbers of a challenge to its key can be undone, the bytes of a quad from
the last to the first, since the neighbour that each of them absorbed is known by then. So under one first number
every key belongs to exactly one second number, and the answer to one challenge is wrong for any other.
-/
namespace PeerLink

namespace Quad

/-! ### Bytes -/

theorem turn_right_left (b : UInt8) : (b <<< 3 ||| b >>> 5) >>> 3 ||| (b <<< 3 ||| b >>> 5) <<< 5 = b :=
  forall_byte (P := fun b => (b <<< 3 ||| b >>> 5) >>> 3 ||| (b <<< 3 ||| b >>> 5) <<< 5 = b) (by decide +kernel) b

theorem turn_left_right (b : UInt8) : (b >>> 3 ||| b <<< 5) <<< 3 ||| (b >>> 3 ||| b <<< 5) >>> 5 = b :=
  forall_byte (P := fun b => (b >>> 3 ||| b <<< 5) <<< 3 ||| (b >>> 3 ||| b <<< 5) >>> 5 = b) (by decide +kernel) b

/-- The byte that absorbed the neighbour. 223 undoes the factor 31. -/
def unabsorb (b neighbour salt : UInt8) : UInt8 :=
  ((b >>> 3 ||| b <<< 5) - (neighbour ^^^ salt)) * 223

theorem unabsorb_absorb (b neighbour salt : UInt8) : unabsorb (absorb b neighbour salt) neighbour salt = b := by
  have unit : (31 : UInt8) * 223 = 1 := rfl
  rw [unabsorb, absorb, turn_right_left, UInt8.add_sub_cancel, UInt8.mul_assoc, unit, UInt8.mul_one]

theorem absorb_unabsorb (b neighbour salt : UInt8) : absorb (unabsorb b neighbour salt) neighbour salt = b := by
  have unit : (223 : UInt8) * 31 = 1 := rfl
  rw [absorb, unabsorb, UInt8.mul_assoc, unit, UInt8.mul_one, UInt8.sub_add_cancel, turn_left_right]

/-! ### Rounds -/

/-- The last byte absorbed the new first one, every other byte a neighbour that was still the old one. -/
def unstir (salt : UInt8) (q : Quad) : Quad :=
  let d := unabsorb q.d q.a (salt + 3)
  let c := unabsorb q.c d (salt + 2)
  let b := unabsorb q.b c (salt + 1)
  ⟨unabsorb q.a b salt, b, c, d⟩

theorem unstir_stir (salt : UInt8) (q : Quad) : (q.stir salt).unstir salt = q := by
  simp only [stir, unstir, unabsorb_absorb]

theorem stir_unstir (salt : UInt8) (q : Quad) : (q.unstir salt).stir salt = q := by
  simp only [stir, unstir, absorb_unabsorb]

/-! ### Words -/

theorem toBytes_ofWord (w : UInt32) : (ofWord w).toBytes = Bytes.ofNat 4 w.toNat := by
  have digit (k : UInt32) : (w >>> k).toUInt8 = UInt8.ofNat (w.toNat / 2 ^ (k.toNat % 32)) := by
    apply UInt8.toNat_inj.mp
    simp [Nat.shiftRight_eq_div_pow]
  simp [ofWord, toBytes, Bytes.ofNat, digit, Nat.div_div_eq_div_mul]

theorem toBytes_inj {q r : Quad} : q.toBytes = r.toBytes ↔ q = r := by
  constructor
  · intro same
    obtain ⟨a, b, c, d⟩ := q
    cases same
    rfl
  · rintro rfl
    rfl

theorem ofWord_toWord (q : Quad) : ofWord q.toWord = q := by
  rw [← toBytes_inj, toBytes_ofWord, toNat_toWord]
  exact Bytes.ofNat_toNat q.toBytes

theorem toWord_ofWord (w : UInt32) : (ofWord w).toWord = w := by
  apply UInt32.toNat_inj.mp
  rw [toNat_toWord, toBytes_ofWord, Bytes.toNat_ofNat]
  exact Nat.mod_eq_of_lt w.toNat_lt

end Quad

namespace Challenge

variable {c : Challenge} {first key : Int32}

/-! ### Challenges -/

/-- The seed that a key was mixed from. -/
def unmix (key : Int32) : Int32 :=
  (Quad.unstir 0 (Quad.unstir 59 (Quad.unstir 118 (.ofWord key.toUInt32)))).toWord.toInt32

/-- The second number that makes a challenge with this first number have this key. -/
def secondFor (first key : Int32) : Int32 :=
  if 0 ≤ first then unmix key - first else first - unmix key

theorem unmix_key (c : Challenge) : unmix c.key = c.seed := by
  simp only [unmix, Challenge.key, keyQuad, UInt32.toUInt32_toInt32, Quad.ofWord_toWord, Quad.unstir_stir,
    Quad.toWord_ofWord, Int32.toInt32_toUInt32]

theorem key_eq_of_seed (h : c.seed = unmix key) : c.key = key := by
  simp only [Challenge.key, keyQuad, h, unmix, UInt32.toUInt32_toInt32, Quad.ofWord_toWord, Quad.stir_unstir,
    Quad.toWord_ofWord, Int32.toInt32_toUInt32]

theorem secondFor_key (first second : Int32) : secondFor first (Challenge.key ⟨first, second⟩) = second := by
  rw [secondFor, unmix_key, seed]
  by_cases sign : 0 ≤ first
  · rw [if_pos sign, if_pos sign, Int32.add_comm, Int32.add_sub_cancel]
  · rw [if_neg sign, if_neg sign]
    grind

theorem key_secondFor (first key : Int32) : Challenge.key ⟨first, secondFor first key⟩ = key := by
  apply key_eq_of_seed
  rw [secondFor, seed]
  by_cases sign : 0 ≤ first
  · rw [if_pos sign, if_pos sign, Int32.add_comm, Int32.sub_add_cancel]
  · rw [if_neg sign, if_neg sign]
    grind

theorem key_bijective (first : Int32) : Function.Bijective fun second => Challenge.key ⟨first, second⟩ := by
  constructor
  · exact Function.LeftInverse.injective (secondFor_key first)
  · exact Function.RightInverse.surjective (key_secondFor first)

/-- Four bytes are the answer if they spell the key. -/
theorem answer_eq_iff {bs : Bytes} (h : bs.length = answerSize) :
    c.answer = bs ↔ c.key = (UInt32.ofNat (Bytes.toNat bs)).toInt32 := by
  have small : Bytes.toNat bs < UInt32.size := by
    have bound := Bytes.toNat_lt bs
    rwa [h] at bound
  constructor
  · rintro rfl
    have whole : c.key.toUInt32.toNat % Bytes.capacity answerSize = c.key.toUInt32.toNat :=
      Nat.mod_eq_of_lt c.key.toUInt32.toNat_lt
    rw [answer_eq, Bytes.toNat_ofNat, whole, UInt32.ofNat_toNat, Int32.toInt32_toUInt32]
  · intro spelled
    rw [answer_eq, spelled, UInt32.toUInt32_toInt32, UInt32.toNat_ofNat_of_lt' small, ← h, Bytes.ofNat_toNat]

theorem length_answer (c : Challenge) : c.answer.length = answerSize := rfl

theorem answer_inj {a b : Challenge} : a.answer = b.answer ↔ a.key = b.key := by
  rw [answer_eq_iff b.length_answer, ← (answer_eq_iff b.length_answer).mp rfl]

/-- Under one first number every key comes from exactly one second number and every answer is right for exactly one.
So whatever time it is and whatever happened before, the answer to another second number is rejected. -/
theorem existsUnique_answer (first : Int32) :
    Function.Bijective (fun second => Challenge.key ⟨first, second⟩) ∧
      (∀ bs : Bytes, bs.length = answerSize → ∃! second, answer ⟨first, second⟩ = bs) ∧
      ∀ (recorded second : Int32), recorded ≠ second → ∀ (h : Handshake) (now : Nat), h.asked = ⟨first, second⟩ →
        (h.validate now (answer ⟨first, recorded⟩)).state = .rejected := by
  refine ⟨key_bijective first, ?_, ?_⟩
  · intro bs length
    simp only [answer_eq_iff length]
    exact (key_bijective first).existsUnique _
  · intro recorded second other h now asked
    have wrong : answer ⟨first, recorded⟩ ≠ h.asked.answer := by
      rw [asked]
      intro same
      exact other ((key_bijective first).injective (answer_inj.mp same))
    rw [Handshake.state_validate]
    exact if_neg fun right => wrong right.2.2

/-- The first number is negative. The answer that was right for one second number is rejected for the next one. -/
theorem existsUnique_answer_replayed :
    (∃! second, answer ⟨-7, second⟩ = [1, 2, 3, 4]) ∧
      (Handshake.validate ⟨.awaitingClientKey, ⟨-7, 9⟩, 100⟩ 5 (answer ⟨-7, 9⟩)).state = .accepted ∧
      (Handshake.validate ⟨.awaitingClientKey, ⟨-7, 10⟩, 100⟩ 5 (answer ⟨-7, 9⟩)).state = .rejected := by
  obtain ⟨-, exact, replayed⟩ := existsUnique_answer (-7)
  exact ⟨exact [1, 2, 3, 4] rfl, by decide, replayed 9 10 (by decide) _ 5 rfl⟩

end Challenge

end PeerLink
