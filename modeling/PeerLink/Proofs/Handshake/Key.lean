import PeerLink.Handshake.Key

/-! The key as a number and as the bytes that are sent. -/
namespace PeerLink

theorem Quad.toNat_toWord (q : Quad) : q.toWord.toNat = Bytes.toNat q.toBytes := by
  obtain ⟨a, b, c, d⟩ := q
  have ha := a.toNat_lt
  have hb := b.toNat_lt
  have hc := c.toNat_lt
  have hd := d.toNat_lt
  -- No bit is shifted out of the word.
  have inside (x : UInt8) {k : Nat} (fits : k ≤ 24) : x.toNat <<< k % 0x100000000 = x.toNat <<< k := by
    apply Nat.mod_eq_of_lt
    rw [Nat.shiftLeft_eq]
    exact Nat.lt_of_lt_of_le (Nat.mul_lt_mul_of_pos_right x.toNat_lt (Nat.two_pow_pos k))
      (Nat.mul_le_mul_left (2 ^ 8) (Nat.pow_le_pow_right (by decide) fits))
  have joined {low : Nat} (high : Nat) {k : Nat} (below : low < 2 ^ k) : low ||| high <<< k = low + high * 2 ^ k := by
    rw [Nat.or_comm, ← Nat.shiftLeft_add_eq_or_of_lt below, Nat.shiftLeft_eq, Nat.add_comm]
  have two : a.toNat + b.toNat * 2 ^ 8 < 2 ^ 16 := by omega
  have three : a.toNat + b.toNat * 2 ^ 8 + c.toNat * 2 ^ 16 < 2 ^ 24 := by omega
  calc (Quad.toWord ⟨a, b, c, d⟩).toNat
      = a.toNat ||| b.toNat <<< 8 ||| c.toNat <<< 16 ||| d.toNat <<< 24 := by simp [toWord, inside]
    _ = a.toNat + b.toNat * 2 ^ 8 + c.toNat * 2 ^ 16 + d.toNat * 2 ^ 24 := by
        rw [joined _ ha, joined _ two, joined _ three]
    _ = Bytes.toNat [a, b, c, d] := by
        simp only [Bytes.toNat]
        omega

theorem Challenge.answer_eq (c : Challenge) : c.answer = Bytes.ofNat answerSize c.key.toUInt32.toNat := by
  have word : c.key.toUInt32.toNat = Bytes.toNat c.answer := Quad.toNat_toWord c.keyQuad
  rw [word]
  exact (Bytes.ofNat_toNat c.answer).symm

end PeerLink
