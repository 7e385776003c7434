import PeerLink.Cipher.Aes

/-! Decryption undoes encryption, and the other way round: for single bytes and columns, for the rounds of
one block under any round keys, and for padded messages in chained blocks under any block cipher. -/
namespace PeerLink.Aes

/-! ### Bytes -/

/-- `double` on numbers, which the kernel multiplies faster than bytes. -/
def doubleNat (b : Nat) : Nat := bif Nat.blt b 128 then 2 * b else Nat.xor (2 * b - 256) 27

def mulNat : Nat → (a b : Nat) → Nat
  | 0, _, _ => 0
  | n + 1, a, b => Nat.xor (bif Nat.beq (a % 2) 1 then b else 0) (mulNat n (a / 2) (doubleNat b))

def productNat : Nat → (power : Nat) → Nat
  | 0, _ => 1
  | n + 1, power => mulNat 8 power (productNat n (mulNat 8 power power))

theorem toNat_double (b : UInt8) : (double b).toNat = doubleNat b.toNat :=
  forall_byte (P := fun b => (double b).toNat = doubleNat b.toNat) (by decide +kernel) b

theorem toNat_mulLow (n : Nat) (a b : UInt8) : (mulLow n a b).toNat = mulNat n a.toNat b.toNat := by
  induction n generalizing a b with
  | zero => rfl
  | succ n ih =>
    have shifted : (a >>> 1).toNat = a.toNat / 2 := by
      rw [UInt8.toNat_shiftRight, Nat.shiftRight_eq_div_pow]
      rfl
    have odd : a &&& 1 = 1 ↔ a.toNat % 2 = 1 := by
      rw [← UInt8.toNat_inj, UInt8.toNat_and, ← Nat.and_one_is_mod]
      rfl
    have chosen : (if a &&& 1 = 1 then b else 0).toNat =
        bif Nat.beq (a.toNat % 2) 1 then b.toNat else 0 := by
      by_cases h : a.toNat % 2 = 1
      · rw [if_pos (odd.mpr h), h]
        rfl
      · have even : a.toNat % 2 = 0 := by omega
        rw [if_neg (mt odd.mp h), even]
        rfl
    rw [mulLow, UInt8.toNat_xor, chosen, ih, shifted, toNat_double]
    rfl

theorem toNat_product (n : Nat) (power : UInt8) :
    (inverse.product n power).toNat = productNat n power.toNat := by
  induction n generalizing power with
  | zero => rfl
  | succ n ih => simp only [inverse.product, productNat, mul, toNat_mulLow, ih]

theorem inverse_inverse (b : UInt8) : inverse (inverse b) = b := by
  have all : ∀ n : Fin 256, productNat 7 (mulNat 8 (productNat 7 (mulNat 8 n n))
      (productNat 7 (mulNat 8 n n))) = n := by decide +kernel
  apply UInt8.toNat_inj.mp
  simpa only [inverse, toNat_product, mul, toNat_mulLow] using all ⟨b.toNat, b.toNat_lt⟩

theorem unaffine_affine (b : UInt8) : unaffine (affine b) = b :=
  forall_byte (P := fun b => unaffine (affine b) = b) (by decide +kernel) b

theorem affine_unaffine (b : UInt8) : affine (unaffine b) = b :=
  forall_byte (P := fun b => affine (unaffine b) = b) (by decide +kernel) b

theorem sub_eq (b : UInt8) : sub b = affine (inverse b) := by
  have hb : b.toNat < 256 := b.toNat_lt
  simp [sub, subTable, Array.getD_eq_getD_getElem?, hb]

theorem unsub_eq (b : UInt8) : unsub b = inverse (unaffine b) := by
  have hb : b.toNat < 256 := b.toNat_lt
  simp [unsub, unsubTable, Array.getD_eq_getD_getElem?, hb]

theorem unsub_sub (b : UInt8) : unsub (sub b) = b := by
  rw [unsub_eq, sub_eq, unaffine_affine, inverse_inverse]

theorem sub_unsub (b : UInt8) : sub (unsub b) = b := by
  rw [sub_eq, unsub_eq, inverse_inverse, affine_unaffine]

/-! ### Columns -/

theorem xor_left_comm (a b c : UInt8) : a ^^^ (b ^^^ c) = b ^^^ (a ^^^ c) := by
  rw [← UInt8.xor_assoc, UInt8.xor_comm a b, UInt8.xor_assoc]

theorem xor_cancel_left (a b : UInt8) : a ^^^ (a ^^^ b) = b := by
  rw [← UInt8.xor_assoc, UInt8.xor_self, UInt8.zero_xor]

theorem xor_cancel_right (a b : UInt8) : a ^^^ b ^^^ b = a := by
  rw [UInt8.xor_assoc, UInt8.xor_self, UInt8.xor_zero]

theorem double_eq (b : UInt8) : double b = (b <<< 1) ^^^ (if b &&& 0x80 = 0 then 0 else 0x1b) := by
  unfold double
  split
  · rw [UInt8.xor_zero]
  · rfl

theorem top_bit (b : UInt8) : b &&& 0x80 = 0 ∨ b &&& 0x80 = 0x80 :=
  forall_byte (P := fun b => b &&& 0x80 = 0 ∨ b &&& 0x80 = 0x80) (by decide +kernel) b

/-- Doubling is linear: the reduction depends on the top bit alone, and top bits add up. -/
theorem double_xor (a b : UInt8) : double (a ^^^ b) = double a ^^^ double b := by
  have top : (a ^^^ b) &&& 0x80 = (a &&& 0x80) ^^^ (b &&& 0x80) := by
    apply UInt8.toBitVec_inj.mp
    ext i hi
    simp [Bool.and_xor_distrib_right]
  simp only [double_eq, UInt8.shiftLeft_xor, top]
  rcases top_bit a with ha | ha <;> rcases top_bit b with hb | hb <;>
    simp [ha, hb, UInt8.xor_assoc, xor_left_comm, UInt8.xor_comm]

/-- Neighbours of a mixed column differ by a difference and the double of another. -/
theorem mixed_neighbours (a b c s : UInt8) :
    (a ^^^ s ^^^ double (a ^^^ b)) ^^^ (b ^^^ s ^^^ double (b ^^^ c)) =
      (a ^^^ b) ^^^ double (a ^^^ c) := by
  simp only [double_xor, UInt8.xor_assoc, xor_left_comm, xor_cancel_left]

/-- Mixing keeps the sum of a column. -/
theorem mixed_sum (a b c d s : UInt8) :
    (a ^^^ s ^^^ double (a ^^^ b)) ^^^ (b ^^^ s ^^^ double (b ^^^ c)) ^^^
      (c ^^^ s ^^^ double (c ^^^ d)) ^^^ (d ^^^ s ^^^ double (d ^^^ a)) = a ^^^ b ^^^ c ^^^ d := by
  rw [UInt8.xor_assoc (_ ^^^ _), mixed_neighbours, mixed_neighbours]
  simp only [double_xor, UInt8.xor_assoc, xor_left_comm, UInt8.xor_comm, UInt8.xor_self, UInt8.xor_zero]

theorem mixed_again (a b c s : UInt8) :
    (a ^^^ s ^^^ double (a ^^^ b)) ^^^ s ^^^ double ((a ^^^ b) ^^^ double (a ^^^ c)) =
      a ^^^ double (double (a ^^^ c)) := by
  simp only [double_xor, UInt8.xor_assoc, xor_left_comm, UInt8.xor_comm, xor_cancel_left]

namespace Column

/-- Two mixes at once, which are four mixes short of none. -/
def mixTwice (c : Column) : Column :=
  let u := double (double (c.r0 ^^^ c.r2))
  let v := double (double (c.r1 ^^^ c.r3))
  ⟨c.r0 ^^^ u, c.r1 ^^^ v, c.r2 ^^^ u, c.r3 ^^^ v⟩

theorem mix_mix (c : Column) : c.mix.mix = c.mixTwice := by
  obtain ⟨a, b, c, d⟩ := c
  simp only [mix, mixTwice]
  rw [mixed_sum]
  simp only [mixed_neighbours, mixed_again]
  rw [UInt8.xor_comm c a, UInt8.xor_comm d b]

theorem mixTwice_mixTwice (c : Column) : c.mixTwice.mixTwice = c := by
  obtain ⟨a, b, c, d⟩ := c
  have difference (a c u : UInt8) : (a ^^^ u) ^^^ (c ^^^ u) = a ^^^ c := by
    simp [xor_left_comm, UInt8.xor_comm]
  simp only [mixTwice, difference, xor_cancel_right]

theorem unmix_mix (c : Column) : c.mix.unmix = c := by
  calc c.mix.unmix = c.mix.mixTwice.mix := rfl
    _ = c.mixTwice.mixTwice := by rw [← mix_mix, mix_mix, mix_mix]
    _ = c := mixTwice_mixTwice c

theorem mix_unmix (c : Column) : c.unmix.mix = c := by
  calc c.unmix.mix = c.mixTwice.mix.mix := rfl
    _ = c := by rw [mix_mix, mixTwice_mixTwice]

theorem xor_xor (c d : Column) : (c.xor d).xor d = c := by
  simp only [xor, xor_cancel_right]

theorem map_unsub_map_sub (c : Column) : (c.map sub).map unsub = c := by
  simp only [map, unsub_sub]

theorem map_sub_map_unsub (c : Column) : (c.map unsub).map sub = c := by
  simp only [map, sub_unsub]

end Column

/-! ### Blocks -/

namespace Block

theorem xor_xor (a b : Block) : (a.xor b).xor b = a := by
  simp only [xor, Column.xor_xor]

theorem map_map {f g : Column → Column} (undo : ∀ c, g (f c) = c) (b : Block) : (b.map f).map g = b := by
  simp only [map, undo]

theorem unshiftRows_shiftRows (b : Block) : b.shiftRows.unshiftRows = b := rfl

theorem shiftRows_unshiftRows (b : Block) : b.unshiftRows.shiftRows = b := rfl

end Block

theorem unrounds_rounds (ks : List Block) (b : Block) : unrounds ks (rounds ks b) = b := by
  induction ks generalizing b with
  | nil => rfl
  | cons k ks ih =>
    cases ks with
    | nil =>
      simp only [rounds, unrounds, Block.xor_xor, Block.unshiftRows_shiftRows,
        Block.map_map Column.map_unsub_map_sub]
    | cons next ks =>
      rw [rounds, unrounds, ih]
      simp only [Block.xor_xor, Block.map_map Column.unmix_mix, Block.unshiftRows_shiftRows,
        Block.map_map Column.map_unsub_map_sub]
      all_goals exact List.cons_ne_nil _ _

theorem rounds_unrounds (ks : List Block) (b : Block) : rounds ks (unrounds ks b) = b := by
  induction ks generalizing b with
  | nil => rfl
  | cons k ks ih =>
    cases ks with
    | nil =>
      simp only [rounds, unrounds, Block.map_map Column.map_sub_map_unsub, Block.shiftRows_unshiftRows,
        Block.xor_xor]
    | cons next ks =>
      rw [unrounds, rounds]
      simp only [Block.map_map Column.map_sub_map_unsub, Block.shiftRows_unshiftRows,
        Block.map_map Column.mix_unmix, Block.xor_xor]
      all_goals first | exact ih b | exact List.cons_ne_nil _ _

theorem Keys.decrypt_encrypt (ks : Keys) (b : Block) : ks.decrypt (ks.encrypt b) = b := by
  rw [Keys.decrypt, Keys.encrypt, unrounds_rounds, Block.xor_xor]

theorem Keys.encrypt_decrypt (ks : Keys) (b : Block) : ks.encrypt (ks.decrypt b) = b := by
  rw [Keys.decrypt, Keys.encrypt, Block.xor_xor, rounds_unrounds]

/-! ### Padding -/

theorem length_pad (bs : Bytes) : (pad bs).length = 16 * (bs.length / 16 + 1) := by
  simp only [pad, List.length_append, List.length_replicate]
  omega

theorem unpad?_pad (bs : Bytes) : unpad? (pad bs) = some bs := by
  have last : (pad bs).getLast? = some (UInt8.ofNat (16 - bs.length % 16)) := by
    have pos : 16 - bs.length % 16 ≠ 0 := by omega
    simp [pad, List.getLast?_append, List.getLast?_replicate, pos]
  have count : (UInt8.ofNat (16 - bs.length % 16)).toNat = 16 - bs.length % 16 := by
    rw [UInt8.toNat_ofNat']
    omega
  have total : (pad bs).length - (16 - bs.length % 16) = bs.length := by
    rw [length_pad]
    omega
  simp only [unpad?, last, count, total]
  rw [if_pos]
  · simp [pad]
  · refine ⟨by omega, by omega, by rw [length_pad]; omega, ?_⟩
    simp [pad]

/-- Padding is taken off only if it is the one that would be put on. -/
theorem pad_of_unpad? {bs plain : Bytes} (whole : bs.length % 16 = 0) (h : unpad? bs = some plain) : pad plain = bs := by
  unfold unpad? at h
  split at h
  · cases h
  · next last _ =>
    simp only at h
    split at h
    · next strict =>
      obtain ⟨pos, most, inside, padding⟩ := strict
      cases h
      have count : 16 - (bs.take (bs.length - last.toNat)).length % 16 = last.toNat := by
        rw [List.length_take]
        omega
      rw [pad, count, UInt8.ofNat_toNat, ← padding, List.take_append_drop]
    · cases h

/-! ### Whole blocks -/

theorem Block.length_toBytes (b : Block) : b.toBytes.length = 16 := rfl

theorem Block.ofBytes?_toBytes (b : Block) : Block.ofBytes? b.toBytes = some b := rfl

theorem Block.toBytes_of_ofBytes? {bs : Bytes} {b : Block} (h : Block.ofBytes? bs = some b) :
    b.toBytes = bs := by
  unfold Block.ofBytes? at h
  split at h
  · cases h
    rfl
  · cases h

theorem Block.ofBytes?_eq_some {bs : Bytes} (h : bs.length = 16) : ∃ b, Block.ofBytes? bs = some b := by
  match bs, h with
  | [_, _, _, _, _, _, _, _, _, _, _, _, _, _, _, _], _ => exact ⟨_, rfl⟩

theorem blocks?_nil : blocks? [] = some [] := by
  simp [blocks?, Bytes.runs]

theorem blocks?_append {block : Bytes} {b : Block} (h : Block.ofBytes? block = some b) (bs : Bytes) :
    blocks? (block ++ bs) = (blocks? bs).map (b :: ·) := by
  have length : block.length = 16 := by rw [← Block.toBytes_of_ofBytes? h, Block.length_toBytes]
  have run : Bytes.runs 15 (block ++ bs) = block :: Bytes.runs 15 bs := by
    obtain ⟨a, rest, rfl⟩ := List.exists_cons_of_length_eq_add_one length
    have tail : rest.length = 15 := Nat.succ.inj length
    rw [List.cons_append, Bytes.runs, List.take_left' tail, List.drop_left' tail]
  rw [blocks?, run, List.mapM_cons, h, blocks?]
  cases (Bytes.runs 15 bs).mapM Block.ofBytes? <;> rfl

/-- Whole blocks of bytes and lists of blocks are the same thing. -/
theorem blocks?_flatMap_toBytes (blocks : List Block) :
    blocks? (blocks.flatMap Block.toBytes) = some blocks := by
  induction blocks with
  | nil => exact blocks?_nil
  | cons b rest ih => rw [List.flatMap_cons, blocks?_append b.ofBytes?_toBytes, ih, Option.map_some]

theorem exists_blocks {bs : Bytes} {n : Nat} (h : bs.length = 16 * n) : ∃ blocks, blocks? bs = some blocks := by
  induction n generalizing bs with
  | zero =>
    obtain rfl := List.eq_nil_of_length_eq_zero h
    exact ⟨[], blocks?_nil⟩
  | succ n ih =>
    have width : (bs.take 16).length = 16 := by
      rw [List.length_take]
      omega
    have left : (bs.drop 16).length = 16 * n := by
      rw [List.length_drop]
      omega
    obtain ⟨b, head⟩ := Block.ofBytes?_eq_some width
    obtain ⟨blocks, tail⟩ := ih left
    exact ⟨b :: blocks, by rw [← List.take_append_drop 16 bs, blocks?_append head, tail, Option.map_some]⟩

theorem toBytes_of_blocks? {bs : Bytes} {blocks : List Block} (h : blocks? bs = some blocks) :
    blocks.flatMap Block.toBytes = bs := by
  have joined (runs : List Bytes) : ∀ blocks, runs.mapM Block.ofBytes? = some blocks →
      blocks.flatMap Block.toBytes = runs.flatten := by
    induction runs with
    | nil =>
      intro blocks none
      cases none
      rfl
    | cons run runs ih =>
      intro blocks all
      rw [List.mapM_cons] at all
      obtain ⟨b, first, all⟩ := Option.bind_eq_some_iff.mp all
      obtain ⟨rest, later, same⟩ := Option.bind_eq_some_iff.mp all
      cases same
      rw [List.flatMap_cons, Block.toBytes_of_ofBytes? first, ih rest later, List.flatten_cons]
  rw [joined _ blocks h, Bytes.flatten_runs]

/-! ### Chaining -/

/-- What is assumed of a block cipher: either direction undoes the other. -/
structure BlockCipher.Lawful (cipher : BlockCipher) : Prop where
  decrypt_encrypt : ∀ b, cipher.decrypt (cipher.encrypt b) = b
  encrypt_decrypt : ∀ b, cipher.encrypt (cipher.decrypt b) = b

theorem Keys.lawful_cipher (ks : Keys) : ks.cipher.Lawful := ⟨ks.decrypt_encrypt, ks.encrypt_decrypt⟩

section Chaining

variable {cipher : BlockCipher}

theorem unchain_chain (lawful : cipher.Lawful) (previous : Block) (bs : List Block) :
    unchain cipher previous (chain cipher previous bs) = bs := by
  induction bs generalizing previous with
  | nil => rfl
  | cons b bs ih => rw [chain, unchain, lawful.decrypt_encrypt, Block.xor_xor, ih]

theorem chain_unchain (lawful : cipher.Lawful) (previous : Block) (cs : List Block) :
    chain cipher previous (unchain cipher previous cs) = cs := by
  induction cs generalizing previous with
  | nil => rfl
  | cons c cs ih => rw [unchain, chain, Block.xor_xor, lawful.encrypt_decrypt, ih]

theorem length_chain (previous : Block) (bs : List Block) : (chain cipher previous bs).length = bs.length := by
  induction bs generalizing previous with
  | nil => rfl
  | cons b bs ih => rw [chain, List.length_cons, ih, List.length_cons]

theorem length_unchain (previous : Block) (cs : List Block) :
    (unchain cipher previous cs).length = cs.length := by
  induction cs generalizing previous with
  | nil => rfl
  | cons c cs ih => rw [unchain, List.length_cons, ih, List.length_cons]

theorem chain_append (cipher : BlockCipher) (previous : Block) (as bs : List Block) :
    ∃ last, chain cipher previous (as ++ bs) = chain cipher previous as ++ chain cipher last bs := by
  induction as generalizing previous with
  | nil => exact ⟨previous, rfl⟩
  | cons a as ih =>
    obtain ⟨last, h⟩ := ih (cipher.encrypt (a.xor previous))
    exact ⟨last, by rw [List.cons_append, chain, h]; rfl⟩

end Chaining

theorem length_flatMap_toBytes (blocks : List Block) :
    (blocks.flatMap Block.toBytes).length = 16 * blocks.length := by
  induction blocks with
  | nil => rfl
  | cons b blocks ih =>
    rw [List.flatMap_cons, List.length_append, ih, Block.length_toBytes, List.length_cons]
    omega

theorem flatMap_zeros (n : Nat) :
    (List.replicate n (default : Block)).flatMap Block.toBytes = List.replicate (16 * n) 0 := by
  induction n with
  | zero => rfl
  | succ n ih =>
    have one : (default : Block).toBytes = List.replicate 16 0 := rfl
    have total : 16 * (n + 1) = 16 + 16 * n := by omega
    rw [List.replicate_succ, List.flatMap_cons, ih, one, total, List.replicate_append_replicate]

namespace Chained

variable {k : Chained}

/-- What is assumed of chained blocks: the block cipher is lawful, and padding fills up to whole blocks and is taken off
only where it is what would be put on. -/
structure Lawful (k : Chained) : Prop where
  cipher : k.cipher.Lawful
  length_pad : ∀ bs, (k.pad bs).length = 16 * (bs.length / 16 + 1)
  unpad?_pad : ∀ bs, k.unpad? (k.pad bs) = some bs
  pad_of_unpad? : ∀ bs plain, bs.length % 16 = 0 → k.unpad? bs = some plain → k.pad plain = bs

theorem encrypt_eq (lawful : k.Lawful) (bs : Bytes) : ∃ blocks, blocks.flatMap Block.toBytes = k.pad bs ∧
    k.encrypt bs = (chain k.cipher k.initial blocks).flatMap Block.toBytes := by
  obtain ⟨blocks, whole⟩ := exists_blocks (lawful.length_pad bs)
  exact ⟨blocks, toBytes_of_blocks? whole, by rw [encrypt, whole]⟩

theorem decrypt?_encrypt (lawful : k.Lawful) (bs : Bytes) : k.decrypt? (k.encrypt bs) = some bs := by
  obtain ⟨blocks, same, sealed⟩ := encrypt_eq lawful bs
  rw [sealed, decrypt?, blocks?_flatMap_toBytes]
  simp only [bind, Option.bind, unchain_chain lawful.cipher, same, lawful.unpad?_pad]

theorem length_encrypt (lawful : k.Lawful) (bs : Bytes) :
    (k.encrypt bs).length = 16 * (bs.length / 16 + 1) := by
  obtain ⟨blocks, same, sealed⟩ := encrypt_eq lawful bs
  have count := congrArg List.length same
  rw [length_flatMap_toBytes, lawful.length_pad] at count
  rw [sealed, length_flatMap_toBytes, length_chain, count]

/-- What can be decrypted is what the message would be encrypted to. -/
theorem encrypt_of_decrypt? (lawful : k.Lawful) {bs plain : Bytes} (h : k.decrypt? bs = some plain) :
    k.encrypt plain = bs := by
  obtain ⟨sealed, cut, opened⟩ := Option.bind_eq_some_iff.mp h
  have whole : ((unchain k.cipher k.initial sealed).flatMap Block.toBytes).length % 16 = 0 := by
    rw [length_flatMap_toBytes, Nat.mul_mod_right]
  rw [encrypt, lawful.pad_of_unpad? _ _ whole opened, blocks?_flatMap_toBytes]
  simp only [chain_unchain lawful.cipher, toBytes_of_blocks? cut]

/-- A message of `16 * n + 15` bytes all of whose whole blocks encrypt to zeros. -/
def zeroImage (k : Chained) (n : Nat) : Bytes :=
  (unchain k.cipher k.initial (List.replicate n default)).flatMap Block.toBytes ++ List.replicate 15 0

theorem length_zeroImage (k : Chained) (n : Nat) : (k.zeroImage n).length = 16 * n + 15 := by
  rw [zeroImage, List.length_append, length_flatMap_toBytes, length_unchain, List.length_replicate,
    List.length_replicate]

theorem encrypt_zeroImage (lawful : k.Lawful) (padded : k.pad = Aes.pad) (n : Nat) :
    ∃ last, last.length = 16 ∧ k.encrypt (k.zeroImage n) = List.replicate (16 * n) 0 ++ last := by
  obtain ⟨b, hb⟩ := Block.ofBytes?_eq_some (rfl : (List.replicate 15 (0 : UInt8) ++ [1]).length = 16)
  have rest : (k.zeroImage n).length % 16 = 15 := by
    rw [length_zeroImage]
    omega
  have filled : k.pad (k.zeroImage n) =
      (unchain k.cipher k.initial (List.replicate n default) ++ [b]).flatMap Block.toBytes := by
    rw [List.flatMap_append, List.flatMap_singleton, Block.toBytes_of_ofBytes? hb, padded, Aes.pad, rest, zeroImage,
      List.append_assoc]
    rfl
  obtain ⟨previous, joined⟩ := chain_append k.cipher k.initial
    (unchain k.cipher k.initial (List.replicate n default)) [b]
  refine ⟨(chain k.cipher previous [b]).flatMap Block.toBytes, ?_, ?_⟩
  · rw [length_flatMap_toBytes, length_chain, List.length_singleton]
  · rw [encrypt, filled, blocks?_flatMap_toBytes]
    simp only [joined, chain_unchain lawful.cipher, List.flatMap_append, flatMap_zeros]

end Chained
end PeerLink.Aes
