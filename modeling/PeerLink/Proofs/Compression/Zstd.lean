import PeerLink.Compression.Zstd.Encoder

/-!
The limit of a reader only refuses. What unfolds grows from block to block and from frame to frame, so a
message that can be read under some limit is read under every other that it fits, and refused under
the rest. The writer's output always reads back: it was either tried or stored block by block.
-/
namespace PeerLink

theorem Repeat.size_extend (out : Array UInt8) (distance n : Nat) :
    (Repeat.extend out distance n).size = out.size + n := by
  induction n generalizing out with
  | zero => rfl
  | succ n ih =>
    rw [Repeat.extend, ih, Array.size_push]
    omega

theorem Bytes.length_runs {n : Nat} {bs run : Bytes} (h : run ∈ Bytes.runs n bs) : run.length ≤ n + 1 := by
  fun_induction Bytes.runs n bs with
  | case1 => cases h
  | case2 b bs ih =>
    rcases List.mem_cons.mp h with rfl | h
    · rw [List.length_cons, List.length_take]
      omega
    · exact ih h

/-- What a check lets through. -/
theorem of_unless_none {α β : Type} {refused : Prop} [Decidable refused] {f : β → Option α} {x : Option α}
    {a : α} (h : (if refused then Option.none.bind f else x) = some a) : x = some a := by
  split at h
  · cases h
  · exact h

namespace Zstd

theorem size_runSequences {tl td tr : StateTable} {literals : Array UInt8} {limit n : Nat} {s : States}
    {bits : BitStack} {p p' : Progress}
    (h : runSequences tl td tr literals limit n s bits p = some p') : p.out.size ≤ p'.out.size := by
  induction n generalizing s bits p with
  | zero =>
    simp only [runSequences] at h
    split at h
    · cases h
      exact Nat.le_refl _
    · cases h
  | succ n ih =>
    rw [runSequences] at h
    simp only [Option.bind_eq_bind, Option.bind_eq_some_iff] at h
    obtain ⟨⟨d, _⟩, -, ⟨r, _⟩, -, ⟨l, _⟩, -, ⟨distance, recent⟩, -, h⟩ := h
    dsimp only at h
    replace h := of_unless_none h
    replace h := of_unless_none h
    by_cases final : n = 0
    · rw [if_pos final] at h
      subst final
      have grown := ih h
      simp only [Repeat.size_extend, Array.size_append] at grown
      omega
    · rw [if_neg final] at h
      simp only [Option.bind_eq_some_iff] at h
      obtain ⟨_, -, _, -, _, -, h⟩ := h
      have grown := ih h
      simp only [Repeat.size_extend, Array.size_append] at grown
      omega
theorem size_unfoldBlock {limit : Nat} {carry carry' : Carry} {bs : Bytes} {out out' : Array UInt8}
    (h : unfoldBlock limit carry bs out = some (out', carry')) : out.size ≤ out'.size := by
  simp only [unfoldBlock, Option.bind_eq_bind, Option.bind_eq_some_iff] at h
  obtain ⟨⟨literals, code, _⟩, -, ⟨n, _⟩, -, h⟩ := h
  split at h
  · split at h
    · cases h
    · cases h
      rw [Array.size_append]
      exact Nat.le_add_right _ _
  · simp only [Option.bind_eq_some_iff] at h
    obtain ⟨_, -, _, -, _, -, _, -, _, -, p, run, h⟩ := h
    split at h
    · cases h
    · cases h
      have grown := size_runSequences run
      rw [Array.size_append]
      exact Nat.le_trans grown (Nat.le_add_right _ _)

theorem size_block? {limit : Nat} {carry carry' : Carry} {bs rest : Bytes} {out out' : Array UInt8}
    {last : Bool} (h : block? limit carry bs out = some (last, out', carry', rest)) :
    out.size ≤ out'.size := by
  unfold block? at h
  split at h
  · cases h
  · simp only at h
    split at h
    · cases h
    · split at h
      · split at h
        · cases h
        · cases h
          rw [Array.size_append]
          exact Nat.le_add_right _ _
      · split at h
        · cases h
        · cases h
          rw [Array.size_append]
          exact Nat.le_add_right _ _
      · split at h
        · cases h
        · split at h
          · cases h
          · next unfolded =>
            cases h
            exact size_unfoldBlock unfolded
      · cases h

theorem size_blocks? {limit blockMax : Nat} {carry : Carry} {bs rest : Bytes} {out result : Array UInt8}
    (h : blocks? limit blockMax carry bs out = some (result, rest)) : out.size ≤ result.size := by
  fun_induction blocks? limit blockMax carry bs out with
  | case1 => cases h
  | case2 => cases h
  | case3 carry bs out out' carry' rest' fits block =>
    cases h
    exact size_block? block
  | case4 carry bs out last out' carry' rest' block fits more ih =>
    exact Nat.le_trans (size_block? block) (ih h)

theorem blocks?_of_block {limit blockMax : Nat} {carry carry' : Carry} {bs rest : Bytes}
    {out out' : Array UInt8} {last : Bool}
    (h : block? blockMax carry bs out = some (last, out', carry', rest)) :
    blocks? limit blockMax carry bs out =
      if limit < out'.size then none
      else if last then some (out', rest) else blocks? limit blockMax carry' rest out' := by
  rw [blocks?]
  split
  · next refused =>
    rw [h] at refused
    cases refused
  · next read =>
    rw [h] at read
    cases read
    rfl

/-- The limit of a frame's blocks only refuses: what unfolds under one limit unfolds in the same way under
every other that it does not exceed, and under no smaller one. -/
theorem blocks?_limit {big blockMax : Nat} {carry : Carry} {bs rest : Bytes} {out result : Array UInt8}
    (h : blocks? big blockMax carry bs out = some (result, rest)) (limit : Nat) :
    blocks? limit blockMax carry bs out = if result.size ≤ limit then some (result, rest) else none := by
  fun_induction blocks? big blockMax carry bs out with
  | case1 => cases h
  | case2 => cases h
  | case3 carry bs out out' carry' rest' fits block =>
    cases h
    rw [blocks?_of_block block, if_pos rfl]
    by_cases small : result.size ≤ limit
    · rw [if_neg (Nat.not_lt.mpr small), if_pos small]
    · rw [if_pos (Nat.not_le.mp small), if_neg small]
  | case4 carry bs out last out' carry' rest' block fits more ih =>
    have grown := size_blocks? h
    rw [blocks?_of_block block, if_neg more, ih h]
    split
    · next big =>
      rw [if_neg (Nat.not_le.mpr (Nat.lt_of_lt_of_le big grown))]
    · rfl

theorem frame?_limit {big : Nat} {bs rest : Bytes} {more : Array UInt8}
    (h : frame? big bs = some (more, rest)) (limit : Nat) :
    frame? limit bs = if more.size ≤ limit then some (more, rest) else none := by
  unfold frame? at h ⊢
  simp only [Option.bind_eq_bind, Option.pure_def, Option.bind_eq_some_iff] at h
  obtain ⟨⟨head, behind⟩, hhead, h⟩ := h
  simp only [Option.bind_eq_bind, Option.pure_def, hhead, Option.bind_some]
  split at h
  · next isMagic =>
    obtain ⟨⟨header, content⟩, hheader, h⟩ := Option.bind_eq_some_iff.mp h
    obtain ⟨⟨out, tail⟩, hblocks, h⟩ := Option.bind_eq_some_iff.mp h
    obtain ⟨_, hfinish, h⟩ := Option.bind_eq_some_iff.mp h
    cases h
    rw [if_pos isMagic]
    simp only [hheader, Option.bind_some, blocks?_limit hblocks limit]
    split
    · rw [Option.bind_some, hfinish]
      rfl
    · rfl
  · next notMagic =>
    rw [if_neg notMagic]
    split at h
    · next skipped =>
      obtain ⟨_, hsize, h⟩ := Option.bind_eq_some_iff.mp h
      obtain ⟨_, hskip, h⟩ := Option.bind_eq_some_iff.mp h
      cases h
      have none_more : (#[] : Array UInt8).size ≤ limit := Nat.zero_le limit
      rw [if_pos skipped, if_pos none_more, hsize, Option.bind_some, hskip]
      rfl
    · cases h

theorem size_frames? {limit fuel : Nat} {bs : Bytes} {out result : Array UInt8}
    (h : frames? limit fuel bs out = some result) : out.size ≤ result.size := by
  induction fuel generalizing bs out with
  | zero => cases h
  | succ fuel ih =>
    simp only [frames?, Option.bind_eq_bind, Option.bind_eq_some_iff] at h
    obtain ⟨⟨more, rest⟩, -, h⟩ := h
    have grown : out.size ≤ (out ++ more).size := by
      rw [Array.size_append]
      exact Nat.le_add_right _ _
    split at h
    · cases h
      exact grown
    · exact Nat.le_trans grown (ih h)

theorem frames?_limit {big limit fuel : Nat} {bs : Bytes} {out result : Array UInt8}
    (h : frames? big fuel bs out = some result) (small : out.size ≤ limit) :
    frames? limit fuel bs out = if result.size ≤ limit then some result else none := by
  induction fuel generalizing bs out with
  | zero => cases h
  | succ fuel ih =>
    simp only [frames?, Option.bind_eq_bind, Option.bind_eq_some_iff] at h
    obtain ⟨⟨more, rest⟩, hframe, h⟩ := h
    dsimp only at h
    have size : (out ++ more).size = out.size + more.size := Array.size_append
    simp only [frames?, Option.bind_eq_bind, frame?_limit hframe]
    by_cases room : more.size ≤ limit - out.size
    · rw [if_pos room, Option.bind_some]
      dsimp only
      split at h
      · next ended =>
        cases h
        rw [if_pos ended, if_pos (by omega)]
        rfl
      · next goesOn =>
        rw [if_neg goesOn]
        exact ih h (by omega)
    · have grown : (out ++ more).size ≤ result.size := by
        split at h
        · cases h
          exact Nat.le_refl _
        · exact size_frames? h
      rw [if_neg room, if_neg (by omega)]
      rfl

/-- The limit only refuses: a message that can be read under any limit is read under every limit that it does
not exceed, and under no other. -/
theorem decode_limit {big : Nat} {packed plain : Bytes} (h : decode big packed = some plain)
    (limit : Nat) : decode limit packed = if plain.length ≤ limit then some plain else none := by
  obtain ⟨result, hframes, rfl⟩ := Option.map_eq_some_iff.mp h
  rw [decode, frames?_limit hframes (Nat.zero_le limit), Array.length_toList]
  split <;> rfl

/-! ### Writing -/

theorem split?_blockHead (last : Bool) (kind size : Nat) (rest : Bytes) :
    Bytes.split? 3 (blockHead last kind size ++ rest) = some (blockHead last kind size, rest) := by
  have width : (blockHead last kind size).length = 3 := Bytes.length_ofNat 3 _
  rw [← width]
  exact Bytes.split?_append _ rest

theorem toNat_blockHead {kind size : Nat} (last : Bool) (hkind : kind < 4) (hsize : size ≤ blockLimit) :
    Bytes.toNat (blockHead last kind size) = 8 * size + 2 * kind + last.toNat := by
  have bit : (if last then 1 else 0) = last.toNat := by cases last <;> rfl
  have low : last.toNat < 2 := last.toNat_lt
  have fits : 8 * size + 2 * kind + last.toNat < Bytes.capacity 3 := by
    have bound : Bytes.capacity 3 = 16777216 := rfl
    have limit : blockLimit = 131072 := rfl
    omega
  rw [blockHead, Bytes.toNat_ofNat, bit, Nat.mod_eq_of_lt fits]

/-- The three fields of a header, as the reader takes them apart. -/
theorem blockHead_fields {size : Nat} (last : Bool) (kind : Nat) (hkind : kind < 4)
    (hsize : size ≤ blockLimit) :
    Bytes.toNat (blockHead last kind size) / 8 = size ∧
      Bytes.toNat (blockHead last kind size) / 2 % 4 = kind ∧
      decide (Bytes.toNat (blockHead last kind size) % 2 = 1) = last := by
  have low : last.toNat < 2 := last.toNat_lt
  rw [toNat_blockHead last hkind hsize]
  refine ⟨by omega, by omega, ?_⟩
  cases last
  · rw [decide_eq_false_iff_not, Bool.toNat_false]
    omega
  · rw [decide_eq_true_iff, Bool.toNat_true]
    omega

theorem block?_storedBlock {blockMax : Nat} {carry : Carry} {bs rest : Bytes} {out : Array UInt8}
    (last : Bool) (hsize : bs.length ≤ blockLimit) (room : bs.length ≤ blockMax) :
    block? blockMax carry (storedBlock last bs ++ rest) out =
      some (last, out ++ bs.toArray, carry, rest) := by
  obtain ⟨size, kind, ended⟩ := blockHead_fields last 0 (by decide) hsize
  rw [storedBlock, List.append_assoc]
  simp only [block?, split?_blockHead, size, kind, ended, if_neg (Nat.not_lt.mpr room),
    Bytes.split?_append]

theorem block?_repeatedByte {blockMax n : Nat} {carry : Carry} {rest : Bytes} {out : Array UInt8}
    (last : Bool) (b : UInt8) (hsize : n ≤ blockLimit) (room : n ≤ blockMax) :
    block? blockMax carry (blockHead last 1 n ++ b :: rest) out =
      some (last, out ++ Array.replicate n b, carry, rest) := by
  obtain ⟨size, kind, ended⟩ := blockHead_fields last 1 (by decide) hsize
  simp only [block?, split?_blockHead, size, kind, ended, if_neg (Nat.not_lt.mpr room)]

theorem blocks?_storedBlock {limit blockMax : Nat} {bs : Bytes} {out : Array UInt8} (carry : Carry)
    (hsize : bs.length ≤ blockLimit) (room : bs.length ≤ blockMax)
    (fits : (out ++ bs.toArray).size ≤ limit) :
    blocks? limit blockMax carry (storedBlock true bs) out = some (out ++ bs.toArray, []) := by
  have read : block? blockMax carry (storedBlock true bs ++ []) out =
      some (true, out ++ bs.toArray, carry, []) := block?_storedBlock true hsize room
  rw [List.append_nil] at read
  rw [blocks?_of_block read, if_neg (Nat.not_lt.mpr fits), if_pos rfl]

theorem blocks?_writeBlocks {limit blockMax : Nat} {runs : List Bytes} {out : Array UInt8} (carry : Carry)
    (hsize : ∀ run ∈ runs, run.length ≤ blockLimit) (room : ∀ run ∈ runs, run.length ≤ blockMax)
    (fits : (out ++ runs.flatten.toArray).size ≤ limit) :
    blocks? limit blockMax carry (writeBlocks storedBlock runs) out =
      some (out ++ runs.flatten.toArray, []) := by
  induction runs generalizing out with
  | nil => exact blocks?_storedBlock carry (Nat.zero_le _) (Nat.zero_le _) fits
  | cons run runs ih =>
    have hrun := hsize run List.mem_cons_self
    have hroom := room run List.mem_cons_self
    cases runs with
    | nil =>
      rw [List.flatten_cons, List.flatten_nil, List.append_nil] at fits ⊢
      exact blocks?_storedBlock carry hrun hroom fits
    | cons next runs =>
      have split : out ++ (run :: next :: runs).flatten.toArray =
          out ++ run.toArray ++ (next :: runs).flatten.toArray := by
        rw [List.flatten_cons, Array.append_assoc, List.append_toArray run]
      rw [split] at fits ⊢
      have fitsRun : (out ++ run.toArray).size ≤ limit := by
        rw [Array.size_append] at fits
        omega
      have read : block? blockMax carry
          (storedBlock false run ++ writeBlocks storedBlock (next :: runs)) out =
            some (false, out ++ run.toArray, carry, writeBlocks storedBlock (next :: runs)) :=
        block?_storedBlock false hrun hroom
      rw [writeBlocks, blocks?_of_block read, if_neg (Nat.not_lt.mpr fitsRun), if_neg Bool.false_ne_true]
      · exact ih (fun r hr => hsize r (List.mem_cons_of_mem run hr))
          (fun r hr => room r (List.mem_cons_of_mem run hr)) fits
      · exact List.cons_ne_nil next runs

/-- The window that written frames ask for. -/
abbrev writtenWindow : Nat := 0x80000

theorem frame?_frameStart {limit : Nat} {content rest : Bytes} {out : Array UInt8}
    (h : blocks? limit blockLimit .start content #[] = some (out, rest)) :
    frame? limit (frameStart ++ content) = some (out, rest) := by
  have head : Bytes.split? 4 (frameStart ++ content) = some (magic, 0x00 :: 0x48 :: content) :=
    Bytes.split?_append magic (0x00 :: 0x48 :: content)
  have header : Header.read? (0x00 :: 0x48 :: content) =
      some (⟨writtenWindow, none, false⟩, content) := rfl
  have window : min writtenWindow blockLimit = blockLimit := by decide
  simp only [frame?, head, Option.bind_eq_bind, Option.bind_some, if_true, header, window, h,
    Header.finish?]
  rfl

theorem decode_store (bs : Bytes) : decode bs.length (store bs) = some bs := by
  have small : ∀ run ∈ Bytes.runs (blockLimit - 1) bs, run.length ≤ blockLimit :=
    fun _ h => Bytes.length_runs h
  have fits : (#[] ++ (Bytes.runs (blockLimit - 1) bs).flatten.toArray).size ≤ bs.length := by
    rw [Bytes.flatten_runs, Array.size_append]
    exact Nat.le_of_eq (Nat.zero_add _)
  have blocks := blocks?_writeBlocks .start small small fits
  rw [Bytes.flatten_runs] at blocks
  have frame := frame?_frameStart blocks
  obtain ⟨n, hn⟩ : ∃ n, (store bs).length = n + 1 := ⟨_, rfl⟩
  rw [decode, hn, frames?]
  simp only [List.size_toArray, List.length_nil, Nat.sub_zero]
  rw [store, frame]
  simp

theorem decode_encode (bs : Bytes) : decode bs.length (encode bs) = some bs := by
  unfold encode
  simp only
  split
  · next read => exact read
  · exact decode_store bs

/-- A frame of one byte `n` times over and a rest stored as it is. -/
def runFrame (b : UInt8) (n : Nat) (rest : Bytes) : Bytes :=
  frameStart ++ (blockHead false 1 n ++ b :: storedBlock true rest)

theorem length_runFrame (b : UInt8) (n : Nat) (rest : Bytes) :
    (runFrame b n rest).length = rest.length + 13 := by
  have start : frameStart.length = 6 := rfl
  simp only [runFrame, storedBlock, blockHead, List.length_append, List.length_cons, Bytes.length_ofNat,
    start]
  omega

theorem decode_runFrame {n : Nat} {rest : Bytes} (b : UInt8) (hn : n ≤ blockLimit)
    (hrest : rest.length ≤ blockLimit) :
    decode (n + rest.length) (runFrame b n rest) = some (List.replicate n b ++ rest) := by
  have read : block? blockLimit .start (blockHead false 1 n ++ b :: storedBlock true rest) #[] =
      some (false, #[] ++ Array.replicate n b, .start, storedBlock true rest) :=
    block?_repeatedByte false b hn hn
  have fits : (#[] ++ Array.replicate n b ++ rest.toArray).size ≤ n + rest.length := by
    rw [Array.size_append, Array.size_append, Array.size_replicate, List.size_toArray]
    exact Nat.le_of_eq (congrArg (· + rest.length) (Nat.zero_add n))
  have fitsRun : ¬n + rest.length < (#[] ++ Array.replicate n b).size := by
    rw [Array.size_append, Array.size_replicate, Nat.not_lt]
    exact Nat.le_trans (Nat.le_of_eq (Nat.zero_add n)) (Nat.le_add_right n _)
  have blocks : blocks? (n + rest.length) blockLimit .start
      (blockHead false 1 n ++ b :: storedBlock true rest) #[] =
        some (#[] ++ Array.replicate n b ++ rest.toArray, []) := by
    rw [blocks?_of_block read, if_neg fitsRun, if_neg Bool.false_ne_true,
      blocks?_storedBlock .start hrest hrest fits]
  have frame := frame?_frameStart blocks
  obtain ⟨m, hm⟩ : ∃ m, (runFrame b n rest).length = m + 1 := ⟨_, length_runFrame b n rest⟩
  rw [decode, hm, frames?]
  simp only [List.size_toArray, List.length_nil, Nat.sub_zero]
  rw [runFrame, frame]
  simp

/-- An encoder that tries a run of `n` bytes first. -/
def encodeRun (n : Nat) (bs : Bytes) : Bytes :=
  let out := runFrame (bs.headD 0) n (bs.drop n)
  if decode bs.length out = some bs then out else store bs

theorem decode_encodeRun (n : Nat) (bs : Bytes) : decode bs.length (encodeRun n bs) = some bs := by
  unfold encodeRun
  simp only
  split
  · next read => exact read
  · exact decode_store bs

theorem encodeRun_run {n : Nat} {rest : Bytes} (b : UInt8) (hn : n + 1 ≤ blockLimit)
    (hrest : rest.length ≤ blockLimit) :
    encodeRun (n + 1) (List.replicate (n + 1) b ++ rest) = runFrame b (n + 1) rest := by
  have first : (List.replicate (n + 1) b ++ rest).headD 0 = b := rfl
  have behind : (List.replicate (n + 1) b ++ rest).drop (n + 1) = rest :=
    List.drop_left' List.length_replicate
  have total : (List.replicate (n + 1) b ++ rest).length = n + 1 + rest.length := by
    rw [List.length_append, List.length_replicate]
  simp only [encodeRun, first, behind, total]
  exact if_pos (decode_runFrame b hn hrest)

end Zstd
end PeerLink
