import PeerLink.Proofs.ReplyTable

/-!
How long the search for a free slot takes. The search itself knows no bound: it tries the slot of one counter after the
other until one is free. If the half has a free slot the search ends within one `round`, also where the counter wraps, so
the higher bound under which `register?` searches is never what ends it.
-/
namespace PeerLink.ReplyTable

/-- The search from a counter on, left to itself: how many slots it tries, the free one in which it ends, and the counter
behind that. -/
inductive Search {κ : Type} (t : ReplyTable κ) : UInt32 → Nat → Nat → UInt32 → Prop
  | free {counter} (vacant : t.isPending (t.role.slot counter) = false) :
    Search t counter 1 (t.role.slot counter) (counter + 1)
  | taken {counter tried slot behind} (occupied : t.isPending (t.role.slot counter) = true)
    (later : Search t (counter + 1) tried slot behind) : Search t counter (tried + 1) slot behind

variable {κ : Type} {t : ReplyTable κ} {counter behind : UInt32} {n tried slot : Nat}

namespace Search

theorem in_a_row (search : t.Search counter tried slot behind) :
    ∃ k, tried = k + 1 ∧ slot = t.role.slot (counter + UInt32.ofNat k) ∧
      behind = counter + UInt32.ofNat (k + 1) := by
  induction search with
  | free => exact ⟨0, rfl, by simp, rfl⟩
  | taken _ _ ih =>
    obtain ⟨k, rfl, rfl, rfl⟩ := ih
    exact ⟨k + 1, rfl, by rw [add_ofNat_succ], by rw [add_ofNat_succ _ (k + 1)]⟩

/-- A bound that is not lower than the search is long does not change it. -/
theorem probe (search : t.Search counter tried slot behind) (enough : tried ≤ n) :
    t.probe n counter = some (slot, behind) := by
  induction search generalizing n with
  | free vacant =>
    obtain ⟨n, rfl⟩ := Nat.exists_eq_add_of_le' enough
    rw [ReplyTable.probe, vacant]
    rfl
  | taken occupied _ ih =>
    obtain ⟨n, rfl⟩ := Nat.exists_eq_add_of_le' (Nat.le_trans (Nat.le_add_left 1 _) enough)
    rw [ReplyTable.probe, if_pos occupied]
    exact ih (Nat.le_of_succ_le_succ enough)

end Search

theorem search_of_probe (found : t.probe n counter = some (slot, behind)) :
    ∃ tried ≤ n, t.Search counter tried slot behind := by
  induction n generalizing counter with
  | zero => cases found
  | succ n ih =>
    rw [probe] at found
    split at found
    · next occupied =>
      obtain ⟨tried, within, later⟩ := ih found
      exact ⟨tried + 1, Nat.succ_le_succ within, .taken occupied later⟩
    · next vacant =>
      cases found
      exact ⟨1, Nat.succ_le_succ n.zero_le, .free (Bool.eq_false_iff.mpr vacant)⟩

/-- A free slot of the half ends the search within a round. -/
theorem exists_search (free : ∃ slot, t.role.owns slot = true ∧ t.isPending slot = false) (counter : UInt32) :
    ∃ tried ≤ t.role.round, ∃ slot behind, t.Search counter tried slot behind := by
  obtain ⟨slot, behind, found⟩ := exists_probe_eq_some free (Nat.le_refl _) counter
  obtain ⟨tried, within, search⟩ := search_of_probe found
  exact ⟨tried, within, slot, behind, search⟩

/-- While fewer requests wait than the half has slots, wherever the counter is and whichever slots they wait in, the
search tries fewer than twice as many slots as the half has, and the callback is kept in the free one in which it ends. -/
theorem search_ends (room : t.size < 8388603) (callback : κ) :
    ∃ tried slot behind, t.Search t.counter tried slot behind ∧ tried ≤ 2 * 8388603 - 1 ∧
      ∃ t', t.register? callback = some (slot, t') ∧ t'.role = t.role ∧ t'.counter = behind ∧
        t'.pending = (slot, callback) :: t.pending := by
  rw [← t.role.span_eq] at room ⊢
  obtain ⟨tried, within, slot, behind, search⟩ := exists_search (exists_free room) t.counter
  have enough := Nat.le_trans within t.role.round_le_probes
  exact ⟨tried, slot, behind, search, enough, register?_of_probe (search.probe enough) callback⟩

/-- A client that waits in its first `n` slots. -/
def crowded (n : Nat) (counter : UInt32) : ReplyTable Unit where
  role := .client
  counter := counter
  pending := (List.range n).map (·, ())
  distinct := by simpa [Function.comp_def] using List.nodup_range

theorem size_crowded (n : Nat) (counter : UInt32) : (crowded n counter).size = n := by
  simp [size, crowded]

theorem isPending_crowded : (crowded n counter).isPending slot = true ↔ slot < n := by
  rw [isPending_iff]
  simp [crowded]

/-- Only the last slot is free, and the counter wraps after 2560 slots, so the search begins with slots that it comes
past again. No search takes longer. -/
theorem search_ends_wrapped :
    (crowded 8388602 4294964736).size < 8388603 ∧
      (crowded 8388602 4294964736).Search 4294964736 8391163 8388602 8388603 ∧
      Role.client.round = 8391163 ∧ ∃ t', (crowded 8388602 4294964736).register? () = some (8388602, t') := by
  have room : (crowded 8388602 4294964736).size < 8388603 := by
    rw [size_crowded]
    decide
  obtain ⟨tried, slot, behind, search, within, t', kept, -⟩ := search_ends room ()
  obtain ⟨owned, vacant, -⟩ := register?_ok kept
  have last : slot = 8388602 := by
    obtain ⟨-, high⟩ := Role.owns_iff.mp owned
    have beyond : ¬slot < 8388602 := by
      rw [← isPending_crowded, vacant]
      decide
    change slot < 0 + 8388603 at high
    omega
  subst last
  obtain ⟨k, rfl, there, rfl⟩ := search.in_a_row
  have length : k = 8391162 := by
    change 8388602 = 0 + (4294964736 + UInt32.ofNat k).toNat % 8388603 at there
    have start : (4294964736 : UInt32).toNat = 4294964736 := rfl
    have few : k % 2 ^ 32 = k := Nat.mod_eq_of_lt (by omega)
    rw [UInt32.toNat_add, UInt32.toNat_ofNat', start, few] at there
    -- Up to the wrap the slots are the first 2560, all of them taken.
    by_cases before : k < 2560
    · have straight : (4294964736 + k) % 2 ^ 32 = 4294964736 + k := by omega
      rw [straight] at there
      omega
    · have wrapped : (4294964736 + k) % 2 ^ 32 = k - 2560 := by omega
      rw [wrapped] at there
      omega
  subst length
  exact ⟨room, search, rfl, t', kept⟩

end PeerLink.ReplyTable
