import PeerLink.Proofs.Handshake
import PeerLink.Proofs.Reader
import PeerLink.Proofs.Registry
import PeerLink.Proofs.Run
import PeerLink.Server

/-!
Admissions that overlap. The limit is looked at when an id is allocated, but the registry grows only once the id
has been written to its peer. As many admissions as are between the two at once can therefore all pass for the
last free place, and the registry may come to hold that many connections less one above its limit.
-/
namespace PeerLink

variable {κ : Type}

namespace Registry

/-- What is left of a connection in the registry once it has been entered and confirmed. -/
def settle (r : Registry κ) (c : Connection κ) : Registry κ :=
  if c.isClosed then (r.insert c).erase c.id else r.insert c

theorem settle_cases (r : Registry κ) (c : Connection κ) :
    (r.settle c).limit = r.limit ∧ (r.settle c).size ≤ r.size + 1 ∧
      ∀ id, (r.settle c).has id = true → id = c.id ∨ r.has id = true := by
  unfold settle
  split
  · exact ⟨rfl, Nat.le_trans size_erase_le size_insert_le, fun id h => has_insert (has_erase h)⟩
  · exact ⟨rfl, size_insert_le, fun id => has_insert⟩

end Registry

/-- The registry, and the ids that are on their way to the peers they were allocated for. -/
structure Lobby (κ : Type) where
  registry : Registry κ
  greeted : List UInt24

namespace Lobby

inductive Event where
  | allocate (id : UInt24)
  | refuse
  | giveUp (id : UInt24)
  | enter (id : UInt24)
  | leave (id : UInt24)

def opening (limit : Nat) : Lobby κ := ⟨.new limit, []⟩

/-- One step of an admission, of which at most so many are under way at once, or of a connection that closes.
A connection that is entered may have been closed before. -/
inductive Step (most : Nat) : Lobby κ → Event → Lobby κ → Prop
  | allocate {l id registry} (turn : l.greeted.length < most)
    (allocated : l.registry.allocate = (.ok id, registry)) :
    Step most l (.allocate id) ⟨registry, l.greeted ++ [id]⟩
  | refuse {l fault registry} (refused : l.registry.allocate = (.error fault, registry)) :
    Step most l .refuse { l with registry }
  | giveUp {registry id behind} (before : List UInt24) :
    Step most ⟨registry, before ++ id :: behind⟩ (.giveUp id) ⟨registry, before ++ behind⟩
  | enter {registry behind} (before : List UInt24) (c : Connection κ) :
    Step most ⟨registry, before ++ c.id :: behind⟩ (.enter c.id) ⟨registry.settle c, before ++ behind⟩
  | leave {l} (id : UInt24) : Step most l (.leave id) { l with registry := l.registry.erase id }

variable {limit most n : Nat} {l l' : Lobby κ}

/-! ### What every interleaving keeps -/

/-- How many places the limit lets through, if the registry could hold as many. -/
def allowance (limit most : Nat) : Nat :=
  if limit = 0 ∨ most = 0 then 0 else limit + (most - 1)

structure Bounded (limit most : Nat) (l : Lobby κ) : Prop where
  limit_eq : l.registry.limit = limit
  room : l.registry.size + l.greeted.length ≤ allowance limit most
  greeted : 0 ∉ l.greeted
  live : l.registry.has 0 = false

theorem Bounded.step {e : Event} (h : Bounded limit most l) (step : Step most l e l') :
    Bounded limit most l' := by
  obtain ⟨rfl, room, greeted, live⟩ := h
  cases step with
  | allocate turn allocated =>
    obtain ⟨counter, after, free⟩ := l.registry.allocate_cases
    rw [allocated] at after free
    obtain ⟨below, named, -⟩ := free _ rfl
    cases after
    refine ⟨rfl, ?_, ?_, live⟩
    · simp only [allowance, Registry.size, List.length_append, List.length_singleton] at below ⊢
      rw [if_neg (by omega)]
      omega
    · simp [greeted, named.symm]
  | refuse refused =>
    obtain ⟨counter, after, -⟩ := l.registry.allocate_cases
    rw [refused] at after
    cases after
    exact ⟨rfl, room, greeted, live⟩
  | giveUp before =>
    simp only [List.length_append, List.length_cons] at room
    refine ⟨rfl, ?_, ?_, live⟩
    · simp only [List.length_append]
      omega
    · simp only [List.mem_append, List.mem_cons, not_or] at greeted ⊢
      exact ⟨greeted.1, greeted.2.2⟩
  | @enter registry behind before c =>
    obtain ⟨same, grown, known⟩ := registry.settle_cases c
    simp only [List.length_append, List.length_cons] at room
    simp only [List.mem_append, List.mem_cons, not_or] at greeted
    refine ⟨same, ?_, ?_, ?_⟩
    · simp only [List.length_append]
      omega
    · simp only [List.mem_append, not_or]
      exact ⟨greeted.1, greeted.2.2⟩
    · apply Bool.eq_false_iff.mpr
      intro zero
      rcases known 0 zero with own | old
      · exact greeted.2.1 own
      · rw [live] at old
        cases old
  | leave id =>
    refine ⟨rfl, Nat.le_trans (Nat.add_le_add_right Registry.size_erase_le _) room, greeted, ?_⟩
    apply Bool.eq_false_iff.mpr
    intro zero
    rw [Registry.has_erase zero] at live
    cases live

theorem bounded_of_run {events : List Event} (run : Run (Step most) (opening limit : Lobby κ) events l) :
    Bounded limit most l := by
  refine run.invariant (P := fun _ => Bounded limit most) ?_ (fun _ _ _ _ h step => h.step step)
  exact ⟨rfl, Nat.zero_le _, by simp [opening], rfl⟩

/-- The most connections that a registry comes to hold. -/
def peak (limit most : Nat) : Nat := min (allowance limit most) Registry.capacity

theorem Bounded.size_le_peak (h : Bounded limit most l) : l.registry.size ≤ peak limit most :=
  Nat.le_min.mpr ⟨Nat.le_of_add_right_le h.room, Registry.size_le_capacity h.live⟩

theorem peak_le_iff : peak limit most ≤ limit ↔ limit = 0 ∨ most ≤ 1 ∨ Registry.capacity ≤ limit := by
  unfold peak allowance
  split
  · omega
  · omega

/-! ### How far it gets -/

/-- Ids have been given out in turn, the last ones to admissions that are still under way. -/
structure Filled (limit n waiting : Nat) (l : Lobby κ) : Prop where
  limit_eq : l.registry.limit = limit
  size_eq : l.registry.size = n
  counter : l.registry.counter = UInt32.ofNat (n + waiting + 1)
  low : ∀ id, l.registry.has id = true → id.toNat ≤ n
  greeted : l.greeted = (List.range' (n + 1) waiting).map UInt24.truncate

theorem toNat_truncate_of_le {n : Nat} (fits : n ≤ Registry.capacity) : (UInt24.truncate n).toNat = n :=
  Nat.mod_eq_of_lt (Nat.lt_succ_of_le fits)

theorem Filled.allocate {waiting : Nat} (h : Filled limit n waiting l) (below : n < limit) (turn : waiting < most)
    (fits : n + waiting + 1 ≤ Registry.capacity) :
    ∃ e l', Step most l e l' ∧ Filled limit n (waiting + 1) l' := by
  obtain ⟨rfl, rfl, counter, low, greeted⟩ := h
  have next : l.registry.counter.toNat = l.registry.size + waiting + 1 := by
    rw [counter]
    exact UInt32.toNat_ofNat_of_lt (Nat.lt_of_le_of_lt fits (by decide))
  have value := toNat_truncate_of_le fits
  have allocated := Registry.allocate_of_free below (r := l.registry) (by
    rw [next]
    intro zero
    rw [zero] at value
    cases value) (by
    rw [next]
    apply Bool.eq_false_iff.mpr
    intro taken
    have := low _ taken
    omega)
  refine ⟨_, _, .allocate ?_ allocated, rfl, rfl, ?_, low, ?_⟩
  · rw [greeted, List.length_map, List.length_range']
    exact turn
  · change l.registry.counter + 1 = _
    rw [counter]
    exact (UInt32.ofNat_add _ 1).symm
  · rw [greeted, next, List.range'_concat, List.map_append, Nat.one_mul, Nat.add_right_comm]
    rfl

def fresh (id : UInt24) : Connection κ := .new .server id .passthrough default none none

theorem Filled.enter {waiting : Nat} (h : Filled limit n (waiting + 1) l) (fits : n + 1 ≤ Registry.capacity) :
    ∃ e l', Step most l e l' ∧ Filled limit (n + 1) waiting l' := by
  obtain ⟨registry, greeted⟩ := l
  obtain ⟨rfl, rfl, counter, low, kept⟩ := h
  dsimp only at kept fits
  subst kept
  have value := toNat_truncate_of_le fits
  have free : registry.has (fresh (κ := κ) (UInt24.truncate (registry.size + 1))).id = false := by
    apply Bool.eq_false_iff.mpr
    intro taken
    have := low _ taken
    rw [fresh, Connection.new, value] at this
    exact Nat.not_succ_le_self _ this
  refine ⟨_, _, .enter [] (fresh (UInt24.truncate (registry.size + 1))), rfl,
    Registry.size_insert_of_not_has free, ?_, ?_, rfl⟩
  · change registry.counter = _
    rw [counter, Nat.add_right_comm _ 1 waiting]
    rfl
  · intro id present
    rcases Registry.has_insert present with rfl | old
    · exact Nat.le_of_eq value
    · exact Nat.le_succ_of_le (low id old)

/-- Some run fills the registry so far. -/
def Reaches (κ : Type) (limit most n waiting : Nat) : Prop :=
  ∃ events, ∃ l : Lobby κ, Run (Step most) (opening limit) events l ∧ Filled limit n waiting l

theorem reaches_opening : Reaches κ limit most 0 0 := by
  refine ⟨[], opening limit, .nil, rfl, rfl, rfl, ?_, rfl⟩
  intro id present
  cases present

theorem Reaches.allocate {waiting : Nat} (h : Reaches κ limit most n waiting) (below : n < limit)
    (turn : waiting < most) (fits : n + waiting + 1 ≤ Registry.capacity) :
    Reaches κ limit most n (waiting + 1) := by
  obtain ⟨events, l, run, filled⟩ := h
  obtain ⟨e, l', step, later⟩ := filled.allocate below turn fits
  exact ⟨events ++ [e], l', run.snoc step, later⟩

theorem Reaches.enter {waiting : Nat} (h : Reaches κ limit most n (waiting + 1))
    (fits : n + 1 ≤ Registry.capacity) : Reaches κ limit most (n + 1) waiting := by
  obtain ⟨events, l, run, filled⟩ := h
  obtain ⟨e, l', step, later⟩ := filled.enter fits
  exact ⟨events ++ [e], l', run.snoc step, later⟩

/-- One admission after the other fills the registry up to its limit. -/
theorem reaches_in_turn (open_ : 0 < most) (within : n ≤ limit) (fits : n ≤ Registry.capacity) :
    Reaches κ limit most n 0 := by
  induction n with
  | zero => exact reaches_opening
  | succ n ih =>
    have before := ih (Nat.le_of_succ_le within) (Nat.le_of_succ_le fits)
    exact (before.allocate within open_ fits).enter fits

theorem Reaches.allocateAll {count : Nat} (h : Reaches κ limit most n 0) (below : n < limit) (turn : count ≤ most)
    (fits : n + count ≤ Registry.capacity) : Reaches κ limit most n count := by
  induction count with
  | zero => exact h
  | succ count ih => exact (ih (Nat.le_of_succ_le turn) (Nat.le_of_succ_le fits)).allocate below turn fits

theorem Reaches.enterAll {count : Nat} (h : Reaches κ limit most n count) (fits : n + count ≤ Registry.capacity) :
    Reaches κ limit most (n + count) 0 := by
  induction count generalizing n with
  | zero => exact h
  | succ count ih =>
    have first := h.enter (by omega)
    have rest := ih first (by omega)
    rwa [Nat.add_right_comm] at rest

theorem reaches_peak (within : n ≤ peak limit most) : Reaches κ limit most n 0 := by
  obtain ⟨room, fits⟩ := Nat.le_min.mp within
  unfold allowance at room
  split at room
  · obtain rfl := Nat.le_zero.mp room
    exact reaches_opening
  · next open_ =>
    rw [not_or] at open_
    by_cases low : n ≤ limit
    · exact reaches_in_turn (by omega) low fits
    · -- One place is left free, and all that are still missing are let in through it.
      have before : Reaches κ limit most (limit - 1) 0 := reaches_in_turn (by omega) (by omega) (by omega)
      have overlap : Reaches κ limit most (limit - 1) (n - (limit - 1)) :=
        before.allocateAll (by omega) (by omega) (by omega)
      have entered := overlap.enterAll (by omega)
      rwa [show limit - 1 + (n - (limit - 1)) = n by omega] at entered

/-- With so many admissions at once, the registry comes to hold any number of connections up to its peak, and
never more. -/
theorem exists_run_iff : (∃ events, ∃ l : Lobby κ, Run (Step most) (opening limit) events l ∧ l.registry.size = n) ↔
    n ≤ peak limit most := by
  constructor
  · rintro ⟨events, l, run, rfl⟩
    exact (bounded_of_run run).size_le_peak
  · intro within
    obtain ⟨events, l, run, filled⟩ := reaches_peak (κ := κ) within
    exact ⟨events, l, run, filled.size_eq⟩

/-- The limit holds if nobody is admitted, if no two admissions overlap, or if there are no more ids anyway. -/
theorem size_le_limit_iff :
    (∀ events (l : Lobby κ), Run (Step most) (opening limit) events l → l.registry.size ≤ limit) ↔
      limit = 0 ∨ most ≤ 1 ∨ Registry.capacity ≤ limit := by
  rw [← peak_le_iff]
  constructor
  · intro kept
    obtain ⟨events, l, run, size⟩ := (exists_run_iff (κ := κ)).mpr (Nat.le_refl (peak limit most))
    rw [← size]
    exact kept events l run
  · intro below events l run
    exact Nat.le_trans (bounded_of_run run).size_le_peak below

/-- The last place is given to two peers: the second id is allocated while the first is on its way. -/
theorem two_in_one_place :
    ∃ events, ∃ l : Lobby Unit, Run (Step 2) (opening 1) events l ∧ l.registry.limit = 1 ∧ l.registry.size = 2 := by
  have first : Step 2 (opening 1 : Lobby Unit) (.allocate 1) ⟨⟨[], 2, 1, by simp⟩, [1]⟩ :=
    .allocate (by decide) rfl
  have second : Step 2 (⟨⟨[], 2, 1, by simp⟩, [1]⟩ : Lobby Unit) (.allocate 2) ⟨⟨[], 3, 1, by simp⟩, [1, 2]⟩ :=
    .allocate (by decide) rfl
  have run := (((Run.single first).snoc second).snoc (.enter [] (fresh 1))).snoc
    (.enter [] (fresh 2))
  exact ⟨_, _, run, rfl, rfl⟩

end Lobby

namespace Server

open Lobby

variable {β σ : Type} {s : Server β κ σ}

theorem registry_confirm (c : Connection κ) : ((s.enroll c).confirm c).registry = s.registry.settle c := by
  unfold confirm Registry.settle
  split
  · rfl
  · rfl

theorem registry_start {host : Host} {config : Config} {pipeline : Pipeline} {nonces : NonceSource}
    {dispatcher : Dispatcher β} {app : σ} (started : start host config pipeline nonces dispatcher app = .ok s) :
    s.registry = .new config.server.maxConnections := by
  obtain ⟨address, -, started⟩ := ok_of_bind started
  dsimp only at started
  split at started
  · split at started
    · cases started
    · obtain ⟨-, -, started⟩ := ok_of_bind started
      obtain ⟨queues, -, started⟩ := ok_of_bind started
      cases started
      rfl
  · obtain ⟨queues, -, started⟩ := ok_of_bind started
    cases started
    rfl

/-- Admitting one peer takes the steps of one admission. -/
theorem run_accept (asked : Challenge) (nonces : NonceSource) (peer : SocketAddress) (stream : Stream) :
    ∃ events, Run (Step 1) ⟨s.registry, []⟩ events ⟨(s.accept asked nonces peer stream).2.2.registry, []⟩ := by
  have served := Handshake.served_serve asked s.config.server.handshakeTimeout s.config.server.idWidth
    Registry.allocate stream s.registry
  simp only [accept, count]
  revert served
  generalize Handshake.serve asked s.config.server.handshakeTimeout s.config.server.idWidth
    Registry.allocate (stream, s.registry) = result
  intro served
  cases served with
  | early fault stream => exact ⟨[], .nil⟩
  | late fault stream =>
    cases allocated : s.registry.allocate.1 with
    | error fault => exact ⟨_, .single (.refuse (Prod.ext allocated rfl))⟩
    | ok id =>
      have given : Step 1 ⟨s.registry, []⟩ (.allocate id) ⟨s.registry.allocate.2, [id]⟩ :=
        .allocate Nat.zero_lt_one (Prod.ext allocated rfl)
      exact ⟨_, (Run.single given).snoc (.giveUp [])⟩
  | admitted id stream allocated =>
    have given : Step 1 ⟨s.registry, []⟩ (.allocate id) ⟨s.registry.allocate.2, [id]⟩ :=
      .allocate Nat.zero_lt_one (Prod.ext allocated rfl)
    rw [registry_confirm]
    exact ⟨_, (Run.single given).snoc (.enter [] (establish s id peer nonces).1)⟩

/-- The server once it has heard all these peers, one after the other. -/
def acceptAll (s : Server β κ σ) (peers : List (Challenge × NonceSource × SocketAddress × Stream)) : Server β κ σ :=
  peers.foldl (fun s (asked, nonces, peer, stream) => (s.accept asked nonces peer stream).2.2) s

theorem run_acceptAll (peers : List (Challenge × NonceSource × SocketAddress × Stream)) :
    ∃ events, Run (Step 1) ⟨s.registry, []⟩ events ⟨(s.acceptAll peers).registry, []⟩ := by
  induction peers generalizing s with
  | nil => exact ⟨[], .nil⟩
  | cons first peers ih =>
    obtain ⟨asked, nonces, peer, stream⟩ := first
    obtain ⟨events, run⟩ := s.run_accept asked nonces peer stream
    obtain ⟨later, rest⟩ := ih (s := (s.accept asked nonces peer stream).2.2)
    exact ⟨_, run.trans rest⟩

/-- A server that hears its peers one after the other stays within the limit of its settings. -/
theorem size_acceptAll_le {host : Host} {config : Config} {pipeline : Pipeline} {nonces : NonceSource}
    {dispatcher : Dispatcher β} {app : σ} (started : start host config pipeline nonces dispatcher app = .ok s)
    (peers : List (Challenge × NonceSource × SocketAddress × Stream)) :
    (s.acceptAll peers).registry.size ≤ config.server.maxConnections := by
  obtain ⟨events, run⟩ := s.run_acceptAll peers
  rw [registry_start started] at run
  exact Nat.le_trans (bounded_of_run run).size_le_peak (peak_le_iff.mpr (.inr (.inl (Nat.le_refl 1))))

end Server

end PeerLink
