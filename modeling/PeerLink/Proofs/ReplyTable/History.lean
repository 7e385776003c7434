import PeerLink.Proofs.ReplyTable
import PeerLink.Proofs.Run

/-!
A reply table over whole runs. Which callbacks wait, and which have run, is told by the calls alone: by the
first call after a registration that hits its slot. The table holds those whose slot has not been hit.
-/
namespace PeerLink.ReplyTable

inductive Event (κ : Type) where
  | register (callback : κ) (slot : Nat)
  /-- The callback ran, if there was one. -/
  | resolve (answer : Message) (ran : Option κ)
  | cancel (slot : Nat) (found : Bool)
  | clear

inductive Step {κ : Type} : ReplyTable κ → Event κ → ReplyTable κ → Prop
  | register {t callback slot t'} (kept : t.register? callback = some (slot, t')) :
    Step t (.register callback slot) t'
  | resolve {t answer callback t'} (taken : t.resolve? answer = some (callback, t')) :
    Step t (.resolve answer (some callback)) t'
  | orphan {t answer} (vacant : t.resolve? answer = none) : Step t (.resolve answer none) t
  | cancel {t slot} : Step t (.cancel slot (t.cancel slot).1) (t.cancel slot).2
  | clear {t} : Step t .clear t.clear

variable {κ : Type} {t t' : ReplyTable κ} {role : Role} {events : List (Event κ)} {e : Event κ}

/-! ### What the calls say -/

/-- What a call does to the callback in a slot that it hits. -/
inductive Hit where
  | run
  | drop
  deriving DecidableEq

namespace Event

def hit? (slot : Nat) : Event κ → Option Hit
  | .register .. => none
  | .resolve answer _ => if answer.type.toNat = replyBase + slot then some .run else none
  | .cancel other _ => if slot = other then some .drop else none
  | .clear => some .drop

/-- Slots and callbacks of the registrations whose first hit is the one given, or that were not hit. -/
def registered (first : Option Hit) : List (Event κ) → List (Nat × κ)
  | [] => []
  | .register callback slot :: later =>
    if later.findSome? (hit? slot) = first then (slot, callback) :: registered first later
    else registered first later
  | _ :: later => registered first later

def ran (events : List (Event κ)) : List κ :=
  events.filterMap fun
    | .resolve _ callback => callback
    | _ => none

def callbacks (events : List (Event κ)) : List κ :=
  events.filterMap fun
    | .register callback _ => some callback
    | _ => none

/-- A registration is not hit, or the first call that hits it runs its callback, or drops it. -/
theorem perm_callbacks (events : List (Event κ)) :
    (callbacks events).Perm
      ((registered none events ++ registered (some .run) events ++ registered (some .drop) events).map Prod.snd) := by
  induction events with
  | nil => exact .refl _
  | cons first later ih =>
    cases first with
    | register callback slot =>
      refine (ih.cons callback).trans ?_
      rw [registered, registered, registered]
      cases later.findSome? (hit? slot) with
      | none => simp
      | some hit =>
        cases hit with
        | run => simpa using List.perm_middle.symm
        | drop => simpa [← List.append_assoc] using List.perm_middle.symm
    | resolve | cancel | clear => exact ih

/-- What a registration adds to those that wait. -/
def added : Event κ → List (Nat × κ)
  | .register callback slot => [(slot, callback)]
  | _ => []

theorem registered_snoc_none :
    registered none (events ++ [e]) =
      (registered none events).filter (fun entry => e.hit? entry.1 = none) ++ e.added := by
  induction events with
  | nil => cases e <;> rfl
  | cons first later ih =>
    cases first with
    | register callback slot =>
      rw [List.cons_append, registered, registered, List.findSome?_append, ih]
      cases later.findSome? (hit? slot) with
      | some hit => simp
      | none =>
        cases hits : e.hit? slot with
        | some hit => simp [hits]
        | none => simp [hits]
    | resolve | cancel | clear => exact ih

theorem registered_snoc_some (hit : Hit) :
    (registered (some hit) (events ++ [e])).Perm
      (registered (some hit) events ++
        (registered none events).filter (fun entry => e.hit? entry.1 = some hit)) := by
  induction events with
  | nil => cases e <;> exact .refl _
  | cons first later ih =>
    cases first with
    | register callback slot =>
      rw [List.cons_append, registered, registered, registered, List.findSome?_append]
      cases later.findSome? (hit? slot) with
      | some earlier =>
        by_cases same : earlier = hit
        · simpa [same] using ih.cons (slot, callback)
        · simpa [same] using ih
      | none =>
        by_cases hits : e.hit? slot = some hit
        · simpa [hits] using (ih.cons (slot, callback)).trans List.perm_middle.symm
        · simpa [hits] using ih
    | resolve | cancel | clear => exact ih

theorem ran_snoc : ran (events ++ [e]) = ran events ++ ran [e] := List.filterMap_append ..

/-- What a call returns agrees with the calls before it. A registration gets a slot of the own half that
nobody waits in and that a type has room for. -/
def Agrees (role : Role) (before : List (Event κ)) : Event κ → Prop
  | .register _ slot =>
    role.owns slot = true ∧ (∀ other, other.owns slot = true → other = role) ∧
      slot ∉ (registered none before).map Prod.fst ∧
      ∀ m : Message, ∃ m', m.setReplySlot slot = .ok m' ∧ m'.type.toNat = replyBase + slot
  | .resolve answer result =>
    ∀ callback, result = some callback ↔
      ∃ slot, answer.type.toNat = replyBase + slot ∧ (slot, callback) ∈ registered none before
  | .cancel slot found => found = true ↔ slot ∈ (registered none before).map Prod.fst
  | .clear => True

end Event

open Event

structure Account (role : Role) (events : List (Event κ)) (t : ReplyTable κ) : Prop where
  agrees : ∀ (i : Nat) (e : Event κ), events[i]? = some e → e.Agrees role (events.take i)
  /-- A callback runs once for each of its registrations that an answer hit first, and for no other. -/
  runs : (ran events).Perm ((registered (some .run) events).map Prod.snd)
  size : t.size = (registered none events).length
  /-- A registration comes to an end while the half has a free slot. -/
  returns : (∃ slot, role.owns slot = true ∧ slot ∉ (registered none events).map Prod.fst) →
    ∀ callback, ∃ slot t', t.register? callback = some (slot, t')

/-- The table holds what has not been hit. -/
structure Tracks (role : Role) (events : List (Event κ)) (t : ReplyTable κ) : Prop where
  role_eq : t.role = role
  pending : t.pending = (registered none events).reverse
  runs : (ran events).Perm ((registered (some .run) events).map Prod.snd)
  agrees : ∀ (i : Nat) (e : Event κ), events[i]? = some e → e.Agrees role (events.take i)

theorem Tracks.mem_pending (h : Tracks role events t) {entry : Nat × κ} :
    entry ∈ t.pending ↔ entry ∈ registered none events := by
  rw [h.pending, List.mem_reverse]

theorem Tracks.isPending (h : Tracks role events t) {slot : Nat} :
    t.isPending slot = true ↔ slot ∈ (registered none events).map Prod.fst := by
  rw [isPending_iff, h.pending, List.map_reverse, List.mem_reverse]

/-- What has to be seen of a call: the callbacks that it leaves, those that it runs, and its result. -/
theorem Tracks.extend (h : Tracks role events t) (role_eq : t'.role = t.role)
    (pending : t'.pending = e.added ++ t.pending.filter (fun entry => e.hit? entry.1 = none))
    (runs : ran [e] = (t.pending.filter (fun entry => e.hit? entry.1 = some .run)).map Prod.snd)
    (agrees : e.Agrees role events) : Tracks role (events ++ [e]) t' := by
  refine ⟨role_eq.trans h.role_eq, ?_, ?_, ?_⟩
  · have one : e.added.reverse = e.added := by cases e <;> rfl
    rw [pending, registered_snoc_none, List.reverse_append, one, h.pending, List.filter_reverse]
  · rw [ran_snoc, runs, h.pending, List.filter_reverse]
    have hit : ((registered (some .run) (events ++ [e])).map Prod.snd).Perm _ :=
      (registered_snoc_some .run).map Prod.snd
    rw [List.map_append] at hit
    exact (h.runs.append ((List.reverse_perm _).map Prod.snd)).trans hit.symm
  · intro i found here
    rcases Nat.lt_trichotomy i events.length with before | last | beyond
    · rw [List.getElem?_append_left before] at here
      rw [List.take_append_of_le_length (Nat.le_of_lt before)]
      exact h.agrees i found here
    · subst last
      rw [List.getElem?_concat_length] at here
      cases here
      rwa [List.take_left]
    · rw [List.getElem?_eq_none] at here
      · cases here
      · rw [List.length_append]
        exact beyond

theorem Tracks.step (h : Tracks role events t) (step : Step t e t') : Tracks role (events ++ [e]) t' := by
  cases step with
  | @register callback slot _ kept =>
    obtain ⟨owned, vacant, role_eq, pending⟩ := register?_ok kept
    refine h.extend role_eq ?_ ?_ ⟨?_, ?_, ?_, ?_⟩
    · rw [pending]
      exact congrArg _ (List.filter_eq_self.mpr fun _ _ => rfl).symm
    · simp [ran, hit?]
    · rwa [← h.role_eq]
    · intro other also
      exact Role.eq_of_owns also (h.role_eq ▸ owned)
    · rw [← h.isPending, vacant]
      decide
    · intro m
      refine ⟨_, m.setReplySlot_eq (Role.fits_of_owns owned), ?_⟩
      rw [Message.type_setType]
      exact Nat.add_comm slot replyBase
  | @resolve answer callback _ taken =>
    obtain ⟨slot, carried, waits, rfl⟩ := resolve?_eq_some.mp taken
    rw [Message.replySlot_eq_some] at carried
    have hits : ∀ entry : Nat × κ, answer.type.toNat = replyBase + entry.1 ↔ entry.1 = slot := by
      intro entry
      omega
    refine h.extend rfl ?_ ?_ ?_
    · refine List.filter_congr fun entry _ => ?_
      rw [Bool.eq_iff_iff]
      simp [hit?, hits]
    · simp [ran, hit?, hits, filter_key t.distinct waits]
    · intro other
      simp only [Option.some.injEq]
      constructor
      · rintro rfl
        exact ⟨slot, carried, h.mem_pending.mp waits⟩
      · rintro ⟨same, carried', waits'⟩
        obtain rfl : same = slot := by omega
        exact eq_of_pending waits (h.mem_pending.mpr waits')
  | @orphan answer vacant =>
    rw [resolve?_eq_none] at vacant
    have misses : ∀ entry ∈ t.pending, answer.type.toNat ≠ replyBase + entry.1 := by
      intro entry waits carried
      exact vacant entry.1 entry.2 (Message.replySlot_eq_some.mpr carried) waits
    refine h.extend rfl ?_ ?_ ?_
    · refine (List.filter_eq_self.mpr fun entry waits => ?_).symm
      simp [hit?, misses entry waits]
    · rw [List.filter_eq_nil_iff.mpr]
      · rfl
      · intro entry waits
        simp [hit?, misses entry waits]
    · intro callback
      simp only [reduceCtorEq, false_iff]
      rintro ⟨slot, carried, waits⟩
      exact misses _ (h.mem_pending.mpr waits) carried
  | @cancel slot =>
    refine h.extend rfl ?_ ?_ ?_
    · refine List.filter_congr fun entry _ => ?_
      rw [Bool.eq_iff_iff]
      simp [hit?]
    · simp [ran, hit?]
    · exact h.isPending
  | clear =>
    refine h.extend rfl ?_ ?_ trivial
    · simp [ReplyTable.clear, added, hit?]
    · simp [ran, hit?]

theorem tracks_start (counter : UInt32) : Tracks role [] (⟨role, counter, [], List.nodup_nil⟩ : ReplyTable κ) := by
  refine ⟨rfl, rfl, .refl _, ?_⟩
  intro i e here
  cases here

/-- Whatever calls are made on a table, wherever its counter starts, they come to what the calls say. -/
theorem account_of_run {counter : UInt32} (run : Run Step ⟨role, counter, [], List.nodup_nil⟩ events t) :
    Account role events t := by
  have h : Tracks role events t := run.invariant (tracks_start counter) fun _ _ _ _ h step => h.step step
  refine ⟨h.agrees, h.runs, ?_, ?_⟩
  · rw [size, h.pending, List.length_reverse]
  · rintro ⟨slot, owned, vacant⟩ callback
    refine exists_register? ⟨slot, ?_, ?_⟩ callback
    · rwa [h.role_eq]
    · rw [← Bool.not_eq_true, h.isPending]
      exact vacant

/-- Two requests of a client, one on each side of a counter that wraps; the first is given up, the second
answered. -/
theorem account_of_run_wrapped :
    ∃ (events : List (Event Nat)) (t : ReplyTable Nat),
      Run Step ⟨.client, 0xffffffff, [], List.nodup_nil⟩ events t ∧
        events = [.register 7 2559, .register 8 0, .cancel 2559 true,
          .resolve (Message.withHeader 0 1 10) (some 8)] ∧
        Account .client events t ∧ t.size = 0 := by
  obtain ⟨first, kept, role, counter, pending⟩ :=
    register?_of_free (t := (⟨.client, 0xffffffff, [], List.nodup_nil⟩ : ReplyTable Nat)) rfl 7
  have slot : first.role.slot first.counter = 0 := by
    rw [role, counter]
    rfl
  have vacant : first.isPending (first.role.slot first.counter) = false := by
    rw [slot, isPending, pending]
    rfl
  obtain ⟨second, kept', -, -, pending'⟩ := register?_of_free vacant 8
  rw [slot] at kept' pending'
  have found : (second.cancel 2559).1 = true := by
    rw [cancel, isPending, pending', pending]
    rfl
  have answered : (second.cancel 2559).2.resolve? (Message.withHeader 0 1 10) =
      some (8, (second.cancel 2559).2.erase 0) := by
    refine resolve?_eq_some.mpr ⟨0, rfl, ?_, rfl⟩
    rw [cancel, mem_erase, pending']
    exact ⟨List.mem_cons_self, by decide⟩
  have run : Run Step ⟨.client, 0xffffffff, [], List.nodup_nil⟩
      [.register 7 2559, .register 8 0, .cancel 2559 true, .resolve (Message.withHeader 0 1 10) (some 8)]
      ((second.cancel 2559).2.erase 0) :=
    .snoc (.snoc (.snoc (.single (.register kept)) (.register kept')) (found ▸ .cancel)) (.resolve answered)
  have account := account_of_run run
  exact ⟨_, _, run, rfl, account, account.size⟩

end PeerLink.ReplyTable
