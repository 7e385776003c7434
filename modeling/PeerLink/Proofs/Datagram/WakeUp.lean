import PeerLink.Datagram.Link
import PeerLink.Proofs.Datagram.Slots
import PeerLink.Proofs.Run

/-!
The sender of a datagram channel and the calls that give it work, taking turns step by step. A call stores its datagram
or the peer's address and then leaves the permit; the sender takes the permit and then looks for the address and the
datagrams. So whatever the sender came too early to see has its permit still to come, and it never waits without one
while there is something to send and somewhere to send it.
-/
namespace PeerLink

inductive DatagramSender where
  /-- Waits for the permit. -/
  | waiting
  /-- Has taken the permit and not yet looked for the peer's address. -/
  | awake
  /-- Takes the next datagram for the address that it found. -/
  | draining (peer : SocketAddress)
  /-- Waits until the network has taken a datagram. -/
  | sending (peer : SocketAddress) (frame : Bytes)
  /-- Found no address or no more datagrams, and goes back to wait. -/
  | done
  | stopped
  deriving DecidableEq

namespace DatagramSender

/-- Where the end of a turn leaves the sender. -/
def after : Except Fault Unit → DatagramSender
  | .ok () => .waiting
  | .error _ => .stopped

def held : DatagramSender → List Bytes
  | .sending _ frame => [frame]
  | _ => []

/-- Where the sender sends to: the address that it has found, or else the one that it will find. -/
def target (peer : SocketAddress) : DatagramSender → SocketAddress
  | .draining found | .sending found _ => found
  | _ => peer

end DatagramSender

/-- A link with the calls and the sender at work on it. -/
structure DatagramChannel where
  link : DatagramLink
  /-- Calls that have stored a datagram or an address and not yet left the permit. -/
  unannounced : Nat
  sender : DatagramSender
  isCancelled : Bool

namespace DatagramChannel

inductive Event where
  | store (head : UInt16) (frame : Bytes) (replaced : Bool)
  | learn (peer : SocketAddress)
  | notify
  | wake
  | find (peer : SocketAddress)
  | miss
  | take (head : UInt16) (frame : Bytes)
  | send (peer : SocketAddress) (frame : Bytes)
  | fail (peer : SocketAddress) (frame : Bytes)
  | finish
  | rest
  | cancel
  | stop

/-- Nothing has been called yet. The peer's address may be known from the start. -/
def start (peer : Option SocketAddress) : DatagramChannel := ⟨.new peer, 0, .waiting, false⟩

/-- One step of a call or of the sender. The sender hears of a cancellation only while it waits. -/
inductive Step : DatagramChannel → Event → DatagramChannel → Prop
  | store {c head frame replaced slots} (added : c.link.slots.push head frame = (replaced, slots)) :
    Step c (.store head frame replaced)
      { c with link := { c.link with slots }, unannounced := c.unannounced + 1 }
  | learn {c peer} :
    Step c (.learn peer) { c with link := { c.link with peer := some peer }, unannounced := c.unannounced + 1 }
  | notify {c n} (stored : c.unannounced = n + 1) : Step c .notify { c with link := c.link.notify, unannounced := n }
  | wake {c} (waits : c.sender = .waiting) (permit : c.link.permit = true) :
    Step c .wake { c with link := { c.link with permit := false }, sender := .awake }
  | find {c peer} (awake : c.sender = .awake) (known : c.link.peer = some peer) :
    Step c (.find peer) { c with sender := .draining peer }
  | miss {c} (awake : c.sender = .awake) (unknown : c.link.peer = none) : Step c .miss { c with sender := .done }
  | take {c peer head frame slots} (drains : c.sender = .draining peer)
    (taken : c.link.slots.pop? = some ((head, frame), slots)) :
    Step c (.take head frame) { c with link := { c.link with slots }, sender := .sending peer frame }
  | send {c peer frame} (sends : c.sender = .sending peer frame) :
    Step c (.send peer frame) { c with sender := .draining peer }
  | fail {c peer frame} (sends : c.sender = .sending peer frame) :
    Step c (.fail peer frame) { c with sender := .stopped }
  | finish {c peer} (drains : c.sender = .draining peer) (empty : c.link.slots.pop? = none) :
    Step c .finish { c with sender := .done }
  | rest {c} (done : c.sender = .done) : Step c .rest { c with sender := .waiting }
  | cancel {c} : Step c .cancel { c with isCancelled := true }
  | stop {c} (waits : c.sender = .waiting) (cancelled : c.isCancelled = true) :
    Step c .stop { c with sender := .stopped }

namespace Event

/-- Steps of the sender that go well. -/
def serves : Event → Bool
  | .wake | .find _ | .miss | .take .. | .send .. | .finish | .rest => true
  | _ => false

/-- What the sender may stop for. -/
def breaks : Event → Bool
  | .cancel | .fail .. => true
  | _ => false

def sent (events : List Event) : List (SocketAddress × Bytes) :=
  events.filterMap fun
    | .send peer frame => some (peer, frame)
    | _ => none

end Event

variable {c c' : DatagramChannel} {events : List Event} {e : Event} {σ : Type}

/-! ### The functions of a link as runs -/

theorem run_enqueue (c : DatagramChannel) (head : UInt16) (frame : Bytes) :
    Run Step c [.store head frame (c.link.enqueue head frame).1, .notify]
      { c with link := (c.link.enqueue head frame).2 } :=
  (Run.single (.store rfl)).snoc (.notify rfl)

theorem run_learnPeer (c : DatagramChannel) (peer : SocketAddress) :
    Run Step c [.learn peer, .notify] { c with link := c.link.learnPeer peer } :=
  (Run.single .learn).snoc (.notify rfl)

/-- A sender that finds nothing left goes back to wait. -/
theorem run_finish {peer : SocketAddress} (inStep : c.link.slots.InStep) (drains : c.sender = .draining peer)
    (empty : c.link.slots.pop? = none) :
    ∃ later, Run Step c later { c with sender := .waiting } ∧ (∀ e ∈ later, e.serves = true) ∧
      c.link.slots.toList = [] ∧ Event.sent later = c.link.slots.toList.map fun entry => (peer, entry.2) := by
  have found : Step c .finish { c with sender := .done } := .finish drains empty
  have none_waits := inStep.pop?_eq_none.mp empty
  refine ⟨[.finish, .rest], (Run.single found).snoc (.rest rfl), by simp [Event.serves], none_waits, ?_⟩
  rw [none_waits]
  rfl

/-- A sender that is not interrupted sends what `sendAll` sends. -/
theorem run_sendAll {send : DatagramSocket σ} {peer : SocketAddress} {n : Nat} {metrics metrics' : Metrics}
    {net net' : σ} {result : Except Fault Unit} {slots : DatagramSlots} (inStep : c.link.slots.InStep)
    (drains : c.sender = .draining peer) (enough : c.link.slots.order.length ≤ n)
    (sends : DatagramLink.sendAll send peer n c.link.slots metrics net = (result, slots, metrics', net')) :
    ∃ later, Run Step c later { c with link := { c.link with slots }, sender := .after result } ∧
      (result = .ok () → (∀ e ∈ later, e.serves = true) ∧ slots.toList = [] ∧
        Event.sent later = c.link.slots.toList.map fun entry => (peer, entry.2)) := by
  induction n generalizing c metrics net with
  | zero =>
    cases sends
    have empty := DatagramSlots.InStep.pop?_nil (List.length_eq_zero_iff.mp (Nat.le_zero.mp enough))
    obtain ⟨later, run, fine⟩ := run_finish inStep drains empty
    exact ⟨later, run, fun _ => fine⟩
  | succ n ih =>
    rw [DatagramLink.sendAll] at sends
    split at sends
    · next empty =>
      cases sends
      obtain ⟨later, run, fine⟩ := run_finish inStep drains empty
      exact ⟨later, run, fun _ => fine⟩
    · next head frame left taken =>
      have took : Step c (.take head frame)
          { c with link := { c.link with slots := left }, sender := .sending peer frame } := .take drains taken
      split at sends
      · cases sends
        refine ⟨_, (Run.single took).snoc (.fail rfl), ?_⟩
        intro fine
        cases fine
      · next between _ =>
        have fewer := inStep.length_pop? taken
        obtain ⟨later, run, fine⟩ := ih
          (c := { c with link := { c.link with slots := left }, sender := .draining peer })
          (inStep.pop? taken) rfl (by dsimp only; omega) sends
        refine ⟨_, ((Run.single took).snoc (.send rfl)).trans run, fun ok => ?_⟩
        obtain ⟨serves, none_waits, sent⟩ := fine ok
        refine ⟨?_, none_waits, ?_⟩
        · simpa [Event.serves] using serves
        · rw [inStep.pop?_eq_some taken]
          simpa [Event.sent] using sent

/-- A turn of the sender that nothing interrupts is one turn of the link. -/
theorem run_turn {send : DatagramSocket σ} {metrics metrics' : Metrics} {net net' : σ} {result : Except Fault Unit}
    {link : DatagramLink} (inStep : c.link.slots.InStep) (waits : c.sender = .waiting) (permit : c.link.permit = true)
    (turn : c.link.run send metrics net = (result, link, metrics', net')) :
    ∃ later, Run Step c later { c with link, sender := .after result } := by
  have woken : Step c .wake { c with link := { c.link with permit := false }, sender := .awake } := .wake waits permit
  rw [DatagramLink.run, if_pos permit] at turn
  dsimp only at turn
  split at turn
  · next unknown =>
    cases turn
    have missed : Step _ .miss { c with link := { c.link with permit := false }, sender := .done } :=
      .miss (c := { c with link := { c.link with permit := false }, sender := .awake }) rfl unknown
    exact ⟨_, ((Run.single woken).snoc missed).snoc (.rest rfl)⟩
  · next peer known =>
    cases turn
    have found : Step _ (.find peer) { c with link := { c.link with permit := false }, sender := .draining peer } :=
      .find (c := { c with link := { c.link with permit := false }, sender := .awake }) rfl known
    have sends := Eq.refl (DatagramLink.sendAll send peer c.link.slots.order.length c.link.slots metrics net)
    obtain ⟨later, run, -⟩ := run_sendAll
      (c := { c with link := { c.link with permit := false }, sender := .draining peer }) inStep rfl (Nat.le_refl _) sends
    exact ⟨_, ((Run.single woken).snoc found).trans run⟩

/-- What calls and the sender do if nothing interrupts them is what the functions of the link do. -/
structure Callable (c : DatagramChannel) : Prop where
  enqueue : ∀ head frame, Run Step c [.store head frame (c.link.enqueue head frame).1, .notify]
    { c with link := (c.link.enqueue head frame).2 }
  learn : ∀ peer, Run Step c [.learn peer, .notify] { c with link := c.link.learnPeer peer }
  turn : c.sender = .waiting → c.link.permit = true → ∀ {σ : Type} (send : DatagramSocket σ) metrics net,
    let (result, link, _) := c.link.run send metrics net
    ∃ later, Run Step c later { c with link, sender := .after result }

theorem callable (inStep : c.link.slots.InStep) : c.Callable where
  enqueue := run_enqueue c
  learn := run_learnPeer c
  turn waits permit _ _ _ _ := run_turn inStep waits permit rfl

/-! ### What the sender hears of -/

/-- A sender that waits, or is about to, has a permit to come if there is something to send and somewhere to
send it. -/
structure Heard (c : DatagramChannel) : Prop where
  inStep : c.link.slots.InStep
  heard : c.sender = .waiting ∨ c.sender = .done → c.link.peer ≠ none → c.link.slots.toList ≠ [] →
    c.link.permit = true ∨ 0 < c.unannounced

theorem heard_start (peer : Option SocketAddress) : (start peer).Heard where
  inStep := DatagramSlots.inStep_empty
  heard _ _ waits := absurd rfl waits

theorem Heard.of_busy (inStep : c.link.slots.InStep) (awake : c.sender ≠ .waiting) (undone : c.sender ≠ .done) :
    c.Heard where
  inStep := inStep
  heard idle := (idle.elim awake undone).elim

/-- What a call has stored is not announced yet, and what the sender leaves undone is not there. -/
theorem Heard.step (h : c.Heard) (step : Step c e c') : c'.Heard := by
  obtain ⟨inStep, heard⟩ := h
  cases step with
  | @store head frame replaced slots added =>
    have kept := inStep.push head frame
    rw [added] at kept
    exact ⟨kept, fun _ _ _ => .inr (Nat.succ_pos _)⟩
  | learn => exact ⟨inStep, fun _ _ _ => .inr (Nat.succ_pos _)⟩
  | notify => exact ⟨inStep, fun _ _ _ => .inl rfl⟩
  | wake | find | send | fail | stop => exact .of_busy inStep nofun nofun
  | take _ taken => exact .of_busy (inStep.pop? taken) nofun nofun
  | miss _ unknown => exact ⟨inStep, fun _ known => absurd unknown known⟩
  | finish _ empty => exact ⟨inStep, fun _ _ waits => absurd (inStep.pop?_eq_none.mp empty) waits⟩
  | rest done => exact ⟨inStep, fun _ => heard (.inr done)⟩
  | cancel => exact ⟨inStep, heard⟩

structure Tracks (events : List Event) (c : DatagramChannel) : Prop where
  heard : c.Heard
  cancelled : c.isCancelled = true → ∃ e ∈ events, e.breaks = true
  stopped : c.sender = .stopped → ∃ e ∈ events, e.breaks = true

theorem Tracks.step (h : Tracks events c) (step : Step c e c') : Tracks (events ++ [e]) c' := by
  have earlier : (∃ e ∈ events, e.breaks = true) → ∃ e' ∈ events ++ [e], e'.breaks = true := by
    rintro ⟨broken, before, breaks⟩
    exact ⟨broken, List.mem_append_left _ before, breaks⟩
  refine ⟨h.heard.step step, fun cancelled => ?_, fun stopped => ?_⟩
  · cases step with
    | cancel => exact ⟨.cancel, List.mem_concat_self, rfl⟩
    | store | learn | notify | wake | find | miss | take | send | fail | finish | rest | stop =>
      exact earlier (h.cancelled cancelled)
  · cases step with
    | fail => exact ⟨_, List.mem_concat_self, rfl⟩
    | stop _ cancelled => exact earlier (h.cancelled cancelled)
    | store | learn | notify | cancel => exact earlier (h.stopped stopped)
    | wake | find | miss | take | send | finish | rest => cases stopped

theorem tracks_of_run {peer : Option SocketAddress} (run : Run Step (start peer) events c) : Tracks events c := by
  refine run.invariant ⟨heard_start peer, ?_, ?_⟩ fun _ _ _ _ h step => h.step step
  · intro cancelled
    cases cancelled
  · intro stopped
    cases stopped

/-! ### What the sender does about it -/

theorem sendAll_taken {send : DatagramSocket σ} (takes : ∀ peer frame net, (send peer frame net).1 = .ok ())
    (peer : SocketAddress) (n : Nat) (slots : DatagramSlots) (metrics : Metrics) (net : σ) :
    (DatagramLink.sendAll send peer n slots metrics net).1 = .ok () := by
  induction n generalizing slots metrics net with
  | zero => rfl
  | succ n ih =>
    rw [DatagramLink.sendAll]
    split
    · rfl
    · next frame _ _ =>
      split
      · next failed =>
        have taken := takes peer frame net
        rw [failed] at taken
        cases taken
      · exact ih ..

/-- The sender goes on by itself until nothing waits, and sends what was left to send, in order, to one address. -/
def Serves (c : DatagramChannel) (peer : SocketAddress) : Prop :=
  ∃ later c', Run Step c later c' ∧ (∀ e ∈ later, e.serves = true) ∧ c'.link.slots.toList = [] ∧
    Event.sent later = (c.sender.held ++ c.link.slots.toList.map Prod.snd).map (c.sender.target peer, ·)

variable {peer : SocketAddress}

theorem Serves.of_step (step : Step c e c') (serves : e.serves = true) (next : c'.Serves peer)
    (sends : (c.sender.held ++ c.link.slots.toList.map Prod.snd).map (c.sender.target peer, ·) =
      Event.sent [e] ++ (c'.sender.held ++ c'.link.slots.toList.map Prod.snd).map (c'.sender.target peer, ·)) :
    c.Serves peer := by
  obtain ⟨later, last, run, serve, empty, sent⟩ := next
  refine ⟨e :: later, last, run.cons step, ?_, empty, ?_⟩
  · intro e' member
    rcases List.mem_cons.mp member with rfl | after
    · exact serves
    · exact serve e' after
  · rw [sends, ← sent]
    exact List.filterMap_append (l := [e])

theorem Heard.serves_draining {found : SocketAddress} (h : c.Heard) (drains : c.sender = .draining found) :
    c.Serves peer := by
  let takes : DatagramSocket Unit := fun _ _ net => (.ok (), net)
  have sends := Eq.refl (DatagramLink.sendAll takes found c.link.slots.order.length c.link.slots {} ())
  obtain ⟨later, run, fine⟩ := run_sendAll h.inStep drains (Nat.le_refl _) sends
  obtain ⟨serve, empty, sent⟩ := fine (sendAll_taken (fun _ _ _ => rfl) ..)
  refine ⟨later, _, run, serve, empty, ?_⟩
  rw [sent, drains]
  simp [DatagramSender.held, DatagramSender.target]

theorem Heard.serves_awake (h : c.Heard) (known : c.link.peer = some peer) (awake : c.sender = .awake) :
    c.Serves peer := by
  have step : Step c (.find peer) { c with sender := .draining peer } := .find awake known
  refine .of_step step rfl ((h.step step).serves_draining rfl) ?_
  rw [awake]
  rfl

theorem Heard.serves_waiting (h : c.Heard) (known : c.link.peer = some peer) (announced : c.unannounced = 0)
    (waits : c.sender = .waiting) : c.Serves peer := by
  cases permit : c.link.permit with
  | true =>
    have step : Step c .wake { c with link := { c.link with permit := false }, sender := .awake } := .wake waits permit
    refine .of_step step rfl ((h.step step).serves_awake known rfl) ?_
    rw [waits]
    rfl
  | false =>
    -- Without a permit to take or to come there is nothing to send.
    have empty : c.link.slots.toList = [] := by
      by_contra left
      rcases h.heard (.inl waits) (by simp [known]) left with permitted | coming
      · rw [permit] at permitted
        cases permitted
      · omega
    refine ⟨[], c, .nil, by simp, empty, ?_⟩
    rw [waits, empty]
    rfl

theorem Heard.serves (h : c.Heard) (known : c.link.peer = some peer) (announced : c.unannounced = 0)
    (going : c.sender ≠ .stopped) : c.Serves peer := by
  cases stands : c.sender with
  | waiting => exact h.serves_waiting known announced stands
  | awake => exact h.serves_awake known stands
  | draining found => exact h.serves_draining stands
  | sending found frame =>
    have step : Step c (.send found frame) { c with sender := .draining found } := .send stands
    refine .of_step step rfl ((h.step step).serves_draining rfl) ?_
    rw [stands]
    rfl
  | done =>
    have step : Step c .rest { c with sender := .waiting } := .rest stands
    refine .of_step step rfl ((h.step step).serves_waiting known announced rfl) ?_
    rw [stands]
    rfl
  | stopped => exact absurd stands going

/-- While something waits for a known address and every call has left its permit, the sender is not asleep: it has not
stopped, it does not wait without a permit, and left alone it sends everything that waits. Calls and turns that nothing
interrupts are those of the link. -/
theorem served_of_run {first : Option SocketAddress} (run : Run Step (start first) events c)
    (smooth : ∀ e ∈ events, e.breaks = false) (known : c.link.peer = some peer) (waits : c.link.pending ≠ 0)
    (announced : c.unannounced = 0) :
    c.Callable ∧ c.sender ≠ .stopped ∧ ¬(c.sender = .waiting ∧ c.link.permit = false) ∧ c.Serves peer := by
  obtain ⟨h, -, stopped⟩ := tracks_of_run run
  have going : c.sender ≠ .stopped := by
    intro halted
    obtain ⟨e, before, breaks⟩ := stopped halted
    rw [smooth e before] at breaks
    cases breaks
  refine ⟨callable h.inStep, going, ?_, h.serves known announced going⟩
  rintro ⟨asleep, without⟩
  have left : c.link.slots.toList ≠ [] := by
    intro empty
    rw [DatagramLink.pending, ← h.inStep.size_toList, empty] at waits
    exact waits rfl
  rcases h.heard (.inl asleep) (by simp [known]) left with permitted | coming
  · rw [without] at permitted
    cases permitted
  · omega

/-- The permit of the datagram is gone before the address is known, but that of the address is to come. -/
theorem served_of_run_unknown :
    ∃ events c, Run Step (start none) events c ∧ c.link.pending ≠ 0 ∧ c.sender = .waiting ∧
      events = [.store 7 [0xa1] false, .notify, .wake, .miss, .rest, .learn ⟨.v4 10 0 0 6, 0, 4000⟩, .notify] ∧
      c.Serves ⟨.v4 10 0 0 6, 0, 4000⟩ := by
  let peer : SocketAddress := ⟨.v4 10 0 0 6, 0, 4000⟩
  have added := DatagramSlots.inStep_empty.push_of_not_mem (List.not_mem_nil : (7 : UInt16) ∉ []) [0xa1]
  have stored : Step (start none) _ _ := .store added
  have run : Run Step (start none) [.store 7 [0xa1] false, .notify, .wake, .miss, .rest, .learn peer, .notify] _ :=
    ((((((Run.single stored).snoc (.notify rfl)).snoc (.wake rfl rfl)).snoc (.miss rfl rfl)).snoc (.rest rfl)).snoc
      .learn).snoc (.notify rfl)
  have waits : DatagramLink.pending ⟨some peer, ⟨Std.HashMap.insert ∅ 7 [0xa1], [7]⟩, true⟩ ≠ 0 := by
    have inStep := DatagramSlots.inStep_empty.push 7 [0xa1]
    rw [added] at inStep
    have one := inStep.size_eq
    exact fun none_waits => absurd (one.symm.trans none_waits) Nat.one_ne_zero
  have smooth : ∀ e ∈ ([.store 7 [0xa1] false, .notify, .wake, .miss, .rest, .learn peer, .notify] : List Event),
      e.breaks = false := by
    simp [Event.breaks]
  exact ⟨_, _, run, waits, rfl, rfl, (served_of_run run smooth rfl waits rfl).2.2.2⟩

end DatagramChannel

end PeerLink
