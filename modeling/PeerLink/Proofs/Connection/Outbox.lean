import PeerLink.Proofs.Connection.Calls
import PeerLink.Proofs.Registry
import PeerLink.Server

/-!
The frames of one connection on their way out. A call looks whether the connection is open, counts its frame and then
queues it, or takes the count back if the queue is gone; the writer counts a frame off once its write has ended. So the
gauge always stands at the frames that wait or are being written and the calls in between, and where it reads zero on
an open connection everything queued has been written.
-/
namespace PeerLink

/-- A server counts as flushed exactly if the gauge of each connection stands at zero. -/
theorem Server.isFlushed_iff {β κ σ : Type} {s : Server β κ σ} :
    s.isFlushed = true ↔ ∀ id c, s.registry.get? id = some c → c.pending = 0 :=
  decide_eq_true_iff.trans Registry.pending_eq_zero

namespace Outbox

/-- Where a call stands that queues a frame. -/
inductive Sender where
  | begun (frame : Bytes)
  | admitted (frame : Bytes)
  /-- Has counted the frame and not yet queued it. -/
  | counted (frame : Bytes)
  /-- Has found no queue and not yet taken the count back. -/
  | refused (frame : Bytes)
  | returned (frame : Bytes) (result : Except Fault Unit)

inductive Writer where
  | waiting
  | writing (frame : Bytes)
  /-- The write has ended, and the frame is still counted. -/
  | written (frame : Bytes) (done : Except Fault Unit)
  /-- Takes no more frames and has not yet closed the connection. -/
  | leaving
  | closed
  /-- The queue is gone with the frames that waited in it. -/
  | gone (lost : List Bytes)

inductive Sender.Event where
  | pass
  | refuse
  | count
  | queue (frame : Bytes)
  | bounce
  | uncount

inductive Writer.Event where
  | take (frame : Bytes)
  | write (frame : Bytes) (done : Except Fault Unit)
  | countOff
  | leave
  | close
  | drop

variable {κ : Type}

def Writer.isGone : Writer → Bool
  | .gone _ => true
  | _ => false

inductive Sender.Step (writer : Writer) : Connection κ → Sender → Event → Connection κ → Sender → Prop
  | pass {c frame} (up : c.isClosed = false) : Step writer c (.begun frame) .pass c (.admitted frame)
  | refuse {c frame} (down : c.isClosed = true) :
    Step writer c (.begun frame) .refuse c (.returned frame (.error .connectionClosed))
  | count {c frame} : Step writer c (.admitted frame) .count { c with pending := c.pending + 1 } (.counted frame)
  | queue {c frame} (here : writer.isGone = false) :
    Step writer c (.counted frame) (.queue frame) { c with outbound := c.outbound ++ [frame] }
      (.returned frame (.ok ()))
  | bounce {c frame} (gone : writer.isGone = true) : Step writer c (.counted frame) .bounce c (.refused frame)
  | uncount {c frame} :
    Step writer c (.refused frame) .uncount { c with pending := c.pending - 1 }
      (.returned frame (.error .connectionClosed))

/-- The writer hears of a close only while it waits, and closes the connection itself when a write has failed. -/
inductive Writer.Step : Connection κ → Writer → Event → Connection κ → Writer → Prop
  | take {c frame c'} (next : c.nextFrame? = some (frame, c')) : Step c .waiting (.take frame) c' (.writing frame)
  | write {c frame done} : Step c (.writing frame) (.write frame done) c (.written frame done)
  | next {c frame} : Step c (.written frame (.ok ())) .countOff (c.written frame (.ok ())) .waiting
  | fail {c frame fault} :
    Step c (.written frame (.error fault)) .countOff { c with pending := c.pending - 1 } .leaving
  | leave {c} (down : c.isClosed = true) : Step c .waiting .leave c .leaving
  | close {c} : Step c .leaving .close c.close .closed
  | drop {c} : Step c .closed .drop { c with outbound := [] } (.gone c.outbound)

inductive Event where
  | call (frame : Bytes)
  | sender (n : Nat) (e : Sender.Event)
  | writer (e : Writer.Event)
  | shut

end Outbox

/-- A connection with the calls that queue its frames, in the order in which they began, and its writer. -/
structure Outbox (κ : Type) where
  connection : Connection κ
  senders : List Outbox.Sender
  writer : Outbox.Writer

namespace Outbox

variable {κ : Type}

def start (c : Connection κ) : Outbox κ := ⟨c, [], .waiting⟩

/-- One step of a call, of the writer, or of anybody who closes the connection. -/
inductive Step : Outbox κ → Event → Outbox κ → Prop
  | call {s frame} : Step s (.call frame) { s with senders := s.senders ++ [.begun frame] }
  | sender {s n r e c r'} (here : s.senders[n]? = some r) (moves : Sender.Step s.writer s.connection r e c r') :
    Step s (.sender n e) { s with connection := c, senders := s.senders.set n r' }
  | writer {s e c w} (moves : Writer.Step s.connection s.writer e c w) :
    Step s (.writer e) { s with connection := c, writer := w }
  | shut {s} : Step s .shut { s with connection := s.connection.close }

variable {s s' : Outbox κ} {events : List Outbox.Event} {e : Outbox.Event} {n : Nat} {frame : Bytes}

/-! ### The functions of a connection as runs -/

theorem step_newest_sender (senders : List Sender) {r r' : Sender} {e : Sender.Event} {c : Connection κ}
    (newest : s.senders = senders ++ [r]) (moves : Sender.Step s.writer s.connection r e c r') :
    Step s (.sender senders.length e) { s with connection := c, senders := senders ++ [r'] } := by
  obtain ⟨here, placed⟩ := at_newest newest r'
  exact placed ▸ .sender here moves

theorem run_sendFrame {c : Connection κ} (here : s.writer.isGone = false)
    (sent : s.connection.sendFrame frame = .ok c) :
    ∃ later, Run Step s later { s with connection := c, senders := s.senders ++ [.returned frame (.ok ())] } := by
  obtain ⟨up, rfl⟩ := Connection.sendFrame_ok sent
  have begun : Step s (.call frame) { s with senders := s.senders ++ [.begun frame] } := .call
  have admitted := (Run.single begun).snoc (step_newest_sender _ rfl (.pass up))
  exact ⟨_, (admitted.snoc (step_newest_sender _ rfl .count)).snoc (step_newest_sender _ rfl (.queue here))⟩

theorem run_sendFrame_error {fault : Fault} (refused : s.connection.sendFrame frame = .error fault) :
    ∃ later, Run Step s later { s with senders := s.senders ++ [.returned frame (.error fault)] } := by
  obtain ⟨down, rfl⟩ := Connection.sendFrame_error refused
  have begun : Step s (.call frame) { s with senders := s.senders ++ [.begun frame] } := .call
  exact ⟨_, (Run.single begun).snoc (step_newest_sender _ rfl (.refuse down))⟩

/-- A frame that is taken and written in one go. -/
theorem run_written {c : Connection κ} (waits : s.writer = .waiting) (next : s.connection.nextFrame? = some (frame, c))
    (done : Except Fault Unit) :
    ∃ later w, Run Step s later { s with connection := c.written frame done, writer := w } := by
  have taken : Step s (.writer (.take frame)) { s with connection := c, writer := .writing frame } :=
    .writer (waits ▸ .take next)
  have ended : Run Step s _ { s with connection := c, writer := .written frame done } :=
    (Run.single taken).snoc (.writer .write)
  cases done with
  | ok => exact ⟨_, _, ended.snoc (.writer .next)⟩
  | error fault => exact ⟨_, _, (ended.snoc (.writer .fail)).snoc (.writer .close)⟩

/-- What calls and the writer do if nothing interrupts them is what the functions of the connection do. -/
structure Callable (s : Outbox κ) : Prop where
  sent : s.writer.isGone = false → ∀ frame c, s.connection.sendFrame frame = .ok c →
    ∃ later, Run Step s later { s with connection := c, senders := s.senders ++ [.returned frame (.ok ())] }
  refused : ∀ frame fault, s.connection.sendFrame frame = .error fault →
    ∃ later, Run Step s later { s with senders := s.senders ++ [.returned frame (.error fault)] }
  written : s.writer = .waiting → ∀ frame c, s.connection.nextFrame? = some (frame, c) → ∀ done,
    ∃ later w, Run Step s later { s with connection := c.written frame done, writer := w }

theorem callable (s : Outbox κ) : s.Callable where
  sent here _ _ sent := run_sendFrame here sent
  refused _ _ refused := run_sendFrame_error refused
  written waits _ _ next done := run_written waits next done

/-! ### What can be seen -/

namespace Event

def queued (events : List Event) : List (Nat × Bytes) :=
  events.filterMap fun
    | .sender n (.queue frame) => some (n, frame)
    | _ => none

def writes (events : List Event) : List (Bytes × Except Fault Unit) :=
  events.filterMap fun
    | .writer (.write frame done) => some (frame, done)
    | _ => none

def written (events : List Event) : List Bytes :=
  (writes events).filterMap fun
    | (frame, .ok ()) => some frame
    | (_, .error _) => none

def HasFailed (events : List Event) : Prop := ∃ frame fault, (frame, .error fault) ∈ writes events

def countsOn : Event → Nat
  | .sender _ .count => 1
  | _ => 0

def countsOff : Event → Nat
  | .sender _ .uncount | .writer .countOff => 1
  | _ => 0

theorem queued_snoc : queued (events ++ [e]) = queued events ++ queued [e] := List.filterMap_append ..

theorem writes_snoc : writes (events ++ [e]) = writes events ++ writes [e] := List.filterMap_append ..

theorem countsOn_of_countsOff (off : e.countsOff = 1) : e.countsOn = 0 := by
  cases e with
  | sender n e =>
    cases e with
    | count => cases off
    | pass | refuse | queue | bounce | uncount => rfl
  | call | writer | shut => rfl

theorem written_of_not_hasFailed (unfailed : ¬ HasFailed events) : written events = (writes events).map Prod.fst := by
  rw [← List.filterMap_eq_map]
  apply List.filterMap_congr
  rintro ⟨frame, done⟩ present
  cases done with
  | ok => rfl
  | error fault => exact absurd ⟨frame, fault, present⟩ unfailed

theorem hasFailed_snoc : HasFailed (events ++ [e]) ↔ HasFailed events ∨ HasFailed [e] := by
  simp only [HasFailed, writes_snoc, List.mem_append, exists_or]

end Event

open Event

/-! ### The gauge -/

def Sender.isCounted : Sender → Bool
  | .counted _ | .refused _ => true
  | _ => false

/-- How many frames the writer has taken from the queue and not yet counted off. -/
def Writer.held : Writer → Nat
  | .writing _ | .written .. => 1
  | .gone lost => lost.length
  | .waiting | .leaving | .closed => 0

/-- The frames that wait or are being written, and the calls whose frames are counted but not queued. -/
def outstanding (s : Outbox κ) : Nat :=
  s.connection.outbound.length + s.writer.held + s.senders.countP Sender.isCounted

theorem Sender.Step.balance {w : Writer} {c c' : Connection κ} {r r' : Sender} {e : Sender.Event}
    (moves : Sender.Step w c r e c' r') (n : Nat) :
    c'.outbound.length + (if r'.isCounted then 1 else 0) + (Event.sender n e).countsOff =
      c.outbound.length + (if r.isCounted then 1 else 0) + (Event.sender n e).countsOn ∧
    c'.pending + .ofNat (Event.sender n e).countsOff = c.pending + .ofNat (Event.sender n e).countsOn := by
  cases moves with
  | pass | refuse | bounce => exact ⟨rfl, rfl⟩
  | count => exact ⟨rfl, UInt64.add_zero _⟩
  | queue =>
    refine ⟨?_, rfl⟩
    rw [List.length_append]
    rfl
  | uncount => exact ⟨rfl, (UInt64.sub_add_cancel ..).trans (UInt64.add_zero _).symm⟩

theorem Writer.Step.balance {c c' : Connection κ} {w w' : Writer} {e : Writer.Event} (moves : Writer.Step c w e c' w') :
    c'.outbound.length + w'.held + (Event.writer e).countsOff = c.outbound.length + w.held ∧
      c'.pending + .ofNat (Event.writer e).countsOff = c.pending := by
  cases moves with
  | take next =>
    obtain ⟨rest, first, rfl⟩ := Connection.nextFrame?_eq_some next
    rw [first]
    exact ⟨rfl, UInt64.add_zero _⟩
  | write | leave => exact ⟨rfl, UInt64.add_zero _⟩
  | next | fail => exact ⟨rfl, UInt64.sub_add_cancel ..⟩
  | close =>
    obtain ⟨-, outbound, pending, -⟩ := Connection.close_cases c
    rw [outbound, pending]
    exact ⟨rfl, UInt64.add_zero _⟩
  | drop =>
    refine ⟨?_, UInt64.add_zero _⟩
    exact Nat.zero_add _

/-- What is counted changes with the gauge, and nothing is counted off that was not counted. -/
theorem Step.balance (step : Step s e s') :
    s'.outstanding + e.countsOff = s.outstanding + e.countsOn ∧
      s'.connection.pending + .ofNat e.countsOff = s.connection.pending + .ofNat e.countsOn := by
  cases step with
  | call =>
    refine ⟨?_, rfl⟩
    simp [outstanding, Sender.isCounted, countsOff, countsOn]
  | @sender n r e c r' here moves =>
    obtain ⟨counts, gauge⟩ := moves.balance n
    have put := countP_put here r' Sender.isCounted
    refine ⟨?_, gauge⟩
    simp only [outstanding]
    omega
  | writer moves =>
    obtain ⟨counts, gauge⟩ := moves.balance
    refine ⟨?_, gauge.trans (UInt64.add_zero _).symm⟩
    simp only [outstanding, countsOn]
    omega
  | shut =>
    obtain ⟨-, outbound, pending, -⟩ := Connection.close_cases s.connection
    simp only [outstanding, outbound, pending]
    exact ⟨rfl, rfl⟩

theorem Step.gauge (step : Step s e s') (gauge : s.connection.pending = .ofNat s.outstanding) :
    s'.connection.pending = .ofNat s'.outstanding := by
  -- The gauge wraps as the counts do when they are cut to its width, so it follows them without a bound.
  obtain ⟨counts, moves⟩ := step.balance
  rw [gauge, ← UInt64.ofNat_add, ← counts, UInt64.ofNat_add] at moves
  exact (UInt64.add_left_inj _).mp moves

/-! ### What has been written -/

/-- The frames that the writer has taken and not come to the end of. -/
def Writer.unwritten : Writer → List Bytes
  | .writing frame => [frame]
  | .gone lost => lost
  | .waiting | .written .. | .leaving | .closed => []

/-- The writer goes on as long as no write fails, and leaves behind a failure or a close. -/
def Writer.Stands (events : List Outbox.Event) (isClosed : Bool) : Writer → Prop
  | .waiting | .writing _ | .written _ (.ok ()) => ¬ HasFailed events
  | .written _ (.error _) => HasFailed events
  | .leaving => isClosed = true ∨ HasFailed events
  | .closed | .gone _ => isClosed = true

theorem Writer.Stands.mono {w : Writer} {isClosed isClosed' : Bool} (h : w.Stands events isClosed)
    (writes : writes [e] = []) (closes : isClosed = true → isClosed' = true) : w.Stands (events ++ [e]) isClosed' := by
  have same : HasFailed (events ++ [e]) ↔ HasFailed events := by
    rw [hasFailed_snoc]
    simp [HasFailed, writes]
  cases w with
  | waiting | writing => exact fun failed => h (same.mp failed)
  | written frame done =>
    cases done with
    | ok => exact fun failed => h (same.mp failed)
    | error => exact same.mpr h
  | leaving => exact h.imp closes same.mpr
  | closed | gone => exact closes h

structure Orderly (events : List Event) (s : Outbox κ) : Prop where
  gauge : s.connection.pending = .ofNat s.outstanding
  order : (queued events).map Prod.snd =
    (writes events).map Prod.fst ++ (s.writer.unwritten ++ s.connection.outbound)
  returned : ∀ n frame, s.senders[n]? = some (.returned frame (.ok ())) → (n, frame) ∈ queued events
  stands : s.writer.Stands events s.connection.isClosed

theorem Sender.Step.effect {w : Writer} {c c' : Connection κ} {r r' : Sender} {e : Sender.Event}
    (moves : Sender.Step w c r e c' r') (n : Nat) :
    c'.isClosed = c.isClosed ∧ c'.outbound = c.outbound ++ (queued [.sender n e]).map Prod.snd ∧
      ∀ frame, r' = .returned frame (.ok ()) → (n, frame) ∈ queued [.sender n e] := by
  cases moves with
  | pass | refuse | count | bounce | uncount => exact ⟨rfl, (List.append_nil _).symm, nofun⟩
  | queue =>
    refine ⟨rfl, rfl, ?_⟩
    rintro frame ⟨⟩
    exact List.mem_cons_self

theorem Writer.Step.effect {c c' : Connection κ} {w w' : Writer} {e : Writer.Event} (moves : Writer.Step c w e c' w')
    (stands : w.Stands events c.isClosed) :
    w'.Stands (events ++ [.writer e]) c'.isClosed ∧
      (writes [.writer e]).map Prod.fst ++ (w'.unwritten ++ c'.outbound) = w.unwritten ++ c.outbound := by
  cases moves with
  | take next =>
    obtain ⟨rest, first, rfl⟩ := Connection.nextFrame?_eq_some next
    exact ⟨Stands.mono (w := .writing _) stands rfl id, first.symm⟩
  | @write frame done =>
    refine ⟨?_, rfl⟩
    cases done with
    | ok =>
      rintro failed
      rcases hasFailed_snoc.mp failed with before | ⟨_, _, new⟩
      · exact stands before
      · cases List.mem_singleton.mp new
    | error fault => exact hasFailed_snoc.mpr (.inr ⟨frame, fault, List.mem_singleton_self _⟩)
  | next => exact ⟨Stands.mono (w := .waiting) stands rfl id, rfl⟩
  | fail => exact ⟨Stands.mono (w := .leaving) (.inr stands) rfl id, rfl⟩
  | leave down => exact ⟨.inl down, rfl⟩
  | close =>
    obtain ⟨-, outbound, -, down⟩ := Connection.close_cases c
    exact ⟨down, outbound⟩
  | drop => exact ⟨stands, List.append_nil _⟩

theorem Orderly.step (h : Orderly events s) (step : Step s e s') : Orderly (events ++ [e]) s' := by
  have gauge := step.gauge h.gauge
  cases step with
  | call =>
    refine ⟨gauge, ?_, ?_, h.stands.mono rfl id⟩
    · simpa [queued_snoc, writes_snoc, queued, writes] using h.order
    · intro n frame place
      rw [queued_snoc]
      rcases getElem?_snoc.mp place with before | ⟨-, new⟩
      · exact List.mem_append_left _ (h.returned n frame before)
      · cases new
  | @sender n r e c r' here moves =>
    obtain ⟨flag, outbound, returns⟩ := moves.effect n
    refine ⟨gauge, ?_, ?_, h.stands.mono rfl fun down => flag.trans down⟩
    · simp only [queued_snoc, writes_snoc, List.map_append, h.order, outbound, List.append_assoc]
      rfl
    · intro m frame place
      rw [queued_snoc]
      rcases (getElem?_put here).mp place with ⟨rfl, own⟩ | ⟨-, before⟩
      · exact List.mem_append_right _ (returns frame own.symm)
      · exact List.mem_append_left _ (h.returned m frame before)
  | writer moves =>
    obtain ⟨stands, order⟩ := moves.effect h.stands
    refine ⟨gauge, ?_, ?_, stands⟩
    · simp only [queued_snoc, writes_snoc, List.map_append, h.order, List.append_assoc, order]
      simp [queued]
    · intro n frame place
      rw [queued_snoc]
      exact List.mem_append_left _ (h.returned n frame place)
  | shut =>
    obtain ⟨-, outbound, -, down⟩ := Connection.close_cases s.connection
    refine ⟨gauge, ?_, ?_, h.stands.mono rfl fun _ => down⟩
    · simpa [queued_snoc, writes_snoc, queued, writes, outbound] using h.order
    · intro n frame place
      rw [queued_snoc]
      exact List.mem_append_left _ (h.returned n frame place)

structure Account (events : List Event) (s : Outbox κ) : Prop where
  callable : s.Callable
  gauge : s.connection.pending = .ofNat s.outstanding
  /-- A frame that is counted off was counted, so the gauge never passes zero. -/
  floor : ∀ e s', Step s e s' → e.countsOff = 1 → s.outstanding = s'.outstanding + 1
  returned : ∀ n frame, s.senders[n]? = some (.returned frame (.ok ())) → (n, frame) ∈ queued events
  /-- Writes end in the order in which their frames were queued. -/
  order : (writes events).map Prod.fst <+: (queued events).map Prod.snd
  /-- On an open connection zero means that everything has been written, or that a write has failed and the writer is
  about to close the connection. -/
  drained : s.outstanding < UInt64.size → s.connection.pending = 0 → s.connection.isClosed = false →
    written events = (queued events).map Prod.snd ∨ s.writer = .leaving ∧ HasFailed events
  /-- So it is with a connection of a server that counts as flushed. -/
  flushed : ∀ {β σ : Type} (server : Server β κ σ) (id : UInt24), server.isFlushed = true →
    server.registry.get? id = some s.connection → s.outstanding < UInt64.size → s.connection.isClosed = false →
    written events = (queued events).map Prod.snd ∨ s.writer = .leaving ∧ HasFailed events

theorem Orderly.outstanding_eq_zero (h : Orderly events s) (fits : s.outstanding < UInt64.size)
    (read : s.connection.pending = 0) : s.outstanding = 0 := by
  have gauge := congrArg UInt64.toNat (h.gauge.symm.trans read)
  rwa [UInt64.toNat_ofNat_of_lt' fits] at gauge

theorem Orderly.drained (h : Orderly events s) (nothing : s.outstanding = 0) (up : s.connection.isClosed = false) :
    written events = (queued events).map Prod.snd ∨ s.writer = .leaving ∧ HasFailed events := by
  obtain ⟨none_waits, -⟩ := Nat.add_eq_zero_iff.mp nothing
  obtain ⟨empty, none_held⟩ := Nat.add_eq_zero_iff.mp none_waits
  have stands := h.stands
  have order := h.order
  rw [List.length_eq_zero_iff.mp empty] at order
  cases writer : s.writer with
  | waiting =>
    rw [writer] at stands order
    left
    rw [written_of_not_hasFailed stands, order]
    exact (List.append_nil _).symm
  | writing | written =>
    rw [writer] at none_held
    cases none_held
  | leaving =>
    rw [writer] at stands
    rcases stands with down | failed
    · rw [up] at down
      cases down
    · exact .inr ⟨rfl, failed⟩
  | closed | gone =>
    rw [writer] at stands
    exact absurd (up.symm.trans stands) Bool.false_ne_true

theorem orderly_start {c : Connection κ} (pending : c.pending = 0) (empty : c.outbound = []) :
    Orderly [] (start c) := by
  refine ⟨?_, ?_, nofun, ?_⟩
  · simp [start, outstanding, Writer.held, pending, empty]
  · simp [start, Writer.unwritten, queued, writes, empty]
  · rintro ⟨_, _, present⟩
    cases present

variable {role : Role} {id : UInt24} {pipeline : Pipeline} {nonces : NonceSource} {peer : Option SocketAddress}
  {datagrams : Option DatagramLink}

/-- However the calls and the writer take turns, the gauge stands at what is still to be written. -/
theorem gauge_of_run (run : Run Step (start (.new role id pipeline nonces peer datagrams : Connection κ)) events s) :
    Account events s := by
  have h : Orderly events s := run.invariant (orderly_start rfl rfl) fun _ _ _ _ h step => h.step step
  have drained (fits : s.outstanding < UInt64.size) (read : s.connection.pending = 0) :=
    h.drained (h.outstanding_eq_zero fits read)
  refine ⟨s.callable, h.gauge, ?_, h.returned, ?_, drained, ?_⟩
  · intro e s' step counted
    have counts := step.balance.1
    rw [counted, countsOn_of_countsOff counted] at counts
    exact counts.symm
  · rw [h.order]
    exact List.prefix_append ..
  · intro β σ server id flushed there fits up
    exact drained fits (server.isFlushed_iff.mp flushed id _ there) up

/-- The second call overtakes the first one, whose frame is queued while the other one is being written. -/
theorem gauge_of_run_overtaken :
    ∃ events, ∃ s : Outbox Unit, Run Step (start (.new .server 1 .passthrough default none none)) events s ∧
      s.senders = [.returned [1] (.ok ()), .returned [2] (.ok ())] ∧ s.outstanding < UInt64.size ∧
      s.connection.pending = 0 ∧ s.connection.isClosed = false ∧ Account events s ∧ written events = [[2], [1]] := by
  let c : Connection Unit := .new .server 1 .passthrough default none none
  have counted : Run Step (start c)
      [.call [1], .call [2], .sender 0 .pass, .sender 0 .count, .sender 1 .pass, .sender 1 .count]
      ⟨{ c with pending := 2 }, [.counted [1], .counted [2]], .waiting⟩ :=
    (((((Run.single .call).snoc .call).snoc (.sender (n := 0) rfl (.pass rfl))).snoc
      (.sender (n := 0) rfl .count)).snoc (.sender (n := 1) rfl (.pass rfl))).snoc (.sender (n := 1) rfl .count)
  have queued : Run Step ⟨{ c with pending := 2 }, [.counted [1], .counted [2]], .waiting⟩
      [.sender 1 (.queue [2]), .writer (.take [2]), .sender 0 (.queue [1]), .writer (.write [2] (.ok ()))]
      ⟨{ c with pending := 2, outbound := [[1]] }, [.returned [1] (.ok ()), .returned [2] (.ok ())],
        .written [2] (.ok ())⟩ :=
    (((Run.single (.sender (n := 1) rfl (.queue rfl))).snoc (.writer (.take rfl))).snoc
      (.sender (n := 0) rfl (.queue rfl))).snoc (.writer .write)
  let sent : Metrics := c.metrics.messageSent 1
  have second : Run Step ⟨{ c with pending := 2, outbound := [[1]] },
      [.returned [1] (.ok ()), .returned [2] (.ok ())], .written [2] (.ok ())⟩
      [.writer .countOff, .writer (.take [1])]
      ⟨{ c with pending := 2 - 1, metrics := sent }, [.returned [1] (.ok ()), .returned [2] (.ok ())], .writing [1]⟩ :=
    (Run.single (.writer .next)).snoc (.writer (.take rfl))
  have first : Run Step
      ⟨{ c with pending := 2 - 1, metrics := sent }, [.returned [1] (.ok ()), .returned [2] (.ok ())], .writing [1]⟩
      [.writer (.write [1] (.ok ())), .writer .countOff]
      ⟨{ c with pending := 2 - 1 - 1, metrics := sent.messageSent 1 },
        [.returned [1] (.ok ()), .returned [2] (.ok ())], .waiting⟩ :=
    (Run.single (.writer .write)).snoc (.writer .next)
  have run := ((counted.trans queued).trans second).trans first
  have account := gauge_of_run run
  refine ⟨_, _, run, rfl, by decide, rfl, rfl, account, ?_⟩
  rcases account.drained (by decide) rfl rfl with whole | ⟨leaving, -⟩
  · exact whole
  · cases leaving

end Outbox

end PeerLink
