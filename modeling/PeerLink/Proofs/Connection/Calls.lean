import PeerLink.Proofs.Link.Frames
import PeerLink.Proofs.Places
import PeerLink.Proofs.ReplyTable.History

/-!
One connection and the calls at work on it, which take turns step by step. A request keeps its callback, frames its
message, looks whether the connection is open and only then queues the frame; between any two of these an answer may
come or the connection be closed. A close sets the flag, then clears the reply table and runs the hook last.
-/
namespace PeerLink

namespace BusyConnection

inductive Request where
  | begun (m : Message)
  /-- The callback waits in the slot. -/
  | registered (m : Message) (slot : Nat)
  | framed (slot : Nat) (frame : Bytes)
  /-- Has found the connection open and not yet queued the frame. -/
  | admitted (slot : Nat) (frame : Bytes)
  /-- Has failed and not yet given the slot back. -/
  | failing (slot : Nat) (fault : Fault)
  | returned (result : Except Fault Nat)

/-- Where a call stands that closes the connection. -/
inductive Closer where
  | begun
  /-- Has set the flag and not yet cleared the reply table. -/
  | shutting
  /-- Has cleared the reply table and not yet run the hook. -/
  | cleared
  | returned
  deriving DecidableEq

inductive Request.Event where
  | register (slot : Nat)
  | frame (frame : Bytes)
  | pass
  | queue (frame : Bytes)
  | fail (fault : Fault)
  | cancel (slot : Nat) (found : Bool)

inductive Closer.Event where
  | shut
  | late
  | clear
  | hook (id : UInt24)
  | noHook

/-- One step of a request. Its callback is its number. -/
inductive Request.Step (n : Nat) (isWriting : Bool) :
    Connection Nat → Request → Event → Connection Nat → Request → Prop
  | register {c m slot replies} (kept : c.replies.register? n = some (slot, replies)) :
    Step n isWriting c (.begun m) (.register slot) { c with replies } (.registered m slot)
  | frame {c m slot frame m' c'} (framed : (m.setReplySlot slot >>= c.frameOf) = .ok (frame, m', c')) :
    Step n isWriting c (.registered m slot) (.frame frame) c' (.framed slot frame)
  | unframed {c m slot fault} (unframed : (m.setReplySlot slot >>= c.frameOf) = .error fault) :
    Step n isWriting c (.registered m slot) (.fail fault) c (.failing slot fault)
  | pass {c slot frame} (up : c.isClosed = false) :
    Step n isWriting c (.framed slot frame) .pass c (.admitted slot frame)
  | refuse {c slot frame} (down : c.isClosed = true) :
    Step n isWriting c (.framed slot frame) (.fail .connectionClosed) c (.failing slot .connectionClosed)
  | queue {c slot frame} (writes : isWriting = true) :
    Step n isWriting c (.admitted slot frame) (.queue frame)
      { c with pending := c.pending + 1, outbound := c.outbound ++ [frame] } (.returned (.ok slot))
  | unqueued {c slot frame} (gone : isWriting = false) :
    Step n isWriting c (.admitted slot frame) (.fail .connectionClosed) c (.failing slot .connectionClosed)
  | cancel {c slot fault} :
    Step n isWriting c (.failing slot fault) (.cancel slot (c.replies.cancel slot).1)
      { c with replies := (c.replies.cancel slot).2 } (.returned (.error fault))

/-- One step of a close. Whoever takes the hook runs it. -/
inductive Closer.Step : Connection Nat → Bool → Closer → Event → Connection Nat → Bool → Closer → Prop
  | shut {c hook} (up : c.isClosed = false) : Step c hook .begun .shut { c with isClosed := true } hook .shutting
  | late {c hook} (down : c.isClosed = true) : Step c hook .begun .late c hook .returned
  | clear {c hook} :
    Step c hook .shutting .clear { c with replies := c.replies.clear, metrics := c.metrics.connectionClosed } hook
      .cleared
  | hook {c hook} (left : hook = true) : Step c hook .cleared (.hook c.id) c false .returned
  | noHook {c hook} (gone : hook = false) : Step c hook .cleared .noHook c false .returned

inductive Event where
  | begin (m : Message)
  | request (n : Nat) (e : Request.Event)
  | close
  | closer (i : Nat) (e : Closer.Event)
  | resolve (answer : Message) (ran : Option Nat)
  | giveUp (slot : Nat) (found : Bool)
  | write (frame : Bytes)
  | hangUp

end BusyConnection

/-- A connection with the calls on it, in the order in which they began. -/
structure BusyConnection where
  connection : Connection Nat
  requests : List BusyConnection.Request
  closers : List BusyConnection.Closer
  /-- The hook has yet to run. -/
  hook : Bool
  /-- Frames are still taken from the queue. -/
  isWriting : Bool

namespace BusyConnection

def start (c : Connection Nat) (hook : Bool) : BusyConnection := ⟨c, [], [], hook, true⟩

/-- One step of any of the calls, or of the writer. A slot is given up when a wait for it has ended in vain. -/
inductive Step : BusyConnection → Event → BusyConnection → Prop
  | begin {s m} : Step s (.begin m) { s with requests := s.requests ++ [.begun m] }
  | request {s n r e c r'} (here : s.requests[n]? = some r)
    (moves : Request.Step n s.isWriting s.connection r e c r') :
    Step s (.request n e) { s with connection := c, requests := s.requests.set n r' }
  | close {s} : Step s .close { s with closers := s.closers ++ [.begun] }
  | closer {s i k e c hook k'} (here : s.closers[i]? = some k)
    (moves : Closer.Step s.connection s.hook k e c hook k') :
    Step s (.closer i e) { s with connection := c, closers := s.closers.set i k', hook }
  | resolve {s answer n replies} (taken : s.connection.replies.resolve? answer = some (n, replies)) :
    Step s (.resolve answer (some n)) { s with connection := { s.connection with replies } }
  | orphan {s answer} (vacant : s.connection.replies.resolve? answer = none) : Step s (.resolve answer none) s
  | giveUp {s slot} :
    Step s (.giveUp slot (s.connection.replies.cancel slot).1)
      { s with connection := { s.connection with replies := (s.connection.replies.cancel slot).2 } }
  | write {s frame c} (writes : s.isWriting = true) (next : s.connection.nextFrame? = some (frame, c)) :
    Step s (.write frame) { s with connection := c }
  | hangUp {s} : Step s .hangUp { s with isWriting := false }

variable {s s' : BusyConnection} {events : List Event} {e : Event}

/-! ### What can be seen -/

namespace Event

/-- What the step is to the reply table. -/
def table : Event → List (ReplyTable.Event Nat)
  | .request n (.register slot) => [.register n slot]
  | .request _ (.cancel slot found) | .giveUp slot found => [.cancel slot found]
  | .closer _ .clear => [.clear]
  | .resolve answer ran => [.resolve answer ran]
  | _ => []

/-- The frames that requests have queued, with the numbers of the requests. -/
def queued (events : List Event) : List (Nat × Bytes) :=
  events.filterMap fun
    | .request n (.queue frame) => some (n, frame)
    | _ => none

def written (events : List Event) : List Bytes :=
  events.filterMap fun
    | .write frame => some frame
    | _ => none

def hooks (events : List Event) : List UInt24 :=
  events.filterMap fun
    | .closer _ (.hook id) => some id
    | _ => none

def callbacks (events : List Event) : List Nat := ReplyTable.Event.callbacks (events.flatMap table)

def ran (events : List Event) : List Nat := ReplyTable.Event.ran (events.flatMap table)

/-- The callbacks that have been dropped before an answer could run them. -/
def dropped (events : List Event) : List Nat :=
  (ReplyTable.Event.registered (some .drop) (events.flatMap table)).map Prod.snd

theorem queued_snoc : queued (events ++ [e]) = queued events ++ queued [e] := List.filterMap_append ..

theorem written_snoc : written (events ++ [e]) = written events ++ written [e] := List.filterMap_append ..

theorem hooks_snoc : hooks (events ++ [e]) = hooks events ++ hooks [e] := List.filterMap_append ..

theorem callbacks_snoc : callbacks (events ++ [e]) = callbacks events ++ callbacks [e] := by
  simp [callbacks, ReplyTable.Event.callbacks]

end Event

/-! ### The functions of a connection as runs -/

theorem step_newest_request (requests : List Request) {r r' : Request} {e : Request.Event} {c : Connection Nat}
    (newest : s.requests = requests ++ [r]) (moves : Request.Step requests.length s.isWriting s.connection r e c r') :
    Step s (.request requests.length e) { s with connection := c, requests := requests ++ [r'] } := by
  obtain ⟨here, placed⟩ := at_newest newest r'
  exact placed ▸ .request here moves

theorem step_newest_closer (closers : List Closer) {k k' : Closer} {e : Closer.Event} {c : Connection Nat} {hook : Bool}
    (newest : s.closers = closers ++ [k]) (moves : Closer.Step s.connection s.hook k e c hook k') :
    Step s (.closer closers.length e) { s with connection := c, closers := closers ++ [k'], hook } := by
  obtain ⟨here, placed⟩ := at_newest newest k'
  exact placed ▸ .closer here moves

/-- A request that nothing interrupts is a request of the connection. One that fails may have used up a nonce. -/
theorem run_sendWithReply? {m : Message} {result : Except Fault Nat} {c : Connection Nat}
    (writes : s.isWriting = true)
    (requested : s.connection.sendWithReply? m s.requests.length = some (result, c)) :
    ∃ later nonces, Run Step s later
      { s with connection := { c with nonces }, requests := s.requests ++ [.returned result] } := by
  unfold Connection.sendWithReply? at requested
  split at requested
  · cases requested
  · next slot replies kept =>
    have begun : Step s (.begin m) { s with requests := s.requests ++ [.begun m] } := .begin
    have registered := (Run.single begun).snoc (step_newest_request _ rfl (.register kept))
    have whole : (m.setReplySlot slot >>= { s.connection with replies }.send) =
        (m.setReplySlot slot >>= { s.connection with replies }.frameOf) >>= fun (frame, _, c) => c.sendFrame frame :=
      (bind_assoc ..).symm
    dsimp only at requested
    rw [whole] at requested
    cases framed : m.setReplySlot slot >>= { s.connection with replies }.frameOf with
    | error fault =>
      rw [framed] at requested
      cases requested
      exact ⟨_, _, (registered.snoc (step_newest_request _ rfl (.unframed framed))).snoc
        (step_newest_request _ rfl .cancel)⟩
    | ok made =>
      obtain ⟨frame, m', after⟩ := made
      obtain rfl := Connection.frameOf_stamped_ok framed
      have stamped := registered.snoc (step_newest_request _ rfl (.frame framed))
      rw [framed] at requested
      dsimp only [bind, Except.bind, Connection.sendFrame] at requested
      by_cases down : s.connection.isClosed = true
      · rw [if_pos down] at requested
        cases requested
        exact ⟨_, _, (stamped.snoc (step_newest_request _ rfl (.refuse down))).snoc
          (step_newest_request _ rfl .cancel)⟩
      · rw [if_neg down] at requested
        cases requested
        exact ⟨_, _, (stamped.snoc (step_newest_request _ rfl (.pass (Bool.eq_false_iff.mpr down)))).snoc
          (step_newest_request _ rfl (.queue writes))⟩

/-- A close that nothing interrupts is a close of the connection. -/
theorem run_close (s : BusyConnection) :
    ∃ later, Run Step s later
      { s with
        connection := s.connection.close
        closers := s.closers ++ [.returned]
        hook := s.connection.isClosed && s.hook } := by
  have begun : Step s .close { s with closers := s.closers ++ [.begun] } := .close
  rw [Connection.close]
  split
  · next down =>
    rw [down]
    exact ⟨_, (Run.single begun).snoc (step_newest_closer _ rfl (.late down))⟩
  · next up =>
    rw [Bool.not_eq_true] at up
    rw [up]
    have cleared := ((Run.single begun).snoc (step_newest_closer _ rfl (.shut up))).snoc
      (step_newest_closer _ rfl .clear)
    cases left : s.hook with
    | true => exact ⟨_, cleared.snoc (step_newest_closer _ rfl (.hook left))⟩
    | false => exact ⟨_, cleared.snoc (step_newest_closer _ rfl (.noHook left))⟩

/-- A request that has not returned can go on. One that begins needs a free slot. -/
theorem exists_step_request {n : Nat} {r : Request} (here : s.requests[n]? = some r)
    (running : ∀ result, r ≠ .returned result)
    (room : ∀ m, r = .begun m → s.connection.replies.size < s.connection.replies.role.span) :
    ∃ e s', Step s (.request n e) s' := by
  suffices moves : ∃ e c r', Request.Step n s.isWriting s.connection r e c r' by
    obtain ⟨e, c, r', moves⟩ := moves
    exact ⟨_, _, .request here moves⟩
  cases r with
  | begun m =>
    obtain ⟨slot, replies, kept⟩ := ReplyTable.exists_register? (ReplyTable.exists_free (room m rfl)) n
    exact ⟨_, _, _, .register kept⟩
  | registered m slot =>
    cases framed : m.setReplySlot slot >>= s.connection.frameOf with
    | ok made => exact ⟨_, _, _, .frame framed⟩
    | error fault => exact ⟨_, _, _, .unframed framed⟩
  | framed slot frame =>
    cases flag : s.connection.isClosed with
    | true => exact ⟨_, _, _, .refuse flag⟩
    | false => exact ⟨_, _, _, .pass flag⟩
  | admitted slot frame =>
    cases writes : s.isWriting with
    | true => exact ⟨_, _, _, .queue rfl⟩
    | false => exact ⟨_, _, _, .unqueued rfl⟩
  | failing slot fault => exact ⟨_, _, _, .cancel⟩
  | returned result => exact absurd rfl (running result)

theorem exists_step_closer {i : Nat} {k : Closer} (here : s.closers[i]? = some k) (running : k ≠ .returned) :
    ∃ e s', Step s (.closer i e) s' := by
  cases k with
  | begun =>
    cases flag : s.connection.isClosed with
    | true => exact ⟨_, _, .closer here (.late flag)⟩
    | false => exact ⟨_, _, .closer here (.shut flag)⟩
  | shutting => exact ⟨_, _, .closer here .clear⟩
  | cleared =>
    cases left : s.hook with
    | true => exact ⟨_, _, .closer here (.hook left)⟩
    | false => exact ⟨_, _, .closer here (.noHook left)⟩
  | returned => exact absurd rfl running

/-- What holds of the calls wherever they stand. One that nothing interrupts does what the function of the connection
does, and none ever waits for another one, unless it is for a slot. -/
structure Callable (s : BusyConnection) : Prop where
  request : s.isWriting = true → ∀ m result c,
    s.connection.sendWithReply? m s.requests.length = some (result, c) →
    ∃ later nonces, Run Step s later
      { s with connection := { c with nonces }, requests := s.requests ++ [.returned result] }
  close : ∃ later, Run Step s later
    { s with
      connection := s.connection.close
      closers := s.closers ++ [.returned]
      hook := s.connection.isClosed && s.hook }
  requestGoesOn : ∀ n r, s.requests[n]? = some r → (∀ result, r ≠ .returned result) →
    (∀ m, r = .begun m → s.connection.replies.size < s.connection.replies.role.span) →
    ∃ e s', Step s (.request n e) s'
  closerGoesOn : ∀ i k, s.closers[i]? = some k → k ≠ .returned → ∃ e s', Step s (.closer i e) s'

theorem callable (s : BusyConnection) : s.Callable where
  request writes _ _ _ requested := run_sendWithReply? writes requested
  close := s.run_close
  requestGoesOn _ _ here running room := exists_step_request here running room
  closerGoesOn _ _ here running := exists_step_closer here running

/-- Whatever happens on the connection is a run of its reply table. -/
theorem run_table (run : Run Step s events s') :
    Run ReplyTable.Step s.connection.replies (events.flatMap Event.table) s'.connection.replies := by
  refine run.image (·.connection.replies) Event.table fun s e s' step => ?_
  cases step with
  | request _ moves =>
    cases moves with
    | register kept => exact .single (.register kept)
    | cancel => exact .single .cancel
    | frame framed =>
      obtain rfl := Connection.frameOf_stamped_ok framed
      exact .nil
    | unframed | pass | refuse | queue | unqueued => exact .nil
  | closer _ moves =>
    cases moves with
    | clear => exact .single .clear
    | shut | late | hook | noHook => exact .nil
  | resolve taken => exact .single (.resolve taken)
  | orphan vacant => exact .single (.orphan vacant)
  | giveUp => exact .single .cancel
  | write _ next =>
    obtain ⟨rest, -, rfl⟩ := Connection.nextFrame?_eq_some next
    exact .nil
  | begin | close | hangUp => exact .nil

end BusyConnection

end PeerLink
