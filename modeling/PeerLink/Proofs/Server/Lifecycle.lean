import PeerLink.Proofs.Handshake
import PeerLink.Proofs.Places
import PeerLink.Proofs.Registry
import PeerLink.Proofs.Run
import PeerLink.Server

/-!
Connections that are admitted and closed at the same time. A connection is in use before it is in the registry, and
whoever finds its peer gone closes it, at whatever point its admission is: it may be taken out of the registry before
it has been entered, and depart before it has been announced.
-/
namespace PeerLink

namespace Roster

/-- How far the admission of a connection has got. -/
inductive Entry where
  | opened
  | enrolled
  /-- Has found the connection open and not yet announced it. -/
  | passed
  /-- Has found the connection closed and not yet taken it out again. -/
  | failed
  | announced
  | withdrawn

inductive Exit where
  | staying
  | shut
  /-- Is out of the registry, and nobody has been told. -/
  | retired
  | departed

inductive Guest.Event where
  | enroll
  | pass
  | fail
  | withdraw
  | announce
  | shut
  | late
  | retire
  | depart
  deriving DecidableEq

inductive Event where
  | establish (id : UInt24)
  | guest (id : UInt24) (e : Guest.Event)
  | aside
  deriving DecidableEq

/-- A connection with the tasks that admit it and close it. -/
structure Guest (κ : Type) where
  connection : Connection κ
  entry : Entry
  exit : Exit

end Roster

namespace Server

variable {β κ σ : Type} {s : Server β κ σ} {c : Connection κ} {id : UInt24}

/-- The registry has what has become of a connection, if it has the connection. -/
def share (s : Server β κ σ) (c : Connection κ) : Server β κ σ :=
  { s with registry := s.registry.map fun id shared => if id = c.id then c else shared }

theorem get?_share_self : (s.share c).registry.get? c.id = (s.registry.get? c.id).map fun _ => c := by
  rw [share, Registry.get?_map]
  simp

theorem get?_share_of_ne (other : id ≠ c.id) : (s.share c).registry.get? id = s.registry.get? id := by
  rw [share, Registry.get?_map]
  simp [other]

def closing (s : Server β κ σ) (c : Connection κ) : Connection κ := { c with metrics := s.metrics }.close

theorem id_closing (s : Server β κ σ) (c : Connection κ) : (s.closing c).id = c.id :=
  (Connection.close_cases { c with metrics := s.metrics }).1

theorem isClosed_closing (s : Server β κ σ) (c : Connection κ) : (s.closing c).isClosed = true :=
  (Connection.close_cases { c with metrics := s.metrics }).2.2.2

/-- Closes a connection that is still in the registry, if it has been entered. -/
def shut (s : Server β κ σ) (c : Connection κ) : Server β κ σ :=
  { s with metrics := (s.closing c).metrics }.share (s.closing c)

/-- Takes a connection out of the registry, and tells nobody. -/
def remove (s : Server β κ σ) (c : Connection κ) : Server β κ σ :=
  { s with registry := s.registry.erase c.id, departed := c :: s.departed }

theorem remove_share : (s.share c).remove c = s.remove c := by
  have forgotten : (s.share c).registry.erase c.id = s.registry.erase c.id :=
    Registry.erase_map fun other apart shared => if_neg apart
  unfold remove
  rw [forgotten]
  rfl

theorem putBack_closing {t : Server β κ σ} (up : c.isClosed = false) :
    t.putBack c (s.closing c) = (t.remove (s.closing c)).publish (.disconnected (s.closing c).id) := by
  unfold putBack
  rw [if_neg (Bool.eq_false_iff.mp up), if_pos (s.isClosed_closing c)]
  rfl

theorem close_eq (live : s.registry.get? id = some c) (up : c.isClosed = false) :
    (s.close id).2 = ((s.shut c).remove (s.closing c)).publish (.disconnected (s.closing c).id) := by
  simp only [close, live]
  rw [shut, remove_share]
  exact putBack_closing up

end Server

/-- A server with the connections that it has opened, in the order in which it did so. -/
structure Roster (β κ σ : Type) where
  server : Server β κ σ
  guests : List (Roster.Guest κ)

namespace Roster

variable {β κ σ : Type}

def start (server : Server β κ σ) : Roster β κ σ := ⟨server, []⟩

/-- Opens a connection that is still to be entered. -/
def establish (s : Roster β κ σ) (id : UInt24) (peer : SocketAddress) (nonces : NonceSource) : Roster β κ σ where
  server := (s.server.establish id peer nonces).2
  guests := s.guests ++ [⟨(s.server.establish id peer nonces).1, .opened, .staying⟩]

/-- One step of the task that admits a connection, or of one that closes it. The first to close it sets the flag;
those that come later find it set. -/
inductive Guest.Step : Server β κ σ → Guest κ → Event → Server β κ σ → Guest κ → Prop
  | enroll {s c exit} : Step s ⟨c, .opened, exit⟩ .enroll (s.enroll c) ⟨c, .enrolled, exit⟩
  | pass {s c exit} (up : c.isClosed = false) : Step s ⟨c, .enrolled, exit⟩ .pass s ⟨c, .passed, exit⟩
  | fail {s c exit} (down : c.isClosed = true) : Step s ⟨c, .enrolled, exit⟩ .fail s ⟨c, .failed, exit⟩
  | withdraw {s c exit} :
    Step s ⟨c, .failed, exit⟩ .withdraw { s with registry := s.registry.erase c.id } ⟨c, .withdrawn, exit⟩
  | announce {s c exit} :
    Step s ⟨c, .passed, exit⟩ .announce (s.publish (.connected c.id)) ⟨c, .announced, exit⟩
  | shut {s c entry} (up : c.isClosed = false) :
    Step s ⟨c, entry, .staying⟩ .shut (s.shut c) ⟨s.closing c, entry, .shut⟩
  | late {s c entry exit} (down : c.isClosed = true) : Step s ⟨c, entry, exit⟩ .late s ⟨c, entry, exit⟩
  | retire {s c entry} : Step s ⟨c, entry, .shut⟩ .retire (s.remove c) ⟨c, entry, .retired⟩
  | depart {s c entry} :
    Step s ⟨c, entry, .retired⟩ .depart (s.publish (.disconnected c.id)) ⟨c, entry, .departed⟩

/-- One step of some connection. A connection is opened under an id that no other one has had. Whatever else happens
leaves the registry and the events alone. -/
inductive Step : Roster β κ σ → Event → Roster β κ σ → Prop
  | establish {s id} (peer : SocketAddress) (nonces : NonceSource) (fresh : ∀ g ∈ s.guests, g.connection.id ≠ id) :
    Step s (.establish id) (s.establish id peer nonces)
  | guest {s n g e server g'} (here : s.guests[n]? = some g) (moves : Guest.Step s.server g e server g') :
    Step s (.guest g.connection.id e) ⟨server, s.guests.set n g'⟩
  | aside {s server} (live : server.registry.live = s.server.registry.live) (events : server.events = s.server.events) :
    Step s .aside { s with server }

def Guest.IsQuiet (g : Guest κ) : Prop :=
  (g.entry = .announced ∨ g.entry = .withdrawn) ∧ (g.exit = .staying ∨ g.exit = .departed)

/-- Every admission and every close that has begun has ended. -/
def IsQuiet (s : Roster β κ σ) : Prop := ∀ g ∈ s.guests, g.IsQuiet

variable {s s' : Roster β κ σ} {server server' : Server β κ σ} {g g' : Guest κ} {c : Connection κ} {entry : Entry}
  {exit : Exit} {e : Guest.Event} {n : Nat} {id : UInt24}

theorem Guest.Step.id_eq (moves : Guest.Step server g e server' g') : g'.connection.id = g.connection.id := by
  cases moves with
  | shut => exact server.id_closing _
  | _ => rfl

theorem map_id_establish {peer : SocketAddress} {nonces : NonceSource} :
    (s.establish id peer nonces).guests.map (·.connection.id) = s.guests.map (·.connection.id) ++ [id] :=
  List.map_append

theorem map_id_put (here : s.guests[n]? = some g) (moves : Guest.Step server g e server' g') :
    (s.guests.set n g').map (·.connection.id) = s.guests.map (·.connection.id) :=
  map_put here moves.id_eq

/-! ### Coming to rest -/

def Entry.ahead : Entry → Nat
  | .opened => 3
  | .enrolled => 2
  | .passed | .failed => 1
  | .announced | .withdrawn => 0

def Exit.ahead : Exit → Nat
  | .shut => 2
  | .retired => 1
  | .staying | .departed => 0

/-- The steps that are still to be taken if nobody closes the connection who has not begun to. -/
def Guest.ahead (g : Guest κ) : Nat := g.entry.ahead + g.exit.ahead

theorem Guest.exists_step (server : Server β κ σ) (running : ¬ g.IsQuiet) :
    ∃ e server' g', Guest.Step server g e server' g' ∧ g'.ahead < g.ahead := by
  obtain ⟨c, entry, exit⟩ := g
  cases exit with
  | shut => exact ⟨_, _, _, .retire, Nat.lt_succ_self _⟩
  | retired => exact ⟨_, _, _, .depart, Nat.lt_succ_self _⟩
  | staying | departed =>
    cases entry with
    | opened => exact ⟨_, _, _, .enroll, Nat.lt_succ_self _⟩
    | enrolled =>
      cases flag : c.isClosed with
      | true => exact ⟨_, _, _, .fail flag, Nat.lt_succ_self _⟩
      | false => exact ⟨_, _, _, .pass flag, Nat.lt_succ_self _⟩
    | passed => exact ⟨_, _, _, .announce, Nat.lt_succ_self _⟩
    | failed => exact ⟨_, _, _, .withdraw, Nat.lt_succ_self _⟩
    | announced | withdrawn => simp [Guest.IsQuiet] at running

/-- Whatever has begun can always come to its end. -/
theorem exists_quiet (s : Roster β κ σ) : ∃ later s', Run Step s later s' ∧ s'.IsQuiet := by
  induction left : (s.guests.map Guest.ahead).sum using Nat.strongRecOn generalizing s with
  | ind ahead ih =>
    by_cases quiet : s.IsQuiet
    · exact ⟨[], s, .nil, quiet⟩
    · simp only [IsQuiet, not_forall] at quiet
      obtain ⟨g, present, running⟩ := quiet
      obtain ⟨n, here⟩ := List.mem_iff_getElem?.mp present
      obtain ⟨e, server, g', moves, fewer⟩ := Guest.exists_step s.server running
      have counts := sum_put here g' Guest.ahead
      have sooner : ((s.guests.set n g').map Guest.ahead).sum < ahead := by omega
      obtain ⟨later, s', run, rest⟩ := ih _ sooner ⟨server, s.guests.set n g'⟩ rfl
      exact ⟨_, s', .cons (.guest here moves) run, rest⟩

/-! ### The functions of a server as runs -/

theorem run_guest {before : Guest κ} {events : List Event} (here : s.guests[n]? = some before)
    (run : Run Step s events ⟨server, s.guests.set n g⟩) (moves : Guest.Step server g e server' g') :
    Run Step s (events ++ [.guest g.connection.id e]) ⟨server', s.guests.set n g'⟩ := by
  obtain ⟨inside, -⟩ := List.getElem?_eq_some_iff.mp here
  have step : Step ⟨server, s.guests.set n g⟩ _ ⟨server', (s.guests.set n g).set n g'⟩ :=
    .guest (List.getElem?_set_self inside) moves
  rw [List.set_set] at step
  exact run.snoc step

/-- An admission that nothing interrupts once its connection has been opened. -/
theorem run_confirm (here : s.guests[n]? = some ⟨c, .opened, exit⟩) :
    ∃ events, Run Step s events ⟨(s.server.enroll c).confirm c,
      s.guests.set n ⟨c, if c.isClosed then .withdrawn else .announced, exit⟩⟩ := by
  have enrolled := Run.single (Step.guest here .enroll)
  unfold Server.confirm
  split
  · next down =>
    have failed := run_guest here enrolled (.fail down)
    exact ⟨_, run_guest here failed .withdraw⟩
  · next up =>
    have passed := run_guest here enrolled (.pass (Bool.eq_false_iff.mpr up))
    exact ⟨_, run_guest here passed .announce⟩

/-- A close that nothing interrupts is a close by the server. -/
theorem run_close (here : s.guests[n]? = some ⟨c, entry, .staying⟩) (live : s.server.registry.get? c.id = some c)
    (up : c.isClosed = false) :
    ∃ events after, Run Step s events ⟨(s.server.close c.id).2, s.guests.set n ⟨after, entry, .departed⟩⟩ := by
  have shut := Run.single (Step.guest here (.shut up))
  have retired := run_guest here shut .retire
  rw [Server.close_eq live up]
  exact ⟨_, _, run_guest here retired .depart⟩

/-- Admitting a peer to whom an id is given that no other one has had. -/
theorem run_accept {asked : Challenge} {nonces : NonceSource} {peer : SocketAddress} {stream rest : Stream}
    (admitted : s.server.accept asked nonces peer stream = (.ok id, rest, server))
    (fresh : ∀ g ∈ s.guests, g.connection.id ≠ id) :
    ∃ events c, Run Step s events ⟨server, s.guests ++ [⟨c, .announced, .staying⟩]⟩ ∧ c.id = id := by
  have served := Handshake.served_serve asked s.server.config.server.handshakeTimeout s.server.config.server.idWidth
    Registry.allocate stream s.server.registry
  simp only [Server.accept, Server.count] at admitted
  revert served admitted
  generalize Handshake.serve asked s.server.config.server.handshakeTimeout s.server.config.server.idWidth
    Registry.allocate (stream, s.server.registry) = result
  intro admitted served
  cases served with
  | early | late => cases admitted
  | admitted id' stream allocated =>
    obtain ⟨counter, after, -⟩ := s.server.registry.allocate_cases
    cases admitted
    let greeted : Server β κ σ := { s.server with
      registry := s.server.registry.allocate.2
      metrics := s.server.metrics.handshakeAttempt.handshakeSuccess }
    have live : s.server.registry.allocate.2.live = s.server.registry.live := by rw [after]
    have aside : Step s .aside { s with server := greeted } := .aside live rfl
    have opened := (Run.single aside).snoc (.establish peer nonces fresh)
    let before : Roster β κ σ := { s with server := greeted }
    obtain ⟨here, placed⟩ := at_newest (rfl : (before.establish id peer nonces).guests = s.guests ++ [_]) _
    obtain ⟨events, run⟩ := run_confirm here
    rw [placed] at run
    exact ⟨_, _, opened.trans run, rfl⟩

/-- What holds of the tasks wherever they stand. One that nothing interrupts does what the function of the server does,
and all that have begun can come to their end. -/
structure Callable (s : Roster β κ σ) : Prop where
  accept : ∀ asked nonces peer stream id rest server,
    s.server.accept asked nonces peer stream = (.ok id, rest, server) → (∀ g ∈ s.guests, g.connection.id ≠ id) →
    ∃ later c, Run Step s later ⟨server, s.guests ++ [⟨c, .announced, .staying⟩]⟩ ∧ c.id = id
  confirm : ∀ (n : Nat) c exit, s.guests[n]? = some ⟨c, .opened, exit⟩ →
    ∃ later, Run Step s later ⟨(s.server.enroll c).confirm c,
      s.guests.set n ⟨c, if c.isClosed then .withdrawn else .announced, exit⟩⟩
  close : ∀ (n : Nat) c entry, s.guests[n]? = some ⟨c, entry, .staying⟩ → s.server.registry.get? c.id = some c →
    c.isClosed = false →
    ∃ later after, Run Step s later ⟨(s.server.close c.id).2, s.guests.set n ⟨after, entry, .departed⟩⟩
  rest : ∃ later s', Run Step s later s' ∧ s'.IsQuiet

theorem callable (s : Roster β κ σ) : s.Callable where
  accept _ _ _ _ _ _ _ admitted fresh := run_accept admitted fresh
  confirm _ _ _ here := run_confirm here
  close _ _ _ here live up := run_close here live up
  rest := s.exists_quiet

/-! ### What the flag tells -/

def Entry.hasFailed : Entry → Bool
  | .failed | .withdrawn => true
  | _ => false

/-- The flag is set exactly if a close has begun, which is so if the admission has found it set. -/
structure Guest.Flagged (g : Guest κ) : Prop where
  closed : g.connection.isClosed = true ↔ g.exit ≠ .staying
  failed : g.entry.hasFailed = true → g.exit ≠ .staying

theorem Guest.Flagged.staying (h : g.Flagged) (up : g.connection.isClosed = false) : g.exit = .staying := by
  by_contra begun
  exact absurd (h.closed.mpr begun) (Bool.eq_false_iff.mp up)

theorem Guest.Step.flagged (moves : Guest.Step server g e server' g') (h : g.Flagged) : g'.Flagged := by
  obtain ⟨closed, failed⟩ := h
  cases moves with
  | enroll | pass | announce => exact ⟨closed, nofun⟩
  | fail down => exact ⟨closed, fun _ => closed.mp down⟩
  | shut => exact ⟨⟨nofun, fun _ => server.isClosed_closing _⟩, nofun⟩
  | withdraw => exact ⟨closed, fun _ => failed rfl⟩
  | late => exact ⟨closed, failed⟩
  | retire | depart => exact ⟨⟨nofun, fun _ => closed.mpr nofun⟩, nofun⟩

structure Consistent (s : Roster β κ σ) : Prop where
  apart : (s.guests.map (·.connection.id)).Nodup
  flagged : ∀ g ∈ s.guests, g.Flagged

theorem Consistent.step {e : Event} (h : s.Consistent) (step : Step s e s') : s'.Consistent := by
  obtain ⟨apart, flagged⟩ := h
  cases step with
  | establish peer nonces fresh =>
    constructor
    · rw [map_id_establish, List.nodup_append]
      refine ⟨apart, List.pairwise_singleton _ _, ?_⟩
      rintro _ old _ new rfl
      obtain ⟨g, present, same⟩ := List.mem_map.mp old
      exact fresh g present (same.trans (List.mem_singleton.mp new))
    · intro g present
      rcases List.mem_append.mp present with old | new
      · exact flagged g old
      · obtain rfl := List.mem_singleton.mp new
        exact ⟨⟨nofun, fun left => absurd rfl left⟩, nofun⟩
  | guest here moves =>
    constructor
    · rwa [map_id_put here moves]
    · intro g present
      rcases List.mem_or_eq_of_mem_set present with old | rfl
      · exact flagged g old
      · exact moves.flagged (flagged _ (List.mem_of_getElem? here))
  | aside => exact ⟨apart, flagged⟩

theorem consistent_start : (start server).Consistent := by
  constructor
  · exact List.nodup_nil
  · intro g present
    cases present

/-- Whoever else has the id stands in the same place. -/
theorem Consistent.place_eq (h : s.Consistent) {m : Nat} (here : s.guests[n]? = some g) (there : s.guests[m]? = some g')
    (same : g.connection.id = g'.connection.id) : n = m := by
  have ids : (s.guests.map (·.connection.id))[n]? = (s.guests.map (·.connection.id))[m]? := by
    rw [List.getElem?_map, List.getElem?_map, here, there]
    exact congrArg some same
  have inside : n < (s.guests.map (·.connection.id)).length := by
    rw [List.length_map]
    exact (List.getElem?_eq_some_iff.mp here).1
  exact (List.getElem?_inj inside h.apart).mp ids

/-- Of the connections behind a step of one, it is that one or has another id and has not changed. -/
theorem Consistent.mem_put (h : s.Consistent) (here : s.guests[n]? = some g) {other : Guest κ}
    (present : other ∈ s.guests.set n g') :
    other = g' ∨ other ∈ s.guests ∧ other.connection.id ≠ g.connection.id := by
  obtain ⟨m, place⟩ := List.mem_iff_getElem?.mp present
  rcases (getElem?_put here).mp place with ⟨-, rfl⟩ | ⟨apart, place⟩
  · exact .inl rfl
  · exact .inr ⟨List.mem_of_getElem? place, fun same => apart (h.place_eq place here same)⟩

def vacant : Server Unit Unit Unit where
  config := {}
  pipeline := .passthrough
  nonces := default
  registry := .new 2
  departed := []
  dispatcher := {}
  metrics := {}
  events := []
  parked := []
  queues := none
  app := ()

def visitor : SocketAddress := ⟨.v4 10 0 0 5, 0, 4000⟩

end Roster

end PeerLink
