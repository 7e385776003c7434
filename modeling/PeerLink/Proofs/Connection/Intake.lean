import PeerLink.Proofs.Connection
import PeerLink.Proofs.Framing.Reassembly
import PeerLink.Proofs.Run
import Mathlib.Algebra.BigOperators.Group.List.Basic

/-!
The frames of one connection on their way in. Its reader takes frames from what has arrived until more bytes are
needed, a length is refused or the stream has ended. A frame without a message costs one count and nothing else, so what
is handed out, and what is counted, can be told from the bytes alone; bytes behind which nothing can be read cost
one count more.
-/
namespace PeerLink

@[ext]
structure Tally where
  messages : Nat
  bytes : Nat
  errors : Nat

namespace Tally

instance : Zero Tally := ⟨⟨0, 0, 0⟩⟩

instance : Add Tally := ⟨fun t u => ⟨t.messages + u.messages, t.bytes + u.bytes, t.errors + u.errors⟩⟩

instance : AddCommMonoid Tally where
  add_assoc _ _ _ := Tally.ext (Nat.add_assoc ..) (Nat.add_assoc ..) (Nat.add_assoc ..)
  zero_add _ := Tally.ext (Nat.zero_add _) (Nat.zero_add _) (Nat.zero_add _)
  add_zero _ := rfl
  add_comm _ _ := Tally.ext (Nat.add_comm ..) (Nat.add_comm ..) (Nat.add_comm ..)
  nsmul := nsmulRec

def oneError : Tally := ⟨0, 0, 1⟩

end Tally

/-- Of the counters, those of what comes in have grown by so much, and wrapped if they had to. -/
structure Metrics.Grows (m : Metrics) (t : Tally) (m' : Metrics) : Prop where
  messages : m'.messagesReceived = m.messagesReceived + .ofNat t.messages
  bytes : m'.bytesReceived = m.bytesReceived + .ofNat t.bytes
  errors : m'.protocolErrors = m.protocolErrors + .ofNat t.errors

namespace Metrics.Grows

variable {m m' m'' : Metrics} {t u : Tally}

theorem zero (messages : m'.messagesReceived = m.messagesReceived) (bytes : m'.bytesReceived = m.bytesReceived)
    (errors : m'.protocolErrors = m.protocolErrors) : m.Grows 0 m' := by
  constructor
  · exact messages.trans (UInt64.add_zero _).symm
  · exact bytes.trans (UInt64.add_zero _).symm
  · exact errors.trans (UInt64.add_zero _).symm

theorem counter_trans {before between after : UInt64} {n k : Nat} (first : between = before + .ofNat n)
    (second : after = between + .ofNat k) : after = before + .ofNat (n + k) := by
  rw [second, first, UInt64.add_assoc, ← UInt64.ofNat_add]

theorem trans (first : m.Grows t m') (second : m'.Grows u m'') : m.Grows (t + u) m'' := by
  constructor
  · exact counter_trans first.messages second.messages
  · exact counter_trans first.bytes second.bytes
  · exact counter_trans first.errors second.errors

end Metrics.Grows

namespace Pipeline

def message? (p : Pipeline) (frame : Bytes) : Option Message := (Message.ofFrame p frame).toOption

/-- What frames come to: those that have messages, their lengths together, and those that have none. -/
def tally (p : Pipeline) (frames : List Bytes) : Tally where
  messages := (frames.filterMap p.message?).length
  bytes := (frames.filter fun frame => (p.message? frame).isSome).flatten.length
  errors := frames.countP fun frame => (p.message? frame).isNone

theorem tally_append (p : Pipeline) (frames later : List Bytes) :
    p.tally (frames ++ later) = p.tally frames + p.tally later := by
  apply Tally.ext
  · exact (congrArg List.length List.filterMap_append).trans List.length_append
  · simp only [tally, List.filter_append, List.flatten_append, List.length_append]
    rfl
  · exact List.countP_append

end Pipeline

/-- Bytes are left behind the last frame, whether or not they declare a length. -/
def Framing.Cut.IsBroken (cut : Framing.Cut) : Prop := cut.fault.isSome ∨ cut.rest ≠ []

instance (cut : Framing.Cut) : Decidable cut.IsBroken := inferInstanceAs (Decidable (_ ∨ _))

namespace Connection

variable {κ : Type} {c : Connection κ} {frame : Bytes} {m : Message}

theorem accept_of_some (read : c.pipeline.message? frame = some m) :
    c.accept frame = (some m, { c with metrics := c.metrics.messageReceived frame.length }) := by
  cases decoded : Message.ofFrame c.pipeline frame with
  | ok m' =>
    simp only [Pipeline.message?, decoded, Except.toOption, Option.some.injEq] at read
    simp only [accept, decoded, read]
  | error e =>
    simp only [Pipeline.message?, decoded] at read
    cases read

theorem accept_of_none (unread : c.pipeline.message? frame = none) :
    c.accept frame = (none, { c with metrics := c.metrics.protocolError }) := by
  cases decoded : Message.ofFrame c.pipeline frame with
  | ok m =>
    simp only [Pipeline.message?, decoded] at unread
    cases unread
  | error e => simp only [accept, decoded]

/-- A frame adds its message and its counts, and leaves the rest of the connection alone. -/
theorem accept_cases (c : Connection κ) (frame : Bytes) :
    (c.accept frame).1 = c.pipeline.message? frame ∧
      ∃ metrics, (c.accept frame).2 = { c with metrics } ∧ c.metrics.Grows (c.pipeline.tally [frame]) metrics := by
  cases read : c.pipeline.message? frame with
  | none =>
    rw [accept_of_none read]
    refine ⟨rfl, _, rfl, ?_⟩
    constructor
    all_goals simp [Pipeline.tally, read, Metrics.protocolError]
  | some m =>
    rw [accept_of_some read]
    refine ⟨rfl, _, rfl, ?_⟩
    constructor
    all_goals simp [Pipeline.tally, read, Metrics.messageReceived]

/-- What anybody else may do to a connection that is being read, short of closing it. The counters are shared by all
connections of an engine, so those of what comes in may grow as well. -/
structure Spares (c : Connection κ) (t : Tally) (c' : Connection κ) : Prop where
  pipeline_eq : c'.pipeline = c.pipeline
  isClosed_eq : c'.isClosed = c.isClosed
  grows : c.metrics.Grows t c'.metrics

theorem close_keeps (c : Connection κ) : c.close.pipeline = c.pipeline ∧ c.metrics.Grows 0 c.close.metrics := by
  unfold close
  split
  · exact ⟨rfl, .zero rfl rfl rfl⟩
  · refine ⟨rfl, ?_⟩
    simp only [Metrics.connectionClosed]
    split
    · exact .zero rfl rfl rfl
    · exact .zero rfl rfl rfl

/-- A close that is counted as an error of the peer. -/
theorem close_protocolError (c : Connection κ) {c' : Connection κ}
    (closes : { c with metrics := c.metrics.protocolError }.close = c') :
    c'.pipeline = c.pipeline ∧ c'.isClosed = true ∧ c.metrics.Grows .oneError c'.metrics := by
  subst closes
  obtain ⟨pipeline, grown⟩ := close_keeps { c with metrics := c.metrics.protocolError }
  have counted : c.metrics.Grows .oneError c.metrics.protocolError :=
    ⟨(UInt64.add_zero _).symm, (UInt64.add_zero _).symm, rfl⟩
  exact ⟨pipeline, (close_cases _).2.2.2, counted.trans grown⟩

theorem endOfStream_cases (up : c.isClosed = false) (buffer : Bytes) :
    (c.endOfStream buffer).pipeline = c.pipeline ∧ (c.endOfStream buffer).isClosed = true ∧
      c.metrics.Grows (if buffer = [] then 0 else .oneError) (c.endOfStream buffer).metrics := by
  cases buffer with
  | nil =>
    have closes : c.endOfStream [] = c.close := if_neg (Bool.eq_false_iff.mp up)
    obtain ⟨pipeline, grown⟩ := close_keeps c
    rw [closes]
    exact ⟨pipeline, (close_cases c).2.2.2, grown⟩
  | cons byte bytes =>
    have closes : c.endOfStream (byte :: bytes) = { c with metrics := c.metrics.protocolError }.close :=
      if_neg (Bool.eq_false_iff.mp up)
    exact close_protocolError c closes.symm

end Connection

namespace Intake

inductive Stage where
  | reading
  /-- A length has been refused. -/
  | refused
  /-- The peer has ended its stream. -/
  | finished

inductive Event where
  | read (bytes : Bytes)
  | frame (frame : Bytes)
  | refuse (fault : Fault)
  | finish
  /-- Somebody else has done something that these were counted for. -/
  | other (t : Tally)

end Intake

structure Intake (κ : Type) where
  connection : Connection κ
  /-- What has arrived and not been cut into frames. -/
  buffer : Bytes
  handed : List Message
  stage : Intake.Stage

namespace Intake

variable {κ : Type}

def start (c : Connection κ) : Intake κ := ⟨c, [], [], .reading⟩

/-- The reader asks for more bytes only if it cannot take a frame, and learns only then that the stream has ended. -/
inductive Step (f : Framing) : Intake κ → Event → Intake κ → Prop
  | read {c buffer handed bytes} (waits : f.next? buffer = .ok none) :
    Step f ⟨c, buffer, handed, .reading⟩ (.read bytes) ⟨c, buffer ++ bytes, handed, .reading⟩
  | frame {c buffer handed frame rest} (next : f.next? buffer = .ok (some (frame, rest))) :
    Step f ⟨c, buffer, handed, .reading⟩ (.frame frame)
      ⟨(c.accept frame).2, rest, handed ++ (c.accept frame).1.toList, .reading⟩
  | refuse {c buffer handed fault} (refused : f.next? buffer = .error fault) :
    Step f ⟨c, buffer, handed, .reading⟩ (.refuse fault)
      ⟨{ c with metrics := c.metrics.protocolError }.close, buffer, handed, .refused⟩
  | finish {c buffer handed} (waits : f.next? buffer = .ok none) :
    Step f ⟨c, buffer, handed, .reading⟩ .finish ⟨c.endOfStream buffer, buffer, handed, .finished⟩
  | other {s t c} (spares : s.connection.Spares t c) : Step f s (.other t) { s with connection := c }

namespace Event

@[simp]
def arrived : Event → Bytes
  | .read bytes => bytes
  | .frame _ | .refuse _ | .finish | .other _ => []

@[simp]
def frame? : Event → Option Bytes
  | .frame bytes => some bytes
  | .read _ | .refuse _ | .finish | .other _ => none

@[simp]
def counted : Event → Tally
  | .other t => t
  | .read _ | .frame _ | .refuse _ | .finish => 0

def fed (events : List Event) : Bytes := events.flatMap arrived

def taken (events : List Event) : List Bytes := events.filterMap frame?

/-- What others have counted. -/
def elsewhere (events : List Event) : Tally := (events.map counted).sum

variable (events later : List Event) (e : Event)

theorem fed_append : fed (events ++ later) = fed events ++ fed later := List.flatMap_append

@[simp]
theorem fed_snoc : fed (events ++ [e]) = fed events ++ e.arrived := by
  rw [fed_append]
  exact congrArg (fed events ++ ·) (List.flatMap_singleton arrived e)

@[simp]
theorem taken_snoc : taken (events ++ [e]) = taken events ++ e.frame?.toList := by
  rw [taken, List.filterMap_append]
  cases e with
  | frame => rfl
  | read | refuse | finish | other => rfl

@[simp]
theorem elsewhere_snoc : elsewhere (events ++ [e]) = elsewhere events + e.counted := by
  rw [elsewhere, List.map_append, List.sum_append]
  exact congrArg (elsewhere events + ·) (add_zero e.counted)

end Event

open Event

variable {f : Framing} {c : Connection κ} {buffer : Bytes} {handed : List Message} {s s' : Intake κ}
  {events : List Intake.Event} {e : Intake.Event}

/-! ### The functions of a connection as runs -/

/-- The frames that have arrived are taken in one go. -/
theorem run_acceptAll (f : Framing) (c : Connection κ) (buffer : Bytes) (handed : List Message) :
    ∃ later, fed later = [] ∧ Run (Step f) ⟨c, buffer, handed, .reading⟩ later
      ⟨(c.acceptAll (f.cut buffer).frames).2, (f.cut buffer).rest,
        handed ++ (c.acceptAll (f.cut buffer).frames).1, .reading⟩ := by
  induction buffer using Framing.cut.induct f generalizing c handed with
  | case1 buffer fault refused =>
    rw [Framing.cut_of_error refused, Connection.acceptAll, List.append_nil]
    exact ⟨[], rfl, .nil⟩
  | case2 buffer waits =>
    rw [Framing.cut_of_none waits, Connection.acceptAll, List.append_nil]
    exact ⟨[], rfl, .nil⟩
  | case3 buffer frame rest next ih =>
    obtain ⟨later, silent, run⟩ := ih (c.accept frame).2 (handed ++ (c.accept frame).1.toList)
    rw [Framing.cut_of_some next, Connection.acceptAll, ← List.append_assoc]
    exact ⟨.frame frame :: later, silent, .cons (.frame next) run⟩

/-- Bytes that have arrived on an open connection are taken in as its reader does it. -/
theorem run_receive {maxFrame : Nat} {buffer rest : Bytes} {messages : List Message} {c' : Connection κ}
    (up : c.isClosed = false) (received : c.receive maxFrame buffer = (messages, rest, c')) (handed : List Message) :
    ∃ later stage, fed later = [] ∧
      Run (Step (c.framing maxFrame)) ⟨c, buffer, handed, .reading⟩ later ⟨c', rest, handed ++ messages, stage⟩ ∧
      (stage = .reading ∧ (c.framing maxFrame).next? rest = .ok none ∨ stage = .refused) := by
  obtain ⟨later, silent, run⟩ := run_acceptAll (c.framing maxFrame) c buffer handed
  have stops := ((c.framing maxFrame).splits_cut buffer).stops
  simp only [Connection.receive, up, Bool.false_eq_true, if_false] at received
  cases fault : ((c.framing maxFrame).cut buffer).fault with
  | none =>
    rw [fault] at stops received
    cases received
    exact ⟨later, .reading, silent, run, .inl ⟨rfl, stops⟩⟩
  | some refusal =>
    rw [fault] at stops received
    cases received
    refine ⟨later ++ [.refuse refusal], .refused, ?_, run.snoc (.refuse stops), .inr rfl⟩
    rw [fed_snoc, silent]
    rfl

/-! ### What every run keeps -/

namespace Stage

def isOver : Stage → Bool
  | .reading => false
  | .refused | .finished => true

/-- What is counted for bytes behind which nothing can be read. -/
def loss (buffer : Bytes) : Stage → Tally
  | .reading => 0
  | .refused => .oneError
  | .finished => if buffer = [] then 0 else .oneError

/-- Why the reader takes no more frames. -/
def Stops (f : Framing) (buffer : Bytes) : Stage → Prop
  | .reading => True
  | .refused => ∃ fault, f.next? buffer = .error fault
  | .finished => f.next? buffer = .ok none

end Stage

structure Tracks (f : Framing) (c : Connection κ) (events : List Event) (s : Intake κ) : Prop where
  whole : (taken events).flatten ++ s.buffer = fed events
  takes : ∀ frame ∈ taken events, f.Takes frame
  pipeline : s.connection.pipeline = c.pipeline
  handed : s.handed = (taken events).filterMap c.pipeline.message?
  grows : c.metrics.Grows (elsewhere events + c.pipeline.tally (taken events) + s.stage.loss s.buffer)
    s.connection.metrics
  closed : s.connection.isClosed = s.stage.isOver
  stops : s.stage.Stops f s.buffer

theorem tracks_start (f : Framing) (up : c.isClosed = false) : Tracks f c [] (start c) := by
  constructor
  · rfl
  · nofun
  · rfl
  · rfl
  · exact .zero rfl rfl rfl
  · exact up
  · trivial

/-- A step that neither brings bytes nor takes a frame. -/
theorem Tracks.aside (h : Tracks f c events s) (brings : e.arrived = []) (takes : e.frame? = none)
    {now : Connection κ} (stage : Stage) (kept : now.pipeline = s.connection.pipeline)
    (grows : c.metrics.Grows
      (elsewhere events + e.counted + c.pipeline.tally (taken events) + stage.loss s.buffer) now.metrics)
    (closed : now.isClosed = stage.isOver) (stops : stage.Stops f s.buffer) :
    Tracks f c (events ++ [e]) ⟨now, s.buffer, s.handed, stage⟩ := by
  have same : taken (events ++ [e]) = taken events := by
    rw [taken_snoc, takes]
    exact List.append_nil _
  constructor
  · rw [same, fed_snoc, brings, List.append_nil]
    exact h.whole
  · rw [same]
    exact h.takes
  · exact kept.trans h.pipeline
  · rw [same]
    exact h.handed
  · rw [same, elsewhere_snoc]
    exact grows
  · exact closed
  · exact stops

theorem Tracks.step (h : Tracks f c events s) (step : Step f s e s') : Tracks f c (events ++ [e]) s' := by
  cases step with
  | @read now buffer handed bytes waits =>
    obtain ⟨whole, takes, pipeline, handed, grows, closed, -⟩ := h
    refine ⟨?_, by simpa using takes, pipeline, by simpa using handed, ?_, closed, trivial⟩
    · simp [← whole]
    · simpa [Stage.loss] using grows
  | @frame now buffer handed frame rest next =>
    obtain ⟨rfl, fits⟩ := Framing.next?_some next
    obtain ⟨whole, takes, pipeline, handed, grows, closed, -⟩ := h
    obtain ⟨message, metrics, after, grown⟩ := now.accept_cases frame
    rw [pipeline] at message grown
    rw [message, after]
    refine ⟨?_, ?_, pipeline, ?_, ?_, closed, trivial⟩
    · simp [← whole]
    · simpa [or_imp, forall_and] using ⟨takes, fits⟩
    · have added : (c.pipeline.message? frame).toList = [frame].filterMap c.pipeline.message? := by
        rw [List.filterMap_cons]
        cases c.pipeline.message? frame with
        | none => rfl
        | some m => rfl
      rw [taken_snoc, List.filterMap_append, ← handed, added]
      rfl
    · simpa [Stage.loss, Pipeline.tally_append, add_assoc] using grows.trans grown
  | @refuse now buffer handed fault refused =>
    obtain ⟨kept, down, grown⟩ := Connection.close_protocolError now rfl
    refine h.aside rfl rfl .refused kept ?_ down ⟨fault, refused⟩
    simpa [Stage.loss, add_assoc] using h.grows.trans grown
  | @finish now buffer handed waits =>
    obtain ⟨kept, down, grown⟩ := Connection.endOfStream_cases h.closed buffer
    refine h.aside rfl rfl .finished kept ?_ down waits
    simpa [Stage.loss, add_assoc] using h.grows.trans grown
  | @other s t now spares =>
    obtain ⟨kept, flag, grown⟩ := spares
    refine h.aside rfl rfl s.stage kept ?_ (flag.trans h.closed) h.stops
    rw [counted, add_right_comm (elsewhere events) t, add_right_comm _ t]
    exact h.grows.trans grown

/-! ### What becomes of a stream -/

/-- What is handed out and counted for a stream, on top of what others have counted. -/
structure Outcome (f : Framing) (c : Connection κ) (elsewhere : Tally) (stream : Bytes) (s : Intake κ) : Prop where
  handed : s.handed = (f.cut stream).frames.filterMap c.pipeline.message?
  grows : c.metrics.Grows
    (elsewhere + c.pipeline.tally (f.cut stream).frames + if (f.cut stream).IsBroken then .oneError else 0)
    s.connection.metrics
  closed : s.connection.isClosed = true

/-- Where the reader stops it has taken the frames of the whole stream, also of one whose end has never been read. -/
theorem Tracks.cut (h : Tracks f c events s) (ended : s.stage.isOver = true) {unread : Bytes}
    (complete : s.stage = .finished → unread = []) :
    (f.cut (fed events ++ unread)).frames = taken events ∧
      s.stage.loss s.buffer = if (f.cut (fed events ++ unread)).IsBroken then .oneError else 0 := by
  have clean := Framing.cut_flatten h.takes
  have cut := Framing.cut_append (s.buffer ++ unread) (congrArg Framing.Cut.fault clean)
  rw [clean, List.nil_append, ← List.append_assoc, h.whole] at cut
  have stops := h.stops
  cases stage : s.stage with
  | reading =>
    rw [stage] at ended
    cases ended
  | refused =>
    rw [stage] at stops
    obtain ⟨fault, refused⟩ := stops
    obtain ⟨fault', still⟩ := Framing.next?_append_error unread refused
    rw [cut, Framing.cut_of_error still]
    exact ⟨List.append_nil _, (if_pos (.inl rfl)).symm⟩
  | finished =>
    rw [stage] at stops
    obtain rfl := complete stage
    rw [cut, List.append_nil, Framing.cut_of_none stops]
    refine ⟨List.append_nil _, ?_⟩
    simp [Stage.loss, Framing.Cut.IsBroken]

theorem Tracks.outcome (h : Tracks f c events s) (ended : s.stage.isOver = true) {unread : Bytes}
    (complete : s.stage = .finished → unread = []) :
    Outcome f c (elsewhere events) (fed events ++ unread) s := by
  obtain ⟨frames, loss⟩ := h.cut ended complete
  refine ⟨?_, ?_, h.closed.trans ended⟩
  · rw [frames]
    exact h.handed
  · rw [frames, ← loss]
    exact h.grows

variable {maxFrame : Nat}

structure Account (maxFrame : Nat) (c : Connection κ) (events : List Event) (s : Intake κ) : Prop where
  handed : s.handed = (taken events).filterMap c.pipeline.message?
  closed : s.connection.isClosed = s.stage.isOver
  /-- A frame without a message is counted, and nothing else has changed when the next one is taken. -/
  skips : ∀ frame s', Step (c.framing maxFrame) s (.frame frame) s' → c.pipeline.message? frame = none →
    ∃ rest, s.buffer = frame ++ rest ∧ s' = { s with
      connection := { s.connection with metrics := s.connection.metrics.protocolError }
      buffer := rest }
  /-- All that has arrived is taken in as the connection receives it. -/
  receives : s.stage = .reading → ∀ messages rest c', s.connection.receive maxFrame s.buffer = (messages, rest, c') →
    ∃ later stage, fed later = [] ∧
      Run (Step (c.framing maxFrame)) s later ⟨c', rest, s.handed ++ messages, stage⟩ ∧
      (stage = .reading ∧ (c.framing maxFrame).next? rest = .ok none ∨ stage = .refused)
  /-- Behind a refusal any bytes may follow, and nobody reads them. -/
  outcome : s.stage.isOver = true → ∀ unread, (s.stage = .finished → unread = []) →
    Outcome (c.framing maxFrame) c (elsewhere events) (fed events ++ unread) s
  /-- However the rest of the stream arrives, the reader comes to an end with it. -/
  ends : s.stage = .reading → ∀ reads : List Bytes, ∃ later s' unread,
    Run (Step (c.framing maxFrame)) s later s' ∧ s'.stage.isOver = true ∧ fed later ++ unread = reads.flatten ∧
      (s'.stage = .finished → unread = [])

theorem tracks_of_run (up : c.isClosed = false) (run : Run (Step f) (start c) events s) : Tracks f c events s :=
  run.invariant (tracks_start f up) fun _ _ _ _ h step => h.step step

theorem Tracks.skips (h : Tracks f c events s) {frame : Bytes} (step : Step f s (.frame frame) s')
    (dropped : c.pipeline.message? frame = none) :
    ∃ rest, s.buffer = frame ++ rest ∧ s' = { s with
      connection := { s.connection with metrics := s.connection.metrics.protocolError }
      buffer := rest } := by
  cases step with
  | @frame now buffer handed _ rest next =>
    obtain ⟨rfl, -⟩ := Framing.next?_some next
    rw [← h.pipeline] at dropped
    refine ⟨rest, rfl, ?_⟩
    rw [Connection.accept_of_none dropped, Option.toList_none, List.append_nil]

theorem Tracks.receives (h : Tracks (c.framing maxFrame) c events s) (reading : s.stage = .reading)
    {messages : List Message} {rest : Bytes} {c' : Connection κ}
    (received : s.connection.receive maxFrame s.buffer = (messages, rest, c')) :
    ∃ later stage, fed later = [] ∧
      Run (Step (c.framing maxFrame)) s later ⟨c', rest, s.handed ++ messages, stage⟩ ∧
      (stage = .reading ∧ (c.framing maxFrame).next? rest = .ok none ∨ stage = .refused) := by
  obtain ⟨now, buffer, handed, stage⟩ := s
  obtain rfl : stage = .reading := reading
  have same : now.framing maxFrame = c.framing maxFrame := by
    rw [Connection.framing, h.pipeline]
    rfl
  have run := run_receive h.closed received handed
  rwa [same] at run

/-- Without more bytes the reader comes to where it asks for some, or to a refusal. -/
theorem drain_of_run (up : c.isClosed = false) (run : Run (Step (c.framing maxFrame)) (start c) events s)
    (reading : s.stage = .reading) :
    ∃ later s', fed later = [] ∧ Run (Step (c.framing maxFrame)) s later s' ∧
      (s'.stage = .reading ∧ (c.framing maxFrame).next? s'.buffer = .ok none ∨ s'.stage = .refused) := by
  obtain ⟨later, stage, silent, taking, stops⟩ := (tracks_of_run up run).receives reading rfl
  exact ⟨later, _, silent, taking, stops⟩

theorem ends_of_run (up : c.isClosed = false) (run : Run (Step (c.framing maxFrame)) (start c) events s)
    (reading : s.stage = .reading) (reads : List Bytes) :
    ∃ later s' unread, Run (Step (c.framing maxFrame)) s later s' ∧ s'.stage.isOver = true ∧
      fed later ++ unread = reads.flatten ∧ (s'.stage = .finished → unread = []) := by
  induction reads generalizing events s with
  | nil =>
    obtain ⟨later, ⟨now, rest, handed, stage⟩, silent, taking, ⟨rfl, waits⟩ | rfl⟩ := drain_of_run up run reading
    · refine ⟨_, _, [], taking.snoc (.finish waits), rfl, ?_, fun _ => rfl⟩
      rw [fed_snoc, silent]
      rfl
    · exact ⟨later, _, [], taking, rfl, congrArg (· ++ []) silent, fun _ => rfl⟩
  | cons read reads ih =>
    obtain ⟨later, ⟨now, rest, handed, stage⟩, silent, taking, ⟨rfl, waits⟩ | rfl⟩ := drain_of_run up run reading
    · have fetched : Run _ s (later ++ [.read read]) ⟨now, rest ++ read, handed, .reading⟩ :=
        taking.snoc (.read waits)
      obtain ⟨more, s', unread, going, ended, bytes, complete⟩ := ih (run.trans fetched) rfl
      refine ⟨_, s', unread, fetched.trans going, ended, ?_, complete⟩
      rw [fed_append, fed_snoc, silent, List.append_assoc, bytes]
      rfl
    · exact ⟨later, _, (read :: reads).flatten, taking, rfl, congrArg (· ++ _) silent, nofun⟩

/-- Whatever comes in on a connection that nobody else closes, in whatever pieces, and whatever else is done meanwhile:
the messages of its frames are handed out in order, the counts are exact, and the connection is closed at the end. -/
theorem reads_of_run (maxFrame : Nat) (up : c.isClosed = false)
    (run : Run (Step (c.framing maxFrame)) (start c) events s) : Account maxFrame c events s := by
  have h := tracks_of_run up run
  constructor
  · exact h.handed
  · exact h.closed
  · exact fun _ _ step dropped => h.skips step dropped
  · exact fun reading _ _ _ received => h.receives reading received
  · exact fun ended _ complete => h.outcome ended complete
  · exact ends_of_run up run

def greeting : Bytes := 12 :: 0 :: Framing.emptyMessage.reverse

/-- Two messages with a frame between them that is too short for one, in reads that cut it in two, and a byte behind
them; another connection of the engine takes in a message meanwhile. -/
theorem reads_of_run_noisy :
    let c : Connection Unit := .new .client 1 ⟨.reverse, CompressionKind.none.build⟩ default none none
    c.isClosed = false ∧ ∃ events s, Run (Step (c.framing 1024)) (start c) events s ∧ Account 1024 c events s ∧
      fed events = greeting ++ [3, 0, 7] ++ greeting ++ [5] ∧ s.stage = .finished ∧ s.connection.isClosed = true ∧
      s.handed.length = 2 ∧ s.connection.metrics.messagesReceived = 3 ∧ s.connection.metrics.bytesReceived = 34 ∧
      s.connection.metrics.protocolErrors = 2 := by
  intro c
  let one := (c.accept greeting).2
  let shared := { one with metrics := { one.metrics with messagesReceived := 2, bytesReceived := 22 } }
  have first : Run (Step (c.framing 1024)) (start c)
      [.read (greeting ++ [3, 0]), .frame greeting, .other ⟨1, 10, 0⟩, .read ([7] ++ greeting ++ [5])]
      ⟨shared, [3, 0] ++ ([7] ++ greeting ++ [5]), (c.accept greeting).1.toList, .reading⟩ :=
    (((Run.single (.read rfl)).snoc (.frame rfl)).snoc (.other ⟨rfl, rfl, rfl, rfl, rfl⟩)).snoc (.read rfl)
  let two := ((shared.accept [3, 0, 7]).2.accept greeting).2
  let messages := (c.accept greeting).1.toList ++ [] ++ ((shared.accept [3, 0, 7]).2.accept greeting).1.toList
  have second : Run (Step (c.framing 1024))
      ⟨shared, [3, 0] ++ ([7] ++ greeting ++ [5]), (c.accept greeting).1.toList, .reading⟩
      [.frame [3, 0, 7], .frame greeting, .finish] ⟨two.endOfStream [5], [5], messages, .finished⟩ :=
    ((Run.single (.frame rfl)).snoc (.frame rfl)).snoc (.finish rfl)
  have run := first.trans second
  exact ⟨rfl, _, _, run, reads_of_run 1024 rfl run, rfl, rfl, rfl, rfl, rfl, rfl, rfl⟩

end Intake

end PeerLink
