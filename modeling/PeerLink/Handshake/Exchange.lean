import PeerLink.Handshake.IdWidth
import PeerLink.Handshake.Verdict

/-!
The handshake of both ends over a byte stream.

    server → client   challenge    8 bytes
    client → server   its answer   4 bytes
    server → client   the id       3 or 4 bytes, only if the answer is right

A stream is what one end sees of it: pieces that arrive one after another, each after some time, and
room for what this end writes. An end reads no byte beyond its own part of the exchange, so that what
follows is left for the frames.
-/
namespace PeerLink

/-- What a stream does after its last byte. -/
inductive StreamEnd where
  | closed
  | silent
  deriving DecidableEq, Repr

structure Arrival where
  /-- The time from the arrival before. -/
  delay : Nat
  bytes : Bytes
  deriving DecidableEq

structure Stream where
  incoming : List Arrival
  ending : StreamEnd
  written : Bytes
  /-- Bytes that may still be written; without a count there is no limit. -/
  room : Option Nat
  /-- Bytes that one write takes at most, less one. -/
  grain : Nat
  now : Nat
  deriving DecidableEq

namespace Stream

def unread (s : Stream) : Bytes := s.incoming.flatMap Arrival.bytes

/-- Reads exactly `n` bytes from arrivals, on top of those already read, until the deadline. -/
def collect (ending : StreamEnd) (deadline : Nat) (ended : Fault) :
    List Arrival → (now n : Nat) → (got : Bytes) → Except Fault Bytes × List Arrival × Nat
  | arrivals, now, 0, got => (.ok got, arrivals, now)
  | [], now, _ + 1, _ =>
    match ending with
    | .closed => (.error ended, [], now)
    | .silent => (.error .timeout, [], max now deadline)
  | a :: as, now, n + 1, got =>
    let time := now + a.delay
    if deadline < time then (.error .timeout, ⟨time - deadline, a.bytes⟩ :: as, max now deadline)
    else
      match Bytes.split? (n + 1) a.bytes with
      | some (head, rest) => (.ok (got ++ head), ⟨0, rest⟩ :: as, time)
      | none => collect ending deadline ended as time (n + 1 - a.bytes.length) (got ++ a.bytes)

/-- Reads exactly `n` bytes. Those that came in vain are gone. -/
def read (s : Stream) (n deadline : Nat) (ended : Fault) : Except Fault Bytes × Stream :=
  let (got, incoming, now) := collect s.ending deadline ended s.incoming s.now n []
  (got, { s with incoming, now })

/-- One write after another until everything is written or nothing more is taken. -/
def put (s : Stream) : List Bytes → Except Fault Unit × Stream
  | [] => (.ok (), s)
  | piece :: pieces =>
    match s.room with
    | none => put { s with written := s.written ++ piece } pieces
    | some room =>
      let taken := { s with written := s.written ++ piece.take room, room := some (room - piece.length) }
      if room < piece.length then (.error (.io "write limit reached"), taken) else put taken pieces

/-- Writes bytes, as many as there is room for. -/
def write (s : Stream) (bs : Bytes) : Except Fault Unit × Stream :=
  s.put (Bytes.runs s.grain bs)

end Stream

/-- Steps of an exchange over a stream, beside a state of the host that callbacks may change. -/
abbrev Exchange (σ : Type) := ExceptT Fault (StateM (Stream × σ))

namespace Exchange

variable {σ : Type}

def read (n deadline : Nat) (ended : Fault) : Exchange σ Bytes := fun (s, host) =>
  let (got, s) := s.read n deadline ended
  (got, s, host)

def write (bs : Bytes) : Exchange σ Unit := fun (s, host) =>
  let (done, s) := s.write bs
  (done, s, host)

def call {α : Type} (f : σ → Except Fault α × σ) : Exchange σ α := fun (s, host) =>
  let (got, host) := f host
  (got, s, host)

def now : Exchange σ Nat := fun (s, host) => (.ok s.now, s, host)

def pause (time : Nat) : Exchange σ Unit := fun (s, host) => (.ok (), { s with now := s.now + time }, host)

end Exchange

def Fault.earlyEnd : Fault := .io "early eof"

/-- The peer closed the stream instead of sending an id. -/
def Fault.wrongKey : Fault := .handshake "Client returned a wrong handshake key"

namespace Handshake

variable {σ : Type}

/-- The server's side, where some time passes from the end of the answer to its check. The id is allocated
only once the key is right. -/
def serveAfter (lag : Nat) (asked : Challenge) (timeout : Nat) (width : IdWidth)
    (allocate : σ → Except Fault UInt24 × σ) : Exchange σ UInt24 := do
  let deadline := (← Exchange.now) + timeout
  let (bytes, handshake) := (start asked deadline).challenge
  Exchange.write bytes
  let answer ← Exchange.read answerSize deadline .earlyEnd
  Exchange.pause lag
  if (handshake.validate (← Exchange.now) answer).state ≠ .accepted then throw .handshakeRejected
  let id ← Exchange.call allocate
  Exchange.write (width.encode id)
  return id

/-- The server's side, where the answer is checked as soon as it is there. -/
def serve : Challenge → Nat → IdWidth → (σ → Except Fault UInt24 × σ) → Exchange σ UInt24 := serveAfter 0

/-- The client's side. A server that does not like the answer closes the stream. -/
def join (timeout : Nat) (width : IdWidth) : Exchange σ UInt24 := do
  let deadline := (← Exchange.now) + timeout
  let bytes ← Exchange.read Challenge.size deadline .earlyEnd
  Exchange.write (Challenge.ofBytes bytes).answer
  let id ← Exchange.read width.size deadline .wrongKey
  match width.decode id with
  | .ok id => return id
  | .error e => throw e

end Handshake

end PeerLink
