import PeerLink.Proofs.Handshake
import PeerLink.Proofs.Handshake.Stream

/-!
The client's side of a handshake where everything that comes in is there at once. It comes down to the bytes alone:
in what pieces they came and how many bytes each write takes makes no difference.
-/
namespace PeerLink

theorem IdWidth.decode_of_length {w : IdWidth} {bs : Bytes} (long : bs.length = w.size) :
    w.decode bs = if h : Bytes.toNat bs < UInt24.size then .ok ⟨Bytes.toNat bs, h⟩
      else .error (.valueOutOfRange (Bytes.toNat bs)) := by
  have narrow : Bytes.toNat bs ≤ 0xffffffff := by
    have below := Bytes.toNat_lt bs
    rw [long] at below
    cases w with
    | three => exact Nat.le_trans (Nat.le_of_lt below) (by decide)
    | four => exact Nat.le_of_lt_succ below
  rw [decode, if_pos long, UInt24.check, UInt24.ofNat?, Nat.min_eq_left narrow]
  by_cases small : Bytes.toNat bs < UInt24.size
  · simp only [dif_pos small]
  · simp only [dif_neg small]

namespace Handshake

variable {σ : Type} {width : IdWidth} {timeout deadline : Nat} {answer : Bytes} {s : Stream} {host : σ}

/-- What the client makes of the bytes behind the challenge, and what it leaves unread. -/
def named (width : IdWidth) (ending : StreamEnd) (bs : Bytes) : Except Fault UInt24 × Bytes :=
  if bs.length < width.size then (.error (ending.fault .wrongKey), [])
  else
    let number := Bytes.toNat (bs.take width.size)
    (if h : number < UInt24.size then .ok ⟨number, h⟩ else .error (.valueOutOfRange number), bs.drop width.size)

/-- What the client makes of all bytes that come in, what it sends, and what it leaves unread. -/
def joined (width : IdWidth) (ending : StreamEnd) (bs : Bytes) : Except Fault UInt24 × Bytes × Bytes :=
  if bs.length < Challenge.size then (.error (ending.fault .earlyEnd), [], [])
  else
    let (got, left) := named width ending (bs.drop Challenge.size)
    (got, (Challenge.ofBytes (bs.take Challenge.size)).answer, left)

def receiveId (deadline : Nat) (width : IdWidth) (answer : Bytes) : Exchange σ UInt24 := do
  Exchange.write answer
  let id ← Exchange.read width.size deadline .wrongKey
  match width.decode id with
  | .ok id => return id
  | .error e => throw e

theorem join_eq : (join timeout width : Exchange σ UInt24) = (do
    let deadline := (← Exchange.now) + timeout
    let bytes ← Exchange.read Challenge.size deadline .earlyEnd
    receiveId deadline width (Challenge.ofBytes bytes).answer) := rfl

theorem run_join : join timeout width (s, host) =
    match s.read Challenge.size (s.now + timeout) .earlyEnd with
    | (.ok bs, later) => receiveId (s.now + timeout) width (Challenge.ofBytes bs).answer (later, host)
    | (.error fault, later) => (.error fault, later, host) := by
  simp only [join_eq, Exchange.bind_run, Exchange.now, Exchange.read]
  rcases s.read Challenge.size (s.now + timeout) .earlyEnd with ⟨fault | bs, later⟩
  · rfl
  · rfl

theorem run_receiveId (unlimited : s.room = none) : receiveId deadline width answer (s, host) =
    match (s.wrote answer).read width.size deadline .wrongKey with
    | (.ok bs, later) => (width.decode bs, later, host)
    | (.error fault, later) => (.error fault, later, host) := by
  have fits : s.fits answer = true := by
    rw [Stream.fits, unlimited]
    rfl
  simp only [receiveId, Exchange.bind_run, Exchange.write, Stream.write_eq, fits, if_true, Exchange.read]
  rcases (s.wrote answer).read width.size deadline .wrongKey with ⟨fault | bs, later⟩
  · rfl
  · cases decoded : width.decode bs with
    | ok id =>
      simp only [decoded]
      rfl
    | error fault =>
      simp only [decoded]
      rfl

/-- Behind the challenge only the bytes of the id count. -/
theorem receiveId_at_once (width : IdWidth) (answer : Bytes) (host : σ) (unlimited : s.room = none)
    (ready : ∀ a ∈ s.incoming, a.delay = 0) (running : s.now ≤ deadline) :
    ∃ later, receiveId deadline width answer (s, host) = ((named width s.ending s.unread).1, later, host) ∧
      later.written = s.written ++ answer ∧ later.unread = (named width s.ending s.unread).2 := by
  have written : (s.wrote answer).written = s.written ++ answer := by
    rw [Stream.wrote, Stream.fitting, unlimited]
    rfl
  rw [run_receiveId unlimited, named]
  by_cases short : s.unread.length < width.size
  · obtain ⟨now, read⟩ := Stream.read_short_at_once (s := s.wrote answer) .wrongKey ready running short
    rw [read, if_pos short]
    exact ⟨{ s.wrote answer with incoming := [], now }, rfl, written, rfl⟩
  · have enough := Nat.le_of_not_lt short
    obtain ⟨rest, read, left, -⟩ := Stream.read_at_once (s := s.wrote answer) .wrongKey ready running enough
    rw [read, if_neg short]
    refine ⟨{ s.wrote answer with incoming := rest }, ?_, written, left⟩
    exact congrArg (·, _, host) (IdWidth.decode_of_length (List.length_take_of_le enough))

/-- What a client comes to, sends and leaves unread is told by the bytes that are there and by how the stream ends. -/
theorem join_eq_joined (timeout : Nat) (width : IdWidth) (s : Stream) (host : σ) (unlimited : s.room = none)
    (ready : ∀ a ∈ s.incoming, a.delay = 0) :
    ∃ later, join timeout width (s, host) = ((joined width s.ending s.unread).1, later, host) ∧
      later.written = s.written ++ (joined width s.ending s.unread).2.1 ∧
      later.unread = (joined width s.ending s.unread).2.2 := by
  have running : s.now ≤ s.now + timeout := Nat.le_add_right ..
  rw [run_join, joined]
  by_cases short : s.unread.length < Challenge.size
  · obtain ⟨now, read⟩ := Stream.read_short_at_once .earlyEnd ready running short
    rw [read, if_pos short]
    exact ⟨{ s with incoming := [], now }, rfl, (List.append_nil _).symm, rfl⟩
  · obtain ⟨rest, read, left, later_ready⟩ := Stream.read_at_once .earlyEnd ready running (Nat.le_of_not_lt short)
    have behind : Stream.unread { s with incoming := rest } = s.unread.drop Challenge.size := left
    rw [read, if_neg short, ← behind]
    exact receiveId_at_once (s := { s with incoming := rest }) width _ host unlimited later_ready running

def inPieces : Stream where
  incoming := [⟨0, [5, 0, 0]⟩, ⟨0, [0, 9, 0, 0, 0, 7]⟩, ⟨0, [0, 1, 0, 3]⟩, ⟨0, [0, 250]⟩]
  ending := .silent
  written := []
  room := none
  grain := 2
  now := 40

/-- Fifteen bytes in four pieces: the challenge, the id, and three bytes that are left for the frames. -/
theorem join_in_pieces : ∃ later, join 1000 .four (inPieces, ()) = (.ok 65543, later, ()) ∧
    later.written = [52, 221, 201, 143] ∧ later.unread = [3, 0, 250] :=
  join_eq_joined 1000 .four inPieces () rfl (by decide)

end Handshake

end PeerLink
