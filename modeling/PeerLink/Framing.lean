import PeerLink.Pipeline
import PeerLink.Reader

/-!
Frames on a byte stream. A frame begins with its own length in two bytes, so a receiver can cut a
stream into frames however its bytes arrive. A length outside the limits cannot be skipped, because
nothing says where the next frame begins: the bytes stay where they are, and every later attempt
fails on them again.
-/
namespace PeerLink

/-- The frame lengths that a receiver accepts, both ends included. No frame is so short that it has
room for its length alone, and none is longer than its length can say. -/
structure Framing where
  least : Nat
  most : Nat
  prefix_lt_least : lengthPrefix < least
  most_le : most ≤ maxFrameSize
  deriving DecidableEq

namespace Framing

/-- Limits as close to the wanted ones as the length prefix allows. -/
def within (least most : Nat) : Framing :=
  ⟨max least (lengthPrefix + 1), min most maxFrameSize, by omega, by omega⟩

/-- The limits of messages that are their own frames. -/
def ofMessages : Framing := within headerSize maxFrameSize

instance : Inhabited Framing := ⟨ofMessages⟩

/-- The next frame of a buffer and what follows it, unless more bytes have to come first. -/
def next? (f : Framing) (buffer : Bytes) : Except Fault (Option (Bytes × Bytes)) :=
  match Bytes.split? lengthPrefix buffer with
  | none => .ok none
  | some (head, _) =>
    let declared := Bytes.toNat head
    if declared < f.least then .error (.lengthMismatch declared buffer.length)
    else if f.most < declared then .error (.oversizedFrame declared)
    else .ok (Bytes.split? declared buffer)

/-- What became of a buffer: its frames, why no more were taken if a length is refused, and the rest. -/
structure Cut where
  frames : List Bytes
  fault : Option Fault
  rest : Bytes
  deriving DecidableEq

/-- Each frame takes bytes off the buffer, so the cutting comes to an end. -/
theorem length_next? {f : Framing} {buffer frame rest : Bytes}
    (h : f.next? buffer = .ok (some (frame, rest))) : rest.length < buffer.length := by
  unfold next? at h
  split at h
  · cases h
  · simp only at h
    split at h
    · cases h
    · next least =>
      split at h
      · cases h
      · have hs := Bytes.split?_eq_some (Except.ok.inj h)
        have hl := congrArg List.length hs.1
        rw [List.length_append] at hl
        have := f.prefix_lt_least
        omega

/-- Takes frames off a buffer until more bytes are needed or a length is refused. -/
def cut (f : Framing) (buffer : Bytes) : Cut :=
  match _h : f.next? buffer with
  | .error e => ⟨[], some e, buffer⟩
  | .ok none => ⟨[], none, buffer⟩
  | .ok (some (frame, rest)) =>
    let later := f.cut rest
    ⟨frame :: later.frames, later.fault, later.rest⟩
termination_by buffer.length
decreasing_by exact length_next? _h

/-- Appends a frame to what is to be sent, unless the receiver would refuse its length as too large. -/
def append (f : Framing) (frame out : Bytes) : Except Fault Bytes :=
  if f.most < frame.length then .error (.oversizedFrame frame.length) else .ok (out ++ frame)

def describe (f : Framing) : String :=
  s!"FrameCodec \x7b min_frame: {f.least}, max_frame: {f.most} \x7d"

end Framing

end PeerLink
