import PeerLink.Handshake.Key

/-!
The server's side of a handshake as a state machine. Sending the challenge arms it for one answer; an
answer that comes unasked, after the deadline or with a wrong key is rejected. Time is a count of
ticks that the caller reads off its clock.
-/
namespace PeerLink

inductive HandshakeState where
  | awaitingChallengeSent
  | awaitingClientKey
  | accepted
  | rejected
  deriving DecidableEq, Inhabited, Repr

def HandshakeState.describe : HandshakeState → String
  | awaitingChallengeSent => "AwaitingChallengeSent"
  | awaitingClientKey => "AwaitingClientKey"
  | accepted => "Accepted"
  | rejected => "Rejected"

structure Handshake where
  state : HandshakeState
  asked : Challenge
  deadline : Nat
  deriving DecidableEq

namespace Handshake

/-- A handshake that nothing has been sent for. -/
def start (asked : Challenge) (deadline : Nat) : Handshake :=
  ⟨.awaitingChallengeSent, asked, deadline⟩

def isExpired (h : Handshake) (now : Nat) : Bool := h.deadline ≤ now

def timeLeft (h : Handshake) (now : Nat) : Nat := h.deadline - now

/-- The bytes to send; the handshake then waits for the key. -/
def challenge (h : Handshake) : Bytes × Handshake :=
  (h.asked.toBytes, { h with state := .awaitingClientKey })

def validate (h : Handshake) (now : Nat) (answer : Bytes) : Handshake :=
  let accepted := h.state = .awaitingClientKey ∧ h.isExpired now = false ∧ answer = h.asked.answer
  { h with state := if accepted then .accepted else .rejected }

end Handshake

end PeerLink
