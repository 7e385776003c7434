import PeerLink.Bytes

/-!
The one-time authenticator Poly1305: a polynomial whose coefficients are the runs of sixteen bytes of a
message, evaluated modulo 2^130 - 5.
-/
namespace PeerLink.Poly1305

def modulus : Nat := (1 <<< 130) - 5

/-- The point of evaluation with the bits cleared that must be. -/
def clamp (r : Nat) : Nat := r &&& 0x0ffffffc0ffffffc0ffffffc0fffffff

/-- The coefficient of a run: its number with one bit set behind its last byte. -/
def coefficient (run : Bytes) : Nat := Bytes.toNat run + Bytes.capacity run.length

def evaluate (r : Nat) (bs : Bytes) : Nat :=
  (Bytes.runs 15 bs).foldl (fun sum run => (sum + coefficient run) * r % modulus) 0

/-- The sixteen bytes that authenticate a message under a one-time key of 32 bytes. -/
def tag (key bs : Bytes) : Bytes :=
  let r := clamp (Bytes.toNat (key.take 16))
  Bytes.ofNat 16 (evaluate r bs + Bytes.toNat (key.drop 16))

end PeerLink.Poly1305
