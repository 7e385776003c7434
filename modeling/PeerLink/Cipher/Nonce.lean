import PeerLink.Bytes

/-!
Numbers used once. Each message that is sealed takes 24 random bytes, and whatever gives random bytes can
fail to.
-/
namespace PeerLink

/-- A number used once: 24 bytes. -/
structure Nonce where
  bytes : Bytes
  length_eq : bytes.length = 24

/-- What a draw has given, unless it failed. -/
abbrev Draw : Type := Option Nonce

/-- All that will be drawn, by the number of the draw. -/
structure Randomness where
  draw : Nat → Draw

/-- Draws that can be repeated. They give the seed and their own number. -/
def Randomness.seeded (seed : Nat) : Randomness :=
  ⟨fun number => some ⟨Bytes.ofNat 16 seed ++ Bytes.ofNat 8 number, by simp⟩⟩

instance (seed : Nat) : OfNat Randomness seed := ⟨.seeded seed⟩

instance : Inhabited Randomness := ⟨.seeded 0⟩

structure NonceSource where
  randomness : Randomness
  drawn : Nat
  deriving Inhabited

def NonceSource.next (s : NonceSource) : Draw × NonceSource :=
  (s.randomness.draw s.drawn, { s with drawn := s.drawn + 1 })

end PeerLink
