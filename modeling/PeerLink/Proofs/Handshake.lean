import PeerLink.Handshake.Exchange

/-! What an exchange over a stream does to the host: reading and writing leave it alone. -/
namespace PeerLink

variable {α σ : Type}

namespace Exchange

theorem bind_run {β : Type} (first : Exchange σ α) (next : α → Exchange σ β) (state : Stream × σ) :
    (first >>= next) state =
      match first state with
      | (.ok a, state) => next a state
      | (.error fault, state) => (.error fault, state) := by
  change ExceptT.bindCont next (first state).1 (first state).2 = _
  rcases first state with ⟨_ | _, _⟩
  · rfl
  · rfl

def Steady (x : Exchange σ α) : Prop := ∀ stream host, (x (stream, host)).2.2 = host

theorem steady_read (n deadline : Nat) (ended : Fault) : (read n deadline ended : Exchange σ Bytes).Steady :=
  fun _ _ => rfl

theorem steady_write (bs : Bytes) : (write bs : Exchange σ Unit).Steady := fun _ _ => rfl

theorem Steady.exists_stream {x : Exchange σ α} (steady : x.Steady) {stream : Stream} {host : σ}
    {got : Except Fault α} {state : Stream × σ} (ran : x (stream, host) = (got, state)) :
    ∃ later, state = (later, host) := by
  have same := steady stream host
  rw [ran] at same
  exact ⟨state.1, Prod.ext rfl same⟩

end Exchange

namespace Handshake

/-- How the server's side may end: before it allocates an id, without one or although it has one, or with it. -/
inductive Served (allocate : σ → Except Fault UInt24 × σ) (host : σ) : Except Fault UInt24 × Stream × σ → Prop
  | early (fault stream) : Served allocate host (.error fault, stream, host)
  | late (fault stream) : Served allocate host (.error fault, stream, (allocate host).2)
  | admitted (id stream) (allocated : (allocate host).1 = .ok id) :
    Served allocate host (.ok id, stream, (allocate host).2)

/-- However much time passes before the answer is checked, the host has been asked for an id once or not at all. -/
theorem served_serveAfter (lag : Nat) (asked : Challenge) (timeout : Nat) (width : IdWidth)
    (allocate : σ → Except Fault UInt24 × σ) (stream : Stream) (host : σ) :
    Served allocate host (serveAfter lag asked timeout width allocate (stream, host)) := by
  simp only [serveAfter, Exchange.bind_run, Exchange.now]
  split
  · next asking =>
    obtain ⟨stream, rfl⟩ := (Exchange.steady_write _).exists_stream asking
    split
    · next reading =>
      obtain ⟨stream, rfl⟩ := (Exchange.steady_read _ _ _).exists_stream reading
      simp only [Exchange.pause]
      split
      · exact .early _ _
      · simp only [Exchange.bind_run, Exchange.call]
        split
        · next called =>
          obtain ⟨allocated, rfl⟩ := Prod.mk.inj called
          split
          · next writing =>
            obtain ⟨stream, rfl⟩ := (Exchange.steady_write _).exists_stream writing
            exact .admitted _ _ allocated
          · next writing =>
            obtain ⟨stream, rfl⟩ := (Exchange.steady_write _).exists_stream writing
            exact .late _ _
        · next called =>
          obtain ⟨-, rfl⟩ := Prod.mk.inj called
          exact .late _ _
    · next reading =>
      obtain ⟨stream, rfl⟩ := (Exchange.steady_read _ _ _).exists_stream reading
      exact .early _ _
  · next asking =>
    obtain ⟨stream, rfl⟩ := (Exchange.steady_write _).exists_stream asking
    exact .early _ _

theorem served_serve (asked : Challenge) (timeout : Nat) (width : IdWidth)
    (allocate : σ → Except Fault UInt24 × σ) (stream : Stream) (host : σ) :
    Served allocate host (serve asked timeout width allocate (stream, host)) :=
  served_serveAfter 0 asked timeout width allocate stream host

end Handshake

end PeerLink
