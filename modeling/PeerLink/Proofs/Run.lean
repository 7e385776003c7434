/-! Runs of a system that takes labelled steps, and what all of them keep. -/
namespace PeerLink

/-- Steps one after the other, the newest last, with their labels. -/
inductive Run {S E : Type} (step : S → E → S → Prop) (start : S) : List E → S → Prop
  | nil : Run step start [] start
  | snoc {events s e s'} (before : Run step start events s) (last : step s e s') :
    Run step start (events ++ [e]) s'

namespace Run

variable {S E : Type} {step : S → E → S → Prop} {start s s' s'' : S} {events later : List E} {e : E}

theorem single (first : step s e s') : Run step s [e] s' := .snoc .nil first

theorem trans (before : Run step s events s') (after : Run step s' later s'') : Run step s (events ++ later) s'' := by
  induction after with
  | nil => rwa [List.append_nil]
  | snoc _ last ih =>
    rw [← List.append_assoc]
    exact ih.snoc last

theorem cons (first : step s e s') (rest : Run step s' later s'') : Run step s (e :: later) s'' :=
  (single first).trans rest

/-- If each step of a system is a run of another one, so is each of its runs. -/
theorem image {T F : Type} {step' : T → F → T → Prop} (run : Run step start events s) (view : S → T)
    (shown : E → List F) (each : ∀ s e s', step s e s' → Run step' (view s) (shown e) (view s')) :
    Run step' (view start) (events.flatMap shown) (view s) := by
  induction run with
  | nil => exact .nil
  | snoc _ last ih =>
    rw [List.flatMap_append, List.flatMap_singleton]
    exact ih.trans (each _ _ _ last)

/-- What holds at the start and is kept by each step holds of what a whole run has shown. -/
theorem invariant {P : List E → S → Prop} (run : Run step start events s) (initial : P [] start)
    (kept : ∀ events s e s', P events s → step s e s' → P (events ++ [e]) s') : P events s := by
  induction run with
  | nil => exact initial
  | snoc _ last ih => exact kept _ _ _ _ ih last

end Run

end PeerLink
