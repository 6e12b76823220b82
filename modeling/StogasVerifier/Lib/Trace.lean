import Mathlib

/-! Finite labelled executions of an arbitrary step relation. -/

namespace StogasVerifier.Lib

universe u v
variable {σ : Type u} {ε : Type v} {step : σ → ε → σ → Prop}

/-- An execution from a state, with the label of every step in order. -/
inductive Trace (step : σ → ε → σ → Prop) (first : σ) : List ε → σ → Prop where
  | nil : Trace step first [] first
  | snoc {events : List ε} {middle : σ} {event : ε} {last : σ}
      (before : Trace step first events middle) (move : step middle event last) :
      Trace step first (events ++ [event]) last

namespace Trace

/-- A property of the history and the state that every step keeps holds after
every execution. -/
theorem invariant {first last : σ} {events : List ε} (holds : List ε → σ → Prop) (start : holds [] first)
    (kept : ∀ {events before event after}, holds events before → step before event after → holds (events ++ [event]) after)
    (run : Trace step first events last) : holds events last := by
  induction run with
  | nil => exact start
  | snoc _ move ih => exact kept ih move

theorem mono {other : σ → ε → σ → Prop} (weaker : ∀ {before event after}, step before event after → other before event after)
    {first last : σ} {events : List ε} (run : Trace step first events last) : Trace other first events last := by
  induction run with
  | nil => exact .nil
  | snoc _ move ih => exact ih.snoc (weaker move)

theorem single {first last : σ} {event : ε} (move : step first event last) : Trace step first [event] last :=
  Trace.nil.snoc move

end Trace
end StogasVerifier.Lib
