import Mathlib.Data.List.Induction
import Mathlib.Tactic.Common

/-! # Runs of calls

A component with a state serves calls one after another. A run is the list of calls; it leads to a
state and to a log of what was answered. What every call preserves holds after every run.
-/

namespace ZLoader

section CallRun

variable {σ γ ρ : Type} (serve : γ → σ → ρ × σ)

/-- The state after the calls. -/
def serveAll (start : σ) (calls : List γ) : σ :=
  calls.foldl (fun state call => (serve call state).2) start

/-- The calls with their answers. -/
def callLog : σ → List γ → List (γ × ρ)
  | _, [] => []
  | state, call :: calls => (call, (serve call state).1) :: callLog (serve call state).2 calls

@[simp] theorem serveAll_nil (start : σ) : serveAll serve start [] = start := rfl

theorem serveAll_snoc (start : σ) (calls : List γ) (call : γ) :
    serveAll serve start (calls ++ [call]) = (serve call (serveAll serve start calls)).2 :=
  List.foldl_append ..

@[simp] theorem callLog_nil (start : σ) : callLog serve start [] = [] := rfl

theorem callLog_snoc (start : σ) (calls : List γ) (call : γ) :
    callLog serve start (calls ++ [call]) =
      callLog serve start calls ++ [(call, (serve call (serveAll serve start calls)).1)] := by
  induction calls generalizing start with
  | nil => rfl
  | cons first rest ih => exact congrArg ((first, (serve first start).1) :: ·) (ih _)

/-- What holds at the start and is preserved by every call of a run holds after each of its
prefixes. -/
theorem serveAll_invariant (holds : σ → List (γ × ρ) → Prop) {start : σ} {calls : List γ}
    (initial : holds start [])
    (preserved : ∀ before call, before ++ [call] <+: calls →
      holds (serveAll serve start before) (callLog serve start before) →
      holds (serve call (serveAll serve start before)).2
        (callLog serve start before ++ [(call, (serve call (serveAll serve start before)).1)]))
    {before : List γ} (reached : before <+: calls) :
    holds (serveAll serve start before) (callLog serve start before) := by
  induction before using List.reverseRecOn with
  | nil => exact initial
  | append_singleton before call ih =>
    rw [serveAll_snoc, callLog_snoc]
    exact preserved before call reached (ih ((List.prefix_append before [call]).trans reached))

end CallRun

end ZLoader
