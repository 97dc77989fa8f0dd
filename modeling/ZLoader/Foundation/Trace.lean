import Mathlib.Computability.StateTransition

/-! # Traces of a transition function

A machine is a function from a state to the next one, which the last state does not have. A trace
is a stretch of a run whose states, the last one left out, have a property; it collects what the
states are labelled with. As the machine is deterministic, every state reached from the start of a
trace stands on it or is reached from its end.
-/

namespace ZLoader

open StateTransition Relation

section Trace

variable {σ α : Type} {step : σ → Option σ} {good : σ → Prop} {label : σ → List α}

variable (step good label) in
/-- A stretch of a run, with the labels of the states it leaves. -/
inductive Trace : σ → List α → σ → Prop where
  | refl (state : σ) : Trace state [] state
  | head {state next last : σ} {labels : List α} (holds : good state)
      (stepped : step state = some next) (rest : Trace next labels last) :
      Trace state (label state ++ labels) last

variable (step) in
/-- No state reached is the last one. -/
def NeverEnds (state : σ) : Prop := ∀ reached, Reaches step state reached → step reached ≠ none

theorem Trace.single {state next : σ} (holds : good state) (stepped : step state = some next) :
    Trace step good label state (label state) next := by
  have trace : Trace step good label state (label state ++ []) next :=
    .head holds stepped (.refl next)
  rwa [List.append_nil] at trace

theorem Trace.trans {first middle last : σ} {early late : List α}
    (left : Trace step good label first early middle)
    (right : Trace step good label middle late last) :
    Trace step good label first (early ++ late) last := by
  induction left with
  | refl => exact right
  | head holds stepped _ ih =>
    rw [List.append_assoc]
    exact .head holds stepped (ih right)

/-- A step that is not labelled in front of a trace. -/
theorem Trace.silent {state next last : σ} {labels : List α} (holds : good state)
    (stepped : step state = some next) (unlabelled : label state = [])
    (rest : Trace step good label next labels last) :
    Trace step good label state labels last := by
  have trace := Trace.head holds stepped rest
  rwa [unlabelled, List.nil_append] at trace

/-- A step that is not labelled. -/
theorem Trace.turn {state next : σ} (holds : good state) (stepped : step state = some next)
    (unlabelled : label state = []) : Trace step good label state [] next :=
  .silent holds stepped unlabelled (.refl next)

theorem Trace.reaches {first last : σ} {labels : List α}
    (trace : Trace step good label first labels last) : Reaches step first last := by
  induction trace with
  | refl => exact .refl
  | head _ stepped _ ih => exact .head stepped ih

/-- Every label comes from a state that was reached. -/
theorem Trace.exists_of_mem {first last : σ} {labels : List α} {a : α}
    (trace : Trace step good label first labels last) (mem : a ∈ labels) :
    ∃ state, Reaches step first state ∧ a ∈ label state := by
  induction trace with
  | refl => cases mem
  | @head state next last labels holds stepped rest ih =>
    rcases List.mem_append.mp mem with here | later
    · exact ⟨state, .refl, here⟩
    · obtain ⟨found, reached, labelled⟩ := ih later
      exact ⟨found, .head stepped reached, labelled⟩

/-- A state that is reached is on the trace or behind it. -/
theorem Trace.reached {first last state : σ} {labels : List α}
    (trace : Trace step good label first labels last) (reached : Reaches step first state) :
    (good state ∧ label state ⊆ labels) ∨ Reaches step last state := by
  induction trace with
  | refl => exact .inr reached
  | @head start next last labels holds stepped rest ih =>
    rcases ReflTransGen.cases_head reached with rfl | ⟨other, stepped', behind⟩
    · exact .inl ⟨holds, List.subset_append_left ..⟩
    · obtain rfl : next = other := Option.some.inj (stepped.symm.trans stepped')
      rcases ih behind with ⟨found, labelled⟩ | beyond
      · exact .inl ⟨found, List.Subset.trans labelled (List.subset_append_right ..)⟩
      · exact .inr beyond

/-- What a step preserves holds of every state reached. -/
theorem reaches_invariant (holds : σ → Prop) {first last : σ}
    (preserved : ∀ state next, holds state → step state = some next → holds next)
    (reached : Reaches step first last) (initial : holds first) : holds last := by
  induction reached with
  | refl => exact initial
  | tail _ stepped ih => exact preserved _ _ ih stepped

/-- A machine in a set of states that have a successor in the set does not end. -/
theorem neverEnds_of_closed {holds : σ → Prop}
    (closed : ∀ state, holds state → ∃ next, step state = some next ∧ holds next)
    {state : σ} (initial : holds state) : NeverEnds step state := by
  intro reached run ended
  have held : holds reached := reaches_invariant holds (fun before after held stepped => by
    obtain ⟨next, stepped', held'⟩ := closed before held
    rwa [← Option.some.inj (stepped'.symm.trans stepped)]) run initial
  obtain ⟨next, stepped, -⟩ := closed reached held
  rw [ended] at stepped
  cases stepped

theorem NeverEnds.not_eval {state last : σ} (never : NeverEnds step state) :
    last ∉ eval step state := by
  intro ended
  obtain ⟨reached, final⟩ := mem_eval.mp ended
  exact never last reached final

/-- Where a machine does not end, it does not end before. -/
theorem NeverEnds.of_reaches {first last : σ} (never : NeverEnds step last)
    (reached : Reaches step first last) : NeverEnds step first := by
  intro other run ended
  rcases reaches_total reached run with behind | before
  · exact never other behind ended
  · obtain rfl := (eval_maximal (mem_eval.mpr ⟨.refl, ended⟩)).mp before
    exact never last .refl ended

/-- The states reached all lead to the last one. -/
theorem reaches_of_eval {first last state : σ} (ended : last ∈ eval step first)
    (reached : Reaches step first state) : Reaches step state last :=
  (mem_eval.mp (by rwa [← reaches_eval reached] : last ∈ eval step state)).1

end Trace

end ZLoader
