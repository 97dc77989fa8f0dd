import Mathlib.Tactic.Common

/-! # Results of steps that can fail

A chain of steps has a result exactly when each step has one for the next to go on with. These are
the inversion rules for `Except` and for chains of checks, and a rule that gets a result from an
evaluation.
-/

namespace ZLoader

section Results

variable {ε ε' α β : Type}

theorem bind_eq_ok_iff {first : Except ε α} {next : α → Except ε β} {value : β} :
    first.bind next = .ok value ↔ ∃ between, first = .ok between ∧ next between = .ok value := by
  cases first with
  | error failure => exact iff_of_false nofun fun ⟨_, ok, _⟩ => nomatch ok
  | ok between =>
    constructor
    · intro ok
      exact ⟨between, rfl, ok⟩
    · rintro ⟨_, same, ok⟩
      obtain rfl := Except.ok.inj same
      exact ok

theorem map_eq_ok_iff {first : Except ε α} {finish : α → β} {value : β} :
    first.map finish = .ok value ↔ ∃ last, first = .ok last ∧ finish last = value := by
  cases first with
  | error failure => exact iff_of_false nofun fun ⟨_, ok, _⟩ => nomatch ok
  | ok last =>
    constructor
    · intro ok
      exact ⟨last, rfl, Except.ok.inj ok⟩
    · rintro ⟨_, same, rfl⟩
      obtain rfl := Except.ok.inj same
      rfl

theorem toOption_eq_some_iff {first : Except ε α} {value : α} :
    first.toOption = some value ↔ first = .ok value := by
  cases first with
  | error failure => exact iff_of_false nofun nofun
  | ok last => exact ⟨fun same => congrArg _ (Option.some.inj same), fun same => congrArg _ (Except.ok.inj same)⟩

theorem mapError_eq_ok_iff {first : Except ε α} {convert : ε → ε'} {value : α} :
    first.mapError convert = .ok value ↔ first = .ok value := by
  cases first with
  | error failure => exact iff_of_false nofun nofun
  | ok last =>
    constructor
    all_goals
      intro ok
      exact congrArg Except.ok (Except.ok.inj ok)

/-- A result with a property that has been checked by evaluation. -/
theorem exists_of_check (result : Except ε α) (p : α → Bool)
    (check : (match result with | .ok value => p value | .error _ => false) = true) :
    ∃ value, result = .ok value ∧ p value = true := by
  cases result with
  | error _ => cases check
  | ok value => exact ⟨value, rfl, check⟩

/-- Where no check of a chain has an error, the first one has none and the rest has none. -/
theorem passed_of_check {failed : Prop} [Decidable failed] {error : ε} {rest : Option ε}
    (passed : (if failed then some error else rest) = none) : ¬ failed ∧ rest = none := by
  split_ifs at passed with failure
  exact ⟨failure, passed⟩

end Results

end ZLoader
