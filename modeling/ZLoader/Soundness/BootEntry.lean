import ZLoader.Model.FitStub

/-! # What one boot entry does

An entry is skipped without a trace, never returns, or runs one image between setting and deleting
`BootCurrent`. All that later results say about a boot follows from these three cases.
-/

namespace ZLoader

/-- The image has been loaded and opened, so it is started. -/
def ImageResult.starts (result : ImageResult) : Bool :=
  !efiError result.load && !efiError result.openProtocol

/-- The load options an image is started with: none when there is nothing to set. -/
def RunImage.loadOptions (arguments : RunImage) : Option (UInt64 × UInt32) :=
  if arguments.options != 0 && arguments.optionsLength > 0 then
    some (arguments.options, arguments.optionsLength.toUInt32)
  else none

/-- The trace of one image. -/
def imageTrace (result : ImageResult) (image : FitImage) (arguments : RunImage)
    (bootCurrent : Option (List UInt8)) : List FitEvent :=
  .runImage image arguments ::
    if result.starts then [.startImage image arguments.loadOptions bootCurrent] else []

/-- An image leaves its trace and keeps the variables. -/
theorem runImageFromFile_state (env : FitEnvironment) (image : FitImage) (arguments : RunImage)
    (st : FitState) :
    (runImageFromFile env image arguments st).2 =
      ⟨st.vars, st.tried + 1, st.trace ++
        imageTrace (env.results st.tried) image arguments (st.vars .bootCurrent)⟩ := by
  unfold runImageFromFile imageTrace ImageResult.starts
  cases load : efiError (env.results st.tried).load with
  | true => simp [FitState.log, load]
  | false =>
    cases openProtocol : efiError (env.results st.tried).openProtocol with
    | true => simp [FitState.log, load, openProtocol]
    | false => simp [FitState.log, load, openProtocol, RunImage.loadOptions]

variable {env : FitEnvironment} {number : UInt16} {st : FitState}

theorem bootEntry_skip {status : EfiStatus}
    (decided : entryDecision env st.vars number = .skip status) :
    bootEntry env number st = (some status, st) := by
  unfold bootEntry
  rw [decided]

theorem bootEntry_stuck (decided : entryDecision env st.vars number = .stuck) :
    bootEntry env number st = (none, st) := by
  unfold bootEntry
  rw [decided]

/-- An entry that is run leaves the trace of its image, which finds the number in `BootCurrent`, and
leaves no `BootCurrent` behind. -/
theorem bootEntry_run {arguments : RunImage}
    (decided : entryDecision env st.vars number = .run arguments) :
    (∃ status, (bootEntry env number st).1 = some status) ∧
      (bootEntry env number st).2 = ⟨st.vars.set .bootCurrent [], st.tried + 1, st.trace ++
        imageTrace (env.results st.tried) (.entry number) arguments
          (some (leBytes 2 number.toNat))⟩ := by
  unfold bootEntry
  rw [decided]
  refine ⟨⟨_, rfl⟩, ?_⟩
  dsimp only
  rw [FitState.setBootCurrent, runImageFromFile_state]
  have current : (st.vars.set .bootCurrent (leBytes 2 number.toNat)) .bootCurrent =
      some (leBytes 2 number.toNat) := Variables.set_same ..
  have twice : (st.vars.set .bootCurrent (leBytes 2 number.toNat)).set .bootCurrent [] =
      st.vars.set .bootCurrent [] := Function.update_idem ..
  rw [FitState.setBootCurrent_vars, current, twice]
  rfl

end ZLoader
