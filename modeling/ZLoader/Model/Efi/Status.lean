/-! # EFI status codes and the build configuration

`efi_status_t` is a machine word whose top bit marks an error (`efi/error.h`). The build options
that select code are kept as data: the target (`LOADER_TARGET`), whether `NDEBUG` removes the
assertions, and the two optional decompressors.
-/

namespace ZLoader

abbrev EfiStatus := UInt64

/-- `EFI_ERROR_MASK` for an eight-byte status word. -/
def efiErrorMask : EfiStatus := (0x80 : UInt64) <<< 56

/-- `EFIERR(a)`. -/
def efiErr (code : UInt64) : EfiStatus := efiErrorMask ||| code

/-- `EFI_ERROR(a)`: the word is negative as a signed integer. -/
def efiError (status : EfiStatus) : Bool := decide (status.toInt64 < 0)

def efiSuccess : EfiStatus := 0
def efiLoadError : EfiStatus := efiErr 1
def efiInvalidParameter : EfiStatus := efiErr 2
def efiUnsupported : EfiStatus := efiErr 3
def efiBufferTooSmall : EfiStatus := efiErr 5
def efiOutOfResources : EfiStatus := efiErr 9
def efiNotFound : EfiStatus := efiErr 14
def efiAlreadyStarted : EfiStatus := efiErr 20
def efiCompromisedData : EfiStatus := efiErr 33

/-- The two targets the build accepts. -/
inductive Arch where
  | x86_64
  | aarch64
deriving DecidableEq, Repr

structure Build where
  arch : Arch
  ndebug : Bool
  useLz4 : Bool
  useZstd : Bool
deriving DecidableEq, Repr

/-- The build with the options of `CMakeLists.txt` left as they are. -/
def defaultBuild : Build := ⟨.x86_64, false, true, false⟩

/-- The assertions of the program: those of `buffer_pos` and `buffer_len`, and all others. -/
inductive Assertion where
  | bufferAccessor
  | other
deriving DecidableEq, Repr

/-- How a function is left: with its value, with an EFI error status, or through a failed
assertion, which ends the program. -/
inductive Outcome (α : Type) where
  | ok (value : α)
  | error (status : EfiStatus)
  | assertionFailed (assertion : Assertion)
deriving DecidableEq, Repr

/-- Go on with the value of a call. -/
def Outcome.bind {α β : Type} (outcome : Outcome α) (next : α → Outcome β) : Outcome β :=
  match outcome with
  | .ok value => next value
  | .error status => .error status
  | .assertionFailed assertion => .assertionFailed assertion

/-- A value comes out of both calls. -/
theorem Outcome.bind_eq_ok {α β : Type} {outcome : Outcome α} {next : α → Outcome β} {value : β} :
    outcome.bind next = .ok value ↔ ∃ first, outcome = .ok first ∧ next first = .ok value := by
  cases outcome <;> simp [Outcome.bind]

/-- `assert(condition)` before the rest of a function body. -/
def Build.assert (build : Build) (assertion : Assertion) (condition : Bool) {α : Type}
    (body : Outcome α) : Outcome α :=
  if !build.ndebug && !condition then .assertionFailed assertion else body

end ZLoader
