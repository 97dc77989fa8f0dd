import ZLoader.Model.Efi.DevicePath
import ZLoader.Model.Efi.Variables
import ZLoader.Model.Lib.String

/-! # The FIT stub

`fit_stub.c`: the boot process from the variables `BootNext`, `BootOrder` and `BootXXXX`, and then
from two files. The firmware is given by its answers: what the images return, where variables are
copied to and what stands in memory behind them. A function that does not return has no status.
-/

namespace ZLoader

/-- `LOAD_OPTION_ACTIVE`. -/
def loadOptionActive : UInt32 := 0x00000001

/-- `sizeof(struct efi_load_option)`: the flexible array member adds nothing. -/
def sizeofEfiLoadOption : ℕ := 6

/-! The fields of `struct efi_load_option`. -/

namespace EfiLoadOption

def attributes (bytes : ByteStore) : UInt32 := bytes.u32 0
def filePathListLength (bytes : ByteStore) : UInt16 := bytes.u16 4
def description (bytes : ByteStore) : ℕ → UInt16 := fun index =>
  bytes.u16 (sizeofEfiLoadOption + 2 * index)

end EfiLoadOption

/-- The files that are started after the entries. -/
inductive BootFile where
  | boot
  | shell
deriving DecidableEq, Repr

/-- `EFI_ARCH`. -/
def efiArch : Arch → List Char
  | .x86_64 => ['x', '6', '4']
  | .aarch64 => ['a', 'a', '6', '4']

/-- The path of a file, as the source spells it. -/
def BootFile.filename (arch : Arch) : BootFile → List Char
  | .boot => "\\efi\\boot\\boot".toList ++ efiArch arch ++ ".efi".toList
  | .shell => "\\shell".toList ++ efiArch arch ++ ".efi".toList

/-- An image the stub tries to start. -/
inductive FitImage where
  | entry (number : UInt16)
  | file (file : BootFile)
deriving DecidableEq, Repr

/-- The arguments of `run_image_from_file`. -/
structure RunImage where
  devicePath : UInt64
  options : UInt64
  optionsLength : UInt64
deriving DecidableEq, Repr

/-- The statuses of one image: of `load_image`, `open_protocol` and `start_image`. -/
structure ImageResult where
  load : EfiStatus
  openProtocol : EfiStatus
  start : EfiStatus
deriving DecidableEq, Repr

/-- What the stub does that can be seen from outside: the call of `run_image_from_file`, the start of
a loaded image with the load options it has been given and the value of `BootCurrent` at that time,
and the return of `boot_entry` with the value that it leaves. -/
inductive FitEvent where
  | runImage (image : FitImage) (arguments : RunImage)
  | startImage (image : FitImage) (loadOptions : Option (UInt64 × UInt32))
      (bootCurrent : Option (List UInt8))
  | entryReturned (number : UInt16) (bootCurrent : Option (List UInt8))
deriving DecidableEq, Repr

/-- The target and the answers of the firmware. `results` is asked with the number of images tried
before, `turns` bounds the loop of `wcslen`. -/
structure FitEnvironment where
  arch : Arch
  results : ℕ → ImageResult
  pool : VariableName → UInt64
  behind : ByteStore
  turns : ℕ
  devicePathUtilities : EfiStatus
  rootDevicePath : EfiStatus
  filePool : List Char → Bool
  appendNode : List Char → UInt64

structure FitState where
  vars : Variables
  tried : ℕ
  trace : List FitEvent

namespace FitState

def log (st : FitState) (event : FitEvent) : FitState := { st with trace := st.trace ++ [event] }

/-- `efi_var_set` of `BootCurrent`. -/
def setBootCurrent (st : FitState) (data : List UInt8) : FitState :=
  { st with vars := st.vars.set .bootCurrent data }

@[simp] theorem log_vars (st : FitState) (event : FitEvent) :
    (st.log event).vars = st.vars := rfl
@[simp] theorem log_trace (st : FitState) (event : FitEvent) :
    (st.log event).trace = st.trace ++ [event] := rfl
@[simp] theorem setBootCurrent_vars (st : FitState) (data : List UInt8) :
    (st.setBootCurrent data).vars = st.vars.set .bootCurrent data := rfl
@[simp] theorem setBootCurrent_trace (st : FitState) (data : List UInt8) :
    (st.setBootCurrent data).trace = st.trace := rfl

end FitState

/-- `run_image_from_file`. -/
def runImageFromFile (env : FitEnvironment) (image : FitImage) (arguments : RunImage)
    (st : FitState) : EfiStatus × FitState :=
  let result := env.results st.tried
  let st := { st.log (.runImage image arguments) with tried := st.tried + 1 }
  if efiError result.load then (result.load, st)
  else if efiError result.openProtocol then (result.openProtocol, st)
  else
    let loadOptions :=
      if arguments.options != 0 && arguments.optionsLength > 0 then
        some (arguments.options, arguments.optionsLength.toUInt32)
      else none
    (result.start, st.log (.startImage image loadOptions (st.vars .bootCurrent)))

/-- `boot_entry_get_device_path`: the status and the offset of the device path in the entry. -/
def bootEntryGetDevicePath (turns : ℕ) (bytes : ByteStore) : Option (EfiStatus × UInt64) :=
  if EfiLoadOption.filePathListLength bytes < UInt16.ofNat sizeofDevicePathNode then
    some (efiUnsupported, 0)
  else
    match wcslen (EfiLoadOption.description bytes) turns with
    | none => none
    | some length =>
        let pos := UInt64.ofNat (2 * (length + 1) + sizeofEfiLoadOption)
        if isDevicePathEndNode (.read bytes pos.toNat) then some (efiNotFound, pos)
        else some (efiSuccess, pos)

/-- What `boot_entry` makes of an entry before it changes anything. -/
inductive EntryDecision where
  | skip (status : EfiStatus)
  | run (arguments : RunImage)
  | stuck
deriving DecidableEq, Repr

/-- The checks and the decoding of `boot_entry`; the first check joins its operands with `&&`. -/
def decodeBootEntry (turns : ℕ) (entry : PoolVariable) : EntryDecision :=
  if !(EfiLoadOption.attributes entry.bytes != 0 && loadOptionActive != 0) then .skip efiSuccess
  else
    match bootEntryGetDevicePath turns entry.bytes with
    | none => .stuck
    | some (status, pos) =>
        if status == efiNotFound then .skip efiSuccess
        else if efiError status then .skip status
        else
          let dp := entry.address + pos
          let options := dp + (EfiLoadOption.filePathListLength entry.bytes).toUInt64
          .run ⟨dp, options, options - (entry.address + entry.length)⟩

/-- The decision about the entry with a number. -/
def entryDecision (env : FitEnvironment) (vars : Variables) (number : UInt16) :
    EntryDecision :=
  match efiVarGetPool vars env.pool env.behind (bootEntryName number) with
  | none => .skip efiSuccess
  | some entry => decodeBootEntry env.turns entry

/-- `boot_entry`. -/
def bootEntry (env : FitEnvironment) (number : UInt16) (st : FitState) :
    Option EfiStatus × FitState :=
  match entryDecision env st.vars number with
  | .skip status => (some status, st)
  | .stuck => (none, st)
  | .run arguments =>
      let st := st.setBootCurrent (leBytes 2 number.toNat)
      let (status, st) := runImageFromFile env (.entry number) arguments st
      let st := st.setBootCurrent []
      (some (if efiError status then status else efiSuccess), st)

/-- `boot_file`. -/
def bootFile (env : FitEnvironment) (file : BootFile) (st : FitState) : EfiStatus × FitState :=
  let filename := file.filename env.arch
  if !env.filePool filename then (efiOutOfResources, st)
  else runImageFromFile env (.file file) ⟨env.appendNode filename, 0, 0⟩ st

/-- Entries in a row, whatever they return; `false` when one of them does not return. -/
def bootEntries (env : FitEnvironment) : List UInt16 → FitState → Bool × FitState
  | [], st => (true, st)
  | number :: numbers, st =>
      match bootEntry env number st with
      | (none, st) => (false, st)
      | (some _, st) =>
          bootEntries env numbers (st.log (.entryReturned number (st.vars .bootCurrent)))

/-- What is read from `BootNext`; a variable of one byte leaves a byte of the number undefined. -/
inductive BootNextRead where
  | absent
  | number (next : UInt16)
  | undefined
deriving DecidableEq, Repr

/-- `efi_var_get` of `BootNext` into two bytes. -/
def readBootNext (vars : Variables) : BootNextRead :=
  match vars .bootNext with
  | some [low, high] => .number (ByteStore.u16 (.ofList [low, high] fun _ => 0) 0)
  | some [_] => .undefined
  | _ => .absent

/-- `efi_var_get_pool` of `BootOrder` as an array of numbers. -/
def readBootOrder (env : FitEnvironment) (vars : Variables) : List UInt16 :=
  match efiVarGetPool vars env.pool env.behind .bootOrder with
  | none => []
  | some order =>
      (List.range (order.length / 2).toNat).map fun index => order.bytes.u16 (2 * index)

/-- The end of `efi_main`: the two files. -/
def bootFiles (env : FitEnvironment) (st : FitState) : EfiStatus × FitState :=
  if efiError env.rootDevicePath then (env.rootDevicePath, st)
  else
    let (_, st) := bootFile env .boot st
    bootFile env .shell st

/-- `efi_main` after the variables have been read: entries, then files. -/
def bootAll (env : FitEnvironment) (numbers : List UInt16) (st : FitState) :
    Option EfiStatus × FitState :=
  match bootEntries env numbers st with
  | (false, st) => (none, st)
  | (true, st) =>
      let (status, st) := bootFiles env st
      (some status, st)

/-- `efi_main` of the stub. -/
def fitMain (env : FitEnvironment) (vars : Variables) : Option EfiStatus × FitState :=
  let st := FitState.mk vars 0 []
  if efiError env.devicePathUtilities then (some env.devicePathUtilities, st)
  else
    match readBootNext vars with
    | .undefined => (none, st)
    | .absent => bootAll env (readBootOrder env st.vars) st
    | .number next =>
        match bootEntries env [next] st with
        | (false, st) => (none, st)
        | (true, st) => bootAll env (readBootOrder env st.vars) st

end ZLoader
