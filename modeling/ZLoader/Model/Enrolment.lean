import Mathlib.Data.Fin.VecNotation
import ZLoader.Model.Efi.DevicePath
import ZLoader.Model.Lib.PrintText
import ZLoader.Model.ReadFile

/-! # Enrolling the keys

`efi_main` of `lockdown.c`, with the calls of `efi_var_get` and `efi_var_set` (`efilib/var.h`) that
it makes. The variable services of the firmware are a state with two functions on it; what opening a
directory or a file answers is data, and so is what `get_dirname` returns. A buffer is released at
the end of its scope unless a failed assertion has ended the program before. The working directory
is never closed, and what is only printed is left out.
-/

namespace ZLoader

/-- `EFI_GLOBAL_VARIABLE_GUID`. -/
def efiGlobalVariableGuid : Guid :=
  ⟨0x8be4df61, 0x93ca, 0x11d2, ![0xaa, 0x0d, 0x00, 0xe0, 0x98, 0x03, 0x2b, 0x8c]⟩

/-- `EFI_IMAGE_SECURITY_DATABASE1_GUID`. -/
def efiImageSecurityDatabase1Guid : Guid :=
  ⟨0xd719b2cb, 0x3d3a, 0x4596, ![0xa3, 0xbc, 0xda, 0xd0, 0x0e, 0x67, 0x65, 0x6f]⟩

def efiVariableNonVolatile : UInt32 := 0x00000001
def efiVariableBootserviceAccess : UInt32 := 0x00000002
def efiVariableRuntimeAccess : UInt32 := 0x00000004
def efiVariableTimeBasedAuthenticatedWriteAccess : UInt32 := 0x00000020

/-- The attributes of the three variables. -/
def enrolmentAttributes : UInt32 :=
  efiVariableNonVolatile ||| efiVariableRuntimeAccess ||| efiVariableBootserviceAccess |||
    efiVariableTimeBasedAuthenticatedWriteAccess

/-- Everything outside of the program. `getVariable` reads a variable of one byte, and `dirname`
returns the memory of the directory's name and the name. -/
structure LockdownFirmware (V : Type) where
  build : Build
  getVariable : V → Guid → List Char → EfiStatus × UInt8
  setVariable : V → Guid → List Char → UInt32 → List UInt8 → EfiStatus × V
  filePath : ByteStore
  dirname : (ℕ → UInt16) → Option (UInt64 × (ℕ → UInt16))
  openDirectory : (ℕ → UInt16) → EfiStatus
  file : List Char → FileFirmware

/-- A call of `set_variable` and its answer. -/
structure VariableWrite where
  guid : Guid
  name : List Char
  attributes : UInt32
  data : List UInt8
  status : EfiStatus

/-- A run: how it ends, the variables it leaves, what it has written, and the memory allocated and
freed. -/
structure LockdownRun (V : Type) where
  ended : ReadFileEnd
  vars : V
  writes : List VariableWrite
  movements : List (Movement UInt64)

namespace LockdownRun

variable {V : Type}

/-- Nothing more happens. -/
def stop (ended : ReadFileEnd) (vars : V) : LockdownRun V := ⟨ended, vars, [], []⟩

/-- A write in front of a run. -/
def afterWrite (write : VariableWrite) (run : LockdownRun V) : LockdownRun V :=
  { run with writes := write :: run.writes }

/-- A run in the scope of memory: what has been allocated and freed before, and what the cleanup
frees. -/
def inScope (before cleanup : List (Movement UInt64)) (run : LockdownRun V) : LockdownRun V :=
  { run with
    movements := before ++ run.movements ++
      match run.ended with
      | .returned _ => cleanup
      | _ => [] }

end LockdownRun

/-- `free_buffer`. -/
def freeBufferMovements (buffer : SimpleBuffer) : List (Movement UInt64) :=
  if buffer.buffer != 0 then
    match buffer.free with
    | none => []
    | some release => (releaseEvents buffer release).filterMap CodecEvent.movement
  else []

section Program

variable {V : Type} (firmware : LockdownFirmware V)

/-- `read_file_to_buffer` for a file, and the scope of its buffer. -/
def loadFile (filename : List Char) (memory : ByteStore) (vars : V)
    (next : ByteStore → SimpleBuffer → LockdownRun V) : LockdownRun V :=
  let read := readFileToBuffer firmware.build (firmware.file filename) memory zeroBuffer
  .inScope read.movements (freeBufferMovements read.buffer) <|
    match read.ended with
    | .returned status =>
        if efiError status then .stop (.returned status) vars
        else next read.memory read.buffer
    | ended => .stop ended vars

/-- `efi_var_set` with the bytes of a buffer, and what follows it. -/
def enrol (guid : Guid) (name : List Char) (memory : ByteStore) (buffer : SimpleBuffer)
    (vars : V) (next : V → LockdownRun V) : LockdownRun V :=
  match bufferLen firmware.build buffer, bufferPos firmware.build buffer with
  | .ok length, .ok position =>
      let data := memory.bytesAt position.toNat length.toNat
      let (status, vars) :=
        firmware.setVariable vars guid name enrolmentAttributes data
      .afterWrite ⟨guid, name, enrolmentAttributes, data, status⟩ <|
        if efiError status then .stop (.returned status) vars else next vars
  | _, _ => .stop .assertionFailed vars

/-- The last block of `efi_main`. -/
def checkSecureBoot (vars : V) : LockdownRun V :=
  let (status, secureBoot) :=
    firmware.getVariable vars efiGlobalVariableGuid "SecureBoot".toList
  if efiError status then .stop (.returned status) vars
  else if secureBoot != 1 then .stop (.returned efiUnsupported) vars
  else .stop (.returned efiSuccess) vars

/-- `efi_main` from "All files loaded" on. -/
def enrolKeys (memory : ByteStore) (kek db pk : SimpleBuffer) (vars : V) : LockdownRun V :=
  enrol firmware efiGlobalVariableGuid "KEK".toList memory kek vars fun vars =>
    enrol firmware efiImageSecurityDatabase1Guid "db".toList memory db vars fun vars =>
      enrol firmware efiGlobalVariableGuid "PK".toList memory pk vars fun vars =>
        checkSecureBoot firmware vars

/-- The three calls of `read_file_to_buffer`. -/
def loadKeys (memory : ByteStore) (vars : V) : LockdownRun V :=
  loadFile firmware "KEK.auth".toList memory vars fun memory kek =>
    loadFile firmware "db.auth".toList memory vars fun memory db =>
      loadFile firmware "PK.auth".toList memory vars fun memory pk =>
        enrolKeys firmware memory kek db pk vars

/-- `pathname` of the node at the start of the image's file path. -/
def LockdownFirmware.pathname : ℕ → UInt16 := fun index =>
  firmware.filePath.u16 (sizeofDevicePathNode + 2 * index)

/-- `efi_main` of `lockdown.c`. -/
def lockdownMain (memory : ByteStore) (vars : V) : LockdownRun V :=
  let (status, setupMode) :=
    firmware.getVariable vars efiGlobalVariableGuid "SetupMode".toList
  if efiError status then .stop (.returned status) vars
  else if setupMode != 1 then .stop (.returned efiUnsupported) vars
  else if !isDevicePathNode (.read firmware.filePath 0) mediaDevicePath mediaFilepathDp then
    .stop (.returned efiUnsupported) vars
  else
    match firmware.dirname firmware.pathname with
    | none => .stop (.returned efiOutOfResources) vars
    | some (address, path) =>
        .inScope [.grant address] [.release address] <|
          let status := firmware.openDirectory path
          if efiError status then .stop (.returned status) vars
          else loadKeys firmware memory vars

end Program

end ZLoader
