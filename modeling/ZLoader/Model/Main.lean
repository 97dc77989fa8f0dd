import ZLoader.Foundation.ByteList
import ZLoader.Model.Decompress
import ZLoader.Model.Initrd
import ZLoader.Model.Loader.Image
import ZLoader.Model.LocateSections

/-! # The main program of the stub

`efi_main`, `do_devicetree_fixup` and `execute_image_from_memory` (`main.c`). The environment gives
the answers of the firmware, of the heap and of the codec libraries, and what the kernel does while
it runs: its calls of the LoadFile2 protocol, and the status it comes back with, if it does. The
buffers that the program builds are recorded as they are after their initialisation, and so are the
calls in which it hands the embedded files on. Variables for the boot loader interface are left out,
and so is what is only printed.
-/

namespace ZLoader

/-- `USE_EFI_DT_FIXUP`: defined for one of the targets. -/
def Build.useEfiDtFixup (build : Build) : Bool := build.arch == .aarch64

/-- `EFI_DT_FIXUP_PROTOCOL_REVISION`. -/
def efiDtFixupProtocolRevision : UInt64 := 0x00010000

/-- The DeviceTree fixup protocol: how it is located, its revision, the answers of its two calls
(status and size), and the firmware's answers to the allocation and the installation of the table. -/
structure DtFixupProtocol where
  locate : EfiStatus
  revision : UInt64
  fixup : UInt64 → EfiStatus × UInt64
  retry : UInt64 → EfiStatus × UInt64
  allocatePool : Option UInt64
  installConfigurationTable : EfiStatus

/-- Everything outside of the program. -/
structure StubEnvironment (D σ τ : Type) where
  build : Build
  loaded : StubImage
  secureBoot : Option UInt8
  malloc : UInt64 → UInt64
  firmware : Firmware D
  statics : InitrdStatics
  database : D
  dtFixup : DtFixupProtocol
  lz4 : Lz4Codec σ
  zstd : ZstdCodec τ
  kernelMalloc : UInt64 → UInt64
  turns : ℕ
  decompressed : ByteStore
  elapsed : UInt64
  services : Services
  pages : ByteStore
  kernelCalls : List LoadFileCall
  kernelStatus : Option EfiStatus

/-- How the program ends: with a status, in a failed assertion, in the call of a release function
that was never set, or not at all, in its decompression loop, in that of a message or in the
kernel. -/
inductive StubOutcome where
  | exited (status : EfiStatus)
  | assertionFailed (assertion : Assertion)
  | nullCall
  | decompressing
  | printing
  | kernelRunning
deriving DecidableEq, Repr

/-- A call that is given an embedded file in a buffer. The callback is called by the kernel, and
finds the buffer in its static variable. -/
inductive StubCall where
  | initrdRegister (initrd : SimpleBuffer)
  | doDevicetreeFixup (fdt : SimpleBuffer)
  | decompress (linux : SimpleBuffer)
  | fl2LoadFile (initrd : SimpleBuffer) (call : LoadFileCall)
deriving DecidableEq, Repr

/-- A run: how it ends, the buffers built, the load options the kernel was started with, and the
calls. -/
structure StubRun where
  outcome : StubOutcome
  built : List SimpleBuffer
  started : Option (UInt64 × UInt32)
  calls : List StubCall
deriving DecidableEq, Repr

/-- More buffers, built before. -/
def StubRun.prepend (built : List SimpleBuffer) (run : StubRun) : StubRun :=
  { run with built := built ++ run.built }

/-- A call in front of the others. -/
def StubRun.after (call : StubCall) (run : StubRun) : StubRun :=
  { run with calls := call :: run.calls }

/-- A run in which nothing more happens. -/
def StubRun.ended (outcome : StubOutcome) : StubRun := ⟨outcome, [], none, []⟩

/-- A run that goes on after a call unless an assertion has failed there. -/
def Outcome.andRun {α : Type} (outcome : Outcome α) (next : α → StubRun) : StubRun :=
  match outcome with
  | .ok value => next value
  | .error status => .ended (.exited status)
  | .assertionFailed assertion => .ended (.assertionFailed assertion)

/-- `{ 0 }`. -/
def zeroBuffer : SimpleBuffer := ⟨0, 0, 0, 0, none⟩

/-- The wanted sections of `efi_main`. -/
structure StubSections where
  osrel : WantedSection
  cmdline : WantedSection
  linux : WantedSection
  initrd : WantedSection
  fdt : WantedSection
deriving DecidableEq, Repr

/-- The array `sections` before it is filled: ".osrel", ".cmdline", ".linux", ".initrd", ".dtb". -/
def wantedSections : List WantedSection :=
  [⟨[0x2e, 0x6f, 0x73, 0x72, 0x65, 0x6c], 0, 0, 0⟩,
    ⟨[0x2e, 0x63, 0x6d, 0x64, 0x6c, 0x69, 0x6e, 0x65], 0, 0, 0⟩,
    ⟨[0x2e, 0x6c, 0x69, 0x6e, 0x75, 0x78], 0, 0, 0⟩,
    ⟨[0x2e, 0x69, 0x6e, 0x69, 0x74, 0x72, 0x64], 0, 0, 0⟩,
    ⟨[0x2e, 0x64, 0x74, 0x62], 0, 0, 0⟩]

/-- The array by its enumeration. -/
def StubSections.ofList? : List WantedSection → Option StubSections
  | [osrel, cmdline, linux, initrd, fdt] => some ⟨osrel, cmdline, linux, initrd, fdt⟩
  | _ => none

section Program

variable {D σ τ : Type} (env : StubEnvironment D σ τ)

/-- The address of a section in the loaded image. -/
def StubImage.address (loaded : StubImage) (sec : WantedSection) : UInt64 :=
  loaded.imageBase + sec.loadAddress

/-- `secure_boot`. -/
def StubEnvironment.secureBootActive : Bool := env.secureBoot == some 1

/-- The command line that comes with the image is used: there is one, and not in secure mode. -/
def StubEnvironment.usesLoadOptions : Bool :=
  env.loaded.loadOptionsSize > 0 && !env.secureBootActive

/-- The characters of the embedded command line. -/
def StubEnvironment.embeddedCmdline (cmdline : WantedSection) : List UInt16 :=
  mbstowcs (env.loaded.memory.from_ cmdline.loadAddress.toNat) cmdline.size.toNat

/-- The buffer `options`; `none` when there is no memory for the embedded command line. -/
def buildOptions (cmdline : WantedSection) : Option SimpleBuffer :=
  if env.usesLoadOptions then
    let size := env.loaded.loadOptionsSize.toUInt64
    some { zeroBuffer with buffer := env.loaded.loadOptions, length := size, allocated := size }
  else if cmdline.loadAddress != 0 then
    match allocateSimpleBuffer env.malloc ((cmdline.size + 1) * 2) zeroBuffer with
    | (false, _, _) => none
    | (true, options, _) =>
        some { options with length := UInt64.ofNat (env.embeddedCmdline cmdline).length * 2 }
  else some zeroBuffer

/-- The bytes behind `options.buffer`: those that the caller supplied at the address of its load
options, or the characters stored by `mbstowcs`. -/
def optionsContent (supplied : ByteStore) (cmdline : WantedSection) : ByteStore :=
  if env.usesLoadOptions then supplied
  else
    .ofList ((env.embeddedCmdline cmdline).flatMap fun unichar => leBytes 2 unichar.toNat)
      fun _ => 0

/-- The initialiser of `initrd`: its last value is that of `pos`. -/
def buildInitrd (initrd : WantedSection) : SimpleBuffer :=
  { buffer := env.loaded.address initrd
    length := initrd.size
    pos := 0
    allocated := 0
    free := none }

/-- `fdt` as it is handed to `do_devicetree_fixup`. -/
def buildFdt (fdt : WantedSection) : SimpleBuffer :=
  { zeroBuffer with buffer := env.loaded.address fdt, length := fdt.size }

/-- The initialiser of `linux_section`: its last value is that of `free`. -/
def buildLinuxSection (linux : WantedSection) : SimpleBuffer :=
  { buffer := env.loaded.address linux
    length := linux.size
    pos := 0
    allocated := linux.size
    free := none }

/-- `do_devicetree_fixup`: its status and the buffer it leaves. -/
def doDevicetreeFixup (build : Build) (protocol : DtFixupProtocol) (fdt : SimpleBuffer) :
    Outcome (EfiStatus × SimpleBuffer) :=
  if efiError protocol.locate then .ok (protocol.locate, fdt)
  else if protocol.revision < efiDtFixupProtocolRevision then .ok (efiUnsupported, fdt)
  else
    (bufferLen build fdt).bind fun length =>
      (bufferPos build fdt).bind fun _ =>
        let (status, size) := protocol.fixup length
        match protocol.allocatePool with
        | none => .ok (efiOutOfResources, fdt)
        | some address =>
            (bufferPos build fdt).bind fun _ =>
              (bufferLen build fdt).bind fun _ =>
                let fdt := ⟨address, size, 0, size, some .freeSimpleBuffer⟩
                (if status == efiBufferTooSmall then
                  (bufferPos build fdt).bind fun _ => .ok (protocol.retry size).1
                else .ok status).bind fun status =>
                  if efiError status then .ok (status, fdt)
                  else if efiError protocol.installConfigurationTable then
                    .ok (protocol.installConfigurationTable, fdt)
                  else .ok (efiSuccess, { fdt with free := none })

/-- The kernel's calls of the LoadFile2 protocol, as long as the callback returns, and how it goes
on. -/
def serveKernelCalls (build : Build) (statics : InitrdStatics) (initrd : SimpleBuffer)
    (next : StubRun) : List LoadFileCall → StubRun
  | [] => next
  | call :: calls =>
      ((fl2LoadFile build statics initrd call).andRun fun _ =>
        serveKernelCalls build statics initrd next calls).after (.fl2LoadFile initrd call)

/-- The load options that `execute_image_from_memory` sets. -/
def startOptions (build : Build) (options : SimpleBuffer) : Outcome (UInt64 × UInt32) :=
  (bufferLen build options).bind fun length =>
    if length > 0 then (bufferPos build options).bind fun position => .ok (position, length.toUInt32)
    else .ok (0, 0)

/-- `initrd_deregister` and `exit`. -/
def endProgram (status : EfiStatus) : StubRun := .ended (.exited status)

/-- `execute_image_from_memory` and what follows it. The callback is reached only through the handle
that the registration has left. -/
def executeImageFromMemory (st : InitrdState D) (kernel options : SimpleBuffer)
    (content : ByteStore) : StubRun :=
  let loaded := peHandleImage env.build env.services kernel ⟨content, env.pages⟩
  match loaded.outcome with
  | .error status => endProgram status
  | .assertionFailed assertion => .ended (.assertionFailed assertion)
  | .printing => .ended .printing
  | .ok =>
      (startOptions env.build options).andRun fun started =>
        let calls := if st.initrdHandle.isSome then env.kernelCalls else []
        let run := serveKernelCalls env.build env.statics st.initrd
          (match env.kernelStatus with
          | none => .ended .kernelRunning
          | some status => endProgram status) calls
        { run with started := some started }

/-- The bytes of `linux_section`, and the decompression of its kernel. -/
def StubEnvironment.linuxData (linux : WantedSection) : ByteStore :=
  env.loaded.memory.from_ linux.loadAddress.toNat

def decompressLinux (linux : WantedSection) : DecompressResult :=
  decompress env.build env.lz4 env.zstd env.kernelMalloc (env.linuxData linux) env.turns
    (buildLinuxSection env linux) zeroBuffer

/-- The bytes of `decompressed_kernel`: a kernel that was not compressed stays where it is. -/
def kernelContent (linux : WantedSection) : ByteStore :=
  if kernelFormat env.build (env.linuxData linux) (buildLinuxSection env linux) == .other then
    env.linuxData linux
  else env.decompressed

/-- `efi_main` from `linux_section` on. -/
def startKernel (st : InitrdState D) (options : SimpleBuffer) (linux : WantedSection) : StubRun :=
  let result := decompressLinux env linux
  StubRun.prepend [buildLinuxSection env linux, zeroBuffer] <|
    StubRun.after (.decompress (buildLinuxSection env linux)) <|
      match result.outcome with
      | .error status => endProgram status
      | .assertionFailed => .ended (.assertionFailed .bufferAccessor)
      | .nullCall => .ended .nullCall
      | .running => .ended .decompressing
      | .ok =>
          StubRun.prepend [result.output] <|
            (env.build.assert .other (env.elapsed > 0) (.ok ())).andRun fun _ =>
              executeImageFromMemory env st result.output options (kernelContent env linux)

/-- `efi_main` from the DeviceTree on. -/
def fixDevicetree (st : InitrdState D) (options : SimpleBuffer) (sections : StubSections) : StubRun :=
  if env.build.useEfiDtFixup && sections.fdt.loadAddress != 0 then
    let fdt := buildFdt env sections.fdt
    StubRun.prepend [fdt] <| StubRun.after (.doDevicetreeFixup fdt) <|
      (doDevicetreeFixup env.build env.dtFixup fdt).andRun fun (_, fixed) =>
        (startKernel env st options sections.linux).prepend [fixed]
  else startKernel env st options sections.linux

/-- `efi_main` once the sections have been located. -/
def stubMain (sections : StubSections) : StubRun :=
  if sections.linux.loadAddress == 0 || sections.linux.size == 0 then
    .ended (.exited efiUnsupported)
  else
    match buildOptions env sections.cmdline with
    | none => .ended (.exited efiOutOfResources)
    | some options =>
        let st : InitrdState D := ⟨env.database, zeroBuffer, none⟩
        if sections.initrd.loadAddress != 0 then
          let initrd := buildInitrd env sections.initrd
          let (_, st) := initrdRegister env.firmware env.statics initrd st
          ((fixDevicetree env st options sections).after (.initrdRegister initrd)).prepend
            [options, initrd]
        else (fixDevicetree env st options sections).prepend [options]

/-- `efi_main`. -/
def efiMain : StubRun :=
  (peLocateSections env.build env.loaded wantedSections).andRun fun found =>
    match found.bind StubSections.ofList? with
    | none => .ended (.exited efiUnsupported)
    | some sections => stubMain env sections

end Program

end ZLoader
