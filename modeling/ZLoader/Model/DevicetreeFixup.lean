import ZLoader.Model.Main

/-! # The DeviceTree fixup with its memory

`do_devicetree_fixup` (`main.c`) once more, with the bytes it works on: the calls of the fixup
protocol change the memory, the blob is copied to a new buffer, buffers are freed and the
configuration table is installed. Assertions are compiled out.
-/

namespace ZLoader

/-- What a call of the protocol answers: its status, the size it leaves and the memory. -/
structure FixupAnswer where
  status : EfiStatus
  size : UInt64
  memory : ByteStore

/-- `fixup`: of the blob at an address, with its size, in a memory. -/
abbrev FixupCall := UInt64 → UInt64 → ByteStore → FixupAnswer

/-- What the function asks of the firmware. The protocol may answer its second call differently. -/
structure DevicetreeFirmware where
  locate : EfiStatus
  revision : UInt64
  fixup : FixupCall
  retry : FixupCall
  allocatePool : UInt64 → Option UInt64
  installConfigurationTable : UInt64 → EfiStatus

/-- What the function does to the world. -/
inductive DevicetreeEvent where
  | fixup (dtb size : UInt64) (status : EfiStatus)
  | allocate (address size : UInt64)
  | copy (target source length : UInt64)
  | free (address : UInt64)
  | install (address : UInt64) (status : EfiStatus)
deriving DecidableEq, Repr

/-- A run: the status returned, the buffer left to the caller, the memory and what was done. -/
structure DevicetreeRun where
  status : EfiStatus
  fdt : SimpleBuffer
  memory : ByteStore
  events : List DevicetreeEvent

/-- `free_buffer` of a buffer from the pool. -/
def freeDevicetree (buffer : SimpleBuffer) : List DevicetreeEvent :=
  if buffer.buffer != 0 && buffer.free == some .freeSimpleBuffer && buffer.allocated != 0 then
    [.free buffer.buffer]
  else []

section Fixup

variable (firmware : DevicetreeFirmware)

/-- The second call of the protocol, on the new buffer. -/
def retryFixup (first : FixupAnswer) (fdt : SimpleBuffer) (memory : ByteStore) :
    FixupAnswer × List DevicetreeEvent :=
  if first.status == efiBufferTooSmall then
    let second := firmware.retry (fdt.buffer + fdt.pos) first.size memory
    (second, [.fixup (fdt.buffer + fdt.pos) first.size second.status])
  else ({ first with memory := memory }, [])

/-- The end of the function, from the second call on. -/
def installFixed (first : FixupAnswer) (fdt : SimpleBuffer) (memory : ByteStore)
    (events : List DevicetreeEvent) : DevicetreeRun :=
  let (answer, retried) := retryFixup firmware first fdt memory
  if efiError answer.status then ⟨answer.status, fdt, answer.memory, events ++ retried⟩
  else
    let installed := firmware.installConfigurationTable fdt.buffer
    let events := events ++ retried ++ [.install fdt.buffer installed]
    if efiError installed then ⟨installed, fdt, answer.memory, events⟩
    else ⟨efiSuccess, { fdt with free := none }, answer.memory, events⟩

/-- `do_devicetree_fixup`. -/
def runDevicetreeFixup (fdt : SimpleBuffer) (memory : ByteStore) : DevicetreeRun :=
  if efiError firmware.locate then ⟨firmware.locate, fdt, memory, []⟩
  else if firmware.revision < efiDtFixupProtocolRevision then ⟨efiUnsupported, fdt, memory, []⟩
  else
    let position := fdt.buffer + fdt.pos
    let length := fdt.length - fdt.pos
    let first := firmware.fixup position length memory
    let called := [DevicetreeEvent.fixup position length first.status]
    match firmware.allocatePool first.size with
    | none => ⟨efiOutOfResources, fdt, first.memory, called⟩
    | some address =>
        let copied :=
          (Patch.copy address.toNat length.toNat first.memory position.toNat).apply first.memory
        let fixed : SimpleBuffer := ⟨address, first.size, 0, first.size, some .freeSimpleBuffer⟩
        installFixed firmware first fixed copied
          (called ++ [.allocate address first.size, .copy address position length] ++
            freeDevicetree fdt)

/-- The answers of the protocol in a run, without the memory. -/
def DevicetreeFirmware.answers (fdt : SimpleBuffer) (memory : ByteStore) : DtFixupProtocol :=
  let position := fdt.buffer + fdt.pos
  let first := firmware.fixup position (fdt.length - fdt.pos) memory
  let address := firmware.allocatePool first.size
  { locate := firmware.locate
    revision := firmware.revision
    fixup := fun _ => (first.status, first.size)
    retry := fun size =>
      let second := firmware.retry (address.getD 0 + 0) size
        ((Patch.copy (address.getD 0).toNat (fdt.length - fdt.pos).toNat first.memory
          position.toNat).apply first.memory)
      (second.status, second.size)
    allocatePool := address
    installConfigurationTable := firmware.installConfigurationTable (address.getD 0) }

variable {firmware}

/-- Without the memory this is the function of the program. -/
theorem doDevicetreeFixup_answers {build : Build} (quiet : build.ndebug = true) (fdt : SimpleBuffer)
    (memory : ByteStore) :
    doDevicetreeFixup build (firmware.answers fdt memory) fdt =
      .ok ((runDevicetreeFixup firmware fdt memory).status,
        (runDevicetreeFixup firmware fdt memory).fdt) := by
  by_cases absent : efiError firmware.locate = true
  · simp [doDevicetreeFixup, runDevicetreeFixup, DevicetreeFirmware.answers, absent]
  by_cases old : firmware.revision < efiDtFixupProtocolRevision
  · simp [doDevicetreeFixup, runDevicetreeFixup, DevicetreeFirmware.answers, absent, old]
  cases pool : firmware.allocatePool
      (firmware.fixup (fdt.buffer + fdt.pos) (fdt.length - fdt.pos) memory).size with
  | none =>
    simp [doDevicetreeFixup, runDevicetreeFixup, DevicetreeFirmware.answers, absent, old, pool,
      bufferLen_of_ndebug quiet, bufferPos_of_ndebug quiet, Outcome.bind]
  | some address =>
    simp only [doDevicetreeFixup, runDevicetreeFixup, DevicetreeFirmware.answers, if_neg absent,
      if_neg old, pool, bufferLen_of_ndebug quiet, bufferPos_of_ndebug quiet, Outcome.bind,
      Option.getD_some, installFixed, retryFixup]
    split_ifs <;> simp_all

end Fixup

end ZLoader
