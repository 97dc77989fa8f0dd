import ZLoader.Foundation.ByteList
import ZLoader.Foundation.HandleDatabase
import ZLoader.Model.Efi.DevicePath
import ZLoader.Model.Util.Buffer

/-! # The initrd behind LoadFile2

`initrd.c`: registering a buffer as the initrd of the kernel, the LoadFile2 callback that serves it
and the deregistration. The firmware's handle database is a parameter that carries its contract, and
a handle is untyped in the source: an address, so the address of a variable passes for one.
-/

namespace ZLoader

/-- A non-NULL `efi_handle_t`. -/
abbrev Handle := { address : UInt64 // address ≠ 0 }

/-- The protocols by their GUIDs. -/
inductive Protocol where
  | devicePath
  | loadFile2
  | other (guid : ℕ)
deriving DecidableEq, Repr

/-- The status of a refused call. -/
abbrev EfiFailure := { status : EfiStatus // efiError status = true }

theorem failure_ne_success (failure : EfiFailure) : failure.val ≠ efiSuccess := by
  intro same
  have error := failure.property
  rw [same] at error
  revert error
  decide

/-- The firmware's handle database. -/
abbrev Firmware (D : Type) := HandleDatabase D Handle Protocol UInt64 EfiFailure

/-- The addresses of the static objects `initrd_handle`, `efi_initrd_device_path` and
`load_file2_protocol`. -/
structure InitrdStatics where
  handleVariable : Handle
  devicePath : UInt64
  loadFile2 : UInt64

/-- The interfaces that are installed and uninstalled together. -/
def InitrdStatics.interfaces (statics : InitrdStatics) : List (Protocol × UInt64) :=
  [(.devicePath, statics.devicePath), (.loadFile2, statics.loadFile2)]

/-- The two static variables, next to the database of the firmware. -/
structure InitrdState (D : Type) where
  database : D
  initrd : SimpleBuffer
  initrdHandle : Option Handle

section LoadFile

/-- The arguments of the callback: `none` is a NULL pointer, `filePath` the first node of the path,
`bufferSize` the value pointed to. -/
structure LoadFileCall where
  this : UInt64
  filePath : Option DevicePathNode
  bootPolicy : Bool
  bufferSize : Option UInt64
  buffer : UInt64
deriving DecidableEq, Repr

/-- What the callback returns, leaves in `*buffer_size` and copies: source address and length. -/
structure LoadFileReply where
  status : EfiStatus
  bufferSize : Option UInt64
  copied : Option (UInt64 × UInt64)
deriving DecidableEq, Repr

/-- A reply that leaves everything as it was. -/
def LoadFileCall.refuse (call : LoadFileCall) (status : EfiStatus) : Outcome LoadFileReply :=
  .ok ⟨status, call.bufferSize, none⟩

/-- `fl2_load_file` on the static buffer `initrd`. -/
def fl2LoadFile (build : Build) (statics : InitrdStatics) (initrd : SimpleBuffer)
    (call : LoadFileCall) : Outcome LoadFileReply :=
  match call.bufferSize, call.filePath with
  | some bufferSize, some node =>
      if call.this == 0 || call.this != statics.loadFile2 then call.refuse efiInvalidParameter
      else if call.bootPolicy then call.refuse efiUnsupported
      else if !isDevicePathEndNode node then call.refuse efiUnsupported
      else if initrd.buffer == 0 then call.refuse efiNotFound
      else
        (bufferLen build initrd).bind fun length =>
          if length == 0 then call.refuse efiNotFound
          else if call.buffer == 0 || bufferSize < length then
            .ok ⟨efiBufferTooSmall, some length, none⟩
          else
            (bufferPos build initrd).bind fun position =>
              .ok ⟨efiSuccess, some length, some (position, length)⟩
  | _, _ => call.refuse efiInvalidParameter

/-- What the callback works on: the static buffer `initrd`, and the memory by its addresses. -/
structure LoadFileState where
  initrd : SimpleBuffer
  memory : ByteStore

/-- The `memcpy` of a reply to the buffer of the caller. -/
def LoadFileReply.deliver (reply : LoadFileReply) (buffer : UInt64) (memory : ByteStore) :
    ByteStore :=
  match reply.copied with
  | none => memory
  | some (source, length) =>
      (Patch.copy buffer.toNat length.toNat memory source.toNat).apply memory

/-- A call with what it leaves; the callback does not write the static buffer. -/
def LoadFileCall.serve (build : Build) (statics : InitrdStatics) (call : LoadFileCall)
    (st : LoadFileState) : Outcome LoadFileReply × LoadFileState :=
  match fl2LoadFile build statics st.initrd call with
  | .ok reply => (.ok reply, { st with memory := reply.deliver call.buffer st.memory })
  | .error status => (.error status, st)
  | .assertionFailed assertion => (.assertionFailed assertion, st)

/-- What a caller finds: the status, its size and the bytes in its buffer. -/
structure LoadFileAnswer where
  status : EfiStatus
  bufferSize : Option UInt64
  bytes : Option (List UInt8)
deriving DecidableEq, Repr

/-- The answer of the callback while the static buffer and the memory are these. -/
def loadFileAnswer (build : Build) (statics : InitrdStatics) (st : LoadFileState)
    (call : LoadFileCall) : Outcome LoadFileAnswer :=
  (fl2LoadFile build statics st.initrd call).bind fun reply =>
    .ok ⟨reply.status, reply.bufferSize,
      reply.copied.map fun copied => st.memory.bytesAt copied.1.toNat copied.2.toNat⟩

end LoadFile

section Registration

variable {D : Type} (firmware : Firmware D) (statics : InitrdStatics)

/-- `initrd_register`. Whether another initrd is registered already is only printed. -/
def initrdRegister (initrd : SimpleBuffer) (st : InitrdState D) : EfiStatus × InitrdState D :=
  if initrd.buffer == 0 || initrd.length == 0 then (efiSuccess, st)
  else
    match firmware.install st.database st.initrdHandle statics.interfaces with
    | .ok (handle, database) => (efiSuccess, ⟨database, initrd, some handle⟩)
    | .error failure => (failure.val, { st with initrd := initrd })

/-- `initrd_deregister`. The handle argument is the address of the static variable. -/
def initrdDeregister (st : InitrdState D) : EfiStatus × InitrdState D :=
  match st.initrdHandle with
  | none => (efiSuccess, st)
  | some _ =>
      match firmware.uninstall st.database statics.handleVariable statics.interfaces with
      | .ok database => (efiSuccess, { st with database := database, initrdHandle := none })
      | .error failure => (failure.val, st)

/-- The calls of the module's interface. -/
inductive InitrdCall where
  | register (initrd : SimpleBuffer)
  | deregister
deriving DecidableEq, Repr

/-- One call: its status and what it leaves. -/
def InitrdCall.serve : InitrdCall → InitrdState D → EfiStatus × InitrdState D
  | .register initrd => initrdRegister firmware statics initrd
  | .deregister => initrdDeregister firmware statics

end Registration

end ZLoader
