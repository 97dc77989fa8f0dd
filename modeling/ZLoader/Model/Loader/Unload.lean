import ZLoader.Foundation.HandleDatabase
import ZLoader.Foundation.PageAllocator
import ZLoader.Model.Efi.DevicePath
import ZLoader.Model.Initrd
import ZLoader.Model.Loader.Image

/-! # Loading and unloading images

`PE_handle_image` and `__unload_pe_file` (`pe_loader.c`) as calls on one firmware: its page allocator
and its handle database are parameters that carry their contracts, so the answers that a load gets
from them follow from what was called before. An interface is a pointer together with what it points
to, which nobody changes once it is installed. The firmware may refuse to open or uninstall a
protocol that someone else uses; that is an answer the caller of the unload has no part in.
-/

namespace ZLoader

/-- The header of the node that `create_memory_mapped_device_path` builds. -/
def memmapNode : DevicePathNode := ⟨hardwareDevicePath, hwMemmapDp, 24⟩

/-- The two protocols of an image handle. -/
inductive ImageProtocol where
  | loadedImage
  | loadedImageDevicePath
deriving DecidableEq, Repr

/-- What is installed on an image handle: a pointer, and for a device path its first node. -/
inductive ImageInterface where
  | loadedImage (address : UInt64)
  | devicePath (address : UInt64) (hdr : DevicePathNode) (path : MemoryDevicePath)
deriving DecidableEq, Repr

/-- The memory-mapped node that an interface starts with. The loaded image protocol starts with its
revision, which is no such node. -/
def ImageInterface.memmapPath : ImageInterface → Option MemoryDevicePath
  | .devicePath _ hdr path =>
      if isDevicePathNode hdr hardwareDevicePath hwMemmapDp then some path else none
  | .loadedImage _ => none

/-- Physical addresses have at most 52 bits, so page frames have numbers of 40 bits. -/
def frameLimit : ℕ := 2 ^ 40

abbrev FirmwarePages (S : Type) := PageAllocator S EfiFailure frameLimit

abbrev FirmwareHandles (D : Type) :=
  HandleDatabase D Handle ImageProtocol ImageInterface EfiFailure

/-- The state of the firmware, with the protocols that the loader holds open exclusively. -/
structure FirmwareState (S D : Type) where
  pages : S
  handles : D
  opened : List (Handle × ImageProtocol)

section Calls

variable {S D : Type} (allocator : FirmwarePages S) (database : FirmwareHandles D)

/-- The address of a frame. -/
def frameAddress (frame : ℕ) : UInt64 := UInt64.ofNat (frame * 4096)

/-- `BS->free_pages`. The address has to be that of a page. -/
def freePages (address pages : UInt64) (st : S) : S :=
  if address.toNat % 4096 = 0 then
    match allocator.free st (address.toNat / 4096) pages.toNat with
    | .ok next => next
    | .error _ => st
  else st

/-- The arguments of a `free_pages` call. -/
def Event.freedPages? : Event → Option (UInt64 × UInt64)
  | .freePages address pages => some (address, pages)
  | _ => none

/-- What a call comes to: an image with the pages allocated for it, no image, or the status of an
unload with the arguments of its `free_pages` call. -/
inductive ImageReply where
  | loaded (image : Handle) (raw pages : UInt64)
  | notLoaded (outcome : LoadOutcome)
  | unloaded (status : EfiStatus) (released : Option (UInt64 × UInt64))
deriving DecidableEq, Repr

section Load

/-- The context that a call allocates pages for. -/
def loadContext (build : Build) (imageData : SimpleBuffer) (memory : Memory) :
    Option PeLoaderCtx :=
  if imageData.buffer == 0 then none
  else
    match (readHeaders build imageData memory.file).1 with
    | .ok ctx => some ctx
    | .error _ | .assertionFailed _ => none

/-- The number of pages asked for. -/
def requestedPages (ctx : PeLoaderCtx) : UInt64 :=
  alignValue (ctx.sizeOfImage + ctx.sectionAlignment.toUInt64) ctx.sectionAlignment.toUInt64 /
    pageSize

/-- The answers of the pool to one load. -/
structure PoolAnswers where
  devicePath : Option UInt64
  loadedImage : Option UInt64
deriving DecidableEq, Repr

/-- The interfaces of a load with the given answers. -/
def imageInterfaces (services : Services) (ctx : PeLoaderCtx) :
    List (ImageProtocol × ImageInterface) :=
  let data := destination services ctx
  [(.loadedImage, .loadedImage (services.mallocLoadedImage.getD 0)),
    (.loadedImageDevicePath, .devicePath (services.mallocDevicePath.getD 0) memmapNode
      (createMemoryMappedDevicePath data.raw (data.pages * pageSize)))]

/-- The status word and the handle that an installation returns. -/
def installStatus : Except EfiFailure (Handle × D) → EfiStatus × UInt64
  | .ok (handle, _) => (efiSuccess, handle.val)
  | .error failure => (failure.val, 0)

/-- The pages after the releases of a trace. -/
def releasePages (trace : List Event) (st : S) : S :=
  (trace.filterMap Event.freedPages?).foldl
    (fun st released => freePages allocator released.1 released.2 st) st

/-- A load on accepted headers. -/
def loadCall (build : Build) (imageData : SimpleBuffer) (memory : Memory) (pool : PoolAnswers)
    (ctx : PeLoaderCtx) (st : FirmwareState S D) : ImageReply × FirmwareState S D :=
  let granted := (allocator.allocate st.pages (requestedPages ctx).toNat).toOption
  let services : Services :=
    ⟨granted.map fun run => frameAddress run.1, pool.devicePath, pool.loadedImage, efiSuccess, 0⟩
  -- what the firmware answers if the load gets as far as the installation
  let installed := database.install st.handles none (imageInterfaces services ctx)
  let services :=
    { services with install := (installStatus installed).1, handle := (installStatus installed).2 }
  let result := peHandleImage build services imageData memory
  let pages := releasePages allocator result.state.trace (granted.elim st.pages fun run => run.2)
  match result.outcome, installed with
  | .ok, .ok (handle, handles) =>
      (.loaded handle (destination services ctx).raw (destination services ctx).pages,
        { st with pages := pages, handles := handles })
  | outcome, _ => (.notLoaded outcome, { st with pages := pages })

/-- The answers to a load that asks for nothing. -/
def noAnswers : Services := ⟨none, none, none, efiSuccess, 0⟩

/-- `PE_handle_image` as a call on the firmware. -/
def handleImageCall (build : Build) (imageData : SimpleBuffer) (memory : Memory)
    (pool : PoolAnswers) (st : FirmwareState S D) : ImageReply × FirmwareState S D :=
  match loadContext build imageData memory with
  | none => (.notLoaded (peHandleImage build noAnswers imageData memory).outcome, st)
  | some ctx => loadCall allocator database build imageData memory pool ctx st

end Load

section Unload

/-- Where the firmware refuses an unload because of others: each call may be. -/
structure UnloadRefusals where
  openDevicePath : Option EfiFailure
  openLoadedImage : Option EfiFailure
  uninstall : Option EfiFailure

/-- `BS->open_protocol` with `EFI_OPEN_PROTOCOL_EXCLUSIVE`. -/
def openProtocol (image : Handle) (protocol : ImageProtocol) (refusal : Option EfiFailure)
    (st : FirmwareState S D) : Option (ImageInterface × FirmwareState S D) :=
  if refusal.isSome || (image, protocol) ∈ st.opened then none
  else
    (database.lookup st.handles image protocol).map fun interface =>
      (interface, { st with opened := (image, protocol) :: st.opened })

/-- `BS->close_protocol`. -/
def closeProtocol (image : Handle) (protocol : ImageProtocol) (st : FirmwareState S D) :
    FirmwareState S D :=
  { st with opened := st.opened.erase (image, protocol) }

/-- `BS->uninstall_multiple_protocol_interfaces`. -/
def uninstallInterfaces (image : Handle) (interfaces : List (ImageProtocol × ImageInterface))
    (refusal : Option EfiFailure) (handles : D) : Except EfiFailure D :=
  match refusal with
  | some failure => .error failure
  | none => database.uninstall handles image interfaces

/-- `__unload_pe_file`. What `free_pages` returns is not looked at. -/
def unloadPeFile (image : Handle) (refusals : UnloadRefusals) (st : FirmwareState S D) :
    ImageReply × FirmwareState S D :=
  match openProtocol database image .loadedImageDevicePath refusals.openDevicePath st with
  | none => (.unloaded efiUnsupported none, st)
  | some (dp, st) =>
      match dp.memmapPath with
      | none => (.unloaded efiUnsupported none, closeProtocol image .loadedImageDevicePath st)
      | some path =>
          let pages := (path.start - path.last) / pageSize
          let st := { st with pages := freePages allocator path.start pages st.pages }
          match openProtocol database image .loadedImage refusals.openLoadedImage st with
          | none =>
              (.unloaded efiUnsupported (some (path.start, pages)),
                closeProtocol image .loadedImageDevicePath st)
          | some (lp, st) =>
              let st := closeProtocol image .loadedImageDevicePath
                (closeProtocol image .loadedImage st)
              match uninstallInterfaces database image
                  [(.loadedImage, lp), (.loadedImageDevicePath, dp)] refusals.uninstall
                  st.handles with
              | .ok handles =>
                  (.unloaded efiSuccess (some (path.start, pages)), { st with handles := handles })
              | .error failure => (.unloaded failure.val (some (path.start, pages)), st)

end Unload

/-- A call on the image loader. -/
inductive ImageCall where
  | load (imageData : SimpleBuffer) (memory : Memory) (pool : PoolAnswers)
  | unload (image : Handle) (refusals : UnloadRefusals)

/-- One call: what it returns and what it leaves. -/
def ImageCall.serve (build : Build) : ImageCall → FirmwareState S D →
    ImageReply × FirmwareState S D
  | .load imageData memory pool => handleImageCall allocator database build imageData memory pool
  | .unload image refusals => unloadPeFile allocator database image refusals

end Calls

end ZLoader
