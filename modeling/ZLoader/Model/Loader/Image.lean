import ZLoader.Model.Loader.Sections
import ZLoader.Model.Loader.Fixup

/-! # Loading an image

`PE_handle_image` (`pe_loader.c`) with `create_memory_mapped_device_path` (`util.c`). The outcome of
`allocate_aligned_buffer_ext` is not looked at, as in the source. `data` is released on every
return except the last one, by the cleanup of its scope.
-/

namespace ZLoader

/-- The memory-mapped device path node of a loaded image. -/
structure MemoryDevicePath where
  start : UInt64
  last : UInt64
deriving DecidableEq, Repr

/-- `create_memory_mapped_device_path`. -/
def createMemoryMappedDevicePath (address size : UInt64) : MemoryDevicePath :=
  ⟨address, address + size⟩

/-- The fields of the loaded image protocol that are filled in or used later. -/
structure LoadedImage where
  imageBase : UInt64
  imageSize : UInt64
  filePath : MemoryDevicePath
  loadOptions : UInt64
  loadOptionsSize : UInt32
deriving DecidableEq, Repr

/-- How a load ends: with success or an EFI error, in a failed assertion, or never, in the loop that
prints a message. -/
inductive LoadOutcome where
  | ok
  | error (status : EfiStatus)
  | assertionFailed (assertion : Assertion)
  | printing
deriving DecidableEq, Repr

structure HandleImageResult where
  outcome : LoadOutcome
  entryPoint : UInt64
  loadedImage : Option LoadedImage
  state : LoaderState

/-- `free_buffer` on the scope's aligned buffer. -/
def freeAligned (data : AlignedBuffer) (st : LoaderState) : LoaderState :=
  if data.buffer != 0 && data.pages != 0 && data.raw != 0 then
    st.log (.freePages data.raw data.pages)
  else st

/-- An early return with an EFI error once `data` is in scope. -/
def failImage (data : AlignedBuffer) (entryPoint : UInt64) (status : EfiStatus)
    (st : LoaderState) : HandleImageResult :=
  ⟨.error status, entryPoint, none, freeAligned data st⟩

/-- Header copy: the destination holds the first `size_of_headers` bytes of the file. -/
def copyHeaders (ctx : PeLoaderCtx) (st : LoaderState) : LoaderState :=
  st.copyToImage 0 ctx.sizeOfHeaders.toNat 0

/-- The sections are loaded: the data directory reaches as far as the base relocations, and the
assertion on the destination does not end the program. -/
def reachesSections (build : Build) (buffer : UInt64) (ctx : PeLoaderCtx) : Bool :=
  ctx.numberOfRvaAndSizes > 5 && (build.ndebug || buffer != 0)

/-- The block after the entry point check: sections, then base relocations. -/
def relocateImage (build : Build) (buffer : UInt64) (ctx : PeLoaderCtx) (st : LoaderState) :
    LoadOutcome × LoaderState :=
  if !(ctx.numberOfRvaAndSizes > 5) then (.ok, st)
  else if !(build.ndebug || buffer != 0) then (.assertionFailed .other, st)
  else
    let sections := relocateSections buffer ctx st
    match sections.status with
    | none => (.printing, sections.state)
    | some status =>
        if efiError status then (.error efiLoadError, sections.state)
        else
          match sections.relocSection with
          | none => (.ok, sections.state)
          | some offset =>
              let st := sections.state
              if (PeDataDirectory.read st.memory.file ctx.relocDirectory).size == 0 then (.ok, st)
              else
                let sec := PeSectionHeader.read st.memory.file offset
                let (status, st) := relocationFixup buffer ctx sec st
                if efiError status then (.error status, st) else (.ok, st)

/-- The tail: device path, loaded image protocol and handle. -/
def installImage (services : Services) (ctx : PeLoaderCtx) (data : AlignedBuffer)
    (entryPoint : UInt64) (st : LoaderState) : HandleImageResult :=
  match services.mallocDevicePath with
  | none => failImage data entryPoint efiOutOfResources st
  | some dp =>
      let path := createMemoryMappedDevicePath data.raw (data.pages * pageSize)
      let st := st.log (.allocatePool dp)
      match services.mallocLoadedImage with
      | none => failImage data entryPoint efiOutOfResources (st.log (.freePool dp))
      | some lp =>
          let st := st.log (.allocatePool lp)
          if efiError services.install then
            failImage data entryPoint services.install
              ((st.log (.freePool dp)).log (.freePool lp))
          else
            { outcome := .ok
              entryPoint := entryPoint
              loadedImage := some ⟨data.buffer, ctx.sizeOfImage, path, 0, 0⟩
              state := st.log (.installProtocols services.handle lp dp) }

/-- The pages the image is loaded into. -/
def destination (services : Services) (ctx : PeLoaderCtx) : AlignedBuffer :=
  allocateAlignedBufferExt services.allocatePages ctx.sizeOfImage ctx.sectionAlignment.toUInt64

/-- The allocation and the header copy. -/
def headersCopied (services : Services) (ctx : PeLoaderCtx) (st : LoaderState) : LoaderState :=
  let data := destination services ctx
  copyHeaders ctx
    (if services.allocatePages.isSome then st.log (.allocatePages data.raw data.pages) else st)

/-- The part of `PE_handle_image` after the headers have been read. -/
def loadImage (build : Build) (services : Services) (ctx : PeLoaderCtx) (st : LoaderState) :
    HandleImageResult :=
  let data := destination services ctx
  let st := headersCopied services ctx st
  let entryPoint := imageAddress data.buffer ctx.sizeOfImage ctx.entryPoint
  if entryPoint == 0 then failImage data entryPoint efiLoadError st
  else
    match relocateImage build data.buffer ctx st with
    | (.ok, st) => installImage services ctx data entryPoint st
    | (.error status, st) => failImage data entryPoint status st
    | (.assertionFailed assertion, st) => ⟨.assertionFailed assertion, entryPoint, none, st⟩
    | (.printing, st) => ⟨.printing, entryPoint, none, st⟩

/-- `PE_handle_image` on non-NULL arguments. -/
def peHandleImage (build : Build) (services : Services) (imageData : SimpleBuffer)
    (memory : Memory) : HandleImageResult :=
  let st := LoaderState.start memory
  if imageData.buffer == 0 then ⟨.error efiInvalidParameter, 0, none, st⟩
  else
    match bufferLen build imageData with
    | .error status => ⟨.error status, 0, none, st⟩
    | .assertionFailed assertion => ⟨.assertionFailed assertion, 0, none, st⟩
    | .ok length =>
        if length == 0 then ⟨.error efiInvalidParameter, 0, none, st⟩
        else
          let (headers, reads) := readHeaders build imageData memory.file
          let st := { st with trace := reads }
          match headers with
          | .error status => ⟨.error status, 0, none, st⟩
          | .assertionFailed assertion => ⟨.assertionFailed assertion, 0, none, st⟩
          | .ok ctx => loadImage build services ctx st

end ZLoader
