import ZLoader.Model.Lib.Print
import ZLoader.Model.Loader.Headers

/-! # Loading the sections

`relocate_sections` (`pe_loader.c`). One turn of its loop checks a section header and, when the
section is to be loaded, writes it into the image; a turn that returns an error has written nothing.
`checkSection` is the checking half, in the order of the source, and `loadSection` the writing half.
Of the messages only the one that every build prints is modelled, with what it reads of the file;
`_MESSAGE` is empty unless `LOADER_PRINT_MESSAGES` is on.
-/

namespace ZLoader

/-- The literal ".reloc". -/
def relocName : List UInt8 := [0x2e, 0x72, 0x65, 0x6c, 0x6f, 0x63]

/-- `strncmp(sec->name, ".reloc", PE_SECTION_SIZE_OF_SHORT_NAME) == 0`. -/
def PeSectionHeader.isReloc (sec : PeSectionHeader) : Bool :=
  strncmp (fun index => sec.name.getD index 0) (cString relocName) peSectionSizeOfShortName == 0

/-- `base` of a section: its first byte in the image, or NULL. -/
def sectionBase (buffer : UInt64) (ctx : PeLoaderCtx) (sec : PeSectionHeader) : UInt64 :=
  imageAddress buffer ctx.sizeOfImage sec.virtualAddress.toUInt64

/-- `end` of a section: its last byte in the image, or NULL; the sum is on 32 bits. -/
def sectionEnd (buffer : UInt64) (ctx : PeLoaderCtx) (sec : PeSectionHeader) : UInt64 :=
  imageAddress buffer ctx.sizeOfImage (sec.virtualAddress + sec.virtualSize - 1).toUInt64

/-- `relocation_base`. -/
def relocationBase (buffer : UInt64) (ctx : PeLoaderCtx) (directory : PeDataDirectory) : UInt64 :=
  imageAddress buffer ctx.sizeOfImage directory.virtualAddress.toUInt64

/-- `relocation_end`; the sum is on 32 bits. -/
def relocationEnd (buffer : UInt64) (ctx : PeLoaderCtx) (directory : PeDataDirectory) : UInt64 :=
  imageAddress buffer ctx.sizeOfImage (directory.virtualAddress + directory.size + 1).toUInt64

/-- The section is the one the relocation directory describes. -/
def isRelocationSection (buffer : UInt64) (ctx : PeLoaderCtx) (directory : PeDataDirectory)
    (sec : PeSectionHeader) : Bool :=
  sec.sizeOfRawData != 0 && sec.virtualSize != 0
    && sectionBase buffer ctx sec != 0 && sectionEnd buffer ctx sec != 0
    && relocationBase buffer ctx directory == sectionBase buffer ctx sec
    && relocationEnd buffer ctx directory == sectionEnd buffer ctx sec

/-- The handling of `.reloc`: the new value of `*reloc_section`, or the error for a second one. -/
def selectReloc (buffer : UInt64) (ctx : PeLoaderCtx) (directory : PeDataDirectory)
    (relocSection : Option ℕ) (offset : ℕ) (sec : PeSectionHeader) :
    Except EfiStatus (Option ℕ) :=
  if sec.isReloc then
    if relocSection.isSome then .error efiUnsupported
    else if isRelocationSection buffer ctx directory sec then .ok (some offset)
    else .ok relocSection
  else .ok relocSection

/-- What a turn of the loop does unless it returns at once. -/
inductive SectionVerdict where
  | skip (relocSection : Option ℕ)
  | load (relocSection : Option ℕ)
  | illegalVma
deriving DecidableEq, Repr

/-- The checks on one section header at `offset` of the file. -/
def checkSection (buffer : UInt64) (ctx : PeLoaderCtx) (directory : PeDataDirectory)
    (relocSection : Option ℕ) (offset : ℕ) (sec : PeSectionHeader) :
    Except EfiStatus SectionVerdict :=
  if sec.discardable && sec.virtualSize == 0 then .ok (.skip relocSection)
  else if sectionEnd buffer ctx sec < sectionBase buffer ctx sec then .error efiLoadError
  else
    match selectReloc buffer ctx directory relocSection offset sec with
    | .error status => .error status
    | .ok relocSection =>
        if sec.discardable then .ok (.skip relocSection)
        else if sectionBase buffer ctx sec == 0 || sectionEnd buffer ctx sec == 0 then
          .ok .illegalVma
        else if !sec.uninitializedData && sec.pointerToRawData.toUInt64 < ctx.sizeOfHeaders then
          .error efiLoadError
        else .ok (.load relocSection)

/-- `base == ctx->base + sec->pointer_to_raw_data`: nothing is copied. -/
def inPlace (buffer : UInt64) (ctx : PeLoaderCtx) (sec : PeSectionHeader) : Bool :=
  sectionBase buffer ctx sec == ctx.base + sec.pointerToRawData.toUInt64

/-- The writes of one loaded section. -/
def loadSection (buffer : UInt64) (ctx : PeLoaderCtx) (sec : PeSectionHeader)
    (st : LoaderState) : LoaderState :=
  let base := (sectionBase buffer ctx sec - buffer).toNat
  if sec.uninitializedData then st.fillImage base sec.virtualSize.toNat 0
  else
    let st :=
      if !inPlace buffer ctx sec && sec.sizeOfRawData > 0 then
        st.copyToImage base sec.sizeOfRawData.toNat sec.pointerToRawData.toNat
      else st
    if sec.sizeOfRawData < sec.virtualSize then
      st.fillImage (base + sec.sizeOfRawData.toNat) (sec.virtualSize - sec.sizeOfRawData).toNat 0
    else st

/-- The format that `_ERROR` makes of a message. -/
def errorFormat (msg : String) : Terminated UInt16 :=
  ⟨("ERR: %E".toList ++ msg.toList ++ "%N\n".toList).map wide, fun _ => 0⟩

/-- `_ERROR("Section %*s has illegal VMA", ...)`. -/
def illegalVmaFormat : Text := .unicode (errorFormat "Section %*s has illegal VMA")

/-- `PE_SECTION_SIZE_OF_SHORT_NAME, sec->name`, for a name that has a terminator. -/
def illegalVmaArguments (name : Terminated UInt8) : ℕ → Argument :=
  argumentList [.ofWord (.ofNat peSectionSizeOfShortName),
    { Argument.ofWord 0 with narrowString := some name }]

/-- What the message does to the file: the star is the width, so the name is read up to its
terminator, wherever that is. -/
def printIllegalVma (file : ByteStore) (offset : ℕ) : StringWalk :=
  printString fun index => file (offset + index)

/-- The bytes of the file that the message reads. -/
def nameReads (walk : StringWalk) (offset : ℕ) : List Event :=
  walk.reads.map fun index => .readFile ⟨offset + index, 1⟩

/-- What `relocate_sections` leaves behind: its status, none when it does not return,
`*reloc_section`, whether a section was found to contain the entry point, and the state. -/
structure SectionsResult where
  status : Option EfiStatus
  relocSection : Option ℕ
  foundEntryPoint : Bool
  state : LoaderState

/-- `relocate_sections` returned an error. -/
def SectionsResult.fails (result : SectionsResult) : Bool := result.status.any efiError

/-- It returned none. -/
def SectionsResult.succeeds (result : SectionsResult) : Bool :=
  result.status.any fun status => !efiError status

/-- The entry point test at the end of a turn, with its own bounds. -/
def containsEntryPoint (ctx : PeLoaderCtx) (sec : PeSectionHeader) : Bool :=
  sec.virtualAddress.toUInt64 < ctx.entryPoint
    && ctx.entryPoint < (sec.virtualAddress + sec.virtualSize).toUInt64

/-- The loop: `count` headers remain, the next one is at `offset`. -/
def relocateSectionsLoop (buffer : UInt64) (ctx : PeLoaderCtx) (directory : PeDataDirectory) :
    ℕ → ℕ → Option ℕ → Bool → LoaderState → SectionsResult
  | 0, _, relocSection, found, st => ⟨some efiSuccess, relocSection, found, st⟩
  | count + 1, offset, relocSection, found, st =>
      let sec := PeSectionHeader.read st.memory.file offset
      let st := st.log (.readFile ⟨offset, sizeofPeSectionHeader⟩)
      match checkSection buffer ctx directory relocSection offset sec with
      | .error status => ⟨some status, relocSection, found, st⟩
      | .ok .illegalVma =>
          let walk := printIllegalVma st.memory.file offset
          ⟨if walk.ends then some efiLoadError else none, relocSection, found,
            { st with trace := st.trace ++ nameReads walk offset }⟩
      | .ok (.skip relocSection) =>
          relocateSectionsLoop buffer ctx directory count (offset + sizeofPeSectionHeader)
            relocSection found st
      | .ok (.load relocSection) =>
          relocateSectionsLoop buffer ctx directory count (offset + sizeofPeSectionHeader)
            relocSection (found || containsEntryPoint ctx sec) (loadSection buffer ctx sec st)

/-- `relocate_sections`. -/
def relocateSections (buffer : UInt64) (ctx : PeLoaderCtx) (st : LoaderState) : SectionsResult :=
  relocateSectionsLoop buffer ctx (.read st.memory.file ctx.relocDirectory)
    ctx.numberOfSections.toNat ctx.firstSection none false st

end ZLoader
