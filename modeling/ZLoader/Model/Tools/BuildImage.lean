import ZLoader.Foundation.Alignment
import ZLoader.Foundation.ByteList
import ZLoader.Model.Efi.Pe
import ZLoader.Model.Util.Buffer

/-! # The image builder

`tools/build_image.c`, with its assertions compiled out: the stub is copied to the output file, the
file is mapped, its headers are changed in place, and every input file becomes a section behind the
last one. The command line has been parsed and the files could be opened; their contents do not
change meanwhile, and the output file is none of them. Headers and section data share the mapped
bytes, so what is read back from a header is read from the memory as it is by then.
-/

namespace ZLoader

/-- A file: its size and its bytes, of which none behind the size is ever read. -/
structure InputFile where
  size : UInt64
  bytes : ByteStore

/-- How the program ends early: with a message on standard error and exit status 1, or in an access
outside of the mapping. -/
inductive BuildExit where
  | message (text : String)
  | fault
deriving DecidableEq, Repr

/-- `ALIGN_VALUE(v, a)` on 32-bit fields. -/
def alignValue32 (v a : UInt32) : UInt32 := v + ((a - v) &&& (a - 1))

theorem alignValue32_toNat (v a : UInt32) (positive : 0 < a.toNat) :
    (alignValue32 v a).toNat = (v.toNat + maskPadding 32 a.toNat v.toNat) % 2 ^ 32 := by
  have word := a.toNat_lt
  have one : (1 : UInt32).toNat = 1 := rfl
  have below : (a - 1).toNat = a.toNat - 1 := by
    rw [UInt32.toNat_sub, one]
    omega
  have distance : (a - v).toNat = (a.toNat + (2 ^ 32 - v.toNat)) % 2 ^ 32 := by
    rw [UInt32.toNat_sub]
    congr 1
    omega
  rw [alignValue32, UInt32.toNat_add, UInt32.toNat_and, below, distance]
  rfl

/-- `PE_HEADER_SIZE`. -/
def peHeaderSize : ℕ := 4098

/-- What `inspect_pe` stores through its pointers. -/
structure PeInspection where
  fileAlignment : UInt32
  sectionAlignment : UInt32
  imageSize : UInt32
  architecture : UInt16
deriving DecidableEq, Repr

/-- `inspect_pe`; `none` is `false`. -/
def inspectPe (file : InputFile) : Option PeInspection :=
  if file.size.toNat < peHeaderSize then none
  else if file.bytes.u16 0 != mzDosSignature then none
  else
    let offset := (file.bytes.u32 dosPeOffsetLocation).toNat
    if offset + sizeofPeImageHeaders > peHeaderSize then none
    else if file.bytes.u32 offset != peHeaderSignature then none
    else if PeImageHeaders.magic file.bytes offset != peHeaderOptionalHdr32Magic
        && PeImageHeaders.magic file.bytes offset != peHeaderOptionalHdr64Magic then none
    else
      some
        { fileAlignment := PeImageHeaders.fileAlignment file.bytes offset
          sectionAlignment := PeImageHeaders.sectionAlignment file.bytes offset
          imageSize := PeImageHeaders.sizeOfImage file.bytes offset
          architecture := PeImageHeaders.machine file.bytes offset }

/-- `enum section_data_id`. -/
inductive SectionDataId where
  | osrel
  | cmdline
  | dt
  | splash
  | linux
  | initrd
deriving DecidableEq, Repr

/-- The entries of `section_data` in their order. -/
def sectionDataIds : List SectionDataId := [.osrel, .cmdline, .dt, .splash, .linux, .initrd]

/-- The names of the entries: ".osrel", ".cmdline", ".dtb", ".splash", ".linux", ".initrd". -/
def SectionDataId.name : SectionDataId → List UInt8
  | .osrel => [0x2e, 0x6f, 0x73, 0x72, 0x65, 0x6c]
  | .cmdline => [0x2e, 0x63, 0x6d, 0x64, 0x6c, 0x69, 0x6e, 0x65]
  | .dt => [0x2e, 0x64, 0x74, 0x62]
  | .splash => [0x2e, 0x73, 0x70, 0x6c, 0x61, 0x73, 0x68]
  | .linux => [0x2e, 0x6c, 0x69, 0x6e, 0x75, 0x78]
  | .initrd => [0x2e, 0x69, 0x6e, 0x69, 0x74, 0x72, 0x64]

def peSectionCntInitializedData : UInt32 := 0x00000040
def peSectionMemRead : UInt32 := 0x40000000

/-- An opened entry, `struct section_vma` with the file behind its descriptor. -/
structure SectionVma where
  name : List UInt8
  targetVma : UInt32
  virtualSize : UInt32
  rawSize : UInt32
  flags : UInt32
  file : InputFile

/-- The files of a call, what the output file holds before (`--force`), and the version to set. -/
structure BuildInput where
  stub : InputFile
  osrel : InputFile
  cmdline : Option InputFile
  dtb : Option InputFile
  linux : InputFile
  initrd : Option InputFile
  outfile : InputFile
  efiVersion : Option (UInt16 × UInt16)

/-- The file of an entry; no option sets a splash file. -/
def BuildInput.file (input : BuildInput) : SectionDataId → Option InputFile
  | .osrel => some input.osrel
  | .cmdline => input.cmdline
  | .dt => input.dtb
  | .splash => none
  | .linux => some input.linux
  | .initrd => input.initrd

/-- An entry for a file, and the section alignment after it: only a kernel that is a PE file itself
changes it. -/
def sectionVma (architecture : UInt16) (id : SectionDataId) (file : InputFile)
    (sectionAlignment : UInt32) : Except BuildExit (SectionVma × UInt32) :=
  let plain : SectionVma :=
    { name := id.name
      targetVma := 0
      virtualSize := file.size.toUInt32
      rawSize := file.size.toUInt32
      flags := peSectionCntInitializedData ||| peSectionMemRead
      file := file }
  match if id = .linux then inspectPe file else none with
  | none => .ok (plain, sectionAlignment)
  | some kernel =>
      let sectionAlignment :=
        if sectionAlignment > kernel.sectionAlignment then sectionAlignment
        else kernel.sectionAlignment
      if kernel.architecture != architecture then
        .error (.message "Linux '%s' and stub '%s' have different architectures\n")
      else
        .ok ({ plain with virtualSize := alignValue32 kernel.imageSize sectionAlignment },
          sectionAlignment)

/-- What the loop that opens the files leaves behind. -/
structure OpenedSections where
  sections : List SectionVma
  sectionAlignment : UInt32
  filesize : UInt64

/-- The loop over `section_data` that opens the files and adds up the size of the mapping. -/
def openSections (input : BuildInput) (architecture : UInt16) (fileAlignment : UInt32) :
    List SectionDataId → UInt32 → UInt64 → Except BuildExit OpenedSections
  | [], sectionAlignment, filesize => .ok ⟨[], sectionAlignment, filesize⟩
  | id :: ids, sectionAlignment, filesize =>
      match input.file id with
      | none => openSections input architecture fileAlignment ids sectionAlignment filesize
      | some file =>
          (sectionVma architecture id file sectionAlignment).bind fun opened =>
            (openSections input architecture fileAlignment ids opened.2
              (filesize + alignValue file.size fileAlignment.toUInt64)).map fun rest =>
                { rest with sections := opened.1 :: rest.sections }

/-- The most bytes that one `read` or `sendfile` transfers. -/
def maxTransfer : ℕ := 0x7ffff000

/-- The mapped output file after `sendfile` and `ftruncate`: the stub, then what the file held
before, then zeros. -/
def mappedMemory (input : BuildInput) (filesize : UInt64) : ByteStore := fun index =>
  if filesize.toNat ≤ index then 0
  else if index < input.stub.size.toNat then input.stub.bytes index
  else if index < input.outfile.size.toNat then input.outfile.bytes index
  else 0

/-- The accessible bytes of a mapping: whole pages. -/
def mappedLimit (filesize : UInt64) : ℕ := roundUp pageSize.toNat filesize.toNat

/-- The checks on the mapped stub; the text of the first that fails. -/
def checkStub (memory : ByteStore) (memSize : UInt64) : Option String :=
  let peOffset := memory.u32 dosPeOffsetLocation
  let pe := peOffset.toNat
  let characteristics := PeImageHeaders.characteristics memory pe
  if memory.u16 0 != mzDosSignature then some "missing MZ signature\n"
  else if memSize < 64 then some "file too small\n"
  else if memSize < (peOffset + 26).toUInt64 then some "file too small\n"
  else if memory.u32 pe != peHeaderSignature then some "missing PE signature\n"
  else if PeImageHeaders.numberOfSections memory pe > peHeaderMaxNumberOfSections then
    some "too many sections\n"
  else if characteristics &&& peHeaderRelocsStripped != 0 then
    some "file marked as stripped from relocation table\n"
  else if characteristics &&& (peHeaderBytesReversedLo ||| peHeaderBytesReversedHi) != 0 then
    some "file bit reversed\n"
  else if memSize < peOffset.toUInt64 + UInt64.ofNat sizeofPeCoffHeader
      + (PeImageHeaders.sizeOfOptionalHeader memory pe).toUInt64 then
    some "file to small\n"
  else if PeImageHeaders.magic memory pe != peHeaderOptionalHdr32Magic
      && PeImageHeaders.magic memory pe != peHeaderOptionalHdr64Magic then
    some "missing OPTHDR signature\n"
  else none

def peHeaderLineNumsStripped : UInt16 := 0x0004
def peHeaderLocalSymsStripped : UInt16 := 0x0008
def peHeaderDebugStripped : UInt16 := 0x0200

/-- The changes to the header fields before sections are added. -/
def fixupHeaders (memory : ByteStore) (pe : ℕ) (efiVersion : Option (UInt16 × UInt16))
    (fileAlignment sectionAlignment : UInt32) : ByteStore :=
  let memory := memory.writeLE (pe + 22) 2
    (PeImageHeaders.characteristics memory pe ||| (peHeaderLineNumsStripped
      ||| peHeaderLocalSymsStripped ||| peHeaderDebugStripped)).toNat
  let memory :=
    if PeImageHeaders.subsystem memory pe == peHeaderSubsystemEfiApplication then
      let memory :=
        match efiVersion with
        | none => memory
        | some (major, minor) =>
            -- subsystem_version, then operation_system_version
            (((memory.writeLE (pe + 72) 2 major.toNat).writeLE (pe + 74) 2 minor.toNat).writeLE
              (pe + 64) 2 major.toNat).writeLE (pe + 66) 2 minor.toNat
      memory.writeLE (pe + 94) 2 0
    else memory
  (memory.writeLE (pe + 60) 4 fileAlignment.toNat).writeLE (pe + 56) 4 sectionAlignment.toNat

/-- The section headers of a table. -/
def sectionHeaders (file : ByteStore) (offset count : ℕ) : List PeSectionHeader :=
  (List.range count).map fun index => .read file (offset + sizeofPeSectionHeader * index)

/-- `largest_raw_address` and `largest_vma`. -/
structure Largest where
  rawAddress : UInt64
  vma : UInt64
deriving DecidableEq, Repr

/-- One turn of the loop that finds the end of the last section; the sums are on 32 bits. -/
def Largest.extend (fileAlignment sectionAlignment : UInt32) (largest : Largest)
    (sec : PeSectionHeader) : Largest where
  rawAddress :=
    if largest.rawAddress < (sec.pointerToRawData + sec.sizeOfRawData).toUInt64 then
      (alignValue32 (sec.pointerToRawData + sec.sizeOfRawData) fileAlignment).toUInt64
    else largest.rawAddress
  vma :=
    if largest.vma < (sec.virtualAddress + sec.virtualSize).toUInt64 then
      (alignValue32 (sec.virtualAddress + sec.virtualSize) sectionAlignment).toUInt64
    else largest.vma

/-- The loop over the section table. -/
def largestEnds (fileAlignment sectionAlignment : UInt32) (sections : List PeSectionHeader) :
    Largest :=
  sections.foldl (Largest.extend fileAlignment sectionAlignment) ⟨0, 0⟩

/-- `strncpy` of a name over the zeroed name field. -/
def shortName (name : List UInt8) : List UInt8 :=
  (name ++ List.replicate peSectionSizeOfShortName 0).take peSectionSizeOfShortName

/-- The header that is written for an entry. -/
def SectionVma.header (vma : SectionVma) (fileAlignment : UInt32) (largest : Largest) :
    PeSectionHeader where
  name := shortName vma.name
  virtualSize := vma.virtualSize
  virtualAddress := if vma.targetVma == 0 then largest.vma.toUInt32 else vma.targetVma
  sizeOfRawData := alignValue32 vma.rawSize fileAlignment
  pointerToRawData := largest.rawAddress.toUInt32
  characteristics := vma.flags

/-- The bytes of `struct PE_section_header`; the relocation and line number fields are zero. -/
def PeSectionHeader.encode (sec : PeSectionHeader) : List UInt8 :=
  sec.name ++ leBytes 4 sec.virtualSize.toNat ++ leBytes 4 sec.virtualAddress.toNat
    ++ leBytes 4 sec.sizeOfRawData.toNat ++ leBytes 4 sec.pointerToRawData.toNat
    ++ List.replicate 12 0 ++ leBytes 4 sec.characteristics.toNat

/-- The variables of the loop that adds the sections, with the mapped bytes. -/
structure BuildState where
  memory : ByteStore
  sectionOffset : ℕ
  largest : Largest
  filesize : UInt64

/-- The writes for one section: its data, its header, and the totals in the image headers. -/
def SectionVma.store (vma : SectionVma) (pe : ℕ) (fileAlignment : UInt32) (st : BuildState) :
    ByteStore :=
  let memory := (Patch.copy st.largest.rawAddress.toNat vma.rawSize.toNat vma.file.bytes 0).apply
    st.memory
  let memory := (Patch.copy st.sectionOffset sizeofPeSectionHeader
    (.ofList (vma.header fileAlignment st.largest).encode fun _ => 0) 0).apply memory
  let memory := memory.addLE (pe + 32) 4 (memory.u32 (st.sectionOffset + 8)).toNat
  let memory := memory.addLE (pe + 80) 4 (memory.u32 (st.sectionOffset + 8)).toNat
  memory.addLE (pe + 6) 2 1

/-- One turn of the loop that adds the sections. A `read` that cannot store all bytes is short. -/
def appendSection (limit pe : ℕ) (fileAlignment sectionAlignment : UInt32) (vma : SectionVma)
    (st : BuildState) : Except BuildExit BuildState :=
  if ¬ (vma.rawSize.toNat ≤ maxTransfer ∧
      (Window.mk st.largest.rawAddress.toNat vma.rawSize.toNat).Within limit) then
    .error (.message "read: '%s': %m\n")
  else if ¬ (Window.mk st.sectionOffset sizeofPeSectionHeader).Within limit then .error .fault
  else
    let memory := vma.store pe fileAlignment st
    let sec := PeSectionHeader.read memory st.sectionOffset
    .ok
      { memory := memory
        sectionOffset := st.sectionOffset + sizeofPeSectionHeader
        largest :=
          { rawAddress := st.largest.rawAddress + sec.sizeOfRawData.toUInt64
            vma := (alignValue32 (sec.virtualAddress + sec.virtualSize)
              sectionAlignment).toUInt64 }
        filesize := st.filesize + sec.sizeOfRawData.toUInt64 }

/-- The loop that adds the sections. -/
def appendSections (limit pe : ℕ) (fileAlignment sectionAlignment : UInt32) :
    List SectionVma → BuildState → Except BuildExit BuildState
  | [], st => .ok st
  | vma :: rest, st =>
      (appendSection limit pe fileAlignment sectionAlignment vma st).bind
        (appendSections limit pe fileAlignment sectionAlignment rest)

/-- The last `ftruncate`: the file ends at `size`, and what was not mapped is zero. -/
def truncate (memory : ByteStore) (memSize size : UInt64) : InputFile :=
  ⟨size, fun index => if index < size.toNat ∧ index < memSize.toNat then memory index else 0⟩

/-- `main` from the mapping on. -/
def assemble (input : BuildInput) (fileAlignment : UInt32) (opened : OpenedSections) :
    Except BuildExit InputFile :=
  let memory := mappedMemory input opened.filesize
  match checkStub memory opened.filesize with
  | some text => .error (.message text)
  | none =>
      let limit := mappedLimit opened.filesize
      let pe := (memory.u32 dosPeOffsetLocation).toNat
      let memory := fixupHeaders memory pe input.efiVersion fileAlignment opened.sectionAlignment
      let sectionOffset := pe + sizeofPeCoffHeader
        + (PeImageHeaders.sizeOfOptionalHeader memory pe).toNat
      let count := (PeImageHeaders.numberOfSections memory pe).toNat
      if ¬ (Window.mk sectionOffset (sizeofPeSectionHeader * count)).Within limit then
        .error .fault
      else
        (appendSections limit pe fileAlignment opened.sectionAlignment opened.sections
          { memory := memory
            sectionOffset := sectionOffset + sizeofPeSectionHeader * count
            largest := largestEnds fileAlignment opened.sectionAlignment
              (sectionHeaders memory sectionOffset count)
            filesize := input.stub.size }).map fun st =>
              truncate st.memory opened.filesize st.filesize

/-- The alignments the stub's header asks for, or their defaults. -/
def defaultAlignment (value default : UInt32) : UInt32 := if value == 0 then default else value

/-- `main`: the output file. -/
def buildImage (input : BuildInput) : Except BuildExit InputFile :=
  match inspectPe input.stub with
  | none => .error (.message "Invalid PE '%s'\n")
  | some stub =>
      let sectionAlignment := defaultAlignment stub.sectionAlignment 0x1000
      let fileAlignment := defaultAlignment stub.fileAlignment 0x200
      (openSections input stub.architecture fileAlignment sectionDataIds sectionAlignment
        input.stub.size).bind fun opened =>
          if input.stub.size.toNat > maxTransfer then
            .error (.message "sendfile: Data remaining: %zd != %zu\n")
          else assemble input fileAlignment opened

end ZLoader
