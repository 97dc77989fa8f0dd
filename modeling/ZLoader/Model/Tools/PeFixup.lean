import ZLoader.Foundation.MappedAccess
import ZLoader.Model.Tools.BuildImage

/-! # The header patcher

`tools/pe_fixup.c`: the file is mapped, its headers are checked and changed in place, and the size
of the image is computed from the section table. Every change of the mapping is a change of the file.
The arguments are given as `getopt_long` hands them over, and the system by whether its calls succeed.
An access of a field that has been accessed before is not listed again.
-/

namespace ZLoader

/-! ## The arguments -/

/-- What `getopt_long` finds. -/
inductive FixupOption where
  | silent
  | file (name : List Char)
  | efiVersion (argument : List Char)
  | unknown
deriving DecidableEq, Repr

/-- The variables that the loop over the options sets. -/
structure FixupArguments where
  filename : Option (List Char)
  silent : Bool
  efiVersion : Option (UInt16 × UInt16)
deriving DecidableEq, Repr

/-- `isspace` in the C locale: blanks, and tabulator to carriage return. -/
def isSpace (c : Char) : Bool := c.toNat == 0x20 || (0x09 ≤ c.toNat && c.toNat ≤ 0x0d)

/-- The digits of a number, and what is behind them. -/
def scanDigits : ℕ → List Char → ℕ × List Char
  | value, [] => (value, [])
  | value, c :: rest =>
      if c.isDigit then scanDigits (value * 10 + (c.toNat - '0'.toNat)) rest else (value, c :: rest)

/-- `strtoul` of a sign and a number; a number that does not fit is `ULONG_MAX`, whatever its
sign. -/
def strtoul (negative : Bool) (value : ℕ) : UInt64 :=
  if 2 ^ 64 ≤ value then 0 - 1
  else if negative then 0 - UInt64.ofNat value
  else UInt64.ofNat value

/-- The conversion `%hu` of `sscanf`: blanks are skipped, and a sign and digits are read as
`strtoul` reads them and cut to 16 bits. -/
def scanShort (input : List Char) : Option (UInt16 × List Char) :=
  let input := input.dropWhile isSpace
  let (negative, digits) :=
    match input with
    | '-' :: rest => (true, rest)
    | '+' :: rest => (false, rest)
    | rest => (false, rest)
  match digits with
  | [] => none
  | c :: _ =>
      if !c.isDigit then none
      else
        let (value, rest) := scanDigits 0 digits
        some ((strtoul negative value).toUInt16, rest)

/-- `sscanf(optarg, "%hu.%hu", &major, &minor)`, when it converts both. -/
def scanVersion (input : List Char) : Option (UInt16 × UInt16) :=
  match scanShort input with
  | some (major, '.' :: rest) => (scanShort rest).map fun minor => (major, minor.1)
  | _ => none

example : scanVersion "\x0b1.\t10rc".toList = some (1, 10) := by decide

example : scanVersion "-1.-18446744073709551616".toList = some (65535, 65535) := by decide

/-- The loop over the options; an error is the text of its message. -/
def parseOptions : List FixupOption → FixupArguments → Except String FixupArguments
  | [], arguments => .ok arguments
  | .silent :: rest, arguments => parseOptions rest { arguments with silent := true }
  | .file name :: rest, arguments => parseOptions rest { arguments with filename := some name }
  | .efiVersion argument :: rest, arguments =>
      match scanVersion argument with
      | none => .error "Could not parse version\n"
      | some (major, minor) =>
          if minor > 99 then .error "Illegal EFI version\n"
          else parseOptions rest { arguments with efiVersion := some (major, minor) }
  | .unknown :: _, _ => .error ""

/-! ## The mapping -/

/-- How the program ends: with status 0, with a message and status 1, or by a signal. -/
inductive FixupExit where
  | completed
  | failed (text : String)
  | fault
deriving DecidableEq, Repr

abbrev FixupRun := AccessRun FixupExit

/-- Whether the file can be opened, its size be read and the file be mapped. -/
structure FixupSystem where
  openat : Bool
  statx : Bool
  mmap : Bool

/-- The mapped file: zeros fill its last page. -/
def InputFile.mapped (file : InputFile) : ByteStore := fun index =>
  if index < file.size.toNat then file.bytes index else 0

namespace PeImageHeaders

def dllCharacteristics (file : ByteStore) (pe : ℕ) : UInt16 := file.u16 (pe + 94)

end PeImageHeaders

/-- The section table. -/
def peTable (memory : ByteStore) (pe : ℕ) : ℕ :=
  pe + sizeofPeCoffHeader + (PeImageHeaders.sizeOfOptionalHeader memory pe).toNat

/-- The flags that are set: `PE_HEADER_LINE_NUMS_STRIPPED` and the other two. -/
def fixupFlags : UInt16 :=
  peHeaderLineNumsStripped ||| peHeaderLocalSymsStripped ||| peHeaderDebugStripped

/-! The changes of the header fields, in their order. -/

def patchCharacteristics (memory : ByteStore) (pe : ℕ) : ByteStore :=
  memory.writeLE (pe + 22) 2 (PeImageHeaders.characteristics memory pe ||| fixupFlags).toNat

/-- `PE_version16` at an offset. -/
def writeVersion (memory : ByteStore) (offset : ℕ) (version : UInt16 × UInt16) : ByteStore :=
  (memory.writeLE offset 2 version.1.toNat).writeLE (offset + 2) 2 version.2.toNat

def patchFileAlignment (memory : ByteStore) (pe : ℕ) : ByteStore :=
  if PeImageHeaders.fileAlignment memory pe == 0 then memory.writeLE (pe + 60) 4 0x200 else memory

def patchSectionAlignment (memory : ByteStore) (pe : ℕ) : ByteStore :=
  if PeImageHeaders.sectionAlignment memory pe == 0 then memory.writeLE (pe + 56) 4 0x1000
  else memory

/-- `largest_vma` after the loop: the end of a section counts when the section starts above it. -/
def largestVma (sections : List PeSectionHeader) : UInt64 :=
  sections.foldl (fun largest sec =>
    if largest < sec.virtualAddress.toUInt64 then (sec.virtualAddress + sec.virtualSize).toUInt64
    else largest) 0

/-- `ALIGN_VALUE(largest_vma, section_alignment)`: the mask is a 32-bit number. -/
def alignVma (largest : UInt64) (alignment : UInt32) : UInt64 :=
  largest + ((alignment.toUInt64 - largest) &&& (alignment - 1).toUInt64)

section Main

variable (limit : ℕ)

/-- The loop that finds the end of the image accesses the sizes of the sections that count only. -/
def vmaReads (memory : ByteStore) : ℕ → ℕ → UInt64 → List Window
  | 0, _, _ => []
  | count + 1, section_, largest =>
      let sec := PeSectionHeader.read memory section_
      ⟨section_ + 12, 4⟩ ::
        if largest < sec.virtualAddress.toUInt64 then
          ⟨section_ + 8, 4⟩ :: vmaReads memory count (section_ + sizeofPeSectionHeader)
            (sec.virtualAddress + sec.virtualSize).toUInt64
        else vmaReads memory count (section_ + sizeofPeSectionHeader) largest

/-- A name is printed up to its terminator, eight characters at most. -/
def nameWindow (memory : ByteStore) (section_ : ℕ) : Window :=
  ⟨section_, min peSectionSizeOfShortName
    (((PeSectionHeader.read memory section_).name.takeWhile (· != 0)).length + 1)⟩

/-- The fields of a section header that are printed. -/
def sectionPrints (memory : ByteStore) (section_ : ℕ) : List Window :=
  [nameWindow memory section_, ⟨section_ + 12, 4⟩, ⟨section_ + 8, 4⟩, ⟨section_ + 20, 4⟩,
    ⟨section_ + 24, 4⟩, ⟨section_ + 32, 2⟩, ⟨section_ + 36, 4⟩]

/-- The loop that looks for empty sections. -/
def checkSections (silent : Bool) (memory : ByteStore) : ℕ → ℕ → FixupRun → FixupRun
  | 0, _, rest => rest
  | count + 1, section_, rest =>
      .touch .fault limit memory ⟨section_ + 16, 4⟩ <|
        if (PeSectionHeader.read memory section_).sizeOfRawData == 0 then
          .touch .fault limit memory (nameWindow memory section_)
            ⟨.failed "section %.*s has size 0 and is and is empty", memory, []⟩
        else
          .touchAll .fault limit memory (if silent then [] else sectionPrints memory section_) <|
            checkSections silent memory count (section_ + sizeofPeSectionHeader) rest

/-- `main` from the section table on. -/
def fixupImageSize (silent : Bool) (pe : ℕ) (memory : ByteStore) : FixupRun :=
  let table := peTable memory pe
  let count := (PeImageHeaders.numberOfSections memory pe).toNat
  let largest := alignVma (largestVma (sectionHeaders memory table count))
    (PeImageHeaders.sectionAlignment memory pe)
  .touchAll .fault limit memory (vmaReads memory count table 0) <|
    checkSections limit silent memory count table <|
      .touch .fault limit memory ⟨pe + 80, 4⟩
        ⟨.completed, memory.writeLE (pe + 80) 4 largest.toUInt32.toNat, []⟩

/-- The fields of the headers that are printed. -/
def headerPrints (pe : ℕ) : List Window :=
  [⟨pe + 4, 2⟩, ⟨pe + 92, 2⟩, ⟨pe + 72, 4⟩, ⟨pe + 22, 2⟩, ⟨pe + 94, 2⟩, ⟨pe + 68, 4⟩]

/-- `main` from the alignments on. -/
def fixupAlignments (silent : Bool) (pe : ℕ) (memory : ByteStore) : FixupRun :=
  .touch .fault limit memory ⟨pe + 60, 4⟩ <|
    let memory := patchFileAlignment memory pe
    .touch .fault limit memory ⟨pe + 56, 4⟩ <|
      let memory := patchSectionAlignment memory pe
      .touchAll .fault limit memory (if silent then [] else headerPrints pe) <|
        fixupImageSize limit silent pe memory

/-- `main` from the subsystem on. -/
def fixupSubsystem (arguments : FixupArguments) (pe : ℕ) (memory : ByteStore) : FixupRun :=
  .touch .fault limit memory ⟨pe + 92, 2⟩ <|
    if PeImageHeaders.subsystem memory pe == peHeaderSubsystemEfiApplication then
      match arguments.efiVersion with
      | none =>
          .touch .fault limit memory ⟨pe + 94, 2⟩ <|
            fixupAlignments limit arguments.silent pe (memory.writeLE (pe + 94) 2 0)
      | some version =>
          .touch .fault limit memory ⟨pe + 72, 4⟩ <|
            let memory := writeVersion memory (pe + 72) version
            .touch .fault limit memory ⟨pe + 64, 4⟩ <|
              let memory := writeVersion memory (pe + 64) version
              .touch .fault limit memory ⟨pe + 94, 2⟩ <|
                fixupAlignments limit arguments.silent pe (memory.writeLE (pe + 94) 2 0)
    else fixupAlignments limit arguments.silent pe memory

/-- `main` from the first change on. -/
def fixupMagic (arguments : FixupArguments) (pe : ℕ) (memory : ByteStore) : FixupRun :=
  .touch .fault limit memory ⟨pe + 22, 2⟩ <|
    let memory := patchCharacteristics memory pe
    .touch .fault limit memory ⟨pe + 24, 2⟩ <|
      if PeImageHeaders.magic memory pe != peHeaderOptionalHdr32Magic
          && PeImageHeaders.magic memory pe != peHeaderOptionalHdr64Magic then
        ⟨.failed "missing OPTHDR signature\n", memory, []⟩
      else fixupSubsystem limit arguments pe memory

/-- The checks of the COFF header. -/
def fixupCoff (arguments : FixupArguments) (size : UInt64) (peOffset : UInt32)
    (memory : ByteStore) : FixupRun :=
  let pe := peOffset.toNat
  .touch .fault limit memory ⟨pe, 4⟩ <|
    if memory.u32 pe != peHeaderSignature then ⟨.failed "missing PE signature\n", memory, []⟩
    else .touch .fault limit memory ⟨pe + 6, 2⟩ <|
      if PeImageHeaders.numberOfSections memory pe > peHeaderMaxNumberOfSections then
        ⟨.failed "too many sections\n", memory, []⟩
      else .touch .fault limit memory ⟨pe + 22, 2⟩ <|
        let characteristics := PeImageHeaders.characteristics memory pe
        if characteristics &&& peHeaderRelocsStripped != 0 then
          ⟨.failed "file marked as stripped from relocation table\n", memory, []⟩
        else if characteristics &&& (peHeaderBytesReversedLo ||| peHeaderBytesReversedHi) != 0 then
          ⟨.failed "file bit reversed\n", memory, []⟩
        else .touch .fault limit memory ⟨pe + 20, 2⟩ <|
          if size < peOffset.toUInt64 + UInt64.ofNat sizeofPeCoffHeader
              + (PeImageHeaders.sizeOfOptionalHeader memory pe).toUInt64 then
            ⟨.failed "file to small\n", memory, []⟩
          else fixupMagic limit arguments pe memory

/-- The checks of the DOS header. -/
def fixupDos (arguments : FixupArguments) (size : UInt64) (memory : ByteStore) : FixupRun :=
  .touch .fault limit memory ⟨0, 2⟩ <|
    if memory.u16 0 != mzDosSignature then ⟨.failed "missing MZ signature\n", memory, []⟩
    else if size < 64 then ⟨.failed "file too small\n", memory, []⟩
    else .touch .fault limit memory ⟨dosPeOffsetLocation, 4⟩ <|
      let peOffset := memory.u32 dosPeOffsetLocation
      if size < (peOffset + 26).toUInt64 then ⟨.failed "file too small\n", memory, []⟩
      else fixupCoff limit arguments size peOffset memory

end Main

/-- `main`. An empty file cannot be mapped; a failing `msync` is only reported. -/
def peFixup (options : List FixupOption) (system : FixupSystem) (file : InputFile) : FixupRun :=
  match parseOptions options ⟨none, false, none⟩ with
  | .error text => ⟨.failed text, file.mapped, []⟩
  | .ok arguments =>
      if arguments.filename.isNone then ⟨.failed "Filename argument is required\n", file.mapped, []⟩
      else if !system.openat then ⟨.failed "open: %m\n", file.mapped, []⟩
      else if !system.statx then ⟨.failed "stat: %m\n", file.mapped, []⟩
      else if !system.mmap || file.size == 0 then ⟨.failed "mmap: %m\n", file.mapped, []⟩
      else fixupDos (mappedLimit file.size) arguments file.size file.mapped

end ZLoader
