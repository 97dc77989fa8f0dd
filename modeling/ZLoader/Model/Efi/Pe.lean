import ZLoader.Foundation.LittleEndian
import ZLoader.Model.Efi.Status

/-! # The packed structures of a PE file

Offsets and constants of `efi/pe.h`. All structures are packed, so a field is a little-endian
number at a fixed distance from the start of its structure; `pe` below is the offset of
`struct PE_image_headers` in the file. Only the fields that the loader reads are given.
-/

namespace ZLoader

def mzDosSignature : UInt16 := 0x5a4d
def dosPeOffsetLocation : ℕ := 0x3c
def peHeaderSignature : UInt32 := 0x00004550

/-- `PE_HEADER_MACHINE_NATIVE`. -/
def peHeaderMachineNative : Arch → UInt16
  | .x86_64 => 0x8664
  | .aarch64 => 0xaa64

def peHeaderRelocsStripped : UInt16 := 0x0001
def peHeaderExecutableImage : UInt16 := 0x0002
def peHeaderBytesReversedLo : UInt16 := 0x0080
def peHeaderDll : UInt16 := 0x2000
def peHeaderBytesReversedHi : UInt16 := 0x8000

def peHeaderOptionalHdr32Magic : UInt16 := 0x10b
def peHeaderOptionalHdr64Magic : UInt16 := 0x20b

def peHeaderSubsystemEfiApplication : UInt16 := 10
def peHeaderMaxNumberOfSections : UInt16 := 96

def peHeaderDirectoryEntryBasereloc : ℕ := 5

/-- `sizeof(struct PE_COFF_header)`. -/
def sizeofPeCoffHeader : ℕ := 24
/-- `sizeof(struct PE_image_headers)`: the COFF header and the 240-byte optional header. -/
def sizeofPeImageHeaders : ℕ := 264
/-- `sizeof(struct PE_section_header)`. -/
def sizeofPeSectionHeader : ℕ := 40
/-- `sizeof(struct PE_base_relocation)`; the flexible array member adds nothing. -/
def sizeofPeBaseRelocation : ℕ := 8

namespace PeImageHeaders

variable (file : ByteStore) (pe : ℕ)

def machine : UInt16 := file.u16 (pe + 4)
def numberOfSections : UInt16 := file.u16 (pe + 6)
def sizeOfOptionalHeader : UInt16 := file.u16 (pe + 20)
def characteristics : UInt16 := file.u16 (pe + 22)
def magic : UInt16 := file.u16 (pe + 24)
def addressOfEntryPoint : UInt32 := file.u32 (pe + 40)
def imageBase64 : UInt64 := file.u64 (pe + 48)
def imageBase32 : UInt32 := file.u32 (pe + 52)
def sectionAlignment : UInt32 := file.u32 (pe + 56)
def fileAlignment : UInt32 := file.u32 (pe + 60)
def sizeOfImage : UInt32 := file.u32 (pe + 80)
def sizeOfHeaders : UInt32 := file.u32 (pe + 84)
def subsystem : UInt16 := file.u16 (pe + 92)

/-- Both members of the union place `number_of_RVA_and_sizes` and the data directories alike. -/
def numberOfRvaAndSizes : UInt32 := file.u32 (pe + 132)

/-- Offset of `data_directory[index]`. -/
def dataDirectory (index : ℕ) : ℕ := pe + 136 + 8 * index

end PeImageHeaders

/-- `struct PE_data_directory` at an offset of the file. -/
structure PeDataDirectory where
  virtualAddress : UInt32
  size : UInt32
deriving DecidableEq, Repr

def PeDataDirectory.read (file : ByteStore) (offset : ℕ) : PeDataDirectory :=
  ⟨file.u32 offset, file.u32 (offset + 4)⟩

/-- The fields of `struct PE_section_header` that the loader reads. -/
structure PeSectionHeader where
  name : List UInt8
  virtualSize : UInt32
  virtualAddress : UInt32
  sizeOfRawData : UInt32
  pointerToRawData : UInt32
  characteristics : UInt32
deriving DecidableEq, Repr

def peSectionSizeOfShortName : ℕ := 8

def PeSectionHeader.read (file : ByteStore) (offset : ℕ) : PeSectionHeader where
  name := (List.range peSectionSizeOfShortName).map fun index => file (offset + index)
  virtualSize := file.u32 (offset + 8)
  virtualAddress := file.u32 (offset + 12)
  sizeOfRawData := file.u32 (offset + 16)
  pointerToRawData := file.u32 (offset + 20)
  characteristics := file.u32 (offset + 36)

def peSectionCntUninitializedData : UInt32 := 0x00000080
def peSectionMemDiscardable : UInt32 := 0x02000000

namespace PeSectionHeader

def discardable (sec : PeSectionHeader) : Bool :=
  sec.characteristics &&& peSectionMemDiscardable != 0

def uninitializedData (sec : PeSectionHeader) : Bool :=
  sec.characteristics &&& peSectionCntUninitializedData != 0

end PeSectionHeader

def peRelocBasedFixupMask : UInt16 := 0x0fff
def peRelocBasedTypeMask : UInt16 := 0xf000
def peRelocBasedAbsolute : UInt16 := 0x0000
def peRelocBasedHigh : UInt16 := 0x1000
def peRelocBasedLow : UInt16 := 0x2000
def peRelocBasedHighlow : UInt16 := 0x3000
def peRelocBasedDir64 : UInt16 := 0xa000

end ZLoader
