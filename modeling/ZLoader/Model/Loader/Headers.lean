import Mathlib.Tactic.SplitIfs
import ZLoader.Model.Efi.Pe
import ZLoader.Model.Util.Buffer
import ZLoader.Model.Loader.State

/-! # Reading the headers of an image

`PE_header` (`pe.h`), `image_address`, `is_loadable` and `read_headers` (`pe_loader.c`). Arithmetic
is on the types of the source: `section_header_offset` is cut to 32 bits, the section-count checks
subtract without looking at the sign. Offsets count from the cursor of the file buffer, which is
`ctx->base`.
-/

namespace ZLoader

/-- `struct pe_loader_ctx`; the pointers into the file are offsets from `base`. -/
structure PeLoaderCtx where
  imageAddress : UInt64
  sizeOfImage : UInt64
  entryPoint : UInt64
  sizeOfHeaders : UInt64
  numberOfSections : UInt16
  sectionAlignment : UInt32
  numberOfRvaAndSizes : UInt32
  firstSection : ℕ
  relocDirectory : ℕ
  pe : ℕ
  base : UInt64
deriving DecidableEq, Repr

/-- `image_address`: bounds check and translation; zero is the NULL pointer. -/
def imageAddress (image size address : UInt64) : UInt64 :=
  if address > size then 0
  else if 0xffffffffffffffff - address < image then 0
  else image + address

/-- A translated address is in bounds and has not wrapped. -/
theorem imageAddress_bounds {image size address : UInt64}
    (valid : imageAddress image size address ≠ 0) :
    address.toNat ≤ size.toNat ∧
      (imageAddress image size address).toNat = image.toNat + address.toNat := by
  unfold imageAddress at valid ⊢
  split_ifs at valid ⊢ with outside overflow
  · exact absurd rfl valid
  · exact absurd rfl valid
  · simp only [gt_iff_lt, UInt64.lt_iff_toNat_lt, Nat.not_lt] at outside
    simp only [UInt64.lt_iff_toNat_lt, Nat.not_lt, UInt64.toNat_sub, UInt64.toNat_add] at overflow ⊢
    have imageBound := image.toNat_lt
    have addressBound := address.toNat_lt
    have limit : (0xffffffffffffffff : UInt64).toNat = 2 ^ 64 - 1 := rfl
    rw [limit] at overflow
    exact ⟨outside, by omega⟩

/-- The offset of a translated address is the address that was translated. -/
theorem imageAddress_sub {image size address : UInt64}
    (valid : imageAddress image size address ≠ 0) :
    (imageAddress image size address - image).toNat = address.toNat := by
  have bounds := imageAddress_bounds valid
  have imageBound := image.toNat_lt
  have small := (imageAddress image size address).toNat_lt
  rw [UInt64.toNat_sub]
  omega

/-- `allow_32bit`, false on both targets. -/
def allow32bit : Arch → Bool
  | .x86_64 | .aarch64 => false

/-- `allow_64bit`. -/
def allow64bit : Arch → Bool
  | .x86_64 | .aarch64 => true

/-- `PE_header`: the offset of the PE signature or zero, with the reads made on the way. -/
def peHeader (build : Build) (buffer : SimpleBuffer) (file : ByteStore) :
    Outcome UInt64 × List Event :=
  match bufferPos build buffer with
  | .ok _ =>
      if file.u16 0 != mzDosSignature then (.ok 0, [.readFile ⟨0, 2⟩])
      else
        match bufferLen build buffer with
        | .ok length =>
            if !(length > 0x3c + 4) then (.ok 0, [.readFile ⟨0, 2⟩])
            else
              let peOffset := file.u32 dosPeOffsetLocation
              let reads := [.readFile ⟨0, 2⟩, .readFile ⟨dosPeOffsetLocation, 4⟩]
              if !(length > peOffset.toUInt64 + 264) then (.ok 0, reads)
              else
                let reads := reads ++ [.readFile ⟨peOffset.toNat, 4⟩]
                if file.u32 peOffset.toNat == peHeaderSignature then (.ok peOffset.toUInt64, reads)
                else (.ok 0, reads)
        | .error status => (.error status, [.readFile ⟨0, 2⟩])
        | .assertionFailed assertion => (.assertionFailed assertion, [.readFile ⟨0, 2⟩])
  | .error status => (.error status, [])
  | .assertionFailed assertion => (.assertionFailed assertion, [])

/-- `is_loadable`: the status it returns. -/
def isLoadable (build : Build) (file : ByteStore) (pe : ℕ) : EfiStatus :=
  let characteristics := PeImageHeaders.characteristics file pe
  if characteristics &&& (peHeaderBytesReversedLo ||| peHeaderBytesReversedHi) != 0 then
    efiUnsupported
  else if PeImageHeaders.machine file pe != peHeaderMachineNative build.arch then efiUnsupported
  else if characteristics &&& (peHeaderExecutableImage ||| peHeaderDll) == 0 then efiUnsupported
  else if characteristics &&& peHeaderRelocsStripped != 0 then efiUnsupported
  else if PeImageHeaders.magic file pe == peHeaderOptionalHdr32Magic then
    if !allow32bit build.arch then efiUnsupported else efiSuccess
  else if PeImageHeaders.magic file pe == peHeaderOptionalHdr64Magic then
    if !allow64bit build.arch then efiUnsupported else efiSuccess
  else efiUnsupported

/-- `section_header_offset`, computed in `size_t` and stored in 32 bits. -/
def sectionHeaderOffset (file : ByteStore) (peOffset : UInt64) : UInt32 :=
  (peOffset + 24 + (PeImageHeaders.sizeOfOptionalHeader file peOffset.toNat).toUInt64).toUInt32

/-- The context filled in from the headers at `peOffset`, before any of its checks. -/
def loaderCtx (file : ByteStore) (base peOffset : UInt64) : PeLoaderCtx :=
  let pe := peOffset.toNat
  let is32bit := PeImageHeaders.magic file pe == peHeaderOptionalHdr32Magic
  let fileAlignment := PeImageHeaders.fileAlignment file pe
  let fileAlignment := if fileAlignment == 0 then 0x200 else fileAlignment
  let sectionAlignment := PeImageHeaders.sectionAlignment file pe
  { imageAddress :=
      if is32bit then (PeImageHeaders.imageBase32 file pe).toUInt64
      else PeImageHeaders.imageBase64 file pe
    sizeOfImage := (PeImageHeaders.sizeOfImage file pe).toUInt64
    entryPoint := (PeImageHeaders.addressOfEntryPoint file pe).toUInt64
    sizeOfHeaders := (PeImageHeaders.sizeOfHeaders file pe).toUInt64
    numberOfSections := PeImageHeaders.numberOfSections file pe
    sectionAlignment :=
      if sectionAlignment == 0 then max fileAlignment 0x1000 else sectionAlignment
    numberOfRvaAndSizes := PeImageHeaders.numberOfRvaAndSizes file pe
    firstSection := (sectionHeaderOffset file peOffset).toNat
    relocDirectory := PeImageHeaders.dataDirectory pe peHeaderDirectoryEntryBasereloc
    pe := pe
    base := base }

/-- The checks of `read_headers` on the context, in their order. -/
def checkHeaders (file : ByteStore) (base peOffset : UInt64) : Outcome PeLoaderCtx :=
  let ctx := loaderCtx file base peOffset
  let sectionOffset := sectionHeaderOffset file peOffset
  if PeImageHeaders.fileAlignment file ctx.pe % 2 != 0 then .error efiLoadError
  else if (ctx.sizeOfImage.toUInt32 - sectionOffset).toUInt64 / 40 ≤ ctx.numberOfSections.toUInt64 then
    .error efiLoadError
  else if (ctx.sizeOfHeaders - sectionOffset.toUInt64) / 40 < ctx.numberOfSections.toUInt64 then
    .error efiLoadError
  else if ctx.sizeOfImage < ctx.sizeOfHeaders then .error efiLoadError
  else .ok ctx

/-- `read_headers`, with the reads it makes from the file buffer. The header structure that its
field accesses fall into is recorded as a whole. -/
def readHeaders (build : Build) (buffer : SimpleBuffer) (file : ByteStore) :
    Outcome PeLoaderCtx × List Event :=
  match peHeader build buffer file with
  | (.ok peOffset, reads) =>
      if peOffset == 0 then (.error efiLoadError, reads)
      else
        let reads := reads ++ [.readFile ⟨peOffset.toNat, sizeofPeImageHeaders⟩]
        if efiError (isLoadable build file peOffset.toNat) then (.error efiUnsupported, reads)
        else (checkHeaders file (buffer.buffer + buffer.pos) peOffset, reads)
  | (.error status, reads) => (.error status, reads)
  | (.assertionFailed assertion, reads) => (.assertionFailed assertion, reads)

/-- Looking for the signature only reads the file. -/
theorem peHeader_onlyReads (build : Build) (buffer : SimpleBuffer) (file : ByteStore) :
    ∀ event ∈ (peHeader build buffer file).2, ∃ window, event = .readFile window := by
  intro event member
  rw [peHeader] at member
  split at member
  · split_ifs at member
    · exact ⟨_, List.mem_singleton.mp member⟩
    · split at member
      · split_ifs at member
        · exact ⟨_, List.mem_singleton.mp member⟩
        all_goals
          dsimp only at member
          split_ifs at member <;> grind
      · exact ⟨_, List.mem_singleton.mp member⟩
      · exact ⟨_, List.mem_singleton.mp member⟩
  · cases member
  · cases member

/-- So does reading the headers. -/
theorem readHeaders_onlyReads (build : Build) (buffer : SimpleBuffer) (file : ByteStore) :
    ∀ event ∈ (readHeaders build buffer file).2, ∃ window, event = .readFile window := by
  intro event member
  have reads := peHeader_onlyReads build buffer file
  rw [readHeaders] at member
  split at member <;> rename_i found <;> rw [found] at reads
  · split_ifs at member
    · exact reads event member
    all_goals
      rcases List.mem_append.mp member with earlier | last
      · exact reads event earlier
      · exact ⟨_, List.mem_singleton.mp last⟩
  · exact reads event member
  · exact reads event member

/-- What `checkHeaders` leaves of an accepted context. -/
theorem checkHeaders_ok {file : ByteStore} {base peOffset : UInt64} {ctx : PeLoaderCtx}
    (accepted : checkHeaders file base peOffset = .ok ctx) :
    ctx = loaderCtx file base peOffset ∧ ctx.sizeOfHeaders ≤ ctx.sizeOfImage := by
  unfold checkHeaders at accepted
  dsimp only at accepted
  split_ifs at accepted with oddAlignment imageTable headerTable headerSize
  obtain rfl := Outcome.ok.inj accepted
  exact ⟨rfl, UInt64.not_lt.mp headerSize⟩

/-- An accepted image has its signature at a nonzero offset and its context from there. -/
theorem readHeaders_ok {build : Build} {buffer : SimpleBuffer} {file : ByteStore}
    {ctx : PeLoaderCtx} (accepted : (readHeaders build buffer file).1 = .ok ctx) :
    ∃ peOffset, (peHeader build buffer file).1 = .ok peOffset ∧ peOffset ≠ 0 ∧
      checkHeaders file (buffer.buffer + buffer.pos) peOffset = .ok ctx := by
  unfold readHeaders at accepted
  split at accepted
  · next peOffset reads found =>
    split_ifs at accepted with none rejected
    refine ⟨peOffset, by rw [found], ?_, accepted⟩
    simpa using none
  · contradiction
  · contradiction

/-- The sizes of an accepted image come from 32-bit fields, and its headers fit the image. -/
theorem readHeaders_sizes {build : Build} {buffer : SimpleBuffer} {file : ByteStore}
    {ctx : PeLoaderCtx} (accepted : (readHeaders build buffer file).1 = .ok ctx) :
    ctx.sizeOfHeaders.toNat ≤ ctx.sizeOfImage.toNat ∧ ctx.sizeOfImage.toNat < 2 ^ 32 := by
  obtain ⟨peOffset, _, _, checked⟩ := readHeaders_ok accepted
  obtain ⟨rfl, fits⟩ := checkHeaders_ok checked
  refine ⟨UInt64.le_iff_toNat_le.mp fits, ?_⟩
  exact (PeImageHeaders.sizeOfImage file peOffset.toNat).toNat_lt

end ZLoader
