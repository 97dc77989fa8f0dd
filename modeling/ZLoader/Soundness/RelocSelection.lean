import ZLoader.Soundness.HandleImage

/-! # Selecting the relocation section

The loop over the sections takes the section named ".reloc" for the relocation section when its first
and last byte are those of the relocation directory. The last byte of the section is taken one byte
before its end, that of the directory one byte behind its end, so the section that the directory
describes is the one that is never taken, and its base relocations are skipped without an error.
-/

namespace ZLoader

/-- The offset of a section header. -/
def sectionHeaderAt (ctx : PeLoaderCtx) (index : ℕ) : ℕ :=
  ctx.firstSection + sizeofPeSectionHeader * index

/-- The relocation directory is not empty, lies inside the image, and is exactly the range of the
section at `index`, which has raw data and is the only one named ".reloc". -/
structure DirectoryIsSection (ctx : PeLoaderCtx) (file : ByteStore) (index : ℕ) : Prop where
  listed : index < ctx.numberOfSections.toNat
  reloc : (PeSectionHeader.read file (sectionHeaderAt ctx index)).isReloc = true
  single : ∀ other < ctx.numberOfSections.toNat,
    (PeSectionHeader.read file (sectionHeaderAt ctx other)).isReloc = true → other = index
  virtualAddress : (PeSectionHeader.read file (sectionHeaderAt ctx index)).virtualAddress =
    (PeDataDirectory.read file ctx.relocDirectory).virtualAddress
  virtualSize : (PeSectionHeader.read file (sectionHeaderAt ctx index)).virtualSize =
    (PeDataDirectory.read file ctx.relocDirectory).size
  rawData : (PeSectionHeader.read file (sectionHeaderAt ctx index)).sizeOfRawData ≠ 0
  nonempty : (PeDataDirectory.read file ctx.relocDirectory).size ≠ 0
  inside : (PeDataDirectory.read file ctx.relocDirectory).virtualAddress.toNat +
    (PeDataDirectory.read file ctx.relocDirectory).size.toNat ≤ ctx.sizeOfImage.toNat

instance (ctx : PeLoaderCtx) (file : ByteStore) (index : ℕ) :
    Decidable (DirectoryIsSection ctx file index) :=
  decidable_of_iff (_ ∧ _ ∧ _ ∧ _ ∧ _ ∧ _ ∧ _ ∧ _)
    ⟨fun ⟨listed, reloc, single, virtualAddress, virtualSize, rawData, nonempty, inside⟩ =>
      ⟨listed, reloc, single, virtualAddress, virtualSize, rawData, nonempty, inside⟩,
      fun is => ⟨is.listed, is.reloc, is.single, is.virtualAddress, is.virtualSize, is.rawData,
        is.nonempty, is.inside⟩⟩

/-- Translation does not identify two addresses. -/
theorem imageAddress_inj {image size first second : UInt64}
    (valid : imageAddress image size first ≠ 0)
    (same : imageAddress image size first = imageAddress image size second) : first = second := by
  have one := (imageAddress_bounds valid).2
  have two := (imageAddress_bounds (same ▸ valid)).2
  rw [← same] at two
  apply UInt64.toNat_inj.mp
  omega

/-- A section that is exactly the directory ends two bytes before the end of the directory. -/
theorem isRelocationSection_of_exact (buffer : UInt64) (ctx : PeLoaderCtx)
    {directory : PeDataDirectory} {sec : PeSectionHeader}
    (address : sec.virtualAddress = directory.virtualAddress)
    (size : sec.virtualSize = directory.size) :
    isRelocationSection buffer ctx directory sec = false := by
  by_contra selected
  simp only [Bool.not_eq_false, isRelocationSection, Bool.and_eq_true, bne_iff_ne, ne_eq,
    beq_iff_eq] at selected
  obtain ⟨⟨⟨_, stop⟩, _⟩, ends⟩ := selected
  rw [relocationEnd, sectionEnd, address, size] at ends
  rw [sectionEnd, address, size] at stop
  have wide := imageAddress_inj (by rw [ends]; exact stop) ends
  have narrow : directory.virtualAddress + directory.size + 1 =
      directory.virtualAddress + directory.size - 1 :=
    UInt32.toUInt64_inj.mp wide
  have apart : (2 : UInt32) = 0 := by grind
  exact absurd apart (by decide)

section Loop

variable {buffer : UInt64} {ctx : PeLoaderCtx} {directory : PeDataDirectory}

/-- Checking a header that is not selected selects nothing. -/
theorem checkSection_unselected {offset : ℕ} {sec : PeSectionHeader} {verdict : SectionVerdict}
    (unselected : sec.isReloc = true → isRelocationSection buffer ctx directory sec = false)
    (passed : checkSection buffer ctx directory none offset sec = .ok verdict) :
    verdict = .skip none ∨ verdict = .illegalVma ∨ verdict = .load none := by
  have select : selectReloc buffer ctx directory none offset sec = .ok none := by
    cases named : sec.isReloc with
    | true => simp [selectReloc, named, unselected named]
    | false => simp [selectReloc, named]
  rw [checkSection, select] at passed
  dsimp only at passed
  split_ifs at passed
  · exact .inl (Except.ok.inj passed).symm
  · exact .inl (Except.ok.inj passed).symm
  · exact .inr (.inl (Except.ok.inj passed).symm)
  · exact .inr (.inr (Except.ok.inj passed).symm)

/-- A loop that meets no section to select ends without one. -/
theorem relocateSectionsLoop_unselected {count offset : ℕ} {found : Bool} {st : LoaderState}
    (unselected : ∀ index < count,
      (PeSectionHeader.read st.memory.file (offset + sizeofPeSectionHeader * index)).isReloc = true →
      isRelocationSection buffer ctx directory
        (PeSectionHeader.read st.memory.file (offset + sizeofPeSectionHeader * index)) = false) :
    (relocateSectionsLoop buffer ctx directory count offset none found st).relocSection = none := by
  induction count generalizing offset found st with
  | zero => rfl
  | succ count ih =>
    have later (file : ByteStore) (same : file = st.memory.file) : ∀ index < count,
        (PeSectionHeader.read file (offset + sizeofPeSectionHeader +
          sizeofPeSectionHeader * index)).isReloc = true →
        isRelocationSection buffer ctx directory (PeSectionHeader.read file
          (offset + sizeofPeSectionHeader + sizeofPeSectionHeader * index)) = false := by
      intro index bound
      have next := unselected (index + 1) (Nat.succ_lt_succ bound)
      rwa [Nat.mul_succ, Nat.add_comm _ sizeofPeSectionHeader, ← Nat.add_assoc, ← same] at next
    simp only [relocateSectionsLoop]
    cases passed : checkSection buffer ctx directory none offset
        (PeSectionHeader.read st.memory.file offset) with
    | error status => rfl
    | ok verdict =>
      rcases checkSection_unselected (unselected 0 (Nat.zero_lt_succ _)) passed with
        rfl | rfl | rfl
      · apply ih
        exact later _ rfl
      · rfl
      · apply ih
        exact later _ (loadSection_frame buffer ctx _ _).1

end Loop

/-- The section that the directory describes is not selected, whatever else the image contains, so
no base relocation is applied. -/
theorem relocateSections_unselected {ctx : PeLoaderCtx} {index : ℕ} {st : LoaderState}
    (exactly : DirectoryIsSection ctx st.memory.file index) (build : Build) (buffer : UInt64) :
    (relocateSections buffer ctx st).relocSection = none ∧
      (relocateImage build buffer ctx st).2.fixups = st.fixups := by
  have unselected : (relocateSections buffer ctx st).relocSection = none := by
    apply relocateSectionsLoop_unselected
    intro other bound named
    obtain rfl := exactly.single other bound named
    exact isRelocationSection_of_exact buffer ctx exactly.virtualAddress exactly.virtualSize
  refine ⟨unselected, ?_⟩
  have none_ : fixupSection ctx (relocateSections buffer ctx st) = none := by
    rw [fixupSection, unselected]
    split_ifs <;> rfl
  rw [relocateImage_state]
  split_ifs
  · rw [none_]
    exact (relocateSectionsLoop_frame ..).2.1
  · rfl

/-! ## An image with one relocation

Its second section is named ".reloc" and is the relocation directory: one block with one entry. -/

def exactRelocImage : ByteStore :=
  smallImage 2 0x3000 0x200 16 (sectionFields 0 0x1000 0x1000 0x200 0x200 0x60000020 ++
    sectionFields 1 12 0x2000 0x200 0x400 0x42000040 ++
    [(0x170, 6, 0x636f6c65722e), (0xf0, 4, 0x2000), (0xf4, 4, 12), (0x400, 4, 0x1000),
      (0x404, 4, 12), (0x408, 2, 0xa010)])

def exactRelocCtx : PeLoaderCtx := loaderCtx exactRelocImage 0x100000 0x40

set_option maxRecDepth 4000 in
theorem directoryIsSection_exactRelocImage :
    DirectoryIsSection exactRelocCtx exactRelocImage 1 := by decide

theorem relocateSections_unselected_exactRelocImage :
    (relocateSections 0x800000 exactRelocCtx (.start ⟨exactRelocImage, fun _ => 0⟩)).relocSection =
        none ∧
      (relocateImage defaultBuild 0x800000 exactRelocCtx
        (.start ⟨exactRelocImage, fun _ => 0⟩)).2.fixups = [] :=
  relocateSections_unselected directoryIsSection_exactRelocImage defaultBuild 0x800000

set_option maxRecDepth 4000 in
/-- The sections are loaded successfully, but the relocation section is not among the results. -/
theorem not_relocateSections_selected_exactRelocImage :
    ¬ ∀ (ctx : PeLoaderCtx) (index : ℕ) (st : LoaderState) (buffer : UInt64),
      DirectoryIsSection ctx st.memory.file index →
      (relocateSections buffer ctx st).succeeds = true →
      (relocateSections buffer ctx st).relocSection = some (sectionHeaderAt ctx index) := by
  intro claim
  have selected := claim exactRelocCtx 1 (.start ⟨exactRelocImage, fun _ => 0⟩) 0x800000
    directoryIsSection_exactRelocImage (by decide)
  revert selected
  decide

end ZLoader
