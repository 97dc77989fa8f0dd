import Mathlib.Data.Finset.Max
import ZLoader.Soundness.AlignedBuffers
import ZLoader.Soundness.HandleImage
import ZLoader.Soundness.PatchedHeaders

/-! # The size of the image that the patcher writes

The loop over the section table compares the end reached so far with the start of a section, not with
its end. A section that starts where another one ends is left out, so the size covers the image
exactly when a section that counts ends in the last page of the image.
-/

namespace ZLoader

/-! ## The sections that count -/

def PeSectionHeader.vmaEnd (sec : PeSectionHeader) : ℕ :=
  sec.virtualAddress.toNat + sec.virtualSize.toNat

/-- A section counts when it starts above the end of the one that counts before it. -/
def countedSections : ℕ → List PeSectionHeader → List PeSectionHeader
  | _, [] => []
  | reached, sec :: rest =>
      if reached < sec.virtualAddress.toNat then sec :: countedSections sec.vmaEnd rest
      else countedSections reached rest

/-- A number is the largest end among sections, and at least the start. -/
structure LargestEnd (start : ℕ) (counted : List PeSectionHeader) (largest : ℕ) : Prop where
  start_le : start ≤ largest
  ends_le : ∀ sec ∈ counted, sec.vmaEnd ≤ largest
  attained : largest = start ∨ ∃ sec ∈ counted, largest = sec.vmaEnd

theorem LargestEnd.cons {start largest : ℕ} {sec : PeSectionHeader} {counted : List PeSectionHeader}
    (above : start ≤ sec.vmaEnd) (behind : LargestEnd sec.vmaEnd counted largest) :
    LargestEnd start (sec :: counted) largest := by
  refine ⟨above.trans behind.start_le, List.forall_mem_cons.mpr ⟨behind.start_le, behind.ends_le⟩, ?_⟩
  rcases behind.attained with first | ⟨other, member, ends⟩
  · exact .inr ⟨sec, List.mem_cons_self, first⟩
  · exact .inr ⟨other, List.mem_cons_of_mem _ member, ends⟩

theorem countedSections_subset (reached : ℕ) (sections : List PeSectionHeader) :
    countedSections reached sections ⊆ sections := by
  induction sections generalizing reached with
  | nil => exact List.Subset.refl _
  | cons sec rest ih =>
    rw [countedSections]
    split_ifs
    · exact List.cons_subset_cons _ (ih _)
    · exact List.subset_cons_of_subset _ (ih _)

/-- Without an overflow the loop finds the largest end of the sections that count. -/
theorem largestEnd_foldl {sections : List PeSectionHeader}
    (small : ∀ sec ∈ sections, sec.vmaEnd < 2 ^ 32) (start : UInt64) :
    LargestEnd start.toNat (countedSections start.toNat sections)
      (sections.foldl (fun largest sec =>
        if largest < sec.virtualAddress.toUInt64 then (sec.virtualAddress + sec.virtualSize).toUInt64
        else largest) start).toNat := by
  induction sections generalizing start with
  | nil => exact ⟨Nat.le_refl _, List.forall_mem_nil _, .inl rfl⟩
  | cons sec rest ih =>
    obtain ⟨first, others⟩ := List.forall_mem_cons.mp small
    have end_ : (sec.virtualAddress + sec.virtualSize).toUInt64.toNat = sec.vmaEnd := by
      rw [UInt32.toNat_toUInt64, UInt32.toNat_add]
      exact Nat.mod_eq_of_lt first
    rw [List.foldl_cons, countedSections]
    by_cases counts : start.toNat < sec.virtualAddress.toNat
    · rw [if_pos counts, if_pos (UInt64.lt_iff_toNat_lt.mpr counts)]
      have behind := ih others (sec.virtualAddress + sec.virtualSize).toUInt64
      rw [end_] at behind
      exact behind.cons (counts.le.trans (Nat.le_add_right _ _))
    · rw [if_neg counts, if_neg (mt UInt64.lt_iff_toNat_lt.mp counts)]
      exact ih others start

theorem largestEnd_largestVma {sections : List PeSectionHeader}
    (small : ∀ sec ∈ sections, sec.vmaEnd < 2 ^ 32) :
    LargestEnd 0 (countedSections 0 sections) (largestVma sections).toNat :=
  largestEnd_foldl small 0

/-! ## The size -/

/-- The size is aligned and covers every section. -/
structure SizesImage (alignment : UInt32) (size : UInt32) (sections : List PeSectionHeader) :
    Prop where
  aligned : alignment.toNat ∣ size.toNat
  contains : ∀ sec ∈ sections, sec.vmaEnd ≤ size.toNat

/-- All sections are at address zero and empty; or the image, rounded up, ends below 2³² and a section
that counts ends less than one alignment before. -/
def LastSectionCounts (alignment : UInt32) (sections : List PeSectionHeader) : Prop :=
  (∀ sec ∈ sections, sec.vmaEnd = 0) ∨
    ∃ last ∈ sections, (∀ sec ∈ sections, sec.vmaEnd ≤ last.vmaEnd) ∧
      roundUp alignment.toNat last.vmaEnd < 2 ^ 32 ∧
      ∃ sec ∈ countedSections 0 sections,
        roundUp alignment.toNat last.vmaEnd < sec.vmaEnd + alignment.toNat

section Aligned

variable {alignment : UInt32} {t : ℕ} (power : alignment.toNat = 2 ^ t)

include power

/-- `ALIGN_VALUE` with a mask of half the width. -/
theorem alignVma_toUInt32 {largest : UInt64} (small : largest.toNat < 2 ^ 32) :
    (alignVma largest alignment).toUInt32.toNat =
      roundUp alignment.toNat largest.toNat % 2 ^ 32 := by
  have word := alignment.toNat_lt
  have positive : 0 < 2 ^ t := Nat.two_pow_pos t
  have one : (1 : UInt32).toNat = 1 := rfl
  have one' : (1 : UInt64).toNat = 1 := rfl
  have mask : (alignment - 1).toUInt64 = alignment.toUInt64 - 1 := by
    apply UInt64.toNat_inj.mp
    rw [UInt32.toNat_toUInt64, UInt32.toNat_sub, UInt64.toNat_sub, UInt32.toNat_toUInt64, one, one']
    omega
  have rounded : alignVma largest alignment = alignValue largest alignment.toUInt64 := by
    rw [alignVma, alignValue, mask]
  have bound := roundUp_lt (a := alignment.toNat) (by omega) largest.toNat
  rw [UInt64.toNat_toUInt32, rounded, @alignValue_of_pow alignment.toUInt64 t power,
    UInt32.toNat_toUInt64, Nat.mod_eq_of_lt (b := 2 ^ 64) (by omega)]

/-- The aligned end covers the image exactly when a section that counts ends in its last page. -/
theorem sizesImage_largestVma_iff {sections : List PeSectionHeader}
    (small : ∀ sec ∈ sections, sec.vmaEnd < 2 ^ 32) :
    SizesImage alignment (alignVma (largestVma sections) alignment).toUInt32 sections ↔
      LastSectionCounts alignment sections := by
  obtain ⟨-, ends_le, attained⟩ := largestEnd_largestVma small
  have counted := @countedSections_subset 0 sections
  have positive : 0 < alignment.toNat := power ▸ Nat.two_pow_pos t
  have whole : alignment.toNat ∣ 2 ^ 32 := by
    have word := alignment.toNat_lt
    rw [power] at word ⊢
    exact Nat.pow_dvd_pow 2 ((Nat.pow_lt_pow_iff_right (by decide)).mp word).le
  have bounded : (largestVma sections).toNat < 2 ^ 32 := by
    rcases attained with none | ⟨sec, member, ends⟩
    · omega
    · exact ends ▸ small sec (counted member)
  have size := alignVma_toUInt32 power bounded
  have limit := roundUp_le positive whole bounded.le
  generalize (largestVma sections).toNat = largest at ends_le attained bounded size limit
  constructor
  · rintro ⟨-, contains⟩
    rw [size] at contains
    apply or_iff_not_imp_left.mpr
    intro some_
    rw [not_forall₂] at some_
    obtain ⟨sec, member, ends⟩ := some_
    obtain ⟨last, last_member, last_ends⟩ := Finset.exists_max_image sections.toFinset PeSectionHeader.vmaEnd
      ⟨sec, List.mem_toFinset.mpr member⟩
    rw [List.mem_toFinset] at last_member
    have greatest : ∀ other ∈ sections, other.vmaEnd ≤ last.vmaEnd := fun other member =>
      last_ends other (List.mem_toFinset.mpr member)
    have covered := contains last last_member
    have above := greatest sec member
    -- at 2³² the size would be written as zero
    have below : roundUp alignment.toNat largest < 2 ^ 32 := by
      apply Nat.lt_of_le_of_ne limit
      intro full
      rw [full] at covered
      omega
    rw [Nat.mod_eq_of_lt below] at covered
    have same := roundUp_le positive (dvd_roundUp alignment.toNat largest) covered
    have near := roundUp_lt positive largest
    refine ⟨last, last_member, greatest, same.trans_lt below, ?_⟩
    rcases attained with rfl | ⟨other, counts, rfl⟩
    · have zero := Nat.le_zero.mp (roundUp_le positive (Nat.dvd_zero _) (Nat.le_refl 0))
      omega
    · exact ⟨other, counts, same.trans_lt near⟩
  · rintro (none | ⟨last, last_member, greatest, below, other, counts, near⟩)
    · have zero : largest = 0 := by
        rcases attained with first | ⟨sec, member, ends⟩
        · exact first
        · exact ends.trans (none sec (counted member))
      have rounded := Nat.le_zero.mp (roundUp_le positive (Nat.dvd_zero _) (Nat.le_refl 0))
      rw [zero, rounded] at size
      refine ⟨?_, fun sec member => ?_⟩
      · rw [size]
        exact Nat.dvd_zero _
      · rw [none sec member]
        exact Nat.zero_le _
    · have low : largest ≤ last.vmaEnd := by
        rcases attained with first | ⟨sec, member, ends⟩
        · omega
        · exact ends ▸ greatest sec (counted member)
      have high := ends_le other counts
      have covered := le_roundUp positive last.vmaEnd
      have rounded := eq_roundUp positive (dvd_roundUp alignment.toNat last.vmaEnd)
        (low.trans covered) (by omega)
      rw [← rounded, Nat.mod_eq_of_lt below] at size
      refine ⟨?_, fun sec member => ?_⟩
      · rw [size]
        exact dvd_roundUp _ _
      · rw [size]
        exact (greatest sec member).trans covered

end Aligned

/-! ## The file -/

/-- The file as it is when the section table is looked at. -/
def fixedFile (options : List FixupOption) (file : InputFile) : ByteStore :=
  match parseOptions options ⟨none, false, none⟩ with
  | .error _ => file.mapped
  | .ok arguments => fixedHeaders arguments file.mapped (peOffset file.mapped)

section File

variable {options : List FixupOption} {system : FixupSystem} {file : InputFile}

/-- A file that is not refused ends with the size of its image. -/
theorem peFixup_completed (completed : (peFixup options system file).exit = .completed) :
    (peFixup options system file).memory =
      patchImageSize (fixedFile options file) (peOffset file.mapped) := by
  have ends : (peFixup options system file).Ends fun exit memory => exit = .completed →
      memory = patchImageSize (fixedFile options file) (peOffset file.mapped) := by
    rw [ends_peFixup_iff (by simp) (by simp)]
    intro arguments starts accepted
    have optional := accepted.optionalHeader
    have mapped : file.size.toNat ≤ mappedLimit file.size := le_roundUp (by decide) _
    rw [ends_changed_iff (by simp) (by rw [peTable, sizeofPeCoffHeader] at optional; omega)]
    refine fun _ => ⟨by simp, fun _ _ => ⟨by simp, fun _ _ => ?_⟩⟩
    rw [fixedFile, starts.parsed]
  exact ends completed

/-- The size of the image that is written covers the sections exactly when a section that counts ends
in the last page of the image. -/
theorem sizesImage_iff (completed : (peFixup options system file).exit = .completed)
    {t : ℕ} (power : (PeImageHeaders.sectionAlignment (fixedFile options file)
      (peOffset file.mapped)).toNat = 2 ^ t)
    (small : ∀ sec ∈ peSections (fixedFile options file) (peOffset file.mapped),
      sec.vmaEnd < 2 ^ 32) :
    SizesImage (PeImageHeaders.sectionAlignment (fixedFile options file) (peOffset file.mapped))
        (PeImageHeaders.sizeOfImage (peFixup options system file).memory (peOffset file.mapped))
        (peSections (fixedFile options file) (peOffset file.mapped)) ↔
      LastSectionCounts
        (PeImageHeaders.sectionAlignment (fixedFile options file) (peOffset file.mapped))
        (peSections (fixedFile options file) (peOffset file.mapped)) := by
  have size : PeImageHeaders.sizeOfImage (peFixup options system file).memory
      (peOffset file.mapped) = imageEnd (fixedFile options file) (peOffset file.mapped) := by
    rw [peFixup_completed completed]
    exact ByteStore.u32_writeLE _ _ _
  rw [size, imageEnd, sizesImage_largestVma_iff power small]

end File

/-- An executable with its sections at the given addresses, `0x1000` bytes each. -/
def smallExecutable (addresses : List ℕ) : InputFile :=
  ⟨0x800, smallImage addresses.length 0 0x400 16 (addresses.zipIdx.flatMap fun (address, index) =>
    sectionFields index 0x1000 address 0x200 0x400 0)⟩

def smallOptions : List FixupOption := [.silent, .file ['a']]

def smallSystem : FixupSystem := ⟨true, true, true⟩

/-- With a gap in front of the second section both count. -/
theorem sizesImage_gap :
    SizesImage 0x1000 (PeImageHeaders.sizeOfImage
        (peFixup smallOptions smallSystem (smallExecutable [0x1000, 0x4000])).memory 0x40)
      (peSections (fixedFile smallOptions (smallExecutable [0x1000, 0x4000])) 0x40) := by
  have power : (PeImageHeaders.sectionAlignment
      (fixedFile smallOptions (smallExecutable [0x1000, 0x4000])) 0x40).toNat = 2 ^ 12 := by
    decide +kernel
  have counts := (@sizesImage_iff smallOptions smallSystem (smallExecutable [0x1000, 0x4000])
    (by decide +kernel) 12 power (by decide +kernel)).mpr
  refine counts (.inr ?_)
  decide +kernel

/-- A section that starts at the end of another one is left out. -/
theorem not_sizesImage_touching :
    ¬ ∀ (options : List FixupOption) (system : FixupSystem) (file : InputFile) (t : ℕ),
      (peFixup options system file).exit = .completed →
      (PeImageHeaders.sectionAlignment (fixedFile options file) (peOffset file.mapped)).toNat =
        2 ^ t →
      (∀ sec ∈ peSections (fixedFile options file) (peOffset file.mapped),
        sec.vmaEnd < 2 ^ 32) →
      SizesImage (PeImageHeaders.sectionAlignment (fixedFile options file) (peOffset file.mapped))
        (PeImageHeaders.sizeOfImage (peFixup options system file).memory (peOffset file.mapped))
        (peSections (fixedFile options file) (peOffset file.mapped)) := by
  intro claim
  have sizes := claim smallOptions smallSystem (smallExecutable [0x1000, 0x2000]) 12
    (by decide +kernel) (by decide +kernel) (by decide +kernel)
  have contains := sizes.contains
  revert contains
  decide +kernel

end ZLoader
