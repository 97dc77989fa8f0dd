import ZLoader.Soundness.ImageSizePatch

/-! # Where the patcher accesses its mapping

The offset of the headers is checked in 32-bit arithmetic, the optional header is accessed whatever
length it declares, and nothing is checked about the section table. The last page of the mapping goes
on behind the end of the file, so such accesses mostly go unnoticed.
-/

namespace ZLoader

/-! ## What must lie in the file -/

/-- The checks of the DOS header; the offset may wrap. -/
def DosAccepted (size : UInt64) (memory : ByteStore) : Prop :=
  memory.u16 0 = mzDosSignature ∧ 64 ≤ size.toNat ∧
    (memory.u32 dosPeOffsetLocation + 26).toNat ≤ size.toNat

/-- The checks of the characteristics. -/
def FlagsAccepted (memory : ByteStore) (pe : ℕ) : Prop :=
  PeImageHeaders.characteristics memory pe &&& peHeaderRelocsStripped = 0 ∧
    PeImageHeaders.characteristics memory pe &&&
      (peHeaderBytesReversedLo ||| peHeaderBytesReversedHi) = 0

/-- The section headers that are looked at, up to the first empty section, lie in the file up to their
size, or as a whole when they are printed. -/
def SectionsFit (size : ℕ) (arguments : FixupArguments) (memory : ByteStore) (pe : ℕ) : Prop :=
  ∀ index < (PeImageHeaders.numberOfSections memory pe).toNat,
    (∀ earlier < index, ¬ IsEmptySection (fixedHeaders arguments memory pe)
      (sectionAt (peTable memory pe) earlier)) →
    sectionAt (peTable memory pe) index + 20 ≤ size ∧
      (¬ IsEmptySection (fixedHeaders arguments memory pe) (sectionAt (peTable memory pe) index) →
        arguments.silent = false →
          sectionAt (peTable memory pe) index + sizeofPeSectionHeader ≤ size)

/-- Behind each check that a file passes lie the fields up to the next one. -/
def CoffFits (size : UInt64) (arguments : FixupArguments) (memory : ByteStore) (pe : ℕ) : Prop :=
  pe + 4 ≤ size.toNat ∧ (memory.u32 pe = peHeaderSignature →
    pe + 8 ≤ size.toNat ∧
      (PeImageHeaders.numberOfSections memory pe ≤ peHeaderMaxNumberOfSections →
        pe + 24 ≤ size.toNat ∧ (FlagsAccepted memory pe → peTable memory pe ≤ size.toNat →
          pe + 26 ≤ size.toNat ∧ (MagicAccepted memory pe →
            TableWithin size.toNat arguments memory pe ∧
              SectionsFit size.toNat arguments memory pe))))

/-- The same from the beginning of the file. -/
def HeadersFit (size : UInt64) (arguments : FixupArguments) (memory : ByteStore) : Prop :=
  2 ≤ size.toNat ∧ (DosAccepted size memory → CoffFits size arguments memory (peOffset memory))

section Inside

variable {size limit pe : ℕ} {memory : ByteStore} {arguments : FixupArguments}

theorem inside_refuse_iff {condition : Prop} [Decidable condition] {exit : FixupExit}
    {rest : FixupRun} :
    AccessRun.Inside size (if condition then ⟨exit, memory, []⟩ else rest) ↔
      (¬ condition → AccessRun.Inside size rest) := by
  split_ifs with bad
  · exact ⟨fun _ ok => absurd bad ok, fun _ => AccessRun.inside_nil⟩
  · exact ⟨fun inside _ => inside, fun inside => inside bad⟩

variable (mapped : size ≤ limit)

include mapped

/-- The loop that looks for empty sections. -/
theorem inside_checkSections_iff {silent : Bool} {count section_ : ℕ} {rest : FixupRun} :
    AccessRun.Inside size (checkSections limit silent memory count section_ rest) ↔
      (∀ index < count, (∀ earlier < index, ¬ IsEmptySection memory (sectionAt section_ earlier)) →
        sectionAt section_ index + 20 ≤ size ∧
          (¬ IsEmptySection memory (sectionAt section_ index) → silent = false →
            sectionAt section_ index + sizeofPeSectionHeader ≤ size)) ∧
      ((∀ index < count, ¬ IsEmptySection memory (sectionAt section_ index)) →
        AccessRun.Inside size rest) := by
  induction count generalizing section_ with
  | zero => simp [checkSections]
  | succ count ih =>
    have start : sectionAt section_ 0 = section_ := rfl
    rw [checkSections, AccessRun.inside_touch_iff mapped, Window.within_iff_of_pos (by decide),
      Nat.forall_lt_succ_left, Nat.forall_lt_succ_left]
    simp only [sectionAt_succ, start, Nat.not_lt_zero, IsEmpty.forall_iff, implies_true,
      true_implies, Nat.forall_lt_succ_left]
    by_cases empty : IsEmptySection memory section_
    · rw [if_pos (emptySection_iff.mpr empty), AccessRun.inside_touch_iff mapped]
      simp only [empty, not_true_eq_false, IsEmpty.forall_iff, false_and, implies_true, and_true,
        AccessRun.inside_nil]
      exact and_iff_left_of_imp fun room => nameWindow_within memory (by omega)
    · rw [if_neg (emptySection_iff.not.mpr empty), AccessRun.inside_touchAll_iff mapped, ih]
      simp only [empty, not_false_eq_true, true_and, true_implies]
      rw [← and_assoc, ← and_assoc]
      refine and_congr_left fun _ => and_congr_left fun _ => and_congr_right fun room => ?_
      exact sectionPrints_within_iff silent room

theorem inside_fixupImageSize_iff {silent : Bool} (subsystem : pe + 94 ≤ size) :
    AccessRun.Inside size (fixupImageSize limit silent pe memory) ↔
      (∀ index < (PeImageHeaders.numberOfSections memory pe).toNat,
        sectionAt (peTable memory pe) index + 16 ≤ size) ∧
      ∀ index < (PeImageHeaders.numberOfSections memory pe).toNat,
        (∀ earlier < index, ¬ IsEmptySection memory (sectionAt (peTable memory pe) earlier)) →
          sectionAt (peTable memory pe) index + 20 ≤ size ∧
            (¬ IsEmptySection memory (sectionAt (peTable memory pe) index) → silent = false →
              sectionAt (peTable memory pe) index + sizeofPeSectionHeader ≤ size) := by
  rw [fixupImageSize, AccessRun.inside_touchAll_iff mapped, vmaReads_within_iff,
    inside_checkSections_iff mapped, AccessRun.inside_touch_iff mapped]
  refine and_congr_right fun _ => and_iff_left fun _ => ⟨?_, AccessRun.inside_nil⟩
  rw [Window.within_iff_of_pos (by decide)]
  omega

theorem inside_fixupAlignments_iff {silent : Bool} (subsystem : pe + 94 ≤ size) :
    AccessRun.Inside size (fixupAlignments limit silent pe memory) ↔
      (silent = false → pe + 96 ≤ size) ∧
        AccessRun.Inside size (fixupImageSize limit silent pe
          (patchSectionAlignment (patchFileAlignment memory pe) pe)) := by
  have alignments : pe + 60 + 4 ≤ size ∧ pe + 56 + 4 ≤ size := by omega
  rw [fixupAlignments, AccessRun.inside_touch_iff mapped, AccessRun.inside_touch_iff mapped,
    AccessRun.inside_touchAll_iff mapped, Window.within_iff_of_pos (by decide),
    Window.within_iff_of_pos (by decide), headerPrints_within_iff silent]
  simp [alignments]

theorem inside_fixupSubsystem_iff :
    AccessRun.Inside size (fixupSubsystem limit arguments pe memory) ↔
      pe + 94 ≤ size ∧ (IsEfiApplication memory pe → pe + 96 ≤ size) ∧
        AccessRun.Inside size (fixupAlignments limit arguments.silent pe
          (patchSubsystem arguments memory pe)) := by
  rw [fixupSubsystem, AccessRun.inside_touch_iff mapped, Window.within_iff_of_pos (by decide)]
  apply and_congr_right
  intro bound
  by_cases application : IsEfiApplication memory pe
  · rw [if_pos (efiApplication_iff.mpr application), patchSubsystem, if_pos application]
    cases arguments.efiVersion with
    | none =>
      dsimp only
      rw [AccessRun.inside_touch_iff mapped, Window.within_iff_of_pos (by decide)]
      simp [application]
    | some version =>
      dsimp only
      rw [AccessRun.inside_touch_iff mapped, AccessRun.inside_touch_iff mapped,
        AccessRun.inside_touch_iff mapped, Window.within_iff_of_pos (by decide),
        Window.within_iff_of_pos (by decide), Window.within_iff_of_pos (by decide)]
      have versions : pe + 72 + 4 ≤ size ∧ pe + 64 + 4 ≤ size := by omega
      simp [application, versions]
  · rw [if_neg (efiApplication_iff.not.mpr application), patchSubsystem, if_neg application]
    simp [application]

theorem inside_fixupMagic_iff (flags : pe + 24 ≤ size) :
    AccessRun.Inside size (fixupMagic limit arguments pe memory) ↔
      pe + 26 ≤ size ∧ (MagicAccepted memory pe →
        TableWithin size arguments memory pe ∧ SectionsFit size arguments memory pe) := by
  rw [fixupMagic, AccessRun.inside_touch_iff mapped, AccessRun.inside_touch_iff mapped,
    Window.within_iff_of_pos (by decide), Window.within_iff_of_pos (by decide), inside_refuse_iff,
    magic_rejected_iff, not_not, inside_fixupSubsystem_iff mapped, isEfiApplication_patched,
    and_iff_right flags]
  refine and_congr_right fun _ => forall_congr' fun _ => ?_
  obtain ⟨table, count⟩ := @fixedHeaders_table pe memory arguments
  have behind : pe + 94 ≤ size →
      (AccessRun.Inside size (fixupAlignments limit arguments.silent pe
        (patchSubsystem arguments (patchCharacteristics memory pe) pe)) ↔
      (arguments.silent = false → pe + 96 ≤ size) ∧
        (∀ index < (PeImageHeaders.numberOfSections memory pe).toNat,
          sectionAt (peTable memory pe) index + 16 ≤ size) ∧
        SectionsFit size arguments memory pe) := by
    intro subsystem
    rw [inside_fixupAlignments_iff mapped subsystem, inside_fixupImageSize_iff mapped subsystem,
      ← fixedHeaders, table, count]
    rfl
  constructor
  · rintro ⟨subsystem, efi, inside⟩
    obtain ⟨prints, addresses, sections⟩ := (behind subsystem).mp inside
    exact ⟨⟨subsystem, efi, prints, addresses⟩, sections⟩
  · rintro ⟨⟨subsystem, efi, prints, addresses⟩, sections⟩
    exact ⟨subsystem, efi, (behind subsystem).mpr ⟨prints, addresses, sections⟩⟩

end Inside

section Checks

variable {size : UInt64} {limit : ℕ} {memory : ByteStore} {arguments : FixupArguments}
  (mapped : size.toNat ≤ limit)

include mapped

theorem inside_fixupCoff_iff {offset : UInt32} :
    AccessRun.Inside size.toNat (fixupCoff limit arguments size offset memory) ↔
      CoffFits size arguments memory offset.toNat := by
  have small := offset.toNat_lt
  have length := (PeImageHeaders.sizeOfOptionalHeader memory offset.toNat).toNat_lt
  have total : (UInt64.ofNat sizeofPeCoffHeader).toNat = 24 := rfl
  have table : peTable memory offset.toNat = offset.toNat + 24 +
    (PeImageHeaders.sizeOfOptionalHeader memory offset.toNat).toNat := rfl
  simp only [fixupCoff, AccessRun.inside_touch_iff mapped, inside_refuse_iff, bne_iff_ne, ne_eq,
    not_not, UInt64.lt_iff_toNat_lt, UInt64.toNat_add, UInt32.toNat_toUInt64,
    UInt16.toNat_toUInt64, total, Nat.not_lt, gt_iff_lt, UInt16.not_lt,
    Window.within_iff_of_pos (Nat.succ_pos _)]
  refine and_congr_right fun _ => forall_congr' fun _ => ?_
  refine and_congr_right fun _ => forall_congr' fun _ => ?_
  apply and_congr_right
  intro room
  rw [inside_fixupMagic_iff mapped room]
  constructor
  · rintro inside ⟨relocs, reversed⟩ optional
    apply (inside relocs reversed).2
    omega
  · intro inside relocs reversed
    refine ⟨by omega, fun optional => inside ⟨relocs, reversed⟩ ?_⟩
    omega

theorem inside_fixupDos_iff :
    AccessRun.Inside size.toNat (fixupDos limit arguments size memory) ↔
      HeadersFit size arguments memory := by
  simp only [fixupDos, AccessRun.inside_touch_iff mapped, inside_refuse_iff,
    inside_fixupCoff_iff mapped, bne_iff_ne, ne_eq, not_not, UInt64.lt_iff_toNat_lt,
    UInt32.toNat_toUInt64, Nat.not_lt, Window.within_iff_of_pos (Nat.succ_pos _)]
  rw [HeadersFit, DosAccepted]
  refine and_congr_right fun _ => ⟨?_, fun inside dos dosSize => ⟨?_, fun offset => ?_⟩⟩
  · rintro inside ⟨dos, dosSize, offset⟩
    exact (inside dos dosSize).2 offset
  · exact dosSize
  · exact inside ⟨dos, dosSize, offset⟩

end Checks

/-- Every access of a run lies in the file exactly when the fields behind the checks that the file
passes do. -/
theorem peFixup_inside_iff {options : List FixupOption} {system : FixupSystem} {file : InputFile} :
    AccessRun.Inside file.size.toNat (peFixup options system file) ↔ ∀ arguments,
      FixupStarts options system file arguments →
        HeadersFit file.size arguments file.mapped := by
  have mapped : file.size.toNat ≤ mappedLimit file.size := le_roundUp (by decide) _
  by_cases started : ∃ arguments, FixupStarts options system file arguments
  · obtain ⟨arguments, starts⟩ := started
    rw [peFixup_started starts, inside_fixupDos_iff mapped]
    constructor
    · intro fits other starts'
      rwa [← starts.unique starts']
    · exact fun fits => fits arguments starts
  · rw [not_exists] at started
    obtain ⟨text, run⟩ := peFixup_unstarted started
    rw [run]
    exact iff_of_true AccessRun.inside_nil fun arguments starts => absurd starts (started arguments)

/-- A file that ends with the magic number of its optional header, which it declares two bytes long. -/
def shortExecutable : InputFile :=
  ⟨0x5a, .ofFields [(0, 2, 0x5a4d), (0x3c, 4, 0x40), (0x40, 4, 0x4550), (0x54, 2, 2),
    (0x58, 2, 0x20b)]⟩

/-- It is accepted, and the optional header accessed behind its end. -/
theorem not_peFixup_inside_short :
    ¬ ∀ (options : List FixupOption) (system : FixupSystem) (file : InputFile),
      AccessRun.Inside file.size.toNat (peFixup options system file) := by
  intro claim
  have inside := claim smallOptions smallSystem shortExecutable ⟨0x9c, 2⟩ (by decide +kernel)
  revert inside
  decide

end ZLoader
