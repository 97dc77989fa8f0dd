import ZLoader.Model.Tools.PeFixup

/-! # How far the header patcher gets

The checks that refuse a file are the same for every property of a run, and so are the accesses that
must lie in the mapping for the run to go on. What holds at the end of every run is reduced here,
stage by stage, to what holds where a run can end.
-/

namespace ZLoader

/-! ## The headers -/

def peOffset (memory : ByteStore) : ℕ := (memory.u32 dosPeOffsetLocation).toNat

/-- The checks that come before the first change. -/
structure HeadersAccepted (size : UInt64) (memory : ByteStore) : Prop where
  dos : memory.u16 0 = mzDosSignature
  dosSize : 64 ≤ size.toNat
  offset : (memory.u32 dosPeOffsetLocation + 26).toNat ≤ size.toNat
  signature : memory.u32 (peOffset memory) = peHeaderSignature
  sections : PeImageHeaders.numberOfSections memory (peOffset memory) ≤ peHeaderMaxNumberOfSections
  relocs : PeImageHeaders.characteristics memory (peOffset memory) &&& peHeaderRelocsStripped = 0
  reversed : PeImageHeaders.characteristics memory (peOffset memory) &&&
    (peHeaderBytesReversedLo ||| peHeaderBytesReversedHi) = 0
  optionalHeader : peTable memory (peOffset memory) ≤ size.toNat

def MagicAccepted (memory : ByteStore) (pe : ℕ) : Prop :=
  PeImageHeaders.magic memory pe = peHeaderOptionalHdr32Magic ∨
    PeImageHeaders.magic memory pe = peHeaderOptionalHdr64Magic

def IsEfiApplication (memory : ByteStore) (pe : ℕ) : Prop :=
  PeImageHeaders.subsystem memory pe = peHeaderSubsystemEfiApplication

instance (memory : ByteStore) (pe : ℕ) : Decidable (MagicAccepted memory pe) :=
  inferInstanceAs (Decidable (_ ∨ _))

instance (memory : ByteStore) (pe : ℕ) : Decidable (IsEfiApplication memory pe) :=
  inferInstanceAs (Decidable (_ = _))

theorem efiApplication_iff {memory : ByteStore} {pe : ℕ} :
    (PeImageHeaders.subsystem memory pe == peHeaderSubsystemEfiApplication) = true ↔
      IsEfiApplication memory pe := beq_iff_eq

/-- The changes of an EFI application. -/
def patchSubsystem (arguments : FixupArguments) (memory : ByteStore) (pe : ℕ) : ByteStore :=
  if IsEfiApplication memory pe then
    match arguments.efiVersion with
    | none => memory.writeLE (pe + 94) 2 0
    | some version =>
        (writeVersion (writeVersion memory (pe + 72) version) (pe + 64) version).writeLE (pe + 94) 2 0
  else memory

/-- The headers when the section table is looked at. -/
def fixedHeaders (arguments : FixupArguments) (memory : ByteStore) (pe : ℕ) : ByteStore :=
  patchSectionAlignment
    (patchFileAlignment (patchSubsystem arguments (patchCharacteristics memory pe) pe) pe) pe

/-- The section headers that the file announces. -/
def peSections (memory : ByteStore) (pe : ℕ) : List PeSectionHeader :=
  sectionHeaders memory (peTable memory pe) (PeImageHeaders.numberOfSections memory pe).toNat

/-! ## The fields that the changes keep -/

/-- What lies outside of the fields that are changed before the section table is looked at. -/
def Unpatched (pe offset : ℕ) : Prop :=
  offset < pe + 22 ∨ pe + 24 ≤ offset ∧ offset < pe + 56 ∨ pe + 68 ≤ offset ∧ offset < pe + 72 ∨
    pe + 76 ≤ offset ∧ offset < pe + 94 ∨ pe + 96 ≤ offset

section Fields

variable (memory : ByteStore) (pe : ℕ)

theorem patchCharacteristics_keeps :
    ByteStore.Keeps (fun offset => offset < pe + 22 ∨ pe + 24 ≤ offset) memory
      (patchCharacteristics memory pe) :=
  ByteStore.keeps_writeLE _ _ fun _ outside => outside

theorem writeVersion_keeps (offset : ℕ) (version : UInt16 × UInt16) :
    ByteStore.Keeps (fun at_ => at_ < offset ∨ offset + 4 ≤ at_) memory
      (writeVersion memory offset version) := by
  refine (ByteStore.keeps_writeLE _ _ ?_).trans (ByteStore.keeps_writeLE _ _ ?_)
  all_goals
    intro at_ outside
    omega

theorem patchSubsystem_keeps (arguments : FixupArguments) :
    ByteStore.Keeps (fun offset => offset < pe + 64 ∨ pe + 68 ≤ offset ∧ offset < pe + 72 ∨
      pe + 76 ≤ offset ∧ offset < pe + 94 ∨ pe + 96 ≤ offset) memory
      (patchSubsystem arguments memory pe) := by
  rw [patchSubsystem]
  split_ifs with application
  · cases arguments.efiVersion with
    | none => exact ByteStore.keeps_writeLE _ _ fun _ outside => by omega
    | some version =>
      refine (((writeVersion_keeps memory (pe + 72) version).mono ?_).trans
        ((writeVersion_keeps _ (pe + 64) version).mono ?_)).trans (ByteStore.keeps_writeLE _ _ ?_)
      all_goals
        intro offset outside
        omega
  · exact .refl _ _

theorem patchFileAlignment_keeps :
    ByteStore.Keeps (fun offset => offset < pe + 60 ∨ pe + 64 ≤ offset) memory
      (patchFileAlignment memory pe) := by
  rw [patchFileAlignment]
  split_ifs
  · exact ByteStore.keeps_writeLE _ _ fun _ outside => outside
  · exact .refl _ _

theorem patchSectionAlignment_keeps :
    ByteStore.Keeps (fun offset => offset < pe + 56 ∨ pe + 60 ≤ offset) memory
      (patchSectionAlignment memory pe) := by
  rw [patchSectionAlignment]
  split_ifs
  · exact ByteStore.keeps_writeLE _ _ fun _ outside => outside
  · exact .refl _ _

theorem fixedHeaders_keeps (arguments : FixupArguments) :
    ByteStore.Keeps (Unpatched pe) memory (fixedHeaders arguments memory pe) := by
  refine ((((patchCharacteristics_keeps memory pe).mono ?_).trans
    ((patchSubsystem_keeps _ pe arguments).mono ?_)).trans
    ((patchFileAlignment_keeps _ pe).mono ?_)).trans ((patchSectionAlignment_keeps _ pe).mono ?_)
  all_goals
    intro offset outside
    rw [Unpatched] at outside
    omega

end Fields

/-! ## What holds at the end of a run -/

section Ends

variable {good : FixupExit → ByteStore → Prop} {limit pe : ℕ} {memory : ByteStore}
  {arguments : FixupArguments}

theorem ends_refuse_iff {condition : Prop} [Decidable condition] {text : String} {rest : FixupRun}
    (refused : good (.failed text) memory) :
    (if condition then ⟨.failed text, memory, []⟩ else rest : FixupRun).Ends good ↔
      (¬ condition → rest.Ends good) := by
  split_ifs with bad
  · exact ⟨fun _ ok => absurd bad ok, fun _ => refused⟩
  · exact ⟨fun ends _ => ends, fun ends => ends bad⟩

theorem magicAccepted_patched :
    MagicAccepted (patchCharacteristics memory pe) pe ↔ MagicAccepted memory pe := by
  have magic : PeImageHeaders.magic (patchCharacteristics memory pe) pe =
      PeImageHeaders.magic memory pe :=
    (patchCharacteristics_keeps memory pe).u16 fun _ lower _ => .inr lower
  rw [MagicAccepted, MagicAccepted, magic]

/-- The check of the magic number, behind the first change. -/
theorem magic_rejected_iff : (PeImageHeaders.magic (patchCharacteristics memory pe) pe
    != peHeaderOptionalHdr32Magic && PeImageHeaders.magic (patchCharacteristics memory pe) pe
    != peHeaderOptionalHdr64Magic) = true ↔ ¬ MagicAccepted memory pe := by
  rw [← magicAccepted_patched, MagicAccepted, not_or, Bool.and_eq_true, bne_iff_ne, bne_iff_ne]

/-- The fields that are printed end with the flags of the optional header. -/
theorem headerPrints_within_iff (silent : Bool) :
    (∀ window ∈ if silent then [] else headerPrints pe, window.Within limit) ↔
      (silent = false → pe + 96 ≤ limit) := by
  cases silent with
  | true => simp
  | false =>
    simp only [headerPrints, Bool.false_eq_true, if_false, List.forall_mem_cons,
      Window.within_iff_of_pos (Nat.succ_pos _), List.not_mem_nil, IsEmpty.forall_iff, implies_true,
      true_implies, and_true]
    omega

section Faulted

variable (faulted : ∀ memory, good .fault memory)

include faulted

/-- A file is refused unchanged, or gets to the first change. -/
theorem ends_fixupDos_iff {size : UInt64} (mapped : size.toNat ≤ limit)
    (refused : ∀ text, good (.failed text) memory) :
    (fixupDos limit arguments size memory).Ends good ↔ (HeadersAccepted size memory →
      (fixupMagic limit arguments (peOffset memory) memory).Ends good) := by
  have pe : (memory.u32 dosPeOffsetLocation).toNat = peOffset memory := rfl
  have small : peOffset memory < 2 ^ 32 := (memory.u32 dosPeOffsetLocation).toNat_lt
  have length := (PeImageHeaders.sizeOfOptionalHeader memory (peOffset memory)).toNat_lt
  have total : (UInt64.ofNat sizeofPeCoffHeader).toNat = 24 := rfl
  have table : peTable memory (peOffset memory) = peOffset memory + 24 +
    (PeImageHeaders.sizeOfOptionalHeader memory (peOffset memory)).toNat := rfl
  simp only [fixupDos, fixupCoff, AccessRun.ends_touch_iff faulted, ends_refuse_iff (refused _),
    bne_iff_ne, ne_eq, not_not, UInt64.lt_iff_toNat_lt, UInt64.toNat_add, UInt32.toNat_toUInt64,
    UInt16.toNat_toUInt64, pe, total, Nat.not_lt, gt_iff_lt, UInt16.not_lt,
    Window.within_iff_of_pos (Nat.succ_pos _)]
  constructor
  · intro ends accepted
    have optional := accepted.optionalHeader
    have dosSize := accepted.dosSize
    have location : dosPeOffsetLocation = 0x3c := rfl
    refine ends ?_ accepted.dos dosSize ?_ accepted.offset ?_ accepted.signature ?_
      accepted.sections ?_ accepted.relocs accepted.reversed ?_ ?_
    all_goals omega
  · intro ends _ dos dosSize _ offset _ signature _ sections _ relocs reversed _ optional
    refine ends ⟨dos, dosSize, offset, signature, sections, relocs, reversed, ?_⟩
    omega

/-- The magic number is checked after the first change. -/
theorem ends_fixupMagic_iff (mapped : pe + 24 ≤ limit) :
    (fixupMagic limit arguments pe memory).Ends good ↔ (pe + 26 ≤ limit →
      (¬ MagicAccepted memory pe →
        good (.failed "missing OPTHDR signature\n") (patchCharacteristics memory pe)) ∧
      (MagicAccepted memory pe →
        (fixupSubsystem limit arguments pe (patchCharacteristics memory pe)).Ends good)) := by
  have flags : (Window.mk (pe + 22) 2).Within limit :=
    (Window.within_iff_of_pos (by decide)).mpr mapped
  rw [fixupMagic, AccessRun.ends_touch_iff faulted, AccessRun.ends_touch_iff faulted,
    forall_prop_of_true flags, Window.within_iff_of_pos (by decide)]
  by_cases accepted : MagicAccepted memory pe
  · rw [if_neg (fun bad => magic_rejected_iff.mp bad accepted)]
    simp [accepted]
  · rw [if_pos (magic_rejected_iff.mpr accepted)]
    simp [accepted, AccessRun.Ends]

/-- The changes of an EFI application reach the flags of the optional header. -/
theorem ends_fixupSubsystem_iff :
    (fixupSubsystem limit arguments pe memory).Ends good ↔ (pe + 94 ≤ limit →
      (IsEfiApplication memory pe → pe + 96 ≤ limit) →
        (fixupAlignments limit arguments.silent pe (patchSubsystem arguments memory pe)).Ends
          good) := by
  have window {start : ℕ} (width : ℕ) (positive : 0 < width) (bound : start + width ≤ limit) :
      (Window.mk start width).Within limit := (Window.within_iff_of_pos positive).mpr bound
  rw [fixupSubsystem, AccessRun.ends_touch_iff faulted, Window.within_iff_of_pos (by decide)]
  apply forall_congr'
  intro bound
  by_cases application : IsEfiApplication memory pe
  · rw [if_pos (efiApplication_iff.mpr application), patchSubsystem, if_pos application]
    cases arguments.efiVersion with
    | none =>
      dsimp only
      rw [AccessRun.ends_touch_iff faulted, Window.within_iff_of_pos (by decide)]
      simp [application]
    | some version =>
      dsimp only
      rw [AccessRun.ends_touch_iff faulted, AccessRun.ends_touch_iff faulted,
        AccessRun.ends_touch_iff faulted, Window.within_iff_of_pos (by decide),
        Window.within_iff_of_pos (by decide), Window.within_iff_of_pos (by decide)]
      have versions : pe + 72 + 4 ≤ limit ∧ pe + 64 + 4 ≤ limit := by omega
      simp [application, versions]
  · rw [if_neg (efiApplication_iff.not.mpr application), patchSubsystem, if_neg application]
    simp [application]

theorem ends_fixupAlignments_iff (silent : Bool) (mapped : pe + 94 ≤ limit) :
    (fixupAlignments limit silent pe memory).Ends good ↔ ((silent = false → pe + 96 ≤ limit) →
      (fixupImageSize limit silent pe
        (patchSectionAlignment (patchFileAlignment memory pe) pe)).Ends good) := by
  have alignments : pe + 60 + 4 ≤ limit ∧ pe + 56 + 4 ≤ limit := by omega
  rw [fixupAlignments, AccessRun.ends_touch_iff faulted, AccessRun.ends_touch_iff faulted,
    AccessRun.ends_touchAll_iff faulted, Window.within_iff_of_pos (by decide),
    Window.within_iff_of_pos (by decide), headerPrints_within_iff silent]
  simp [alignments]

end Faulted

end Ends

/-! ## The section table -/

/-- The offset of a section header. -/
def sectionAt (table index : ℕ) : ℕ := table + sizeofPeSectionHeader * index

def IsEmptySection (memory : ByteStore) (section_ : ℕ) : Prop :=
  (PeSectionHeader.read memory section_).sizeOfRawData = 0

theorem emptySection_iff {memory : ByteStore} {section_ : ℕ} :
    ((PeSectionHeader.read memory section_).sizeOfRawData == 0) = true ↔
      IsEmptySection memory section_ := beq_iff_eq

theorem sectionAt_succ (table index : ℕ) :
    sectionAt table (index + 1) = sectionAt (table + sizeofPeSectionHeader) index := by
  rw [sectionAt, sectionAt, Nat.mul_succ]
  omega

theorem nameWindow_within (memory : ByteStore) {section_ limit : ℕ} (room : section_ + 8 ≤ limit) :
    (nameWindow memory section_).Within limit := by
  rw [Window.within_iff]
  refine .inr (Nat.le_trans (Nat.add_le_add_left (Nat.min_le_left _ _) _) ?_)
  exact room

section Table

variable {limit : ℕ} {memory : ByteStore}

/-- The loop that finds the end of the image looks at the address of every section. -/
theorem vmaReads_within_iff {count section_ : ℕ} {largest : UInt64} :
    (∀ window ∈ vmaReads memory count section_ largest, window.Within limit) ↔
      ∀ index < count, sectionAt section_ index + 16 ≤ limit := by
  induction count generalizing section_ largest with
  | zero => simp [vmaReads]
  | succ count ih =>
    rw [vmaReads, List.forall_mem_cons, Window.within_iff_of_pos (by decide),
      Nat.forall_lt_succ_left]
    apply and_congr_right
    intro first
    simp only [sectionAt_succ]
    split_ifs
    · rw [List.forall_mem_cons, Window.within_iff_of_pos (by decide), ih]
      exact and_iff_right (by omega)
    · exact ih

/-- The fields of a section header that are printed end with it. -/
theorem sectionPrints_within_iff (silent : Bool) {section_ : ℕ} (mapped : section_ + 20 ≤ limit) :
    (∀ window ∈ if silent then [] else sectionPrints memory section_, window.Within limit) ↔
      (silent = false → section_ + sizeofPeSectionHeader ≤ limit) := by
  have name := @nameWindow_within memory section_ limit (by omega)
  have size : sizeofPeSectionHeader = 40 := rfl
  cases silent with
  | true => simp
  | false =>
    simp only [sectionPrints, Bool.false_eq_true, if_false, List.forall_mem_cons, name, true_and,
      Window.within_iff_of_pos (Nat.succ_pos _), List.not_mem_nil, IsEmpty.forall_iff, implies_true,
      true_implies, and_true]
    omega

/-- A section header in front of the end of the table lies in the mapping when the fields of the
last section do that the first loop looks at. -/
theorem ends_checkSections_iff {good : FixupExit → ByteStore → Prop}
    (faulted : ∀ memory, good .fault memory) {silent : Bool} {count section_ : ℕ} {rest : FixupRun}
    (mapped : ∀ index < count, sectionAt section_ index + 16 ≤ limit) :
    (checkSections limit silent memory count section_ rest).Ends good ↔
      ((∃ index < count, IsEmptySection memory (sectionAt section_ index) ∧
          sectionAt section_ index + 20 ≤ limit) →
        good (.failed "section %.*s has size 0 and is and is empty") memory) ∧
      ((∀ index < count, ¬ IsEmptySection memory (sectionAt section_ index) ∧
          sectionAt section_ index + 20 ≤ limit ∧
          (silent = false → sectionAt section_ index + sizeofPeSectionHeader ≤ limit)) →
        rest.Ends good) := by
  induction count generalizing section_ with
  | zero => simp [checkSections]
  | succ count ih =>
    rw [Nat.forall_lt_succ_left] at mapped
    obtain ⟨first, others⟩ := mapped
    simp only [sectionAt_succ] at others
    have start : sectionAt section_ 0 = section_ := rfl
    rw [start] at first
    rw [checkSections, AccessRun.ends_touch_iff faulted, Window.within_iff_of_pos (by decide),
      Nat.exists_lt_succ_left, Nat.forall_lt_succ_left]
    simp only [sectionAt_succ, start]
    by_cases empty : IsEmptySection memory section_
    · have name := @nameWindow_within memory section_ limit (by omega)
      rw [if_pos (emptySection_iff.mpr empty), AccessRun.ends_touch_iff faulted, forall_prop_of_true name]
      constructor
      · refine fun ends => ⟨?_, fun all => absurd empty all.1.1⟩
        rintro (⟨-, room⟩ | ⟨index, -, -, room⟩)
        · exact ends room
        · apply ends
          rw [sectionAt] at room
          omega
      · exact fun ends room => ends.1 (.inl ⟨empty, room⟩)
    · rw [if_neg (emptySection_iff.not.mpr empty), AccessRun.ends_touchAll_iff faulted, ih others]
      constructor
      · intro ends
        refine ⟨?_, fun ⟨⟨_, room, prints⟩, behind⟩ => ?_⟩
        · rintro (⟨last, -⟩ | ⟨index, bound, last, room⟩)
          · exact absurd last empty
          · have later := others index bound
            rw [sectionAt] at room later
            have printed := (@sectionPrints_within_iff limit memory silent section_ (by omega)).mpr
              (by omega)
            exact (ends (by omega) printed).1 ⟨index, bound, last, room⟩
        · have printed := (@sectionPrints_within_iff limit memory silent section_ room).mpr prints
          exact (ends room printed).2 behind
      · rintro ⟨found, completed⟩ room printed
        have prints := (@sectionPrints_within_iff limit memory silent section_ room).mp printed
        refine ⟨fun last => found (.inr last), fun behind => completed ⟨⟨empty, room, prints⟩, behind⟩⟩

end Table

/-! ## The whole run -/

/-- The accesses on the way to the loop that looks for empty sections lie below a limit. -/
structure TableWithin (limit : ℕ) (arguments : FixupArguments) (memory : ByteStore) (pe : ℕ) :
    Prop where
  subsystem : pe + 94 ≤ limit
  efi : IsEfiApplication memory pe → pe + 96 ≤ limit
  prints : arguments.silent = false → pe + 96 ≤ limit
  addresses : ∀ index < (PeImageHeaders.numberOfSections memory pe).toNat,
    sectionAt (peTable memory pe) index + 16 ≤ limit

/-- That loop gets to an empty section. -/
def MeetsEmptySection (limit : ℕ) (arguments : FixupArguments) (memory : ByteStore) (pe : ℕ) : Prop :=
  ∃ index < (PeImageHeaders.numberOfSections memory pe).toNat,
    IsEmptySection (fixedHeaders arguments memory pe) (sectionAt (peTable memory pe) index) ∧
      sectionAt (peTable memory pe) index + 20 ≤ limit

/-- That loop passes all sections. -/
def PassesSections (limit : ℕ) (arguments : FixupArguments) (memory : ByteStore) (pe : ℕ) : Prop :=
  ∀ index < (PeImageHeaders.numberOfSections memory pe).toNat,
    ¬ IsEmptySection (fixedHeaders arguments memory pe) (sectionAt (peTable memory pe) index) ∧
      sectionAt (peTable memory pe) index + 20 ≤ limit ∧
      (arguments.silent = false →
        sectionAt (peTable memory pe) index + sizeofPeSectionHeader ≤ limit)

/-- The end of the image, as it is written. -/
def imageEnd (memory : ByteStore) (pe : ℕ) : UInt32 :=
  (alignVma (largestVma (peSections memory pe)) (PeImageHeaders.sectionAlignment memory pe)).toUInt32

/-- The size of the image is the last change. -/
def patchImageSize (memory : ByteStore) (pe : ℕ) : ByteStore :=
  memory.writeLE (pe + 80) 4 (imageEnd memory pe).toNat

/-- The file is mapped. -/
structure FixupStarts (options : List FixupOption) (system : FixupSystem) (file : InputFile)
    (arguments : FixupArguments) : Prop where
  parsed : parseOptions options ⟨none, false, none⟩ = .ok arguments
  filename : arguments.filename.isSome
  openat : system.openat
  statx : system.statx
  mmap : system.mmap
  nonempty : file.size ≠ 0

section Start

variable {options : List FixupOption} {system : FixupSystem} {file : InputFile}
  {arguments : FixupArguments}

theorem FixupStarts.unique {other : FixupArguments} (starts : FixupStarts options system file arguments)
    (starts' : FixupStarts options system file other) : arguments = other :=
  Except.ok.inj (starts.parsed.symm.trans starts'.parsed)

theorem peFixup_started (starts : FixupStarts options system file arguments) :
    peFixup options system file =
      fixupDos (mappedLimit file.size) arguments file.size file.mapped := by
  have named : ¬ arguments.filename.isNone = true := by
    rw [Bool.not_eq_true, Option.isNone_eq_false_iff]
    exact starts.filename
  rw [peFixup, starts.parsed]
  dsimp only
  rw [if_neg named]
  simp [starts.openat, starts.statx, starts.mmap, starts.nonempty]

/-- Without a mapping there is nothing but a message. -/
theorem peFixup_unstarted (never : ∀ arguments, ¬ FixupStarts options system file arguments) :
    ∃ text, peFixup options system file = ⟨.failed text, file.mapped, []⟩ := by
  rw [peFixup]
  cases parsed : parseOptions options ⟨none, false, none⟩ with
  | error text => exact ⟨text, rfl⟩
  | ok arguments =>
    dsimp only
    split_ifs with filename openat statx mmap
    · exact ⟨_, rfl⟩
    · exact ⟨_, rfl⟩
    · exact ⟨_, rfl⟩
    · exact ⟨_, rfl⟩
    · rw [Bool.not_eq_true, Option.isNone_eq_false_iff] at filename
      rw [Bool.not_eq_true, Bool.not_eq_false'] at openat statx
      rw [Bool.or_eq_true, Bool.not_eq_true', beq_iff_eq, not_or, Bool.not_eq_false] at mmap
      exact absurd ⟨parsed, filename, openat, statx, mmap.1, mmap.2⟩ (never arguments)

end Start

section Run

variable {good : FixupExit → ByteStore → Prop} {limit pe : ℕ} {memory : ByteStore}
  {arguments : FixupArguments}

theorem fixedHeaders_table :
    peTable (fixedHeaders arguments memory pe) pe = peTable memory pe ∧
      PeImageHeaders.numberOfSections (fixedHeaders arguments memory pe) pe =
        PeImageHeaders.numberOfSections memory pe := by
  have keeps := fixedHeaders_keeps memory pe arguments
  have length : PeImageHeaders.sizeOfOptionalHeader (fixedHeaders arguments memory pe) pe =
      PeImageHeaders.sizeOfOptionalHeader memory pe :=
    keeps.u16 fun offset _ upper => .inl (by omega)
  have count : PeImageHeaders.numberOfSections (fixedHeaders arguments memory pe) pe =
      PeImageHeaders.numberOfSections memory pe :=
    keeps.u16 fun offset _ upper => .inl (by omega)
  rw [peTable, peTable, length]
  exact ⟨rfl, count⟩

theorem isEfiApplication_patched :
    IsEfiApplication (patchCharacteristics memory pe) pe ↔ IsEfiApplication memory pe := by
  have subsystem : PeImageHeaders.subsystem (patchCharacteristics memory pe) pe =
      PeImageHeaders.subsystem memory pe :=
    (patchCharacteristics_keeps memory pe).u16 fun _ lower _ => .inr (by omega)
  rw [IsEfiApplication, IsEfiApplication, subsystem]

variable (faulted : ∀ memory, good .fault memory)

include faulted

theorem ends_fixupImageSize_iff {silent : Bool} (mapped : pe + 84 ≤ limit) :
    (fixupImageSize limit silent pe memory).Ends good ↔
      ((∀ index < (PeImageHeaders.numberOfSections memory pe).toNat,
          sectionAt (peTable memory pe) index + 16 ≤ limit) →
        (checkSections limit silent memory (PeImageHeaders.numberOfSections memory pe).toNat
          (peTable memory pe) ⟨.completed, patchImageSize memory pe, []⟩).Ends good) := by
  have size : (Window.mk (pe + 80) 4).Within limit :=
    (Window.within_iff_of_pos (by decide)).mpr mapped
  rw [fixupImageSize, AccessRun.ends_touchAll_iff faulted, vmaReads_within_iff]
  apply forall_congr'
  intro addresses
  rw [ends_checkSections_iff faulted addresses, ends_checkSections_iff faulted addresses,
    AccessRun.ends_touch_iff faulted, forall_prop_of_true size]
  rfl

/-- How a file ends that is changed. -/
theorem ends_changed_iff (mapped : pe + 24 ≤ limit) :
    (fixupMagic limit arguments pe memory).Ends good ↔ (pe + 26 ≤ limit →
      (¬ MagicAccepted memory pe →
        good (.failed "missing OPTHDR signature\n") (patchCharacteristics memory pe)) ∧
      (MagicAccepted memory pe → TableWithin limit arguments memory pe →
        (MeetsEmptySection limit arguments memory pe →
          good (.failed "section %.*s has size 0 and is and is empty")
            (fixedHeaders arguments memory pe)) ∧
        (PassesSections limit arguments memory pe →
          good .completed (patchImageSize (fixedHeaders arguments memory pe) pe)))) := by
  rw [ends_fixupMagic_iff faulted mapped]
  refine forall_congr' fun _ => and_congr_right fun _ => forall_congr' fun _ => ?_
  rw [ends_fixupSubsystem_iff faulted, isEfiApplication_patched]
  obtain ⟨table, count⟩ := @fixedHeaders_table pe memory arguments
  have ends : pe + 94 ≤ limit →
      ((fixupAlignments limit arguments.silent pe
        (patchSubsystem arguments (patchCharacteristics memory pe) pe)).Ends good ↔
      ((arguments.silent = false → pe + 96 ≤ limit) →
        (∀ index < (PeImageHeaders.numberOfSections memory pe).toNat,
          sectionAt (peTable memory pe) index + 16 ≤ limit) →
        (MeetsEmptySection limit arguments memory pe →
          good (.failed "section %.*s has size 0 and is and is empty")
            (fixedHeaders arguments memory pe)) ∧
        (PassesSections limit arguments memory pe →
          good .completed (patchImageSize (fixedHeaders arguments memory pe) pe)))) := by
    intro subsystem
    rw [ends_fixupAlignments_iff faulted _ subsystem, ends_fixupImageSize_iff faulted (by omega),
      ← fixedHeaders, table, count]
    refine forall_congr' fun _ => forall_congr' fun addresses => ?_
    rw [ends_checkSections_iff faulted addresses]
    rfl
  constructor
  · intro all within
    exact (ends within.subsystem).mp (all within.subsystem within.efi) within.prints
      within.addresses
  · intro all subsystem efi
    exact (ends subsystem).mpr fun prints addresses => all ⟨subsystem, efi, prints, addresses⟩

/-- How a run ends when nothing has been changed before the file is refused. -/
theorem ends_peFixup_iff {options : List FixupOption} {system : FixupSystem} {file : InputFile}
    (refused : ∀ text, good (.failed text) file.mapped) :
    (peFixup options system file).Ends good ↔ ∀ arguments,
      FixupStarts options system file arguments → HeadersAccepted file.size file.mapped →
        (fixupMagic (mappedLimit file.size) arguments (peOffset file.mapped) file.mapped).Ends
          good := by
  have mapped : file.size.toNat ≤ mappedLimit file.size := le_roundUp (by decide) _
  by_cases started : ∃ arguments, FixupStarts options system file arguments
  · obtain ⟨arguments, starts⟩ := started
    rw [peFixup_started starts, ends_fixupDos_iff faulted mapped refused]
    constructor
    · intro ends other starts'
      rwa [← starts.unique starts']
    · exact fun ends => ends arguments starts
  · rw [not_exists] at started
    obtain ⟨text, run⟩ := peFixup_unstarted started
    rw [run]
    exact iff_of_true (refused text) fun arguments starts => absurd starts (started arguments)

end Run

end ZLoader
