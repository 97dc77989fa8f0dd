import ZLoader.Soundness.ImageSizePatch

/-! # What a refused file keeps

The mapping is shared, so every change is a change of the file. The flags are set before the magic
number of the optional header is checked, and all header fields are changed before the sections are.
A file that is refused that late keeps its content exactly when the fields had their new values.
-/

namespace ZLoader

/-! ## Fields that have their new values -/

/-- `PE_version16` -/
def version16 (memory : ByteStore) (offset : ℕ) : UInt16 × UInt16 :=
  (memory.u16 offset, memory.u16 (offset + 2))

def FlagsSet (memory : ByteStore) (pe : ℕ) : Prop :=
  PeImageHeaders.characteristics memory pe ||| fixupFlags = PeImageHeaders.characteristics memory pe

/-- An EFI application has the version that is asked for, and no flags in its optional header, as far
as the file goes. -/
structure SubsystemFixed (size : ℕ) (arguments : FixupArguments) (memory : ByteStore) (pe : ℕ) :
    Prop where
  version : ∀ version ∈ arguments.efiVersion,
    version16 memory (pe + 72) = version ∧ version16 memory (pe + 64) = version
  flags : ∀ index < 2, pe + 94 + index < size → memory (pe + 94 + index) = 0

/-- Every field has the value that it would get. The first byte of the alignments is zero at any rate. -/
structure HeadersFixed (size : ℕ) (arguments : FixupArguments) (memory : ByteStore) (pe : ℕ) :
    Prop where
  flags : FlagsSet memory pe
  subsystem : IsEfiApplication memory pe → SubsystemFixed size arguments memory pe
  fileAlignment : PeImageHeaders.fileAlignment memory pe = 0 → size ≤ pe + 61
  sectionAlignment : PeImageHeaders.sectionAlignment memory pe = 0 → size ≤ pe + 57

section Patches

variable {size pe : ℕ} {before store memory : ByteStore}

theorem u16_eq_iff {offset : ℕ} {value : UInt16} :
    memory.u16 offset = value ↔ value.toNat % 256 ^ 2 = memory.readLE offset 2 := by
  have small : memory.readLE offset 2 < 2 ^ 16 := memory.readLE_lt offset 2
  have word : value.toNat < 256 ^ 2 := value.toNat_lt
  rw [Nat.mod_eq_of_lt word, ← UInt16.toNat_inj, ByteStore.u16, UInt16.toNat_ofNat',
    Nat.mod_eq_of_lt small]
  exact eq_comm

theorem patchCharacteristics_keeps_iff (inside : pe + 24 ≤ size) :
    ByteStore.Keeps (· < size) memory (patchCharacteristics memory pe) ↔ FlagsSet memory pe := by
  rw [patchCharacteristics, ByteStore.keeps_writeLE_self_iff, ← u16_eq_iff, FlagsSet]
  · exact eq_comm
  · intro at_ _ upper
    omega

/-- A version that is written. -/
theorem writeVersion_keeps_iff {offset : ℕ} {version : UInt16 × UInt16} (inside : offset + 4 ≤ size)
    (untouched : ByteStore.Keeps (Window.mk offset 4).Contains before store) :
    ByteStore.Keeps (· < size) before (writeVersion store offset version) ↔
      ByteStore.Keeps (· < size) before store ∧ version16 before offset = version := by
  have first : ByteStore.Keeps (Window.mk offset 2).Contains before store := by
    apply untouched.mono
    rintro at_ ⟨lower, upper⟩
    dsimp only at lower upper
    exact ⟨lower, by dsimp only; omega⟩
  have second : ByteStore.Keeps (Window.mk (offset + 2) 2).Contains before
      (store.writeLE offset 2 version.1.toNat) := by
    apply ByteStore.Keeps.trans
    · apply untouched.mono
      rintro at_ ⟨lower, upper⟩
      dsimp only at lower upper
      exact ⟨by dsimp only; omega, by dsimp only; omega⟩
    · apply ByteStore.keeps_writeLE
      intro at_ contained
      exact .inr contained.1
  rw [writeVersion, ByteStore.keeps_writeLE_iff second, ByteStore.keeps_writeLE_iff first,
    ByteStore.keeps_writeLE_self_iff, ByteStore.keeps_writeLE_self_iff, ← u16_eq_iff, ← u16_eq_iff,
    and_assoc, version16, Prod.ext_iff]
  all_goals
    intro at_ _ upper
    omega

/-- A default value whose first byte is zero. -/
theorem keeps_default_iff {offset value : ℕ} (low : value % 256 = 0) (high : value / 256 % 256 ≠ 0)
    (untouched : ByteStore.Keeps (Window.mk offset 4).Contains before store) :
    ByteStore.Keeps (· < size) before
        (if store.u32 offset == 0 then store.writeLE offset 4 value else store) ↔
      ByteStore.Keeps (· < size) before store ∧ (before.u32 offset = 0 → size ≤ offset + 1) := by
  have same : store.u32 offset = before.u32 offset :=
    untouched.u32 fun at_ lower upper => ⟨lower, upper⟩
  rw [same]
  by_cases zero : before.u32 offset = 0
  · have bytes : before.readLE offset 4 = 0 := by
      have small : before.readLE offset 4 < 2 ^ 32 := before.readLE_lt offset 4
      rw [ByteStore.u32, ← UInt32.toNat_inj, UInt32.toNat_ofNat', Nat.mod_eq_of_lt small] at zero
      exact zero
    rw [if_pos (beq_iff_eq.mpr zero), ByteStore.keeps_writeLE_iff untouched,
      forall_prop_of_true zero]
    refine and_congr_right fun _ => ⟨fun keeps => ?_, fun short at_ bound => ?_⟩
    · by_contra beyond
      have byte := keeps (offset + 1) (Nat.lt_of_not_le beyond)
      rw [before.writeLE_inside value (by decide), ByteStore.byte_eq_zero (by decide) bytes,
        ← UInt8.toNat_inj, UInt8.toNat_ofNat'] at byte
      exact high byte
    · by_cases first : at_ = offset
      · subst first
        have byte := @ByteStore.writeLE_inside before at_ 4 0 value (by decide)
        have none := @ByteStore.byte_eq_zero before at_ 4 0 (by decide) bytes
        rw [Nat.add_zero] at byte none
        rw [byte, none, ← UInt8.toNat_inj, UInt8.toNat_ofNat', Nat.pow_zero, Nat.div_one]
        exact low
      · apply ByteStore.writeLE_outside
        rintro ⟨lower, -⟩
        dsimp only at lower
        omega
  · rw [if_neg (fun chosen => zero (beq_iff_eq.mp chosen))]
    exact ⟨fun keeps => ⟨keeps, fun none => absurd none zero⟩, fun keeps => keeps.1⟩

/-- A field that is cleared. -/
theorem keeps_clear_iff {offset width : ℕ}
    (untouched : ByteStore.Keeps (Window.mk offset width).Contains before store) :
    ByteStore.Keeps (· < size) before (store.writeLE offset width 0) ↔
      ByteStore.Keeps (· < size) before store ∧
        ∀ index < width, offset + index < size → before (offset + index) = 0 := by
  rw [ByteStore.keeps_writeLE_iff untouched]
  refine and_congr_right fun _ => ⟨fun keeps index bound inside => ?_, fun zero at_ bound => ?_⟩
  · rw [← keeps _ inside, before.writeLE_inside 0 bound, Nat.zero_div]
    rfl
  · by_cases contained : (Window.mk offset width).Contains at_
    · obtain ⟨index, rfl⟩ := Nat.exists_eq_add_of_le contained.1
      have within : index < width := Nat.lt_of_add_lt_add_left contained.2
      rw [zero index within bound, before.writeLE_inside 0 within, Nat.zero_div]
      rfl
    · exact before.writeLE_outside 0 contained

/-- The changes of an EFI application. -/
theorem patchSubsystem_keeps_iff {arguments : FixupArguments}
    (untouched : ByteStore.Keeps (fun offset => pe + 24 ≤ offset) before store)
    (inside : IsEfiApplication before pe → pe + 92 < size) :
    ByteStore.Keeps (· < size) before (patchSubsystem arguments store pe) ↔
      ByteStore.Keeps (· < size) before store ∧
        (IsEfiApplication before pe → SubsystemFixed size arguments before pe) := by
  have same : PeImageHeaders.subsystem store pe = PeImageHeaders.subsystem before pe :=
    untouched.u16 fun at_ lower _ => by omega
  have behind {offset width : ℕ} (lower : pe + 24 ≤ offset) :
      ByteStore.Keeps (Window.mk offset width).Contains before store :=
    untouched.mono fun at_ contained => lower.trans contained.1
  by_cases application : IsEfiApplication before pe
  · have room := inside application
    have chosen : IsEfiApplication store pe := same.trans application
    rw [patchSubsystem, if_pos chosen, forall_prop_of_true application]
    cases asked : arguments.efiVersion with
    | none =>
      dsimp only
      rw [keeps_clear_iff (behind (by omega))]
      refine and_congr_right fun _ => ⟨fun flags => ⟨?_, flags⟩, fun fixed => fixed.flags⟩
      intro version member
      rw [asked] at member
      cases member
    | some version =>
      dsimp only
      have first : ByteStore.Keeps (Window.mk (pe + 64) 4).Contains before
          (writeVersion store (pe + 72) version) := by
        apply (behind (by omega)).trans
        apply (writeVersion_keeps store (pe + 72) version).mono
        rintro at_ ⟨lower, upper⟩
        dsimp only at lower upper
        omega
      have second : ByteStore.Keeps (Window.mk (pe + 94) 2).Contains before
          (writeVersion (writeVersion store (pe + 72) version) (pe + 64) version) := by
        apply (behind (by omega)).trans
        apply ((writeVersion_keeps store (pe + 72) version).mono _).trans
          ((writeVersion_keeps _ (pe + 64) version).mono _)
        all_goals
          rintro at_ ⟨lower, upper⟩
          dsimp only at lower upper
          omega
      rw [keeps_clear_iff second, writeVersion_keeps_iff (by omega) first,
        writeVersion_keeps_iff (by omega) (behind (by omega)), and_assoc, and_assoc]
      refine and_congr_right fun _ => ⟨?_, fun fixed => ?_⟩
      · rintro ⟨one, other, flags⟩
        refine ⟨fun found member => ?_, flags⟩
        obtain rfl := Option.some.inj (asked.symm.trans member)
        exact ⟨one, other⟩
      · obtain ⟨one, other⟩ := fixed.version version asked
        exact ⟨one, other, fixed.flags⟩
  · have other : ¬ IsEfiApplication store pe := fun chosen => application (same.symm.trans chosen)
    rw [patchSubsystem, if_neg other]
    exact ⟨fun keeps => ⟨keeps, fun chosen => absurd chosen application⟩, fun keeps => keeps.1⟩

/-- All changes of the header fields. -/
theorem fixedHeaders_keeps_iff {arguments : FixupArguments} (flags : pe + 24 ≤ size)
    (inside : IsEfiApplication memory pe → pe + 92 < size) :
    ByteStore.Keeps (· < size) memory (fixedHeaders arguments memory pe) ↔
      HeadersFixed size arguments memory pe := by
  have first : ByteStore.Keeps (fun offset => pe + 24 ≤ offset) memory
      (patchCharacteristics memory pe) :=
    (patchCharacteristics_keeps memory pe).mono fun _ lower => .inr lower
  have second : ByteStore.Keeps (fun offset => pe + 24 ≤ offset ∧ offset < pe + 64) memory
      (patchSubsystem arguments (patchCharacteristics memory pe) pe) := by
    apply (first.mono fun _ bound => bound.1).trans
    exact (patchSubsystem_keeps _ pe arguments).mono fun _ bound => .inl bound.2
  have third : ByteStore.Keeps (fun offset => pe + 24 ≤ offset ∧ offset < pe + 60) memory
      (patchFileAlignment (patchSubsystem arguments (patchCharacteristics memory pe) pe) pe) := by
    apply (second.mono fun offset bound => ⟨bound.1, by omega⟩).trans
    exact (patchFileAlignment_keeps _ pe).mono fun _ bound => .inl bound.2
  have fileWindow : ByteStore.Keeps (Window.mk (pe + 60) 4).Contains memory
      (patchSubsystem arguments (patchCharacteristics memory pe) pe) := by
    apply second.mono
    rintro offset ⟨lower, upper⟩
    dsimp only at lower upper
    omega
  have sectionWindow : ByteStore.Keeps (Window.mk (pe + 56) 4).Contains memory
      (patchFileAlignment (patchSubsystem arguments (patchCharacteristics memory pe) pe) pe) := by
    apply third.mono
    rintro offset ⟨lower, upper⟩
    dsimp only at lower upper
    omega
  rw [fixedHeaders, patchSectionAlignment, PeImageHeaders.sectionAlignment,
    keeps_default_iff (by decide) (by decide) sectionWindow, patchFileAlignment,
    PeImageHeaders.fileAlignment, keeps_default_iff (by decide) (by decide) fileWindow,
    patchSubsystem_keeps_iff first inside, patchCharacteristics_keeps_iff flags]
  constructor
  · rintro ⟨⟨⟨set_, subsystem⟩, file⟩, section_⟩
    exact ⟨set_, subsystem, file, section_⟩
  · rintro ⟨set_, subsystem, file, section_⟩
    exact ⟨⟨⟨set_, subsystem⟩, file⟩, section_⟩

end Patches

/-! ## The whole run -/

/-- A run that exits with a status other than zero leaves the content of the file. -/
def KeepsRejected (file : InputFile) (run : FixupRun) : Prop :=
  ∀ text, run.exit = .failed text →
    ByteStore.Keeps (· < file.size.toNat) file.bytes run.memory

/-- What a file needs that is refused after the first change: the flags, when it is refused for its
magic number, and all fields, when it is refused for an empty section. -/
structure RefusedUnchanged (arguments : FixupArguments) (file : InputFile) : Prop where
  magic : ¬ MagicAccepted file.mapped (peOffset file.mapped) →
    peOffset file.mapped + 26 ≤ mappedLimit file.size → FlagsSet file.mapped (peOffset file.mapped)
  emptySection : MagicAccepted file.mapped (peOffset file.mapped) →
    TableWithin (mappedLimit file.size) arguments file.mapped (peOffset file.mapped) →
    MeetsEmptySection (mappedLimit file.size) arguments file.mapped (peOffset file.mapped) →
    HeadersFixed file.size.toNat arguments file.mapped (peOffset file.mapped)

theorem mapped_keeps (file : InputFile) :
    ByteStore.Keeps (· < file.size.toNat) file.bytes file.mapped := fun _ inside => if_pos inside

theorem keeps_mapped_iff {file : InputFile} {memory : ByteStore} :
    ByteStore.Keeps (· < file.size.toNat) file.bytes memory ↔
      ByteStore.Keeps (· < file.size.toNat) file.mapped memory := by
  apply forall₂_congr
  intro offset inside
  rw [mapped_keeps file offset inside]

/-- Behind the end of the file the mapping has zeros, so an EFI application says so in the file. -/
theorem IsEfiApplication.inside {file : InputFile} {pe : ℕ}
    (application : IsEfiApplication file.mapped pe) : pe + 92 < file.size.toNat := by
  by_contra beyond
  have zero : ∀ offset, pe + 92 ≤ offset → file.mapped offset = 0 := fun offset lower =>
    if_neg (by omega)
  have none : PeImageHeaders.subsystem file.mapped pe = 0 := by
    rw [PeImageHeaders.subsystem, ByteStore.u16, ByteStore.readLE, ByteStore.readLE,
      ByteStore.readLE, zero _ (Nat.le_refl _), zero _ (Nat.le_succ _)]
    rfl
  have distinct : (0 : UInt16) ≠ peHeaderSubsystemEfiApplication := by decide
  exact distinct (none.symm.trans application)

/-- A run keeps the content of every file that it rejects exactly when the fields that are changed
before have their new values. -/
theorem keepsRejected_iff {options : List FixupOption} {system : FixupSystem} {file : InputFile} :
    KeepsRejected file (peFixup options system file) ↔ ∀ arguments,
      FixupStarts options system file arguments → HeadersAccepted file.size file.mapped →
        RefusedUnchanged arguments file := by
  have ends : KeepsRejected file (peFixup options system file) ↔
      (peFixup options system file).Ends fun exit memory => ∀ text, exit = .failed text →
        ByteStore.Keeps (· < file.size.toNat) file.mapped memory := by
    apply forall₂_congr
    intro text failed
    exact keeps_mapped_iff
  rw [ends, ends_peFixup_iff (by simp) fun _ _ _ => .refl _ _]
  refine forall_congr' fun arguments => forall₂_congr fun starts accepted => ?_
  have optional := accepted.optionalHeader
  have mapped : file.size.toNat ≤ mappedLimit file.size := le_roundUp (by decide) _
  have flags : peOffset file.mapped + 24 ≤ file.size.toNat := by
    rw [peTable, sizeofPeCoffHeader] at optional
    omega
  rw [ends_changed_iff (by simp) (flags.trans mapped)]
  have magic := @patchCharacteristics_keeps_iff file.size.toNat (peOffset file.mapped) file.mapped
    flags
  have headers := @fixedHeaders_keeps_iff file.size.toNat (peOffset file.mapped) file.mapped
    arguments flags fun application => application.inside
  constructor
  · intro kept
    refine ⟨fun other room => ?_, fun accepted within meets => ?_⟩
    · exact magic.mp ((kept room).1 other _ rfl)
    · have room : peOffset file.mapped + 26 ≤ mappedLimit file.size := by
        have subsystem := within.subsystem
        omega
      exact headers.mp (((kept room).2 accepted within).1 meets _ rfl)
  · intro unchanged room
    refine ⟨fun other text _ => magic.mpr (unchanged.magic other room), fun accepted within => ?_⟩
    refine ⟨fun meets text _ => headers.mpr (unchanged.emptySection accepted within meets), ?_⟩
    rintro - text failed
    cases failed

/-- An executable whose section has no raw data. -/
def emptySectionExecutable : InputFile :=
  ⟨0x800, smallImage 1 0 0x400 16 (sectionFields 0 0x1000 0x1000 0 0x400 0)⟩

/-- It is refused with its flags changed. -/
theorem not_keepsRejected_emptySection :
    ¬ ∀ (options : List FixupOption) (system : FixupSystem) (file : InputFile),
      KeepsRejected file (peFixup options system file) := by
  intro claim
  have kept := claim smallOptions smallSystem emptySectionExecutable
    "section %.*s has size 0 and is and is empty" (by decide +kernel) 0x56 (by decide)
  revert kept
  decide +kernel

end ZLoader
