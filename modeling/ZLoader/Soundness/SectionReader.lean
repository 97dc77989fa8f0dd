import ZLoader.Model.LocateSections
import ZLoader.Soundness.VirtualLayout

/-! # What the stub reads from its section table

Without assertions `PE_locate_sections` is a function of the bytes of the image: it checks the
headers, and each wanted section is filled by the headers of the table one after the other, so the
last header with its name decides.
-/

namespace ZLoader

/-- The header has the wanted name, compared over eight bytes. -/
def PeSectionHeader.Named (sec : PeSectionHeader) (name : List UInt8) : Prop :=
  strncmp (cString name) (fun index => sec.name.getD index 0) peSectionSizeOfShortName = 0

theorem WantedSection.fill_of_named {wanted : WantedSection} {sec : PeSectionHeader}
    (named : sec.Named wanted.name) :
    wanted.fill sec = ⟨wanted.name, sec.virtualAddress.toUInt64, sec.pointerToRawData.toUInt64,
      sec.virtualSize.toUInt64⟩ := by
  rw [fill, named]
  rfl

theorem WantedSection.fill_of_not_named {wanted : WantedSection} {sec : PeSectionHeader}
    (other : ¬ sec.Named wanted.name) : wanted.fill sec = wanted := by
  rw [fill, if_pos (bne_iff_ne.mpr other)]

theorem WantedSection.fill_name (wanted : WantedSection) (sec : PeSectionHeader) :
    (wanted.fill sec).name = wanted.name := by
  rw [fill]
  split_ifs <;> rfl

/-- The headers of a table, looked at from the first to the last. -/
def WantedSection.fillAll (wanted : WantedSection) (sections : List PeSectionHeader) :
    WantedSection := sections.foldl WantedSection.fill wanted

theorem WantedSection.fillAll_name (wanted : WantedSection) (sections : List PeSectionHeader) :
    (wanted.fillAll sections).name = wanted.name := by
  induction sections generalizing wanted with
  | nil => rfl
  | cons sec rest ih => exact (ih (wanted.fill sec)).trans (wanted.fill_name sec)

theorem WantedSection.fillAll_of_not_named {wanted : WantedSection}
    {sections : List PeSectionHeader} (others : ∀ sec ∈ sections, ¬ sec.Named wanted.name) :
    wanted.fillAll sections = wanted := by
  induction sections with
  | nil => rfl
  | cons sec rest ih =>
    rw [List.forall_mem_cons] at others
    have head : wanted.fillAll (sec :: rest) = (wanted.fill sec).fillAll rest := rfl
    rw [head, fill_of_not_named others.1, ih others.2]

/-- The last header with the name is the one that is reported. -/
theorem WantedSection.fillAll_last (wanted : WantedSection) (before : List PeSectionHeader)
    {sec : PeSectionHeader} {after : List PeSectionHeader} (named : sec.Named wanted.name)
    (others : ∀ later ∈ after, ¬ later.Named wanted.name) :
    wanted.fillAll (before ++ sec :: after) = ⟨wanted.name, sec.virtualAddress.toUInt64,
      sec.pointerToRawData.toUInt64, sec.virtualSize.toUInt64⟩ := by
  have name := wanted.fillAll_name before
  have split : wanted.fillAll (before ++ sec :: after) =
      ((wanted.fillAll before).fill sec).fillAll after := by
    rw [fillAll, List.foldl_append, List.foldl_cons]
    rfl
  rw [← name] at named
  rw [split, fill_of_named named, name]
  exact fillAll_of_not_named others

section Reader

variable {build : Build} {memory : ByteStore}

/-- The loop fills every wanted section from the whole table. -/
theorem locateSectionsLoop_of_ndebug (quiet : build.ndebug = true) {count : ℕ}
    {image : SimpleBuffer} (wanted : List WantedSection)
    (bounded : image.pos.toNat + sizeofPeSectionHeader * count < 2 ^ 64) :
    locateSectionsLoop build memory count image wanted =
      .ok (wanted.map fun entry =>
        entry.fillAll (sectionHeaders memory image.pos.toNat count)) := by
  have size : sizeofPeSectionHeader = 40 := rfl
  induction count generalizing image wanted with
  | zero =>
    have same : (fun entry : WantedSection =>
        entry.fillAll (sectionHeaders memory image.pos.toNat 0)) = id := rfl
    rw [locateSectionsLoop, same, List.map_id]
  | succ count ih =>
    have next : (image.pos + UInt64.ofNat sizeofPeSectionHeader).toNat =
        image.pos.toNat + sizeofPeSectionHeader := by
      rw [UInt64.toNat_add, UInt64.toNat_ofNat', size]
      rw [size] at bounded
      omega
    rw [locateSectionsLoop, bufferPos_of_ndebug quiet]
    simp only [Outcome.bind]
    rw [ih _ (by dsimp only; rw [next, size]; rw [size] at bounded; omega)]
    simp only [next, List.map_map, sectionHeaders_succ]
    rfl

/-- The headers of an image that the stub accepts. -/
structure AcceptedBy (build : Build) (memory : ByteStore) (imageSize : UInt64) : Prop where
  dos : memory.u16 0 = mzDosSignature
  offset : 0 < (memory.u32 dosPeOffsetLocation).toNat
  room : 0x40 < imageSize.toNat ∧
    (memory.u32 dosPeOffsetLocation).toNat + sizeofPeImageHeaders < imageSize.toNat
  signature : memory.u32 (memory.u32 dosPeOffsetLocation).toNat = peHeaderSignature
  machine : PeImageHeaders.machine memory (memory.u32 dosPeOffsetLocation).toNat =
    peHeaderMachineNative build.arch
  count : (PeImageHeaders.numberOfSections memory
    (memory.u32 dosPeOffsetLocation).toNat).toNat ≤ 96
  executable : PeImageHeaders.characteristics memory (memory.u32 dosPeOffsetLocation).toNat &&&
    peHeaderExecutableImage ≠ 0
  magic : PeImageHeaders.magic memory (memory.u32 dosPeOffsetLocation).toNat =
    peHeaderOptionalHdr64Magic
  subsystem : PeImageHeaders.subsystem memory (memory.u32 dosPeOffsetLocation).toNat =
    peHeaderSubsystemEfiApplication

/-- In a buffer that can be read the header is found exactly when the signatures are right and the
image headers lie inside of the image. -/
theorem peHeader_of_accessors {base size cursor : UInt64}
    (position : bufferPos build ⟨base, size, 0, size, none⟩ = .ok cursor)
    (left : bufferLen build ⟨base, size, 0, size, none⟩ = .ok (size - 0)) :
    (peHeader build ⟨base, size, 0, size, none⟩ memory).1 =
      .ok (if memory.u16 0 = mzDosSignature ∧ 0x40 < size.toNat ∧
          (memory.u32 dosPeOffsetLocation).toNat + sizeofPeImageHeaders < size.toNat ∧
          memory.u32 (memory.u32 dosPeOffsetLocation).toNat = peHeaderSignature
        then (memory.u32 dosPeOffsetLocation).toUInt64 else 0) := by
  have small : (0x3c + 4 : UInt64).toNat = 0x40 := rfl
  have word := (memory.u32 dosPeOffsetLocation).toNat_lt
  have headers : sizeofPeImageHeaders = 264 := rfl
  have fits : ((memory.u32 dosPeOffsetLocation).toUInt64 + 264).toNat =
      (memory.u32 dosPeOffsetLocation).toNat + 264 := by
    rw [UInt64.toNat_add, UInt32.toNat_toUInt64]
    change (_ + 264) % _ = _
    omega
  rw [peHeader, position, left]
  simp only [UInt64.sub_zero, gt_iff_lt, UInt64.lt_iff_toNat_lt, small, fits, headers,
    bne_iff_ne, beq_iff_eq, Bool.not_eq_true', decide_eq_false_iff_not]
  by_cases dos : memory.u16 0 = mzDosSignature
  · rw [if_neg (not_not.mpr dos)]
    by_cases long : 0x40 < size.toNat
    · rw [if_neg (not_not.mpr long)]
      by_cases inside : (memory.u32 dosPeOffsetLocation).toNat + 264 < size.toNat
      · rw [if_neg (not_not.mpr inside)]
        by_cases pe : memory.u32 (memory.u32 dosPeOffsetLocation).toNat = peHeaderSignature
        · rw [if_pos pe, if_pos ⟨dos, long, inside, pe⟩]
        · rw [if_neg pe, if_neg fun found => pe found.2.2.2]
      · rw [if_pos inside, if_neg fun found => inside found.2.2.1]
    · rw [if_pos long, if_neg fun found => long found.2.1]
  · rw [if_pos dos, if_neg fun found => dos found.1]

/-- Without assertions every buffer can be read. -/
theorem peHeader_outcome (quiet : build.ndebug = true) {base size : UInt64} :
    (peHeader build ⟨base, size, 0, size, none⟩ memory).1 =
      .ok (if memory.u16 0 = mzDosSignature ∧ 0x40 < size.toNat ∧
          (memory.u32 dosPeOffsetLocation).toNat + sizeofPeImageHeaders < size.toNat ∧
          memory.u32 (memory.u32 dosPeOffsetLocation).toNat = peHeaderSignature
        then (memory.u32 dosPeOffsetLocation).toUInt64 else 0) :=
  peHeader_of_accessors (bufferPos_of_ndebug quiet _) (bufferLen_of_ndebug quiet _)

/-- The section table starts behind the optional header; the sum does not wrap. -/
theorem tableStart_toNat (offset : UInt32) (optional : UInt16) :
    (offset.toUInt64 + (UInt64.ofNat sizeofPeCoffHeader + optional.toUInt64)).toNat =
      offset.toNat + sizeofPeCoffHeader + optional.toNat := by
  have word := offset.toNat_lt
  have half := optional.toNat_lt
  have coff : (UInt64.ofNat sizeofPeCoffHeader).toNat = sizeofPeCoffHeader := rfl
  have size : sizeofPeCoffHeader = 24 := rfl
  rw [UInt64.toNat_add, UInt64.toNat_add, coff, UInt32.toNat_toUInt64, UInt16.toNat_toUInt64, size]
  omega

/-- Without assertions an accepted image has its wanted sections filled from its table, and an image
that is not accepted is refused. -/
theorem peLocateSections_of_ndebug (quiet : build.ndebug = true) (loaded : StubImage)
    (wanted found : List WantedSection) :
    peLocateSections build loaded wanted = .ok (some found) ↔
      AcceptedBy build loaded.memory loaded.imageSize ∧
        found = wanted.map fun entry => entry.fillAll (PeLayout.read loaded.memory).sections := by
  have word := (loaded.memory.u32 dosPeOffsetLocation).toNat_lt
  have limit : peHeaderMaxNumberOfSections.toNat = 96 := rfl
  have zero (offset : UInt32) : offset.toUInt64 = 0 ↔ offset.toNat = 0 := by
    rw [← UInt64.toNat_inj, UInt32.toNat_toUInt64]
    rfl
  rw [peLocateSections, peHeader_outcome quiet]
  simp only [Outcome.bind]
  by_cases header : loaded.memory.u16 0 = mzDosSignature ∧ 0x40 < loaded.imageSize.toNat ∧
      (loaded.memory.u32 dosPeOffsetLocation).toNat + sizeofPeImageHeaders <
        loaded.imageSize.toNat ∧
      loaded.memory.u32 (loaded.memory.u32 dosPeOffsetLocation).toNat = peHeaderSignature
  · rw [if_pos header]
    by_cases nowhere : (loaded.memory.u32 dosPeOffsetLocation).toNat = 0
    · rw [if_pos (beq_iff_eq.mpr ((zero _).mpr nowhere))]
      apply iff_of_false (by simp)
      intro accepted
      exact absurd nowhere (Nat.ne_of_gt accepted.1.offset)
    · rw [if_neg (by simpa using mt (zero _).mp nowhere), bufferPos_of_ndebug quiet]
      simp only [UInt64.zero_add, UInt32.toNat_toUInt64]
      split_ifs with machine count executable magic subsystem
      · apply iff_of_false (by simp)
        intro accepted
        simp [accepted.1.machine] at machine
      · apply iff_of_false (by simp)
        intro accepted
        have few := accepted.1.count
        rw [gt_iff_lt, UInt16.lt_iff_toNat_lt, limit] at count
        omega
      · apply iff_of_false (by simp)
        intro accepted
        exact accepted.1.executable (beq_iff_eq.mp executable)
      · apply iff_of_false (by simp)
        intro accepted
        simp [accepted.1.magic] at magic
      · apply iff_of_false (by simp)
        intro accepted
        simp [accepted.1.subsystem] at subsystem
      · have few : (PeImageHeaders.numberOfSections loaded.memory
            (loaded.memory.u32 dosPeOffsetLocation).toNat).toNat ≤ 96 := by
          rw [gt_iff_lt, UInt16.lt_iff_toNat_lt, limit] at count
          exact Nat.not_lt.mp count
        have start := tableStart_toNat (loaded.memory.u32 dosPeOffsetLocation)
          (PeImageHeaders.sizeOfOptionalHeader loaded.memory
            (loaded.memory.u32 dosPeOffsetLocation).toNat)
        have optional := (PeImageHeaders.sizeOfOptionalHeader loaded.memory
          (loaded.memory.u32 dosPeOffsetLocation).toNat).toNat_lt
        have coff : sizeofPeCoffHeader = 24 := rfl
        have size : sizeofPeSectionHeader = 40 := rfl
        rw [locateSectionsLoop_of_ndebug quiet wanted (by
          dsimp only
          rw [start, coff, size]
          omega)]
        dsimp only
        rw [start, Outcome.ok.injEq, Option.some.injEq]
        refine ⟨fun same => ⟨?_, same.symm⟩, fun all => all.2.symm⟩
        exact ⟨header.1, Nat.pos_of_ne_zero nowhere, ⟨header.2.1, header.2.2.1⟩, header.2.2.2,
          by simpa using machine, few, by simpa using executable, by simpa using magic,
          by simpa using subsystem⟩
  · rw [if_neg header]
    refine iff_of_false (by simp) fun accepted => header ?_
    exact ⟨accepted.1.dos, accepted.1.room.1, accepted.1.room.2, accepted.1.signature⟩

end Reader

end ZLoader
