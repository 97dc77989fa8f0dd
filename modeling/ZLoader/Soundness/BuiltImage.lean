import ZLoader.Soundness.AppendedSections

/-! # What the builder writes

The files of a call, described without the loop that opens them, and the output file that a run
which completes leaves behind: where nothing is written over a header that is there already, it is
the stub with its totals, header fields and section table changed and the files put at their places.
-/

namespace ZLoader

/-! ## The files of a call -/

/-- What `inspect_pe` has looked at when it accepts a file. -/
theorem inspectPe_eq_some {file : InputFile} {info : PeInspection}
    (inspected : inspectPe file = some info) :
    let pe := (file.bytes.u32 dosPeOffsetLocation).toNat
    (peHeaderSize ≤ file.size.toNat ∧ pe + sizeofPeImageHeaders ≤ peHeaderSize ∧
      file.bytes.u16 0 = mzDosSignature ∧ file.bytes.u32 pe = peHeaderSignature) ∧
      info = ⟨PeImageHeaders.fileAlignment file.bytes pe,
        PeImageHeaders.sectionAlignment file.bytes pe, PeImageHeaders.sizeOfImage file.bytes pe,
        PeImageHeaders.machine file.bytes pe⟩ := by
  rw [inspectPe] at inspected
  dsimp only at inspected
  split_ifs at inspected with small dos beyond signature
  refine ⟨⟨by omega, by omega, ?_, ?_⟩, (Option.some.inj inspected).symm⟩
  · simpa using dos
  · simpa using signature

namespace BuildInput

variable (input : BuildInput)

/-- Offset of the image headers of the stub. -/
def pe : ℕ := (input.stub.bytes.u32 dosPeOffsetLocation).toNat

/-- Offset of its section table. -/
def tableOffset : ℕ :=
  input.pe + sizeofPeCoffHeader
    + (PeImageHeaders.sizeOfOptionalHeader input.stub.bytes input.pe).toNat

def stubCount : ℕ := (PeImageHeaders.numberOfSections input.stub.bytes input.pe).toNat

def stubSections : List PeSectionHeader :=
  sectionHeaders input.stub.bytes input.tableOffset input.stubCount

def stubSizeOfImage : UInt32 := PeImageHeaders.sizeOfImage input.stub.bytes input.pe

def fileAlignment : UInt32 :=
  defaultAlignment (PeImageHeaders.fileAlignment input.stub.bytes input.pe) 0x200

/-- The section alignment that the stub asks for. -/
def stubAlignment : UInt32 :=
  defaultAlignment (PeImageHeaders.sectionAlignment input.stub.bytes input.pe) 0x1000

/-- The section alignment of the output: a kernel that is a PE file can raise it. -/
def sectionAlignment : UInt32 :=
  match inspectPe input.linux with
  | none => input.stubAlignment
  | some kernel =>
      if input.stubAlignment > kernel.sectionAlignment then input.stubAlignment
      else kernel.sectionAlignment

/-- The memory a file gets: its size, or the image size of a kernel that is a PE file. -/
def virtualSize (id : SectionDataId) (file : InputFile) : UInt32 :=
  match if id = .linux then inspectPe file else none with
  | none => file.size.toUInt32
  | some kernel => alignValue32 kernel.imageSize input.sectionAlignment

/-- The entry of a file once all files are open. -/
def vma (id : SectionDataId) (file : InputFile) : SectionVma where
  name := id.name
  targetVma := 0
  virtualSize := input.virtualSize id file
  rawSize := file.size.toUInt32
  flags := peSectionCntInitializedData ||| peSectionMemRead
  file := file

/-- The entries of some identifiers for which a file is given. -/
def vmasOf (ids : List SectionDataId) : List SectionVma :=
  ids.filterMap fun id => (input.file id).map (input.vma id)

def vmas : List SectionVma := input.vmasOf sectionDataIds

/-- The size of the mapping with the files of some identifiers added. -/
def sizeWith (ids : List SectionDataId) (filesize : UInt64) : UInt64 :=
  (ids.filterMap input.file).foldl
    (fun size file => size + alignValue file.size input.fileAlignment.toUInt64) filesize

def mappedSize : UInt64 := input.sizeWith sectionDataIds input.stub.size

theorem sectionVma_other {architecture : UInt16} {id : SectionDataId} {file : InputFile}
    {sectionAlignment : UInt32} (other : id ≠ .linux) :
    ZLoader.sectionVma architecture id file sectionAlignment =
      .ok (input.vma id file, sectionAlignment) := by
  simp only [sectionVma, vma, virtualSize, if_neg other]

variable {input}

theorem sectionVma_linux {architecture : UInt16} {opened : SectionVma × UInt32}
    (ok : ZLoader.sectionVma architecture .linux input.linux input.stubAlignment = .ok opened) :
    opened = (input.vma .linux input.linux, input.sectionAlignment) := by
  simp only [sectionVma, if_true] at ok
  simp only [vma, virtualSize, sectionAlignment, if_true]
  cases inspected : inspectPe input.linux with
  | none =>
    rw [inspected] at ok
    exact (Except.ok.inj ok).symm
  | some kernel =>
    rw [inspected] at ok
    dsimp only at ok ⊢
    generalize (if input.stubAlignment > kernel.sectionAlignment then input.stubAlignment
      else kernel.sectionAlignment) = aligned at ok ⊢
    split_ifs at ok
    exact (Except.ok.inj ok).symm

/-- The loop over identifiers in front of the kernel opens their files and goes on. -/
theorem openSections_append {architecture : UInt16} {before after : List SectionDataId}
    {sectionAlignment : UInt32} {filesize : UInt64} (others : .linux ∉ before) :
    openSections input architecture input.fileAlignment (before ++ after) sectionAlignment
        filesize =
      (openSections input architecture input.fileAlignment after sectionAlignment
        (input.sizeWith before filesize)).map fun rest =>
          { rest with sections := input.vmasOf before ++ rest.sections } := by
  induction before generalizing filesize with
  | nil =>
    cases opened : openSections input architecture input.fileAlignment after sectionAlignment
      filesize with
    | error exit => simp [sizeWith, opened, Except.map]
    | ok rest => simp [sizeWith, vmasOf, opened, Except.map]
  | cons id before ih =>
    rw [List.mem_cons, not_or] at others
    have other : id ≠ .linux := fun same => others.1 same.symm
    rw [List.cons_append, openSections]
    cases given : input.file id with
    | none =>
      have skipped : input.vmasOf (id :: before) = input.vmasOf before := by
        simp [vmasOf, given]
      have size : input.sizeWith (id :: before) filesize = input.sizeWith before filesize := by
        simp [sizeWith, given]
      rw [skipped, size]
      exact ih others.2
    | some file =>
      have added : input.vmasOf (id :: before) = input.vma id file :: input.vmasOf before := by
        simp [vmasOf, given]
      have size : input.sizeWith (id :: before) filesize = input.sizeWith before
          (filesize + alignValue file.size input.fileAlignment.toUInt64) := by
        simp [sizeWith, given]
      rw [added, size]
      simp only [sectionVma_other input other, Except.bind, ih others.2]
      cases openSections input architecture input.fileAlignment after sectionAlignment _ <;> rfl

theorem openSections_others {architecture : UInt16} {ids : List SectionDataId}
    {sectionAlignment : UInt32} {filesize : UInt64} (others : .linux ∉ ids) :
    openSections input architecture input.fileAlignment ids sectionAlignment filesize =
      .ok ⟨input.vmasOf ids, sectionAlignment, input.sizeWith ids filesize⟩ := by
  rw [← List.append_nil ids, openSections_append others, openSections]
  simp [Except.map]

/-- What the loop over all files has opened. -/
theorem openSections_ok {architecture : UInt16} {opened : OpenedSections}
    (ok : openSections input architecture input.fileAlignment sectionDataIds input.stubAlignment
      input.stub.size = .ok opened) :
    opened = ⟨input.vmas, input.sectionAlignment, input.mappedSize⟩ := by
  have front : sectionDataIds = [.osrel, .cmdline, .dt, .splash] ++ [.linux, .initrd] := rfl
  rw [front, openSections_append (by decide), openSections] at ok
  simp only [file] at ok
  generalize filesize : input.sizeWith [.osrel, .cmdline, .dt, .splash] input.stub.size = size at ok
  cases kernel : ZLoader.sectionVma architecture .linux input.linux input.stubAlignment with
  | error exit =>
    rw [kernel] at ok
    cases ok
  | ok linux =>
    obtain rfl := sectionVma_linux kernel
    have last : .linux ∉ [SectionDataId.initrd] := by decide
    simp only [kernel, Except.bind, Except.map, openSections_others last] at ok
    obtain rfl := Except.ok.inj ok
    have sections : input.vmas = input.vmasOf [.osrel, .cmdline, .dt, .splash] ++
        input.vma .linux input.linux :: input.vmasOf [.initrd] := by
      simp only [vmas, front, vmasOf, List.filterMap_append]
      rfl
    have total : input.mappedSize = input.sizeWith [.initrd]
        (size + alignValue input.linux.size input.fileAlignment.toUInt64) := by
      rw [mappedSize, front, ← filesize]
      simp only [sizeWith, List.filterMap_append, List.foldl_append]
      rfl
    rw [sections, total]

end BuildInput

/-! ## The output file -/

/-- The offset belongs to a header field that the builder sets before it adds sections. -/
def InFixups (pe offset : ℕ) : Prop :=
  (pe + 22 ≤ offset ∧ offset < pe + 24) ∨ (pe + 56 ≤ offset ∧ offset < pe + 76) ∨
    (pe + 94 ≤ offset ∧ offset < pe + 96)

theorem not_inFixups {pe offset : ℕ}
    (away : (offset < pe + 22 ∨ pe + 24 ≤ offset) ∧ (offset < pe + 56 ∨ pe + 76 ≤ offset) ∧
      (offset < pe + 94 ∨ pe + 96 ≤ offset)) : ¬ InFixups pe offset := by
  unfold InFixups
  omega

/-- The bits that are set in `characteristics`. -/
def strippedFlags : UInt16 :=
  peHeaderLineNumsStripped ||| peHeaderLocalSymsStripped ||| peHeaderDebugStripped

/-- A header field that is set, with its value. -/
structure FieldWrite where
  offset : ℕ
  width : ℕ
  value : ℕ

namespace FieldWrite

def window (write : FieldWrite) : Window := ⟨write.offset, write.width⟩

/-- The field has the value already. -/
def Holds (write : FieldWrite) (store : ByteStore) : Prop :=
  write.value % 256 ^ write.width = store.readLE write.offset write.width

instance (write : FieldWrite) (store : ByteStore) : Decidable (write.Holds store) :=
  inferInstanceAs (Decidable (_ = _))

def apply (store : ByteStore) (write : FieldWrite) : ByteStore :=
  store.writeLE write.offset write.width write.value

/-- A region keeps its bytes when each field that reaches into it has its value already. -/
theorem keeps_foldl_apply {region : ℕ → Prop} {before store : ByteStore} {writes : List FieldWrite}
    (kept : ByteStore.Keeps region before store)
    (away : ∀ write ∈ writes,
      (∀ offset, region offset → ¬ write.window.Contains offset) ∨ write.Holds before) :
    ByteStore.Keeps region before (writes.foldl apply store) := by
  induction writes generalizing store with
  | nil => exact kept
  | cons write rest ih =>
    rw [List.forall_mem_cons] at away
    apply ih _ away.2
    intro offset inside
    rw [apply]
    rcases away.1 with apart | holds
    · rw [ByteStore.writeLE_outside _ _ (apart offset inside), kept offset inside]
    · by_cases within : write.window.Contains offset
      · have same := congrFun (before.writeLE_readLE _ _ _ holds) offset
        have covered : (Window.mk write.offset write.width).Contains offset := within
        rw [ByteStore.writeLE, if_pos covered] at same ⊢
        exact same
      · rw [ByteStore.writeLE_outside _ _ within, kept offset inside]

end FieldWrite

section Fixups

variable (memory : ByteStore) (pe : ℕ) (efiVersion : Option (UInt16 × UInt16))
  (fileAlignment sectionAlignment : UInt32)

/-- The fields that a version is set in. -/
def versionWrites (pe : ℕ) : Option (UInt16 × UInt16) → List FieldWrite
  | none => []
  | some (major, minor) =>
      [⟨pe + 72, 2, major.toNat⟩, ⟨pe + 74, 2, minor.toNat⟩, ⟨pe + 64, 2, major.toNat⟩,
        ⟨pe + 66, 2, minor.toNat⟩]

/-- The fields that are set behind `characteristics`. -/
def laterWrites : List FieldWrite :=
  (if PeImageHeaders.subsystem memory pe == peHeaderSubsystemEfiApplication then
    versionWrites pe efiVersion ++ [⟨pe + 94, 2, 0⟩]
  else []) ++ [⟨pe + 60, 4, fileAlignment.toNat⟩, ⟨pe + 56, 4, sectionAlignment.toNat⟩]

/-- The fields that the builder sets before it adds sections. -/
def fieldWrites : List FieldWrite :=
  ⟨pe + 22, 2, (PeImageHeaders.characteristics memory pe ||| strippedFlags).toNat⟩ ::
    laterWrites memory pe efiVersion fileAlignment sectionAlignment

theorem fixupHeaders_eq :
    fixupHeaders memory pe efiVersion fileAlignment sectionAlignment =
      (fieldWrites memory pe efiVersion fileAlignment sectionAlignment).foldl FieldWrite.apply
        memory := by
  have subsystem (value : ℕ) : PeImageHeaders.subsystem (memory.writeLE (pe + 22) 2 value) pe =
      PeImageHeaders.subsystem memory pe := by
    have kept : ByteStore.Keeps (fun offset => pe + 24 ≤ offset) memory
        (memory.writeLE (pe + 22) 2 value) :=
      ByteStore.keeps_writeLE _ _ fun offset behind => .inr (by omega)
    exact kept.u16 fun offset lower _ => by omega
  rw [fieldWrites, laterWrites]
  unfold fixupHeaders
  dsimp only
  rw [subsystem]
  cases application : PeImageHeaders.subsystem memory pe == peHeaderSubsystemEfiApplication with
  | false => rfl
  | true =>
    cases efiVersion with
    | none => rfl
    | some version => rfl

/-- Where the later fields are. -/
theorem laterWrites_place {write : FieldWrite}
    (member : write ∈ laterWrites memory pe efiVersion fileAlignment sectionAlignment) :
    (pe + 56 ≤ write.offset ∧ write.offset + write.width ≤ pe + 76) ∨
      (pe + 94 ≤ write.offset ∧ write.offset + write.width ≤ pe + 96) := by
  have alignments : ∀ write ∈ [FieldWrite.mk (pe + 60) 4 fileAlignment.toNat,
      ⟨pe + 56, 4, sectionAlignment.toNat⟩],
        pe + 56 ≤ write.offset ∧ write.offset + write.width ≤ pe + 76 := by
    simp only [List.forall_mem_cons, List.not_mem_nil, false_imp_iff, implies_true, and_true]
    omega
  rw [laterWrites] at member
  rcases List.mem_append.mp member with versions | rest
  · split_ifs at versions
    · rcases List.mem_append.mp versions with version | dll
      · left
        cases efiVersion with
        | none => cases version
        | some numbers =>
          simp only [versionWrites, List.mem_cons, List.not_mem_nil, or_false] at version
          rcases version with rfl | rfl | rfl | rfl
          all_goals
            dsimp only
            omega
      · right
        obtain rfl := List.mem_singleton.mp dll
        dsimp only
        omega
    · cases versions
  · exact .inl (alignments write rest)

/-- And all of them. -/
theorem fieldWrites_inFixups {write : FieldWrite}
    (member : write ∈ fieldWrites memory pe efiVersion fileAlignment sectionAlignment)
    {offset : ℕ} (inside : write.window.Contains offset) : InFixups pe offset := by
  obtain ⟨lower, upper⟩ := inside
  dsimp only [FieldWrite.window] at lower upper
  rw [fieldWrites] at member
  rcases List.mem_cons.mp member with rfl | later
  · exact .inl ⟨lower, upper⟩
  · have place := laterWrites_place _ _ _ _ _ later
    rw [InFixups]
    omega

theorem fixupHeaders_characteristics :
    PeImageHeaders.characteristics
      (fixupHeaders memory pe efiVersion fileAlignment sectionAlignment) pe =
        PeImageHeaders.characteristics memory pe ||| strippedFlags := by
  have rest : ByteStore.Keeps (Window.mk (pe + 22) 2).Contains
      (memory.writeLE (pe + 22) 2 (PeImageHeaders.characteristics memory pe ||| strippedFlags).toNat)
      (fixupHeaders memory pe efiVersion fileAlignment sectionAlignment) := by
    rw [fixupHeaders_eq, fieldWrites, List.foldl_cons]
    apply FieldWrite.keeps_foldl_apply (.refl _ _)
    intro write member
    refine .inl fun offset own other => ?_
    have place := laterWrites_place _ _ _ _ _ member
    obtain ⟨lower, upper⟩ := other
    rw [Window.contains_mk] at own
    dsimp only [FieldWrite.window] at lower upper
    omega
  refine (rest.u16 fun offset lower upper => ⟨lower, upper⟩).trans ?_
  exact ByteStore.u16_writeLE _ _ _

theorem fixupHeaders_sectionAlignment :
    PeImageHeaders.sectionAlignment
      (fixupHeaders memory pe efiVersion fileAlignment sectionAlignment) pe = sectionAlignment :=
  ByteStore.u32_writeLE _ _ _

end Fixups

namespace BuildInput

variable (input : BuildInput)

/-- The mapped output file before its headers are changed. -/
def mapped : ByteStore := mappedMemory input input.mappedSize

/-- Offset of the image headers in the mapping. -/
def mappedPe : ℕ := (input.mapped.u32 dosPeOffsetLocation).toNat

/-- The mapped output file with the header fields set. -/
def fixedUp : ByteStore :=
  fixupHeaders input.mapped input.mappedPe input.efiVersion input.fileAlignment
    input.sectionAlignment

/-- The state in front of the loop that adds the sections. -/
def start : BuildState :=
  let sectionOffset := input.mappedPe + sizeofPeCoffHeader
    + (PeImageHeaders.sizeOfOptionalHeader input.fixedUp input.mappedPe).toNat
  let count := (PeImageHeaders.numberOfSections input.fixedUp input.mappedPe).toNat
  { memory := input.fixedUp
    sectionOffset := sectionOffset + sizeofPeSectionHeader * count
    largest := largestEnds input.fileAlignment input.sectionAlignment
      (sectionHeaders input.fixedUp sectionOffset count)
    filesize := input.stub.size }

end BuildInput

/-- A run that completes, taken apart. -/
structure Completes (input : BuildInput) (out : InputFile) (last : BuildState) : Prop where
  stubSize : peHeaderSize ≤ input.stub.size.toNat
  headers : input.pe + sizeofPeImageHeaders ≤ peHeaderSize
  dos : input.stub.bytes.u16 0 = mzDosSignature
  signature : input.stub.bytes.u32 input.pe = peHeaderSignature
  transferred : input.stub.size.toNat ≤ maxTransfer
  checked : checkStub input.mapped input.mappedSize = none
  appended : appendSections (mappedLimit input.mappedSize) input.mappedPe input.fileAlignment
    input.sectionAlignment input.vmas input.start = .ok last
  result : out = truncate last.memory input.mappedSize last.filesize

theorem buildImage_ok {input : BuildInput} {out : InputFile}
    (built : buildImage input = .ok out) : ∃ last, Completes input out last := by
  rw [buildImage] at built
  cases inspected : inspectPe input.stub with
  | none =>
    rw [inspected] at built
    cases built
  | some stub =>
    obtain ⟨⟨stubSize, headers, dos, signature⟩, rfl⟩ := inspectPe_eq_some inspected
    rw [inspected] at built
    change (openSections input (PeImageHeaders.machine input.stub.bytes input.pe)
      input.fileAlignment sectionDataIds input.stubAlignment input.stub.size).bind (fun opened =>
        if input.stub.size.toNat > maxTransfer then _
        else assemble input input.fileAlignment opened) = .ok out at built
    obtain ⟨opened, opening, built⟩ := bind_eq_ok_iff.mp built
    obtain rfl := BuildInput.openSections_ok opening
    split_ifs at built with transferred
    rw [assemble] at built
    dsimp only at built
    cases checked : checkStub (mappedMemory input input.mappedSize) input.mappedSize with
    | some text =>
      rw [checked] at built
      cases built
    | none =>
      rw [checked] at built
      dsimp only at built
      split_ifs at built
      change (appendSections (mappedLimit input.mappedSize) input.mappedPe input.fileAlignment
        input.sectionAlignment input.vmas input.start).map _ = .ok out at built
      obtain ⟨last, appended, finish⟩ := map_eq_ok_iff.mp built
      exact ⟨last, stubSize, headers, dos, signature, Nat.not_lt.mp transferred, checked,
        appended, finish.symm⟩

namespace BuildInput

variable (input : BuildInput)

/-- The end of the stub's section table, where the new headers go. -/
def stubTableEnd : ℕ := input.tableOffset + sizeofPeSectionHeader * input.stubCount

/-- The end of the section table with the new headers. -/
def tableEnd : ℕ := input.stubTableEnd + sizeofPeSectionHeader * input.vmas.length

/-- The ends of the file and of the memory behind the sections of the stub. -/
def stubEnds : Largest :=
  largestEnds input.fileAlignment input.sectionAlignment input.stubSections

/-- The sections that are added, each with the ends it is put at. -/
def plan : List (SectionVma × Largest) :=
  planSections input.fileAlignment input.sectionAlignment input.vmas input.stubEnds

/-- The size that the output file is cut to. -/
def outputSize : ℕ :=
  input.stub.size.toNat +
    (input.vmas.map fun vma => (alignValue32 vma.rawSize input.fileAlignment).toNat).sum

/-- The section table of the stub. -/
def stubTable : Window := ⟨input.tableOffset, sizeofPeSectionHeader * input.stubCount⟩

/-- The new headers behind it. -/
def newTable : Window := ⟨input.stubTableEnd, sizeofPeSectionHeader * input.vmas.length⟩

/-- The header fields that are set in the stub. -/
def stubWrites : List FieldWrite :=
  fieldWrites input.stub.bytes input.pe input.efiVersion input.fileAlignment input.sectionAlignment

/-- The builder changes none of the bytes: the fields that it sets there have their values already,
and no total, no new header and no file is put there. -/
structure Untouched (window : Window) : Prop where
  fields : ∀ write ∈ input.stubWrites,
    write.window.Disjoint window ∨ write.Holds input.stub.bytes
  totals : ∀ total ∈ totalWindows input.pe, total.Disjoint window
  newTable : input.newTable.Disjoint window
  payloads : ∀ turn ∈ input.plan, (plannedData turn).Disjoint window

instance (window : Window) : Decidable (input.Untouched window) :=
  decidable_of_iff (_ ∧ _ ∧ _ ∧ _)
    ⟨fun ⟨fields, totals, newTable, payloads⟩ => ⟨fields, totals, newTable, payloads⟩,
      fun untouched =>
        ⟨untouched.fields, untouched.totals, untouched.newTable, untouched.payloads⟩⟩

/-- The fields that are set or counted up and give the layout of the output file. -/
def countedFields : List Window := [⟨input.pe + 6, 2⟩, ⟨input.pe + 56, 4⟩, ⟨input.pe + 80, 4⟩]

/-- The headers of the stub lie in the stub and in the mapping, and the new ones in the output file;
nothing is written over the offset of the headers, the size of the optional header and the stub's
section table; and no header or file is put over the fields that are counted up, no total lies in
the new table, and no file is put over a new header that is there already. -/
structure HeadersKept : Prop where
  inStub : input.pe + 96 ≤ input.stub.size.toNat
  mapped : input.pe + 96 ≤ input.mappedSize.toNat
  tableInStub : input.stubTable.Within input.stub.size.toNat
  tableMapped : input.stubTable.Within input.mappedSize.toNat
  newInFile : input.newTable.Within input.outputSize
  newMapped : input.newTable.Within input.mappedSize.toNat
  peOffset : input.Untouched ⟨dosPeOffsetLocation, 4⟩
  optionalSize : input.Untouched ⟨input.pe + 20, 2⟩
  stubTable : input.Untouched input.stubTable
  counted : ∀ field ∈ input.countedFields,
    input.newTable.Disjoint field ∧ ∀ turn ∈ input.plan, (plannedData turn).Disjoint field
  totals : ∀ total ∈ totalWindows input.pe, total.Disjoint input.newTable
  data : DataClear input.stubTableEnd 0 input.plan

instance : Decidable input.HeadersKept :=
  decidable_of_iff (_ ∧ _ ∧ _ ∧ _ ∧ _ ∧ _ ∧ _ ∧ _ ∧ _ ∧ _ ∧ _ ∧ _)
    ⟨fun ⟨inStub, mapped, tableInStub, tableMapped, newInFile, newMapped, peOffset, optionalSize,
        stubTable, counted, totals, data⟩ => ⟨inStub, mapped, tableInStub, tableMapped, newInFile,
          newMapped, peOffset, optionalSize, stubTable, counted, totals, data⟩,
      fun kept => ⟨kept.inStub, kept.mapped, kept.tableInStub, kept.tableMapped, kept.newInFile,
        kept.newMapped, kept.peOffset, kept.optionalSize, kept.stubTable, kept.counted, kept.totals,
        kept.data⟩⟩

/-- The offset holds a byte of the stub, in the file and in the mapping. -/
def InStub (offset : ℕ) : Prop :=
  offset < input.stub.size.toNat ∧ offset < input.mappedSize.toNat

theorem vmas_length : input.vmas.length ≤ 6 := List.length_filterMap_le ..

theorem tableEnd_eq :
    input.tableEnd = input.tableOffset + 40 * input.stubCount + 40 * input.vmas.length := rfl

theorem stubTableEnd_eq : input.stubTableEnd = input.tableOffset + 40 * input.stubCount := rfl

theorem mapped_keeps : ByteStore.Keeps input.InStub input.stub.bytes input.mapped := by
  rintro offset ⟨file, mapping⟩
  rw [mapped, mappedMemory, if_neg (by omega), if_pos file]

variable {input}

/-- A file is at least as long as the stub. -/
theorem size_le_outputSize : input.stub.size.toNat ≤ input.outputSize := Nat.le_add_right _ _

section Kept

variable (kept : input.HeadersKept)

include kept

theorem HeadersKept.field {offset : ℕ} (front : offset < input.pe + 96) : input.InStub offset :=
  ⟨Nat.lt_of_lt_of_le front kept.inStub, Nat.lt_of_lt_of_le front kept.mapped⟩

theorem HeadersKept.table {offset : ℕ} (inside : input.stubTable.Contains offset) :
    input.InStub offset := ⟨kept.tableInStub offset inside, kept.tableMapped offset inside⟩

theorem HeadersKept.counts {field : Window} (listed : field ∈ input.countedFields) {offset : ℕ}
    (inside : field.Contains offset) : ¬ input.newTable.Contains offset ∧
      ∀ turn ∈ input.plan, ¬ (plannedData turn).Contains offset := by
  obtain ⟨table, payloads⟩ := kept.counted field listed
  exact ⟨fun header => table offset header inside,
    fun turn member payload => payloads turn member offset payload inside⟩

theorem mappedPe_eq : input.mappedPe = input.pe := by
  have place : dosPeOffsetLocation = 60 := rfl
  rw [mappedPe, input.mapped_keeps.u32 fun offset _ upper => kept.field (by omega), pe]

/-- The fields that are set in the mapping are those that are set in the stub. -/
theorem mappedWrites_eq :
    fieldWrites input.mapped input.pe input.efiVersion input.fileAlignment input.sectionAlignment =
      input.stubWrites := by
  have flags : PeImageHeaders.characteristics input.mapped input.pe =
      PeImageHeaders.characteristics input.stub.bytes input.pe :=
    input.mapped_keeps.u16 fun offset _ upper => kept.field (by omega)
  have subsystem : PeImageHeaders.subsystem input.mapped input.pe =
      PeImageHeaders.subsystem input.stub.bytes input.pe :=
    input.mapped_keeps.u16 fun offset _ upper => kept.field (by omega)
  rw [stubWrites, fieldWrites, fieldWrites, laterWrites, laterWrites, flags, subsystem]

/-- The header fields that are set are all that differs from the stub before sections are added. -/
theorem fixedUp_keeps {region : ℕ → Prop} (inStub : ∀ offset, region offset → input.InStub offset)
    (away : ∀ write ∈ input.stubWrites,
      (∀ offset, region offset → ¬ write.window.Contains offset) ∨ write.Holds input.stub.bytes) :
    ByteStore.Keeps region input.stub.bytes input.fixedUp := by
  rw [fixedUp, mappedPe_eq kept, fixupHeaders_eq, mappedWrites_eq kept]
  refine (input.mapped_keeps.mono inStub).trans
    (FieldWrite.keeps_foldl_apply (.refl _ _) fun write member => ?_)
  refine (away write member).imp_right fun holds => ?_
  have same : input.mapped.readLE write.offset write.width =
      input.stub.bytes.readLE write.offset write.width := by
    apply input.mapped_keeps.readLE
    intro offset lower upper
    have fixups := fieldWrites_inFixups _ _ _ _ _ member ⟨lower, upper⟩
    rw [InFixups] at fixups
    exact kept.field (by omega)
  rw [FieldWrite.Holds, same]
  exact holds

/-- A field of the stub's headers that is not set is as it was. -/
theorem fixedUp_field {offset width : ℕ} (front : offset + width ≤ input.pe + 96)
    (outside : ∀ at_, offset ≤ at_ → at_ < offset + width → ¬ InFixups input.pe at_) :
    ByteStore.Keeps (Window.mk offset width).Contains input.stub.bytes input.fixedUp := by
  apply fixedUp_keeps kept
  · rintro at_ ⟨-, upper⟩
    dsimp only at upper
    exact kept.field (by omega)
  · intro write member
    refine .inl fun at_ inside within => ?_
    exact outside at_ inside.1 inside.2 (fieldWrites_inFixups _ _ _ _ _ member within)

theorem fixedUp_sectionAlignment :
    PeImageHeaders.sectionAlignment input.fixedUp input.pe = input.sectionAlignment := by
  rw [fixedUp, mappedPe_eq kept, fixupHeaders_sectionAlignment]

theorem fixedUp_characteristics :
    PeImageHeaders.characteristics input.fixedUp input.pe =
      PeImageHeaders.characteristics input.stub.bytes input.pe ||| strippedFlags := by
  have own : PeImageHeaders.characteristics input.mapped input.pe =
      PeImageHeaders.characteristics input.stub.bytes input.pe :=
    input.mapped_keeps.u16 fun offset _ upper => kept.field (by omega)
  rw [fixedUp, mappedPe_eq kept, fixupHeaders_characteristics, own]

theorem fixedUp_sizeOfOptionalHeader :
    PeImageHeaders.sizeOfOptionalHeader input.fixedUp input.pe =
      PeImageHeaders.sizeOfOptionalHeader input.stub.bytes input.pe :=
  (fixedUp_field kept (by omega) fun at_ lower upper => not_inFixups (by omega)).u16
    fun offset lower upper => ⟨lower, upper⟩

theorem fixedUp_numberOfSections :
    PeImageHeaders.numberOfSections input.fixedUp input.pe =
      PeImageHeaders.numberOfSections input.stub.bytes input.pe :=
  (fixedUp_field kept (by omega) fun at_ lower upper => not_inFixups (by omega)).u16
    fun offset lower upper => ⟨lower, upper⟩

theorem fixedUp_sizeOfImage :
    PeImageHeaders.sizeOfImage input.fixedUp input.pe = input.stubSizeOfImage :=
  (fixedUp_field kept (by omega) fun at_ lower upper => not_inFixups (by omega)).u32
    fun offset lower upper => ⟨lower, upper⟩

/-- A window that is not touched is as it was. -/
theorem fixedUp_untouched {window : Window} (untouched : input.Untouched window)
    (inStub : ∀ offset, window.Contains offset → input.InStub offset) :
    ByteStore.Keeps window.Contains input.stub.bytes input.fixedUp := by
  apply fixedUp_keeps kept inStub
  intro write member
  exact (untouched.fields write member).imp_left fun apart offset inside within =>
    apart offset within inside

theorem fixedUp_sections :
    sectionHeaders input.fixedUp input.tableOffset input.stubCount = input.stubSections := by
  have table := fixedUp_untouched kept kept.stubTable fun offset => kept.table
  apply sectionHeaders_congr
  intro offset lower upper
  exact table offset ⟨lower, upper⟩

/-- The loop over the files starts behind the stub's own sections. -/
theorem start_eq :
    input.start = ⟨input.fixedUp, input.stubTableEnd, input.stubEnds, input.stub.size⟩ := by
  rw [start, mappedPe_eq kept, fixedUp_sizeOfOptionalHeader kept, fixedUp_numberOfSections kept,
    stubEnds, ← fixedUp_sections kept]
  rfl

end Kept

end BuildInput

/-- The output file: the stub with its totals, header fields and section table changed, and the
bytes of the files at their places. -/
structure Builds (input : BuildInput) (out : InputFile) : Prop where
  size : out.size.toNat = input.outputSize
  pe : (out.bytes.u32 dosPeOffsetLocation).toNat = input.pe
  sizeOfOptionalHeader : PeImageHeaders.sizeOfOptionalHeader out.bytes input.pe =
    PeImageHeaders.sizeOfOptionalHeader input.stub.bytes input.pe
  table : sectionHeaders out.bytes input.tableOffset (input.stubCount + input.vmas.length) =
    input.stubSections ++ input.plan.map (plannedHeader input.fileAlignment)
  count : (PeImageHeaders.numberOfSections out.bytes input.pe).toNat =
    input.stubCount + input.vmas.length
  sizeOfImage : PeImageHeaders.sizeOfImage out.bytes input.pe =
    input.stubSizeOfImage + (input.vmas.map SectionVma.virtualSize).sum
  sectionAlignment : PeImageHeaders.sectionAlignment out.bytes input.pe = input.sectionAlignment
  characteristics : input.newTable.Disjoint ⟨input.pe + 22, 2⟩ →
    (∀ turn ∈ input.plan, (plannedData turn).Disjoint ⟨input.pe + 22, 2⟩) →
      PeImageHeaders.characteristics out.bytes input.pe =
        PeImageHeaders.characteristics input.stub.bytes input.pe ||| strippedFlags
  reads : ∀ turn ∈ input.plan, ReadFits (mappedLimit input.mappedSize) turn
  data : ∀ turn ∈ input.plan, ∀ index < turn.1.rawSize.toNat,
    ¬ InTotals input.pe (turn.2.rawAddress.toNat + index) →
    ¬ input.newTable.Contains (turn.2.rawAddress.toNat + index) →
    turn.2.rawAddress.toNat + index < out.size.toNat →
    turn.2.rawAddress.toNat + index < input.mappedSize.toNat →
      out.bytes (turn.2.rawAddress.toNat + index) = turn.1.file.bytes index
  kept : ∀ window, input.Untouched window →
    (∀ offset, window.Contains offset → input.InStub offset) →
      ByteStore.Keeps window.Contains input.stub.bytes out.bytes

theorem defaultAlignment_pos {value default : UInt32} (nonzero : default ≠ 0) :
    0 < (defaultAlignment value default).toNat := by
  rw [defaultAlignment]
  apply Nat.pos_of_ne_zero
  intro zero
  split_ifs at zero with unset
  · exact nonzero (UInt32.toNat_inj.mp zero)
  · exact unset (by rw [UInt32.toNat_inj.mp (zero.trans (by rfl : 0 = (0 : UInt32).toNat))]; rfl)

/-- A sum of so few 32-bit sizes does not wrap on 64 bits. -/
theorem sum_toUInt64 (sizes : List UInt32) (few : sizes.length < 2 ^ 16) :
    (sizes.map UInt32.toUInt64).sum.toNat = (sizes.map UInt32.toNat).sum ∧
      (sizes.map UInt32.toNat).sum ≤ sizes.length * 2 ^ 32 := by
  induction sizes with
  | nil => exact ⟨rfl, Nat.zero_le _⟩
  | cons size rest ih =>
    rw [List.length_cons] at few
    have tail := ih (by omega)
    have word := size.toNat_lt
    simp only [List.map_cons, List.sum_cons, List.length_cons, UInt64.toNat_add,
      UInt32.toNat_toUInt64, tail.1]
    constructor
    · apply Nat.mod_eq_of_lt
      omega
    · omega

/-- The largest ends of the stub's own sections come from 32-bit fields. -/
theorem largestEnds_lt (fileAlignment sectionAlignment : UInt32) (sections : List PeSectionHeader) :
    (largestEnds fileAlignment sectionAlignment sections).rawAddress.toNat < 2 ^ 32 ∧
      (largestEnds fileAlignment sectionAlignment sections).vma.toNat < 2 ^ 32 := by
  rw [largestEnds]
  induction sections using List.reverseRecOn with
  | nil => exact ⟨Nat.two_pow_pos 32, Nat.two_pow_pos 32⟩
  | append_singleton before sec ih =>
    rw [List.foldl_append, List.foldl_cons, List.foldl_nil, Largest.extend]
    dsimp only
    constructor
    · split_ifs
      · exact UInt32.toNat_lt _
      · exact ih.1
    · split_ifs
      · exact UInt32.toNat_lt _
      · exact ih.2

/-- The checks limit the number of the stub's own sections. -/
theorem checkStub_eq_none {memory : ByteStore} {memSize : UInt64}
    (checked : checkStub memory memSize = none) :
    (PeImageHeaders.numberOfSections memory (memory.u32 dosPeOffsetLocation).toNat).toNat ≤ 96 := by
  obtain ⟨-, checked⟩ := passed_of_check checked
  obtain ⟨-, checked⟩ := passed_of_check checked
  obtain ⟨-, checked⟩ := passed_of_check checked
  obtain ⟨-, checked⟩ := passed_of_check checked
  have many := (passed_of_check checked).1
  have limit : peHeaderMaxNumberOfSections.toNat = 96 := rfl
  rw [← limit]
  exact UInt16.le_iff_toNat_le.mp (UInt16.not_lt.mp many)

/-- The loop adds up the size of the output file. -/
theorem last_filesize {input : BuildInput} {out : InputFile} {last : BuildState}
    (run : Completes input out last)
    (filesize : last.filesize = input.stub.size +
      (input.vmas.map fun vma => (alignValue32 vma.rawSize input.fileAlignment).toUInt64).sum) :
    last.filesize.toNat = input.outputSize := by
  have few := input.vmas_length
  have sizes := sum_toUInt64
    (input.vmas.map fun vma => alignValue32 vma.rawSize input.fileAlignment)
    (by rw [List.length_map]; omega)
  rw [List.map_map, List.map_map, List.length_map] at sizes
  have wide : (input.vmas.map fun vma =>
      (alignValue32 vma.rawSize input.fileAlignment).toUInt64).sum.toNat =
        (input.vmas.map fun vma => (alignValue32 vma.rawSize input.fileAlignment).toNat).sum :=
    sizes.1
  have limit : (input.vmas.map fun vma =>
      (alignValue32 vma.rawSize input.fileAlignment).toNat).sum ≤ input.vmas.length * 2 ^ 32 :=
    sizes.2
  have transferred := run.transferred
  have transfer : maxTransfer = 0x7ffff000 := rfl
  rw [filesize, UInt64.toNat_add, wide, BuildInput.outputSize]
  apply Nat.mod_eq_of_lt
  omega

/-! ## A run that completes -/

section Completed

variable {input : BuildInput} {out : InputFile} {last : BuildState} (kept : input.HeadersKept)
  (run : Completes input out last)
include kept run

/-- What the loop leaves, started behind the stub's own sections. -/
theorem Completes.appends :
    AppendsSections (mappedLimit input.mappedSize) input.pe input.fileAlignment
      input.sectionAlignment input.vmas
      ⟨input.fixedUp, input.stubTableEnd, input.stubEnds, input.stub.size⟩ last := by
  have few := input.vmas_length
  have raw : input.stubEnds.rawAddress.toNat < 2 ^ 32 := (largestEnds_lt ..).1
  have appended := run.appended
  rw [BuildInput.start_eq kept, BuildInput.mappedPe_eq kept] at appended
  refine appendSections_ok appended (defaultAlignment_pos (by decide)) kept.totals
    (fun turn member => ⟨?_, ?_⟩) kept.data (by dsimp only; omega)
  · exact (kept.counted _ (by simp [BuildInput.countedFields])).2 turn member
  · exact (kept.counted _ (by simp [BuildInput.countedFields])).2 turn member

theorem Completes.size : out.size.toNat = input.outputSize := by
  rw [run.result]
  exact last_filesize run (run.appends kept).filesize

omit kept in
/-- The output file holds what it and the mapping have room for. -/
theorem Completes.written :
    ByteStore.Keeps (fun offset => offset < out.size.toNat ∧ offset < input.mappedSize.toNat)
      last.memory out.bytes := by
  rw [run.result]
  exact fun offset inside => if_pos inside

theorem Completes.inFile {offset : ℕ} (inside : input.InStub offset) :
    offset < out.size.toNat ∧ offset < input.mappedSize.toNat := by
  rw [run.size kept]
  exact ⟨Nat.lt_of_lt_of_le inside.1 BuildInput.size_le_outputSize, inside.2⟩

/-- Bytes that are neither totals nor headers nor put there from files are those of the headers with
the fields set. -/
theorem Completes.fixedUp {window : Window}
    (inStub : ∀ offset, window.Contains offset → input.InStub offset)
    (totals : ∀ offset, window.Contains offset → ¬ InTotals input.pe offset)
    (table : input.newTable.Disjoint window)
    (payloads : ∀ turn ∈ input.plan, (plannedData turn).Disjoint window) :
    ByteStore.Keeps window.Contains input.fixedUp out.bytes := by
  refine ((run.appends kept).others.mono fun offset inside => ?_).trans
    (run.written.mono fun offset inside => run.inFile kept (inStub offset inside))
  exact ⟨totals offset inside, fun header => table offset header inside,
    fun turn member payload => payloads turn member offset payload inside⟩

/-- A window that is not touched is that of the stub. -/
theorem Completes.untouched {window : Window} (untouched : input.Untouched window)
    (inStub : ∀ offset, window.Contains offset → input.InStub offset) :
    ByteStore.Keeps window.Contains input.stub.bytes out.bytes :=
  (BuildInput.fixedUp_untouched kept untouched inStub).trans
    (run.fixedUp kept inStub (fun _ inside => not_inTotals_of_disjoint untouched.totals inside)
      untouched.newTable untouched.payloads)

/-- The fields that are counted up are as the loop leaves them. -/
theorem Completes.field {offset width : ℕ} (front : offset + width ≤ input.pe + 96) :
    ByteStore.Keeps (Window.mk offset width).Contains last.memory out.bytes := by
  apply run.written.mono
  rintro at_ ⟨-, upper⟩
  dsimp only at upper
  exact run.inFile kept (kept.field (by omega))

/-- The stub's own headers and the planned ones. -/
theorem Completes.table :
    sectionHeaders out.bytes input.tableOffset (input.stubCount + input.vmas.length) =
      input.stubSections ++ input.plan.map (plannedHeader input.fileAlignment) := by
  have own : sectionHeaders out.bytes input.tableOffset input.stubCount = input.stubSections := by
    have table := run.untouched kept kept.stubTable fun offset => kept.table
    apply sectionHeaders_congr
    intro offset lower upper
    exact table offset ⟨lower, upper⟩
  have new : sectionHeaders out.bytes input.stubTableEnd input.vmas.length =
      input.plan.map (plannedHeader input.fileAlignment) := by
    rw [BuildInput.plan, ← (run.appends kept).headers]
    apply sectionHeaders_congr
    intro offset lower upper
    have header : input.newTable.Contains offset := ⟨lower, upper⟩
    apply run.written
    rw [run.size kept]
    exact ⟨kept.newInFile offset header, kept.newMapped offset header⟩
  rw [sectionHeaders_append, own]
  exact congrArg _ new

/-- The number of sections has not wrapped. -/
theorem Completes.count :
    (PeImageHeaders.numberOfSections out.bytes input.pe).toNat =
      input.stubCount + input.vmas.length := by
  have few := input.vmas_length
  have count : input.fixedUp.u16 (input.pe + 6) = input.stub.bytes.u16 (input.pe + 6) :=
    BuildInput.fixedUp_numberOfSections kept
  have out16 : out.bytes.u16 (input.pe + 6) = last.memory.u16 (input.pe + 6) :=
    (run.field kept (by omega)).u16 fun offset lower upper => ⟨lower, upper⟩
  have limit : (input.stub.bytes.u16 (input.pe + 6)).toNat ≤ 96 := by
    have mapped : input.mapped.u16 (input.pe + 6) = input.stub.bytes.u16 (input.pe + 6) :=
      input.mapped_keeps.u16 fun offset lower upper => kept.field (by omega)
    rw [← mapped, ← BuildInput.mappedPe_eq kept]
    exact checkStub_eq_none run.checked
  rw [PeImageHeaders.numberOfSections, out16, (run.appends kept).count, count, UInt16.toNat_add,
    UInt16.toNat_ofNat', BuildInput.stubCount, PeImageHeaders.numberOfSections]
  omega

theorem Completes.sizeOfImage :
    PeImageHeaders.sizeOfImage out.bytes input.pe =
      input.stubSizeOfImage + (input.vmas.map SectionVma.virtualSize).sum := by
  have image : input.fixedUp.u32 (input.pe + 80) = input.stubSizeOfImage :=
    BuildInput.fixedUp_sizeOfImage kept
  have out32 : out.bytes.u32 (input.pe + 80) = last.memory.u32 (input.pe + 80) :=
    (run.field kept (by omega)).u32 fun offset lower upper => ⟨lower, upper⟩
  rw [PeImageHeaders.sizeOfImage, out32, (run.appends kept).sizeOfImage, image]

/-- The section alignment is the one that has been set. -/
theorem Completes.sectionAlignment :
    PeImageHeaders.sectionAlignment out.bytes input.pe = input.sectionAlignment := by
  have listed : Window.mk (input.pe + 56) 4 ∈ input.countedFields := by
    simp [BuildInput.countedFields]
  obtain ⟨table, payloads⟩ := kept.counted _ listed
  rw [← BuildInput.fixedUp_sectionAlignment kept]
  refine (run.fixedUp kept ?_ ?_ table payloads).u32 fun offset lower upper => ⟨lower, upper⟩
  · rintro offset ⟨-, upper⟩
    dsimp only at upper
    exact kept.field (by omega)
  · intro offset inside
    rw [Window.contains_mk] at inside
    exact not_inTotals (by omega)

/-- So are the flags, if neither a header nor a file is put over them. -/
theorem Completes.characteristics (table : input.newTable.Disjoint ⟨input.pe + 22, 2⟩)
    (payloads : ∀ turn ∈ input.plan, (plannedData turn).Disjoint ⟨input.pe + 22, 2⟩) :
    PeImageHeaders.characteristics out.bytes input.pe =
      PeImageHeaders.characteristics input.stub.bytes input.pe ||| strippedFlags := by
  rw [← BuildInput.fixedUp_characteristics kept]
  refine (run.fixedUp kept ?_ ?_ table payloads).u16 fun offset lower upper => ⟨lower, upper⟩
  · rintro offset ⟨-, upper⟩
    dsimp only at upper
    exact kept.field (by omega)
  · intro offset inside
    rw [Window.contains_mk] at inside
    exact not_inTotals (by omega)

end Completed

/-- A run that completes and keeps the headers makes the output file so. -/
theorem buildImage_builds {input : BuildInput} {out : InputFile} (kept : input.HeadersKept)
    (built : buildImage input = .ok out) : Builds input out := by
  obtain ⟨last, run⟩ := buildImage_ok built
  have appends := run.appends kept
  have place : dosPeOffsetLocation = 60 := rfl
  have untouched (window : Window) (apart : input.Untouched window)
      (inStub : ∀ offset, window.Contains offset → input.InStub offset) :=
    run.untouched kept apart inStub
  have peOffset := untouched _ kept.peOffset fun offset inside => by
    rw [Window.contains_mk] at inside
    exact kept.field (by omega)
  have optionalSize := untouched _ kept.optionalSize fun offset inside => by
    rw [Window.contains_mk] at inside
    exact kept.field (by omega)
  refine ⟨run.size kept, ?_, optionalSize.u16 fun offset lower upper => ⟨lower, upper⟩,
    run.table kept, run.count kept, run.sizeOfImage kept, run.sectionAlignment kept,
    run.characteristics kept, appends.reads, ?_, untouched⟩
  · rw [BuildInput.pe, peOffset.u32 fun offset lower upper => ⟨lower, upper⟩]
  · intro turn member index small totals table file mapping
    rw [run.written _ ⟨file, mapping⟩]
    exact appends.data turn member index small totals table

end ZLoader
