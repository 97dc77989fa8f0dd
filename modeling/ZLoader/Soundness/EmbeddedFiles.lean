import ZLoader.Soundness.SectionReader
import ZLoader.Soundness.StubBuffers

/-! # What the stub finds of the files that were built in

The builder writes the headers of the new sections behind the table of the stub without looking at
what stands there, and the data of the files behind the last section without looking at the length
of the file. Where nothing that is there already is written over and everything is loaded, the stub
finds every file again as soon as it accepts the image at all.
-/

namespace ZLoader

/-! ## The loaded image -/

/-- The bytes of a file, and zeros behind them. -/
def InputFile.content (file : InputFile) : ByteStore := fun index =>
  if index < file.size.toNat then file.bytes index else 0

/-- The copies of a loader: the headers, and then the data of each section to its address. -/
def loadPatches (file : InputFile) : List Patch :=
  let pe := (file.bytes.u32 dosPeOffsetLocation).toNat
  .copy 0 (PeImageHeaders.sizeOfHeaders file.bytes pe).toNat file.content 0 ::
    (PeLayout.read file.bytes).sections.map fun sec =>
      .copy sec.virtualAddress.toNat sec.sizeOfRawData.toNat file.content
        sec.pointerToRawData.toNat

/-- The memory of the image after loading. -/
def loadedMemory (file : InputFile) : ByteStore := Patch.applyAll (loadPatches file) fun _ => 0

/-- The image as the firmware describes it to the program in it. -/
def loadedStub (file : InputFile) (base : UInt64) : StubImage where
  imageBase := base
  imageSize := (PeLayout.read file.bytes).sizeOfImage.toUInt64
  loadOptions := 0
  loadOptionsSize := 0
  memory := loadedMemory file

/-- Where the data of a section is put. -/
def PeSectionHeader.loadedData (sec : PeSectionHeader) : Window :=
  ⟨sec.virtualAddress.toNat, sec.sizeOfRawData.toNat⟩

/-- Headers apart from the data of all sections are loaded as they stand in the file. -/
theorem loadedMemory_keeps {file : InputFile} {window : Window}
    (inFile : window.Within file.size.toNat)
    (copied : window.Within (PeImageHeaders.sizeOfHeaders file.bytes
      (file.bytes.u32 dosPeOffsetLocation).toNat).toNat)
    (apart : ∀ sec ∈ (PeLayout.read file.bytes).sections, sec.loadedData.Disjoint window) :
    ByteStore.Keeps window.Contains file.bytes (loadedMemory file) := by
  intro offset inside
  rw [loadedMemory, loadPatches, Patch.applyAll_cons, Patch.applyAll_untouched]
  · have header : (Window.mk 0 (PeImageHeaders.sizeOfHeaders file.bytes
        (file.bytes.u32 dosPeOffsetLocation).toNat).toNat).Contains offset := by
      have front := copied offset inside
      exact Window.contains_mk.mpr ⟨Nat.zero_le _, by omega⟩
    rw [Patch.apply_inside _ _ header]
    simp only [Patch.copy, Nat.zero_add, Nat.sub_zero, InputFile.content]
    exact if_pos (inFile offset inside)
  · intro patch member within
    obtain ⟨sec, listed, rfl⟩ := List.mem_map.mp member
    exact apart sec listed offset within inside

/-- The data of a section is loaded to its address when no later section is put over it. -/
theorem loadedMemory_data {file : InputFile} {before after : List PeSectionHeader}
    {sec : PeSectionHeader} (split : (PeLayout.read file.bytes).sections = before ++ sec :: after)
    {index : ℕ} (small : index < sec.sizeOfRawData.toNat)
    (inFile : sec.pointerToRawData.toNat + index < file.size.toNat)
    (clear : ∀ later ∈ after, ¬ (Window.mk later.virtualAddress.toNat
      later.sizeOfRawData.toNat).Contains (sec.virtualAddress.toNat + index)) :
    loadedMemory file (sec.virtualAddress.toNat + index) =
      file.bytes (sec.pointerToRawData.toNat + index) := by
  rw [loadedMemory, loadPatches, split, List.map_append, List.map_cons]
  rw [← List.cons_append, Patch.applyAll_last]
  · simp only [Patch.copy, Nat.add_sub_cancel_left, InputFile.content]
    exact if_pos inFile
  · exact Window.contains_mk.mpr ⟨by omega, by omega⟩
  · intro patch member
    obtain ⟨later, listed, rfl⟩ := List.mem_map.mp member
    exact clear later listed

/-! ## The section of a file -/

/-- The names of the entries stay apart in the name field of a header. -/
theorem named_shortName_iff (id other : SectionDataId) :
    strncmp (cString other.name) (fun index => (shortName id.name).getD index 0)
      peSectionSizeOfShortName = 0 ↔ id = other := by
  cases id <;> cases other <;> decide

/-- The stub looks for every entry that a file can be given for. -/
theorem exists_wanted {id : SectionDataId} (given : id ≠ .splash) :
    ∃ entry ∈ wantedSections, entry.name = id.name := by
  revert given
  cases id <;> decide

theorem planSections_map_fst (fileAlignment sectionAlignment : UInt32) (vmas : List SectionVma)
    (largest : Largest) :
    (planSections fileAlignment sectionAlignment vmas largest).map Prod.fst = vmas := by
  induction vmas generalizing largest with
  | nil => rfl
  | cons vma rest ih => rw [planSections, List.map_cons, ih]

namespace BuildInput

variable {input : BuildInput}

/-- Each file has its turn, and no later turn is one for the same entry. -/
theorem exists_turn {id : SectionDataId} {file : InputFile} (given : input.file id = some file) :
    ∃ before turn after, input.plan = before ++ turn :: after ∧ turn.1 = input.vma id file ∧
      ∀ later ∈ after, ∃ other file, other ≠ id ∧ later.1 = input.vma other file := by
  have listed : id ∈ sectionDataIds := by cases id <;> decide
  have distinct : sectionDataIds.Nodup := by decide
  obtain ⟨front, back, split⟩ := List.append_of_mem listed
  have vmas : input.vmas = input.vmasOf front ++ input.vma id file :: input.vmasOf back := by
    rw [BuildInput.vmas, split, vmasOf, List.filterMap_append, List.filterMap_cons, given]
    rfl
  have turns : input.plan.map Prod.fst = input.vmas := planSections_map_fst ..
  rw [vmas] at turns
  obtain ⟨before, rest, plan, -, behind⟩ := List.map_eq_append_iff.mp turns
  obtain ⟨turn, after, rfl, own, later⟩ := List.map_eq_cons_iff.mp behind
  refine ⟨before, turn, after, plan, own, fun next member => ?_⟩
  have planned : next.1 ∈ input.vmasOf back := by
    rw [← later]
    exact List.mem_map_of_mem member
  obtain ⟨other, inBack, entry⟩ := List.mem_filterMap.mp planned
  obtain ⟨file, _, same⟩ := Option.map_eq_some_iff.mp entry
  refine ⟨other, file, ?_, same.symm⟩
  rintro rfl
  rw [split, List.nodup_append] at distinct
  exact (List.nodup_cons.mp distinct.2.1).1 inBack

end BuildInput

/-- The header of a turn has the name of its entry and of no other. -/
theorem plannedHeader_named_iff {input : BuildInput} {turn : SectionVma × Largest}
    {id : SectionDataId} {file : InputFile} (own : turn.1 = input.vma id file)
    (other : SectionDataId) :
    (plannedHeader input.fileAlignment turn).Named other.name ↔ id = other := by
  rw [plannedHeader, own]
  exact named_shortName_iff id other

/-! ## The conditions -/

namespace BuildInput

variable (input : BuildInput)

/-- The data of a section, as far as the stub has it. -/
def storedData (sec : PeSectionHeader) : Window :=
  ⟨sec.pointerToRawData.toNat,
    min sec.sizeOfRawData.toNat (input.stub.size.toNat - sec.pointerToRawData.toNat)⟩

/-- The header fields that the loader and the stub look at and that the builder leaves alone: both
signatures and the machine, the magic number, the size of the headers and the subsystem. -/
def readFields : List Window :=
  [⟨0, 2⟩, ⟨input.pe, 6⟩, ⟨input.pe + 24, 2⟩, ⟨input.pe + 84, 4⟩, ⟨input.pe + 92, 2⟩]

/-- The headers that the stub looks at. -/
def loadedHeaders : List Window :=
  [⟨0, 2⟩, ⟨dosPeOffsetLocation, 4⟩, ⟨input.pe, 8⟩, ⟨input.pe + 20, 6⟩, ⟨input.pe + 92, 2⟩,
    input.stubTable, input.newTable]

/-- The header of a turn. -/
def planned (turn : SectionVma × Largest) : PeSectionHeader :=
  plannedHeader input.fileAlignment turn

/-- The headers are kept, and nothing is written over the other fields that are looked at and over
the stub's section data; the files lie in the output at offsets that a header can hold, and neither
a new header nor a total lies over them; the headers are loaded, with no section's data over them;
and no file is loaded over one in front of it. -/
structure FilesPlaced : Prop where
  kept : input.HeadersKept
  fields : ∀ field ∈ input.readFields, input.Untouched field
  flags : input.newTable.Disjoint ⟨input.pe + 22, 2⟩ ∧
    ∀ turn ∈ input.plan, (plannedData turn).Disjoint ⟨input.pe + 22, 2⟩
  stubData : ∀ sec ∈ input.stubSections,
    (input.storedData sec).Within input.mappedSize.toNat ∧ input.Untouched (input.storedData sec)
  stored : ∀ turn ∈ input.plan, turn.1.rawSize.toNat = 0 ∨
    turn.2.rawAddress.toNat < 2 ^ 32 ∧
      turn.2.rawAddress.toNat + turn.1.rawSize.toNat ≤ input.outputSize ∧
      turn.2.rawAddress.toNat + turn.1.rawSize.toNat ≤ input.mappedSize.toNat
  clear : ∀ turn ∈ input.plan, input.newTable.Disjoint (plannedData turn) ∧
    ∀ total ∈ totalWindows input.pe, total.Disjoint (plannedData turn)
  headersLoaded : ∀ header ∈ input.loadedHeaders,
    header.Within (PeImageHeaders.sizeOfHeaders input.stub.bytes input.pe).toNat
  dataLoaded : ∀ sec ∈ input.stubSections ++ input.plan.map input.planned,
    ∀ header ∈ input.loadedHeaders, sec.loadedData.Disjoint header
  separate : input.plan.Pairwise fun first later =>
    (Window.mk (input.planned first).virtualAddress.toNat first.1.rawSize.toNat).Disjoint
      (input.planned later).loadedData

instance : Decidable input.FilesPlaced :=
  decidable_of_iff (input.HeadersKept ∧ _ ∧ _ ∧ _ ∧ _ ∧ _ ∧ _ ∧ _ ∧ _)
    ⟨fun ⟨kept, fields, flags, stubData, stored, clear, headersLoaded, dataLoaded, separate⟩ =>
        ⟨kept, fields, flags, stubData, stored, clear, headersLoaded, dataLoaded, separate⟩,
      fun placed => ⟨placed.kept, placed.fields, placed.flags, placed.stubData, placed.stored,
        placed.clear, placed.headersLoaded, placed.dataLoaded, placed.separate⟩⟩

/-- The stub accepts its own headers with the new sections counted in. -/
structure StubAccepts (build : Build) : Prop where
  machine : PeImageHeaders.machine input.stub.bytes input.pe = peHeaderMachineNative build.arch
  count : input.stubCount + input.vmas.length ≤ 96
  executable : PeImageHeaders.characteristics input.stub.bytes input.pe &&&
    peHeaderExecutableImage ≠ 0
  magic : PeImageHeaders.magic input.stub.bytes input.pe = peHeaderOptionalHdr64Magic
  subsystem : PeImageHeaders.subsystem input.stub.bytes input.pe = peHeaderSubsystemEfiApplication
  room : input.pe + sizeofPeImageHeaders <
    (input.stubSizeOfImage + (input.vmas.map SectionVma.virtualSize).sum).toNat

/-- The stub accepts its headers, and the files have sizes that a header can hold. -/
structure ReaderAccepts (build : Build) : Prop extends input.StubAccepts build where
  sizes : ∀ vma ∈ input.vmas, vma.file.size.toNat < 2 ^ 32

instance (build : Build) : Decidable (input.ReaderAccepts build) :=
  decidable_of_iff (_ ∧ _ ∧ _ ∧ _ ∧ _ ∧ _ ∧ _)
    ⟨fun ⟨machine, count, executable, magic, subsystem, room, sizes⟩ =>
        ⟨⟨machine, count, executable, magic, subsystem, room⟩, sizes⟩,
      fun accepts => ⟨accepts.machine, accepts.count, accepts.executable, accepts.magic,
        accepts.subsystem, accepts.room, accepts.sizes⟩⟩

end BuildInput

/-- The stub in the loaded output file finds every file with its size, and its own section headers
and section data are those of the stub file. -/
structure EmbedsFiles (build : Build) (base : UInt64) (input : BuildInput) (out : InputFile) :
    Prop where
  files : ∃ found, peLocateSections build (loadedStub out base) wantedSections =
      .ok (some found) ∧
    ∀ id file, input.file id = some file →
      ∃ entry ∈ found, entry.name = id.name ∧ entry.size = file.size ∧
        ∀ index < file.size.toNat,
          loadedMemory out (entry.loadAddress.toNat + index) = file.bytes index
  headers : ByteStore.Keeps
    (fun offset => input.tableOffset ≤ offset ∧ offset < input.stubTableEnd)
    input.stub.bytes out.bytes
  data : ∀ sec ∈ input.stubSections, ByteStore.Keeps (input.storedData sec).Contains
    input.stub.bytes out.bytes

section Built

variable {build : Build} {base : UInt64} {input : BuildInput} {out : InputFile}

/-- A field of the stub that is not touched is in the output file. -/
theorem Builds.field (placed : input.FilesPlaced) (builds : Builds input out) (field : Window)
    (listed : field ∈ input.readFields) (front : field.start + field.length ≤ input.pe + 96) :
    ByteStore.Keeps field.Contains input.stub.bytes out.bytes := by
  apply builds.kept field (placed.fields field listed)
  rintro offset ⟨-, upper⟩
  exact placed.kept.field (by omega)

/-- The headers of the output file are loaded as they stand in it. -/
theorem Builds.loaded (placed : input.FilesPlaced) (builds : Builds input out) (header : Window)
    (listed : header ∈ input.loadedHeaders) (inFile : header.Within out.size.toNat) :
    ByteStore.Keeps header.Contains out.bytes (loadedMemory out) := by
  have size : PeImageHeaders.sizeOfHeaders out.bytes input.pe =
      PeImageHeaders.sizeOfHeaders input.stub.bytes input.pe :=
    (builds.field placed ⟨input.pe + 84, 4⟩ (by simp [BuildInput.readFields])
      (by dsimp only; omega)).u32 fun offset lower upper => ⟨lower, upper⟩
  apply loadedMemory_keeps inFile
  · rw [builds.pe, size]
    exact placed.headersLoaded header listed
  · intro sec member
    rw [builds.layout] at member
    exact placed.dataLoaded sec member header listed

/-- So are the parts of its fields. -/
theorem Builds.loadedField (placed : input.FilesPlaced) (builds : Builds input out)
    (header : Window) (listed : header ∈ input.loadedHeaders)
    (front : header.start + header.length ≤ input.pe + 96) {position width : ℕ}
    (start : header.start ≤ position)
    (stop : position + width ≤ header.start + header.length) :
    ByteStore.Keeps (Window.mk position width).Contains out.bytes (loadedMemory out) := by
  refine (builds.loaded placed header listed ?_).mono ?_
  · rintro offset ⟨-, upper⟩
    have inStub := placed.kept.inStub
    have longer : input.stub.size.toNat ≤ input.outputSize := BuildInput.size_le_outputSize
    rw [builds.size]
    omega
  · rintro offset ⟨lower, upper⟩
    dsimp only at lower upper
    exact ⟨by omega, by omega⟩

/-- The section table is loaded with them. -/
theorem Builds.loadedSections (placed : input.FilesPlaced) (builds : Builds input out) :
    (PeLayout.read (loadedMemory out)).sections = (PeLayout.read out.bytes).sections := by
  have place : dosPeOffsetLocation = 60 := rfl
  have size : sizeofPeSectionHeader = 40 := rfl
  have offset : (loadedMemory out).u32 dosPeOffsetLocation = out.bytes.u32 dosPeOffsetLocation :=
    (builds.loadedField placed ⟨dosPeOffsetLocation, 4⟩ (by simp [BuildInput.loadedHeaders])
      (by dsimp only; omega) (Nat.le_refl _) (Nat.le_refl _)).u32 fun _ lower upper => ⟨lower, upper⟩
  have count : PeImageHeaders.numberOfSections (loadedMemory out) input.pe =
      PeImageHeaders.numberOfSections out.bytes input.pe :=
    (builds.loadedField placed ⟨input.pe, 8⟩ (by simp [BuildInput.loadedHeaders])
      (by dsimp only; omega) (by dsimp only; omega) (by dsimp only; omega)).u16
        fun _ lower upper => ⟨lower, upper⟩
  have optional : PeImageHeaders.sizeOfOptionalHeader (loadedMemory out) input.pe =
      PeImageHeaders.sizeOfOptionalHeader out.bytes input.pe :=
    (builds.loadedField placed ⟨input.pe + 20, 6⟩ (by simp [BuildInput.loadedHeaders])
      (by dsimp only; omega) (by dsimp only; omega) (by dsimp only; omega)).u16
        fun _ lower upper => ⟨lower, upper⟩
  have stub := builds.loaded placed input.stubTable
    (by simp [BuildInput.loadedHeaders]) fun at_ inside => by
      rw [builds.size]
      exact Nat.lt_of_lt_of_le (placed.kept.tableInStub at_ inside) BuildInput.size_le_outputSize
  have new := builds.loaded placed input.newTable
    (by simp [BuildInput.loadedHeaders]) fun at_ inside => by
      rw [builds.size]
      exact placed.kept.newInFile at_ inside
  rw [PeLayout.read, PeLayout.read]
  dsimp only
  rw [offset, builds.pe, optional, count, builds.sizeOfOptionalHeader, builds.count]
  change sectionHeaders _ input.tableOffset _ = sectionHeaders _ input.tableOffset _
  apply sectionHeaders_congr
  intro at_ lower upper
  have tableEnd := input.stubTableEnd_eq
  rw [size] at upper
  rcases Nat.lt_or_ge at_ input.stubTableEnd with early | late
  · exact stub at_ (Window.contains_mk.mpr ⟨lower, by rw [size]; omega⟩)
  · exact new at_ (Window.contains_mk.mpr ⟨late, by rw [size]; omega⟩)

/-- The flags that the builder sets are not the one that marks an executable. -/
theorem executable_strippedFlags (characteristics : UInt16) :
    (characteristics ||| strippedFlags) &&& peHeaderExecutableImage =
      characteristics &&& peHeaderExecutableImage := by
  have apart : strippedFlags.toNat &&& peHeaderExecutableImage.toNat = 0 := by decide
  apply UInt16.toNat_inj.mp
  rw [UInt16.toNat_and, UInt16.toNat_or, UInt16.toNat_and, Nat.and_or_distrib_right, apart,
    Nat.or_zero]

/-- The header fields that the search looks at, as the loaded output file has them. -/
structure LoadedFields (input : BuildInput) (memory : ByteStore) : Prop where
  pe : (memory.u32 dosPeOffsetLocation).toNat = input.pe
  dos : memory.u16 0 = input.stub.bytes.u16 0
  signature : memory.u32 input.pe = input.stub.bytes.u32 input.pe
  machine : PeImageHeaders.machine memory input.pe =
    PeImageHeaders.machine input.stub.bytes input.pe
  count : (PeImageHeaders.numberOfSections memory input.pe).toNat =
    input.stubCount + input.vmas.length
  characteristics : PeImageHeaders.characteristics memory input.pe =
    PeImageHeaders.characteristics input.stub.bytes input.pe ||| strippedFlags
  magic : PeImageHeaders.magic memory input.pe = PeImageHeaders.magic input.stub.bytes input.pe
  subsystem : PeImageHeaders.subsystem memory input.pe =
    PeImageHeaders.subsystem input.stub.bytes input.pe

/-- Apart from the flags and the number of sections they are those of the stub. -/
theorem Builds.loadedFields (placed : input.FilesPlaced) (builds : Builds input out) :
    LoadedFields input (loadedMemory out) := by
  have place : dosPeOffsetLocation = 60 := rfl
  have first : Window.mk 0 2 ∈ input.loadedHeaders := by simp [BuildInput.loadedHeaders]
  have coff : Window.mk input.pe 8 ∈ input.loadedHeaders := by simp [BuildInput.loadedHeaders]
  have flags : Window.mk (input.pe + 20) 6 ∈ input.loadedHeaders := by
    simp [BuildInput.loadedHeaders]
  have system : Window.mk (input.pe + 92) 2 ∈ input.loadedHeaders := by
    simp [BuildInput.loadedHeaders]
  have front : ByteStore.Keeps (Window.mk input.pe 6).Contains input.stub.bytes
      (loadedMemory out) :=
    (builds.field placed ⟨input.pe, 6⟩ (by simp [BuildInput.readFields])
      (by dsimp only; omega)).trans
        (builds.loadedField placed _ coff (by dsimp only; omega) (Nat.le_refl _)
          (by dsimp only; omega))
  constructor
  case pe =>
    have offset : (loadedMemory out).u32 dosPeOffsetLocation = out.bytes.u32 dosPeOffsetLocation :=
      (builds.loadedField placed ⟨dosPeOffsetLocation, 4⟩ (by simp [BuildInput.loadedHeaders])
        (by dsimp only; omega) (Nat.le_refl _) (Nat.le_refl _)).u32
          fun _ lower upper => ⟨lower, upper⟩
    rw [offset, builds.pe]
  case dos =>
    have kept := (builds.field placed ⟨0, 2⟩ (by simp [BuildInput.readFields])
      (by dsimp only; omega)).trans
        (builds.loadedField placed _ first (by dsimp only; omega) (Nat.le_refl _) (Nat.le_refl _))
    exact kept.u16 fun _ lower upper => ⟨lower, upper⟩
  case signature => exact front.u32 fun _ lower upper => ⟨lower, by dsimp only; omega⟩
  case machine =>
    exact front.u16 fun _ lower upper => ⟨by dsimp only; omega, by dsimp only; omega⟩
  case count =>
    have number : PeImageHeaders.numberOfSections (loadedMemory out) input.pe =
        PeImageHeaders.numberOfSections out.bytes input.pe :=
      (builds.loadedField placed _ coff (by dsimp only; omega) (by dsimp only; omega)
        (by dsimp only; omega)).u16
        fun _ lower upper => ⟨lower, upper⟩
    rw [number, builds.count]
  case characteristics =>
    rw [← builds.characteristics placed.flags.1 placed.flags.2]
    exact (builds.loadedField placed _ flags (by dsimp only; omega) (by dsimp only; omega)
      (by dsimp only; omega)).u16 fun _ lower upper => ⟨lower, upper⟩
  case magic =>
    have kept := (builds.field placed ⟨input.pe + 24, 2⟩ (by simp [BuildInput.readFields])
      (by dsimp only; omega)).trans
        (builds.loadedField placed _ flags (by dsimp only; omega) (by dsimp only; omega)
          (by dsimp only; omega))
    exact kept.u16 fun _ lower upper => ⟨lower, upper⟩
  case subsystem =>
    have kept := (builds.field placed ⟨input.pe + 92, 2⟩ (by simp [BuildInput.readFields])
      (by dsimp only; omega)).trans
        (builds.loadedField placed _ system (by dsimp only; omega) (Nat.le_refl _) (Nat.le_refl _))
    exact kept.u16 fun _ lower upper => ⟨lower, upper⟩

omit build base in
/-- The image headers do not stand at the start of the file, where the DOS signature is. -/
theorem Completes.pe_pos {last : BuildState} (run : Completes input out last) : 0 < input.pe := by
  apply Nat.pos_of_ne_zero
  intro zero
  have signature := congrArg UInt32.toNat run.signature
  have dos := congrArg UInt16.toNat run.dos
  rw [zero, ByteStore.u32, UInt32.toNat_ofNat'] at signature
  rw [ByteStore.u16, UInt16.toNat_ofNat'] at dos
  simp only [ByteStore.readLE, Nat.zero_add] at signature dos
  change _ = 0x4550 at signature
  change _ = 0x5a4d at dos
  omega

/-- The stub accepts the loaded output file exactly when it accepts its own headers with the new
sections counted in. -/
theorem acceptedBy_iff {last : BuildState} (placed : input.FilesPlaced)
    (run : Completes input out last) (builds : Builds input out) :
    AcceptedBy build (loadedMemory out) (ZLoader.loadedStub out base).imageSize ↔
      input.StubAccepts build := by
  have nonzero := run.pe_pos
  have fields := builds.loadedFields placed
  have imageSize : (ZLoader.loadedStub out base).imageSize.toNat =
      (input.stubSizeOfImage + (input.vmas.map SectionVma.virtualSize).sum).toNat := by
    rw [ZLoader.loadedStub, builds.layout, UInt32.toNat_toUInt64]
  constructor
  · rintro ⟨-, -, room, -, native, few, executable, wide, application⟩
    rw [fields.pe] at room native few executable wide application
    rw [fields.machine] at native
    rw [fields.count] at few
    rw [fields.characteristics, executable_strippedFlags] at executable
    rw [fields.magic] at wide
    rw [fields.subsystem] at application
    rw [imageSize] at room
    exact ⟨native, few, executable, wide, application, room.2⟩
  · intro accepts
    have room := accepts.room
    have headers : sizeofPeImageHeaders = 264 := rfl
    constructor
    · rw [fields.dos, run.dos]
    · rw [fields.pe]
      exact nonzero
    · rw [fields.pe, imageSize]
      exact ⟨by omega, room⟩
    · rw [fields.pe, fields.signature, run.signature]
    · rw [fields.pe, fields.machine]
      exact accepts.machine
    · rw [fields.pe, fields.count]
      exact accepts.count
    · rw [fields.pe, fields.characteristics, executable_strippedFlags]
      exact accepts.executable
    · rw [fields.pe, fields.magic]
      exact accepts.magic
    · rw [fields.pe, fields.subsystem]
      exact accepts.subsystem

/-- A file whose size fits the field gets that much memory, unless it is a kernel in a PE file. -/
theorem virtualSize_plain {id : SectionDataId} {file : InputFile}
    (plain : inspectPe input.linux = none) (given : input.file id = some file) :
    input.virtualSize id file = file.size.toUInt32 := by
  rw [BuildInput.virtualSize]
  split_ifs with kernel
  · obtain rfl := kernel
    obtain rfl := Option.some.inj given
    rw [plain]
  · rfl

theorem toUInt32_of_lt {size : UInt64} (small : size.toNat < 2 ^ 32) :
    size.toUInt32.toNat = size.toNat := by
  rw [UInt64.toNat_toUInt32, Nat.mod_eq_of_lt small]

/-- The turn of a file gives the entry that the stub reports. -/
theorem Builds.entry (builds : Builds input out) {id : SectionDataId}
    {file : InputFile} (given : input.file id = some file) {wanted : WantedSection}
    (name : wanted.name = id.name) :
    ∃ before turn after, input.plan = before ++ turn :: after ∧ turn.1 = input.vma id file ∧
      wanted.fillAll (PeLayout.read out.bytes).sections =
        ⟨id.name, (input.planned turn).virtualAddress.toUInt64,
          (input.planned turn).pointerToRawData.toUInt64,
          (input.planned turn).virtualSize.toUInt64⟩ := by
  obtain ⟨before, turn, after, plan, own, others⟩ := BuildInput.exists_turn given
  refine ⟨before, turn, after, plan, own, ?_⟩
  have sections : (PeLayout.read out.bytes).sections =
      (input.stubSections ++ before.map input.planned) ++
        input.planned turn :: after.map input.planned := by
    rw [builds.layout, plan, List.map_append, List.map_cons, List.append_assoc]
    rfl
  rw [sections, ← name]
  apply WantedSection.fillAll_last
  · rw [name]
    exact (plannedHeader_named_iff own id).mpr rfl
  · intro sec member
    obtain ⟨later, listed, rfl⟩ := List.mem_map.mp member
    obtain ⟨other, theirs, different, entry⟩ := others later listed
    rw [name]
    exact fun named => different ((plannedHeader_named_iff entry id).mp named)

/-- The data of a turn is loaded to the address of its header. -/
theorem Builds.content (placed : input.FilesPlaced) (builds : Builds input out)
    {before after : List (SectionVma × Largest)} {turn : SectionVma × Largest}
    (plan : input.plan = before ++ turn :: after) {index : ℕ}
    (small : index < turn.1.rawSize.toNat) :
    loadedMemory out ((input.planned turn).virtualAddress.toNat + index) =
      turn.1.file.bytes index := by
  have member : turn ∈ input.plan := by
    rw [plan]
    exact List.mem_append_right _ (List.mem_cons_self ..)
  have positive : 0 < input.fileAlignment.toNat := defaultAlignment_pos (by decide)
  obtain ⟨near, written, mapped⟩ := (placed.stored turn member).resolve_left (by omega)
  have pointer : (input.planned turn).pointerToRawData.toNat = turn.2.rawAddress.toNat := by
    change turn.2.rawAddress.toUInt32.toNat = _
    exact toUInt32_of_lt near
  have own : (plannedData turn).Contains (turn.2.rawAddress.toNat + index) :=
    ⟨Nat.le_add_right _ _, Nat.add_lt_add_left small _⟩
  obtain ⟨table, totals⟩ := placed.clear turn member
  have stands := builds.data turn member index small (not_inTotals_of_disjoint totals own)
    (fun header => table _ header own) (by rw [builds.size]; omega) (by omega)
  have raw : turn.1.rawSize.toNat ≤ (input.planned turn).sizeOfRawData.toNat :=
    le_alignValue32 positive (builds.reads turn member).1
  have sections : (PeLayout.read out.bytes).sections =
      (input.stubSections ++ before.map input.planned) ++
        input.planned turn :: after.map input.planned := by
    rw [builds.layout, plan, List.map_append, List.map_cons, List.append_assoc]
    rfl
  rw [loadedMemory_data sections (by omega), pointer, stands]
  · rw [pointer, builds.size]
    omega
  · intro sec later inside
    obtain ⟨next, behind, rfl⟩ := List.mem_map.mp later
    have separate := placed.separate
    rw [plan, List.pairwise_append] at separate
    have clear := (List.pairwise_cons.mp separate.2.1).1 next behind
    exact clear _ (Window.contains_mk.mpr ⟨by omega, by omega⟩) inside

/-- The stub's own section headers are not touched. -/
theorem Builds.stubHeaders (placed : input.FilesPlaced) (builds : Builds input out) :
    ByteStore.Keeps (fun offset => input.tableOffset ≤ offset ∧ offset < input.stubTableEnd)
      input.stub.bytes out.bytes :=
  (builds.kept _ placed.kept.stubTable fun _ => placed.kept.table).mono
    fun _ inside => Window.contains_mk.mpr inside

/-- Nor is its section data. -/
theorem Builds.stubData (placed : input.FilesPlaced) (builds : Builds input out)
    {sec : PeSectionHeader} (own : sec ∈ input.stubSections) :
    ByteStore.Keeps (input.storedData sec).Contains input.stub.bytes out.bytes := by
  obtain ⟨mapped, untouched⟩ := placed.stubData sec own
  apply builds.kept _ untouched
  intro offset inside
  have stored := inside.2
  have start := inside.1
  dsimp only [BuildInput.storedData] at start stored
  exact ⟨by omega, mapped offset inside⟩

/-- The stub in the loaded output file finds what the section table of the file says, if it accepts
its headers. -/
theorem peLocateSections_loadedStub (quiet : build.ndebug = true)
    (built : buildImage input = .ok out) (placed : input.FilesPlaced) (base : UInt64)
    (found : List WantedSection) :
    peLocateSections build (loadedStub out base) wantedSections = .ok (some found) ↔
      input.StubAccepts build ∧
        found = wantedSections.map fun entry => entry.fillAll (PeLayout.read out.bytes).sections := by
  have builds := buildImage_builds placed.kept built
  obtain ⟨last, run⟩ := buildImage_ok built
  have memory : (loadedStub out base).memory = loadedMemory out := by rw [loadedStub]
  rw [peLocateSections_of_ndebug quiet, memory, builds.loadedSections placed]
  exact and_congr_left' (acceptedBy_iff placed run builds)

/-- With the files in their places the stub finds them, and its own sections are left alone, when it
accepts its headers and the sizes of the files fit their fields. -/
theorem BuildInput.FilesPlaced.embeds (quiet : build.ndebug = true)
    (built : buildImage input = .ok out) (plain : inspectPe input.linux = none)
    (placed : input.FilesPlaced) (accepts : input.ReaderAccepts build) (base : UInt64) :
    EmbedsFiles build base input out := by
  have builds := buildImage_builds placed.kept built
  have located := (peLocateSections_loadedStub quiet built placed base _).mpr
    ⟨accepts.toStubAccepts, rfl⟩
  refine ⟨⟨_, located, ?_⟩, builds.stubHeaders placed, fun sec => builds.stubData placed⟩
  intro id file given
  obtain ⟨entry, listed, name⟩ : ∃ entry ∈ wantedSections, entry.name = id.name :=
    exists_wanted fun splash => by
      rw [splash] at given
      cases given
  obtain ⟨before, turn, after, plan, own, filled⟩ := builds.entry given name
  have member : input.vma id file ∈ input.vmas :=
    List.mem_filterMap.mpr ⟨id, by cases id <;> decide, by rw [given]; rfl⟩
  have small : file.size.toNat < 2 ^ 32 := accepts.sizes _ member
  refine ⟨entry.fillAll (PeLayout.read out.bytes).sections, List.mem_map_of_mem listed, ?_⟩
  rw [filled]
  refine ⟨rfl, ?_, fun index inside => ?_⟩
  · change (plannedHeader input.fileAlignment turn).virtualSize.toUInt64 = file.size
    rw [plannedHeader, own]
    change (input.virtualSize id file).toUInt64 = file.size
    apply UInt64.toNat_inj.mp
    rw [virtualSize_plain plain given, UInt32.toNat_toUInt64, toUInt32_of_lt small]
  · have raw : turn.1.rawSize.toNat = file.size.toNat := by
      rw [own]
      exact toUInt32_of_lt small
    dsimp only
    rw [UInt32.toNat_toUInt64, builds.content placed plan (by omega), own]
    rfl

/-- With the files in their places the stub finds them only when it accepts its headers and the
sizes of the files fit their fields. -/
theorem EmbedsFiles.readerAccepts (quiet : build.ndebug = true)
    (built : buildImage input = .ok out) (placed : input.FilesPlaced)
    (embeds : EmbedsFiles build base input out) : input.ReaderAccepts build := by
  obtain ⟨found, located, files⟩ := embeds.files
  have small := peLocateSections_size located
  refine ⟨((peLocateSections_loadedStub quiet built placed base found).mp located).1, ?_⟩
  intro vma member
  obtain ⟨id, _, given⟩ := List.mem_filterMap.mp member
  obtain ⟨file, opened, rfl⟩ := Option.map_eq_some_iff.mp given
  obtain ⟨entry, reported, -, size, -⟩ := files id file opened
  change file.size.toNat < _
  rw [← size]
  exact small entry reported

/-- The stub finds the files and its own sections are left alone when the files are in their places
and it accepts its headers and the sizes; and with the files in their places, only then. -/
theorem embedsFiles_iff (quiet : build.ndebug = true) (built : buildImage input = .ok out)
    (plain : inspectPe input.linux = none) (base : UInt64) :
    (input.FilesPlaced ∧ input.ReaderAccepts build → EmbedsFiles build base input out) ∧
      (input.FilesPlaced → EmbedsFiles build base input out → input.ReaderAccepts build) :=
  ⟨fun ⟨placed, accepts⟩ => placed.embeds quiet built plain accepts base,
    fun placed embeds => embeds.readerAccepts quiet built placed⟩

end Built

/-- A stub of four sections, the first of which starts right behind a table with room for none. -/
def crowdedInput : BuildInput :=
  { blankInput 10 20 with
    stub :=
      { size := 0x1200
        bytes := .ofFields (
          [(0, 2, 0x5a4d), (0x3c, 4, 0x40), (0x40, 4, 0x4550), (0x44, 2, 0x8664), (0x46, 2, 4),
            (0x54, 2, 0xf0), (0x56, 2, 2), (0x58, 2, 0x20b), (0x78, 4, 0x1000), (0x7c, 4, 0x200),
            (0x90, 4, 0x5000), (0x94, 4, 0x200), (0x9c, 2, 10)] ++
          sectionFields 0 0x400 0x1000 0x400 0x200 0x60000020 ++
          sectionFields 1 0x400 0x2000 0x400 0x600 0x40000040 ++
          sectionFields 2 0x400 0x3000 0x400 0xa00 0xc0000040 ++
          sectionFields 3 0x400 0x4000 0x400 0xe00 0x42000040) } }

/-- The second new header is written over the first bytes of the stub's code. -/
theorem not_embedsFiles_crowded :
    inspectPe crowdedInput.linux = none ∧ ∃ out, buildImage crowdedInput = .ok out ∧
      ¬ EmbedsFiles ⟨.x86_64, true, true, false⟩ 0x400000 crowdedInput out := by
  refine ⟨by decide +kernel, ?_⟩
  obtain ⟨out, built, changed⟩ := exists_of_check (buildImage crowdedInput)
    (fun out => out.bytes 0x210 != crowdedInput.stub.bytes 0x210) (by decide +kernel)
  refine ⟨out, built, fun embeds => ?_⟩
  have text : ∃ sec ∈ crowdedInput.stubSections,
      (crowdedInput.storedData sec).Contains 0x210 := by decide +kernel
  obtain ⟨sec, own, inside⟩ := text
  simp [embeds.data sec own 0x210 inside] at changed

/-- Two small files behind a stub with room for their headers. -/
theorem embedsFiles_smallFiles :
    ∃ out, buildImage (blankInput 10 20) = .ok out ∧
      EmbedsFiles ⟨.x86_64, true, true, false⟩ 0x400000 (blankInput 10 20) out := by
  obtain ⟨out, built, _⟩ := exists_of_check (buildImage (blankInput 10 20)) (fun _ => true)
    (by decide +kernel)
  have plain : inspectPe (blankInput 10 20).linux = none := by decide +kernel
  have placed : (blankInput 10 20).FilesPlaced := by decide +kernel
  have accepts : (blankInput 10 20).ReaderAccepts ⟨.x86_64, true, true, false⟩ := by
    decide +kernel
  exact ⟨out, built, (embedsFiles_iff rfl built plain 0x400000).1 ⟨placed, accepts⟩⟩

end ZLoader
