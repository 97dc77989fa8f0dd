import ZLoader.Soundness.EmbeddedFiles
import ZLoader.Soundness.StubCalls

/-! # From the built files to the kernel

The builder puts files into an image, the firmware loads the image, and the stub in it hands the
files on: one to the decompression, one as load options, one to the fixup of the DeviceTree, one
through the LoadFile2 protocol. What arrives there in a run is what was built in.
-/

namespace ZLoader

/-- The bytes of a file. -/
def InputFile.toList (file : InputFile) : List UInt8 := file.bytes.bytesAt 0 file.size.toNat

/-- A section that has been located holds a file. -/
structure HoldsFile (memory : ByteStore) (file : InputFile) (sec : WantedSection) : Prop where
  size : sec.size = file.size
  bytes : memory.bytesAt sec.loadAddress.toNat file.size.toNat = file.toList
  address : file.size ≠ 0 → sec.loadAddress ≠ 0
  near : sec.loadAddress.toNat < 2 ^ 32 ∧ file.size.toNat < 2 ^ 32

/-- The sections of the stub as the headers of an image fill them in. -/
def StubSections.filled (headers : List PeSectionHeader) : StubSections :=
  let entry (id : SectionDataId) : WantedSection := WantedSection.fillAll ⟨id.name, 0, 0, 0⟩ headers
  ⟨entry .osrel, entry .cmdline, entry .linux, entry .initrd, entry .dt⟩

section Boot

variable {D σ τ : Type} {env : StubEnvironment D σ τ} {input : BuildInput} {out : InputFile}

/-- A boot of an image that the builder has made, loaded somewhere, with whatever load options. -/
structure BootsImage (env : StubEnvironment D σ τ) (input : BuildInput) (out : InputFile) :
    Prop where
  quiet : env.build.ndebug = true
  built : buildImage input = .ok out
  plain : inspectPe input.linux = none
  placed : input.FilesPlaced
  accepts : input.ReaderAccepts env.build
  image : ∃ address size, env.loaded =
    { loadedStub out env.loaded.imageBase with loadOptions := address, loadOptionsSize := size }
  high : env.loaded.imageBase.toNat + 2 ^ 33 ≤ 2 ^ 64

theorem BootsImage.memory (boots : BootsImage env input out) :
    env.loaded.memory = loadedMemory out := by
  obtain ⟨address, size, same⟩ := boots.image
  rw [same]
  rfl

/-- Whatever is filled in from the section table of a built image holds its file. -/
theorem BootsImage.holdsFile (boots : BootsImage env input out) (id : SectionDataId)
    {file : InputFile} (given : input.file id = some file) {wanted : WantedSection}
    (name : wanted.name = id.name) :
    HoldsFile env.loaded.memory file (wanted.fillAll (PeLayout.read out.bytes).sections) := by
  have builds := buildImage_builds boots.placed.kept boots.built
  obtain ⟨before, turn, after, plan, own, filled⟩ := builds.entry given name
  have listed : input.vma id file ∈ input.vmas := by
    refine List.mem_filterMap.mpr ⟨id, ?_, by rw [given]; rfl⟩
    cases id <;> decide
  have member : turn ∈ input.plan := by
    rw [plan]
    exact List.mem_append_right _ (List.mem_cons_self ..)
  have small : file.size.toNat < 2 ^ 32 := boots.accepts.sizes _ listed
  have raw : turn.1.rawSize.toNat = file.size.toNat := by
    rw [own]
    exact toUInt32_of_lt small
  rw [boots.memory, filled]
  refine ⟨?_, ?_, fun some_ absent => ?_, ?_, small⟩
  · change (plannedHeader input.fileAlignment turn).virtualSize.toUInt64 = file.size
    rw [plannedHeader, own]
    change (input.virtualSize id file).toUInt64 = file.size
    apply UInt64.toNat_inj.mp
    rw [virtualSize_plain boots.plain given, UInt32.toNat_toUInt64, toUInt32_of_lt small]
  · apply List.map_congr_left
    intro index inside
    rw [List.mem_range] at inside
    dsimp only
    rw [UInt32.toNat_toUInt64, builds.content boots.placed plan (by omega), own, Nat.zero_add]
    rfl
  · -- no data is loaded over the DOS header
    have positive : 0 < file.size.toNat := Nat.pos_of_ne_zero fun zero =>
      some_ (UInt64.toNat_inj.mp zero)
    have rounded : turn.1.rawSize.toNat ≤ (input.planned turn).sizeOfRawData.toNat :=
      le_alignValue32 (defaultAlignment_pos (by decide)) (builds.reads turn member).1
    have clear := boots.placed.dataLoaded _
      (List.mem_append_right _ (List.mem_map_of_mem member)) ⟨0, 2⟩ (by
        simp [BuildInput.loadedHeaders])
    have zero := congrArg UInt64.toNat absent
    rw [UInt32.toNat_toUInt64] at zero
    change (input.planned turn).virtualAddress.toNat = 0 at zero
    refine clear 0 ?_ (Window.contains_mk.mpr ⟨Nat.le_refl _, by decide⟩)
    rw [PeSectionHeader.loadedData, Window.contains_mk, zero]
    omega
  · rw [UInt32.toNat_toUInt64]
    exact UInt32.toNat_lt _

/-- The stub finds its sections. -/
theorem BootsImage.search (boots : BootsImage env input out) :
    peLocateSections env.build env.loaded wantedSections =
      .ok (some (wantedSections.map fun entry =>
        entry.fillAll (PeLayout.read out.bytes).sections)) := by
  have accepted := (peLocateSections_loadedStub boots.quiet boots.built boots.placed
    env.loaded.imageBase _).mpr ⟨boots.accepts.toStubAccepts, rfl⟩
  rw [peLocateSections_of_ndebug boots.quiet] at accepted ⊢
  obtain ⟨address, size, same⟩ := boots.image
  rw [same]
  exact accepted

/-- The memory of the loaded image, by addresses. -/
def StubImage.mapped (loaded : StubImage) : ByteStore := fun address =>
  loaded.memory (address - loaded.imageBase.toNat)

/-- A buffer over a section that holds a file has the bytes of the file. -/
theorem HoldsFile.mapped {file : InputFile} {sec : WantedSection} {loaded : StubImage}
    (holds : HoldsFile loaded.memory file sec) (high : loaded.imageBase.toNat + 2 ^ 33 ≤ 2 ^ 64)
    {buffer : SimpleBuffer} (start : buffer.buffer + buffer.pos = loaded.address sec)
    (length : buffer.length - buffer.pos = sec.size) : buffer.bytes loaded.mapped = file.toList := by
  obtain ⟨near, -⟩ := holds.near
  have address : (loaded.address sec).toNat = loaded.imageBase.toNat + sec.loadAddress.toNat := by
    rw [StubImage.address, UInt64.toNat_add, Nat.mod_eq_of_lt (by omega)]
  have size : (buffer.length - buffer.pos).toNat = file.size.toNat := by rw [length, holds.size]
  rw [SimpleBuffer.bytes, SimpleBuffer.data, start, address, size, ← holds.bytes]
  apply ByteStore.bytesAt_congr
  intro index _
  rw [StubImage.mapped, Nat.add_assoc, Nat.add_sub_cancel_left]

/-- A run gives a file to the calls of one kind: it makes one when the file has bytes, and in the
buffer of each there is the file. -/
structure HandsOn (run : StubRun) (memory : ByteStore) (file : InputFile)
    (call : SimpleBuffer → StubCall) : Prop where
  called : file.size ≠ 0 → ∃ buffer, call buffer ∈ run.calls
  bytes : ∀ buffer, call buffer ∈ run.calls → buffer.bytes memory = file.toList

/-- All calls that the kernel makes are served from an initrd, and answered for the bytes of the
file wherever the memory still has them when the kernel starts. -/
structure ServesInitrd (env : StubEnvironment D σ τ) (run : StubRun) (loads : Prop)
    (initrd : SimpleBuffer) (file : InputFile) : Prop where
  all : loads → run.loadFileCalls = env.kernelCalls
  own : ∀ served call, .fl2LoadFile served call ∈ run.calls → served = initrd
  answers : ∀ memory, ByteStore.Keeps initrd.data.Contains env.loaded.mapped memory →
    (∀ call ∈ run.loadFileCalls, call.Apart env.statics initrd) →
      initrd.bytes memory = file.toList ∧
        ServesRegistered env.build env.statics ⟨initrd, memory⟩ run.loadFileCalls

/-- What was built in is what a run hands on: the kernel to its decompression, the command line as
load options unless the caller's are used, the DeviceTree to its fixup on the target that has it,
and the initrd to the registration and to all who ask for it. -/
structure HandsOnFiles (env : StubEnvironment D σ τ) (input : BuildInput) (sections : StubSections) :
    Prop where
  kernel : HandsOn (efiMain env) env.loaded.mapped input.linux .decompress
  content : (env.linuxData sections.linux).bytesAt 0 input.linux.size.toNat = input.linux.toList
  options : ∀ file, input.cmdline = some file → env.usesLoadOptions = false →
    KernelLoads env sections.linux → ∀ supplied,
      env.kernelOptions supplied = some (embeddedOptions file.toList)
  devicetree : ∀ file, input.dtb = some file → env.build.useEfiDtFixup = true →
    HandsOn (efiMain env) env.loaded.mapped file .doDevicetreeFixup
  initrd : ∀ file, input.initrd = some file →
    HandsOn (efiMain env) env.loaded.mapped file .initrdRegister
  served : ∀ file, input.initrd = some file → file.size ≠ 0 →
    ∀ initrd, .initrdRegister initrd ∈ (efiMain env).calls →
      (initrdRegister env.firmware env.statics initrd env.unregistered).1 = efiSuccess →
        ServesInitrd env (efiMain env) (KernelLoads env sections.linux) initrd file

section Sections

variable {sections : StubSections} {file : InputFile}
  (runs : RunsKernel env (env.registered sections.initrd) (efiMain env)
    (KernelLoads env sections.linux) (fileCalls env sections))
  (high : env.loaded.imageBase.toNat + 2 ^ 33 ≤ 2 ^ 64)

include runs

/-- The load options that the kernel finds are made of the file. -/
theorem HoldsFile.options (holds : HoldsFile env.loaded.memory file sections.cmdline)
    (quiet : env.build.ndebug = true) (located : env.located = some sections)
    (unused : env.usesLoadOptions = false) (loads : KernelLoads env sections.linux)
    (supplied : ByteStore) : env.kernelOptions supplied = some (embeddedOptions file.toList) := by
  obtain ⟨started, reached⟩ := Option.isSome_iff_exists.mp (runs.started loads)
  have found : ∃ handed, env.kernelOptions supplied = some handed := by
    rw [StubEnvironment.kernelOptions, located, reached]
    exact ⟨_, rfl⟩
  obtain ⟨handed, found⟩ := found
  rw [found, kernelOptions_embedded quiet unused found]
  simp only [StubEnvironment.cmdlineBytes, located, holds.size]
  split_ifs with absent
  · have empty : file.size = 0 := by_contra fun some_ => holds.address some_ absent
    rw [InputFile.toList, empty]
    rfl
  · rw [holds.bytes]

include high

theorem HoldsFile.handsOn_decompress (holds : HoldsFile env.loaded.memory file sections.linux) :
    HandsOn (efiMain env) env.loaded.mapped file .decompress := by
  refine ⟨fun _ => ⟨_, (runs.mem_iff _).1.mpr rfl⟩, fun buffer member => ?_⟩
  rw [(runs.mem_iff buffer).1.mp member]
  exact holds.mapped high (UInt64.add_zero _) (UInt64.sub_zero _)

theorem HoldsFile.handsOn_doDevicetreeFixup (fixes : env.build.useEfiDtFixup = true)
    (holds : HoldsFile env.loaded.memory file sections.fdt) :
    HandsOn (efiMain env) env.loaded.mapped file .doDevicetreeFixup := by
  refine ⟨fun some_ => ⟨_, (runs.mem_iff _).2.1.mpr ⟨⟨fixes, holds.address some_⟩, rfl⟩⟩,
    fun buffer member => ?_⟩
  rw [((runs.mem_iff buffer).2.1.mp member).2]
  exact holds.mapped high (UInt64.add_zero _) (UInt64.sub_zero _)

theorem HoldsFile.handsOn_initrdRegister
    (holds : HoldsFile env.loaded.memory file sections.initrd) :
    HandsOn (efiMain env) env.loaded.mapped file .initrdRegister := by
  refine ⟨fun some_ => ⟨_, (runs.mem_iff _).2.2.mpr ⟨holds.address some_, rfl⟩⟩,
    fun buffer member => ?_⟩
  rw [((runs.mem_iff buffer).2.2.mp member).2]
  exact holds.mapped high (UInt64.add_zero _) (UInt64.sub_zero _)

/-- An initrd that the firmware takes is served. -/
theorem HoldsFile.servesInitrd (holds : HoldsFile env.loaded.memory file sections.initrd)
    (quiet : env.build.ndebug = true) (some_ : file.size ≠ 0) {initrd : SimpleBuffer}
    (registers : .initrdRegister initrd ∈ (efiMain env).calls)
    (accepted : (initrdRegister env.firmware env.statics initrd env.unregistered).1 = efiSuccess) :
    ServesInitrd env (efiMain env) (KernelLoads env sections.linux) initrd file := by
  obtain ⟨present, rfl⟩ := (runs.mem_iff initrd).2.2.mp registers
  have near := holds.near
  have nonnull : (buildInitrd env sections.initrd).buffer ≠ 0 := by
    intro zero
    have none_ := congrArg UInt64.toNat zero
    change (env.loaded.imageBase + sections.initrd.loadAddress).toNat = 0 at none_
    rw [UInt64.toNat_add, Nat.mod_eq_of_lt (by omega)] at none_
    exact present (UInt64.toNat_inj.mp (show sections.initrd.loadAddress.toNat = 0 by omega))
  have length : (buildInitrd env sections.initrd).length ≠ 0 := by
    change sections.initrd.size ≠ 0
    rwa [holds.size]
  have registered : initrdRegister env.firmware env.statics (buildInitrd env sections.initrd)
      env.unregistered = (efiSuccess, env.registered sections.initrd) := by
    rw [StubEnvironment.registered, if_neg present, ← accepted]
  have own := initrdRegister_initrd nonnull length registered
  have handle := initrdRegister_initrdHandle nonnull length registered
  obtain ⟨calls, all⟩ := runs.served
  refine ⟨fun loads => all loads handle, fun served call member => ?_, fun memory kept apart =>
    ⟨?_, ?_⟩⟩
  · rw [calls, own] at member
    rcases List.mem_append.mp member with file_ | kernel
    · exact absurd file_ (not_mem_fileCalls env sections served call)
    · obtain ⟨_, _, same⟩ := List.mem_map.mp kernel
      exact (StubCall.fl2LoadFile.inj same).1.symm
  · rw [← (holds.handsOn_initrdRegister runs high).bytes _ registers]
    exact ByteStore.bytesAt_congr fun index inside =>
      kept _ ⟨Nat.le_add_right _ _, Nat.add_lt_add_left inside _⟩
  · rw [← own]
    exact servesRegistered quiet nonnull (UInt64.pos_iff_ne_zero.mpr length) registered memory apart

end Sections

theorem BootsImage.handsOnFiles (boots : BootsImage env input out)
    (kernel : input.linux.size ≠ 0) :
    ∃ sections, env.located = some sections ∧
      (CommandLineAllocated env sections.cmdline → HandsOnFiles env input sections) := by
  have search := boots.search
  obtain ⟨sections, filled⟩ : ∃ sections, sections = StubSections.filled
    (PeLayout.read out.bytes).sections := ⟨_, rfl⟩
  have located : env.located = some sections := by
    rw [StubEnvironment.located, search, filled]
    rfl
  have program : efiMain env = stubMain env sections := by
    rw [efiMain, search, filled]
    rfl
  have holds (id : SectionDataId) {file : InputFile} (given : input.file id = some file) :
      HoldsFile env.loaded.memory file
        (WantedSection.fillAll ⟨id.name, 0, 0, 0⟩ (PeLayout.read out.bytes).sections) :=
    boots.holdsFile id given rfl
  have linux : HoldsFile env.loaded.memory input.linux sections.linux := by
    rw [filled]
    exact holds .linux rfl
  have initrd {file : InputFile} (given : input.initrd = some file) :
      HoldsFile env.loaded.memory file sections.initrd := by
    rw [filled]
    exact holds .initrd given
  refine ⟨sections, located, fun commandLine => ?_⟩
  have gets : GetsToFiles env sections := ⟨⟨linux.address kernel, by rwa [linux.size]⟩, commandLine⟩
  have runs := stubMain_runs boots.quiet gets
  rw [← program] at runs
  refine ⟨linux.handsOn_decompress runs boots.high, ?_, fun file given unused loads supplied => ?_,
    fun file given fixes => ?_, fun file given => (initrd given).handsOn_initrdRegister runs boots.high,
    fun file given some_ buffer registers accepted =>
      (initrd given).servesInitrd runs boots.high boots.quiet some_ registers accepted⟩
  · rw [← linux.bytes]
    apply ByteStore.bytesAt_congr
    intro index _
    rw [StubEnvironment.linuxData, ByteStore.from_, Nat.zero_add]
  · have cmdline : HoldsFile env.loaded.memory file sections.cmdline := by
      rw [filled]
      exact holds .cmdline given
    exact cmdline.options runs boots.quiet located unused loads supplied
  · have fdt : HoldsFile env.loaded.memory file sections.fdt := by
      rw [filled]
      exact holds .dt given
    exact fdt.handsOn_doDevicetreeFixup runs boots.high fixes

end Boot

/-- A command line of five characters, a kernel and an initrd. -/
def cmdlineInput : BuildInput :=
  { blankInput 10 20 with
    cmdline := some ⟨5, fun _ => 0x61⟩
    initrd := some ⟨30, fun index => UInt8.ofNat index⟩ }

/-- A boot of an image in which the kernel asks for its initrd. -/
def cmdlineBoot (out : InputFile) : StubEnvironment SmallDatabase Unit Unit :=
  { stubEnvironment (loadedStub out 0x400000) smallCalls with
    build := ⟨.x86_64, true, true, false⟩ }

theorem handsOnFiles_cmdlineInput :
    ∃ out, buildImage cmdlineInput = .ok out ∧ ∃ sections,
      (cmdlineBoot out).located = some sections ∧
        HandsOnFiles (cmdlineBoot out) cmdlineInput sections := by
  obtain ⟨out, built, _⟩ := exists_of_check (buildImage cmdlineInput) (fun _ => true)
    (by decide +kernel)
  have accepts : cmdlineInput.ReaderAccepts ⟨.x86_64, true, true, false⟩ := by decide +kernel
  have high : (0x400000 : UInt64).toNat + 2 ^ 33 ≤ 2 ^ 64 := by decide
  have boots : BootsImage (cmdlineBoot out) cmdlineInput out :=
    { quiet := rfl
      built := built
      plain := by decide +kernel
      placed := by decide +kernel
      accepts := accepts
      image := ⟨0, 0, rfl⟩
      high := high }
  obtain ⟨sections, located, hands⟩ := boots.handsOnFiles (by decide)
  exact ⟨out, built, sections, located, hands (.inr (.inr (show (0x900000 : UInt64) ≠ 0 by decide)))⟩

end ZLoader
