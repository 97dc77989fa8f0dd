import ZLoader.Model.Main
import ZLoader.Soundness.HandleImage
import ZLoader.Soundness.InitrdRegistration
import ZLoader.Soundness.KernelBuffers

/-! # The buffers of a whole run of the stub

Every buffer the program builds should have its cursor inside its data and its data inside its
memory, and no accessor should fail an assertion before the kernel is started or while it runs. An
embedded initrd or DeviceTree breaks the first half on its own, because nothing sets the size of its
memory. Without them a run is sound exactly when every buffer handed to an accessor has bytes.
-/

namespace ZLoader

/-- The cursor is inside the data and the data inside the memory. -/
structure BufferSound (buffer : SimpleBuffer) : Prop where
  cursor : buffer.pos ≤ buffer.length
  memory : buffer.length ≤ buffer.allocated

/-- All buffers built are sound, and no assertion of an accessor fails. -/
structure BuffersSound (run : StubRun) : Prop where
  built : ∀ buffer ∈ run.built, BufferSound buffer
  accessors : run.outcome ≠ .assertionFailed .bufferAccessor

theorem buffersSound_prepend {built : List SimpleBuffer} {run : StubRun} :
    BuffersSound (run.prepend built) ↔ (∀ buffer ∈ built, BufferSound buffer) ∧ BuffersSound run := by
  constructor
  · rintro ⟨all, accessors⟩
    exact ⟨fun buffer member => all buffer (List.mem_append_left _ member),
      fun buffer member => all buffer (List.mem_append_right _ member), accessors⟩
  · rintro ⟨before, all, accessors⟩
    refine ⟨fun buffer member => ?_, accessors⟩
    rcases List.mem_append.mp member with member | member
    · exact before buffer member
    · exact all buffer member

theorem buffersSound_after {call : StubCall} {run : StubRun} :
    BuffersSound (run.after call) ↔ BuffersSound run :=
  ⟨fun sound => ⟨sound.built, sound.accessors⟩, fun sound => ⟨sound.built, sound.accessors⟩⟩

/-- A run that builds nothing more. -/
theorem buffersSound_nil {outcome : StubOutcome} {started : Option (UInt64 × UInt32)}
    {calls : List StubCall} :
    BuffersSound ⟨outcome, [], started, calls⟩ ↔ outcome ≠ .assertionFailed .bufferAccessor :=
  ⟨fun sound => sound.accessors, fun accessors => ⟨by simp, accessors⟩⟩

theorem bufferSound_zeroBuffer : BufferSound zeroBuffer := ⟨UInt64.zero_le, UInt64.zero_le⟩

theorem RewoundBuffer.sound {buffer : SimpleBuffer} (rewound : RewoundBuffer buffer) :
    BufferSound buffer := ⟨by rw [rewound.start]; exact UInt64.zero_le, rewound.fits⟩

section Options

variable {D σ τ : Type} {env : StubEnvironment D σ τ} {cmdline : WantedSection}
  {options : SimpleBuffer}

/-- There is memory for the embedded command line when it is used. -/
def CommandLineAllocated (env : StubEnvironment D σ τ) (cmdline : WantedSection) : Prop :=
  env.usesLoadOptions = true ∨ cmdline.loadAddress = 0 ∨ env.malloc ((cmdline.size + 1) * 2) ≠ 0

/-- The command line has characters: the supplied one at an address, or those of the section. -/
def CommandLineUsable (env : StubEnvironment D σ τ) (cmdline : WantedSection) : Prop :=
  if env.usesLoadOptions then env.loaded.loadOptions ≠ 0
  else cmdline.loadAddress ≠ 0 ∧ env.embeddedCmdline cmdline ≠ []

theorem mbstowcsLoop_length_le (src : ℕ → UInt8) (len turns i : ℕ) :
    (mbstowcsLoop src len turns i).length ≤ turns := by
  induction turns generalizing i with
  | zero => exact Nat.le_refl 0
  | succ turns ih =>
    rw [mbstowcsLoop]
    split_ifs
    · split
      · exact Nat.le_succ_of_le (ih _)
      · exact Nat.succ_le_succ (ih _)
    · exact Nat.zero_le _

/-- Wide characters need no more than the memory that is asked for. -/
theorem embeddedCmdline_fits (env : StubEnvironment D σ τ)
    (small : cmdline.size.toNat < 2 ^ 32) :
    (UInt64.ofNat (env.embeddedCmdline cmdline).length * 2).toNat =
        (env.embeddedCmdline cmdline).length * 2 ∧
      UInt64.ofNat (env.embeddedCmdline cmdline).length * 2 ≤ (cmdline.size + 1) * 2 := by
  have bound : (env.embeddedCmdline cmdline).length ≤ cmdline.size.toNat :=
    mbstowcsLoop_length_le ..
  have size : (UInt64.ofNat (env.embeddedCmdline cmdline).length * 2).toNat =
      (env.embeddedCmdline cmdline).length * 2 := by
    rw [UInt64.toNat_mul, UInt64.toNat_ofNat']
    change _ * 2 % _ = _
    omega
  refine ⟨size, ?_⟩
  rw [UInt64.le_iff_toNat_le, size, UInt64.toNat_mul, UInt64.toNat_add]
  change _ ≤ (_ + 1) % _ * 2 % _
  omega

theorem buildOptions_eq_none_iff :
    buildOptions env cmdline = none ↔ ¬ CommandLineAllocated env cmdline := by
  rw [buildOptions, CommandLineAllocated, allocateSimpleBuffer_eq]
  by_cases supplied : env.usesLoadOptions = true
  · simp [supplied]
  · by_cases absent : cmdline.loadAddress = 0
    · simp [supplied, absent]
    · by_cases failed : env.malloc ((cmdline.size + 1) * 2) = 0 <;>
        simp [supplied, absent, failed]

/-- What becomes of the command line. -/
structure OptionsBuilt (env : StubEnvironment D σ τ) (cmdline : WantedSection)
    (options : SimpleBuffer) : Prop where
  start : options.pos = 0
  fits : options.length ≤ options.allocated
  usable_iff : options.buffer ≠ 0 ∧ options.length ≠ 0 ↔ CommandLineUsable env cmdline

theorem buildOptions_built (small : cmdline.size.toNat < 2 ^ 32)
    (built : buildOptions env cmdline = some options) : OptionsBuilt env cmdline options := by
  rw [buildOptions] at built
  split_ifs at built with supplied present
  · obtain rfl := Option.some.inj built
    refine ⟨rfl, UInt64.le_refl _, ?_⟩
    have nonempty : env.loaded.loadOptionsSize ≠ 0 := by
      rintro empty
      simp [StubEnvironment.usesLoadOptions, empty] at supplied
    have size : env.loaded.loadOptionsSize.toUInt64 ≠ 0 := fun zero =>
      nonempty (UInt32.toNat_inj.mp (by simpa using congrArg UInt64.toNat zero))
    rw [CommandLineUsable, if_pos supplied]
    exact and_iff_left size
  · rw [allocateSimpleBuffer_eq] at built
    split_ifs at built with failed
    dsimp only at built
    obtain rfl := Option.some.inj built
    obtain ⟨size, fits⟩ := embeddedCmdline_fits env small
    refine ⟨rfl, fits, ?_⟩
    have empty : UInt64.ofNat (env.embeddedCmdline cmdline).length * 2 = 0 ↔
        env.embeddedCmdline cmdline = [] := by
      rw [← UInt64.toNat_inj, size, ← List.length_eq_zero_iff]
      change _ * 2 = 0 ↔ _
      omega
    have address : cmdline.loadAddress ≠ 0 := by simpa using present
    rw [CommandLineUsable, if_neg supplied]
    dsimp only
    rw [ne_eq, ne_eq, empty]
    exact ⟨fun both => ⟨address, both.2⟩, fun both => ⟨failed, both.2⟩⟩
  · obtain rfl := Option.some.inj built
    have absent : cmdline.loadAddress = 0 := by simpa using present
    refine ⟨rfl, UInt64.le_refl _, ?_⟩
    rw [CommandLineUsable, if_neg supplied]
    simp [zeroBuffer, absent]

/-- Taking the load options from the buffer fails an assertion exactly when there are none. -/
theorem startOptions_assertionFailed_iff (build : Build) (start : options.pos = 0)
    (fits : options.length ≤ options.allocated) (assertion : Assertion) :
    startOptions build options = .assertionFailed assertion ↔
      assertion = .bufferAccessor ∧ build.ndebug = false ∧
        ¬ (options.buffer ≠ 0 ∧ options.length ≠ 0) := by
  have returns (length position : UInt64) (known : bufferLen build options = .ok length)
      (cursor : bufferPos build options = .ok position) :
      startOptions build options ≠ .assertionFailed assertion := by
    rw [startOptions, known, cursor]
    simp only [Outcome.bind]
    split_ifs <;> simp
  by_cases usable : options.buffer ≠ 0 ∧ options.length ≠ 0
  · have more : options.pos < options.length := by rw [start]; exact UInt64.pos_iff_ne_zero.mpr usable.2
    refine iff_of_false ?_ fun all => all.2.2 usable
    exact returns _ _ (bufferLen_of_lt build usable.1 more)
      (bufferPos_of_lt build usable.1 (UInt64.lt_of_lt_of_le more fits))
  · cases asserts : build.ndebug with
    | true =>
      refine iff_of_false ?_ (by simp)
      exact returns _ _ (bufferLen_of_ndebug asserts _) (bufferPos_of_ndebug asserts _)
    | false =>
      have nothing : ¬ (options.buffer ≠ 0 ∧ options.pos < options.length) := by
        rwa [start, UInt64.pos_iff_ne_zero]
      rw [startOptions, bufferLen_of_not_lt asserts nothing]
      simp only [Outcome.bind, Outcome.assertionFailed.injEq]
      exact ⟨fun same => ⟨same.symm, trivial, usable⟩, fun all => all.1.symm⟩

/-- It reports no status. -/
theorem startOptions_ne_error {build : Build} (status : EfiStatus) :
    startOptions build options ≠ .error status := by
  rw [startOptions]
  rcases bufferLen_cases build options with known | failed
  · rcases bufferPos_cases build options with cursor | failed
    · rw [known, cursor]
      simp only [Outcome.bind]
      split_ifs <;> simp
    · rw [known, failed]
      simp only [Outcome.bind]
      split_ifs <;> simp
  · rw [failed]
    simp [Outcome.bind]

end Options

section Run

variable {D σ τ : Type} {env : StubEnvironment D σ τ} {st : InitrdState D}
  {options kernel : SimpleBuffer}

/-- Without a registered initrd nobody calls back: loading and starting the kernel is sound exactly
when the kernel has bytes and, once it is loaded, the options have some too. -/
theorem executeImageFromMemory_buffersSound_iff (env : StubEnvironment D σ τ)
    (unregistered : st.initrdHandle = none) (rewound : RewoundBuffer kernel) (start : options.pos = 0)
    (fits : options.length ≤ options.allocated) (content : ByteStore) :
    BuffersSound (executeImageFromMemory env st kernel options content) ↔
      (env.build.ndebug = false → kernel.length ≠ 0 ∧
        ((peHandleImage env.build env.services kernel ⟨content, env.pages⟩).outcome = .ok →
          options.buffer ≠ 0 ∧ options.length ≠ 0)) := by
  have loading := peHandleImage_assertionFailed_iff env.build env.services
    ⟨content, env.pages⟩ rewound
  rw [executeImageFromMemory]
  cases loaded : (peHandleImage env.build env.services kernel ⟨content, env.pages⟩).outcome with
  | error status =>
    rw [loaded] at loading
    refine iff_of_true (buffersSound_nil.mpr (by simp)) fun asserts => ⟨?_, by simp⟩
    exact fun empty => by simpa using loading.mpr ⟨asserts, empty⟩
  | assertionFailed assertion =>
    rw [loaded] at loading
    simp only [StubRun.ended, buffersSound_nil, ne_eq, StubOutcome.assertionFailed.injEq]
    rw [LoadOutcome.assertionFailed.injEq] at loading
    rw [loading]
    simp
  | printing =>
    rw [loaded] at loading
    refine iff_of_true (buffersSound_nil.mpr (by simp)) fun asserts => ⟨?_, by simp⟩
    exact fun empty => by simpa using loading.mpr ⟨asserts, empty⟩
  | ok =>
    rw [loaded] at loading
    have filled : env.build.ndebug = false → kernel.length ≠ 0 :=
      fun asserts empty => by simpa using loading.mpr ⟨asserts, empty⟩
    have taken := startOptions_assertionFailed_iff env.build start fits
    simp only [unregistered, Option.isSome_none, Bool.false_eq_true, if_false, serveKernelCalls]
    cases known : startOptions env.build options with
    | error status => exact absurd known (startOptions_ne_error status)
    | assertionFailed assertion =>
      obtain ⟨rfl, asserts, unusable⟩ := (taken assertion).mp known
      apply iff_of_false (fun sound => sound.accessors rfl)
      intro usable
      exact unusable ((usable asserts).2 trivial)
    | ok started =>
      refine iff_of_true ?_ fun asserts => ⟨filled asserts, fun _ => ?_⟩
      · cases env.kernelStatus with
        | none => exact buffersSound_nil.mpr (by simp [StubRun.ended])
        | some status => exact buffersSound_nil.mpr (by simp [endProgram, StubRun.ended])
      · by_contra unusable
        have failed := (taken .bufferAccessor).mpr ⟨rfl, asserts, unusable⟩
        rw [known] at failed
        contradiction

/-- What has to hold of a kernel in a build with assertions: an LZ4 frame does not use up its room
while input is left, and a kernel that comes out of the decompression has bytes and, if it can be
loaded, a command line. -/
structure KernelUsable (env : StubEnvironment D σ τ) (cmdline linux : WantedSection) : Prop where
  room : env.loaded.address linux ≠ 0 →
    kernelFormat env.build (env.linuxData linux) (buildLinuxSection env linux) = .lz4 →
    ¬ Lz4ExhaustsRoom env.lz4 env.kernelMalloc (env.linuxData linux) env.turns
      (buildLinuxSection env linux)
  content : (decompressLinux env linux).outcome = .ok → env.elapsed > 0 →
    (decompressLinux env linux).output.length ≠ 0
  commandLine : (decompressLinux env linux).outcome = .ok → env.elapsed > 0 →
    (peHandleImage env.build env.services (decompressLinux env linux).output
      ⟨kernelContent env linux, env.pages⟩).outcome = .ok → CommandLineUsable env cmdline

variable {cmdline linux : WantedSection}

/-- The decompression of the section fails an assertion exactly when an LZ4 frame uses up its
room. -/
theorem decompressLinux_assertionFailed_iff (nonempty : linux.size ≠ 0) :
    (decompressLinux env linux).outcome = .assertionFailed ↔
      env.build.ndebug = false ∧ env.loaded.address linux ≠ 0 ∧
        kernelFormat env.build (env.linuxData linux) (buildLinuxSection env linux) = .lz4 ∧
        Lz4ExhaustsRoom env.lz4 env.kernelMalloc (env.linuxData linux) env.turns
          (buildLinuxSection env linux) := by
  rw [decompressLinux]
  cases asserts : env.build.ndebug with
  | true => exact iff_of_false (decompress_of_ndebug asserts _ _ _) (by simp)
  | false =>
    by_cases null : env.loaded.address linux = 0
    · rw [decompress, if_pos (by simp [buildLinuxSection, null])]
      simp [null]
    · rw [decompress_assertionFailed_iff asserts ⟨null, nonempty, rfl, rfl⟩ rfl rfl]
      simp [null]

/-- When the decompression fails no assertion, an LZ4 frame has had room enough. -/
theorem lz4Room_of_ne_assertionFailed (nonempty : linux.size ≠ 0) (asserts : env.build.ndebug = false)
    (returns : (decompressLinux env linux).outcome ≠ .assertionFailed)
    (address : env.loaded.address linux ≠ 0)
    (format : kernelFormat env.build (env.linuxData linux) (buildLinuxSection env linux) = .lz4) :
    ¬ Lz4ExhaustsRoom env.lz4 env.kernelMalloc (env.linuxData linux) env.turns
      (buildLinuxSection env linux) := fun exhausted =>
  returns ((decompressLinux_assertionFailed_iff nonempty).mpr ⟨asserts, address, format, exhausted⟩)

/-- Once the kernel is decompressed: it has to be usable when assertions are checked. -/
theorem decompressed_buffersSound_iff (unregistered : st.initrdHandle = none)
    (built : OptionsBuilt env cmdline options) (nonempty : linux.size ≠ 0)
    (success : (decompressLinux env linux).outcome = .ok) :
    BuffersSound ((env.build.assert .other (env.elapsed > 0) (.ok ())).andRun (fun _ =>
        executeImageFromMemory env st (decompressLinux env linux).output options
          (kernelContent env linux))) ↔
      (env.build.ndebug = false → KernelUsable env cmdline linux) := by
  have loading := executeImageFromMemory_buffersSound_iff env unregistered
    (decompress_rewound rfl success) built.start built.fits (kernelContent env linux)
  rw [built.usable_iff] at loading
  have room (asserts : env.build.ndebug = false) := lz4Room_of_ne_assertionFailed nonempty asserts
    (fun failed => by simp [success] at failed)
  by_cases timed : env.elapsed > 0
  · have passed : env.build.assert .other (decide (env.elapsed > 0)) (.ok ()) = .ok () := by
      simp [Build.assert, timed]
    rw [passed]
    refine loading.trans (forall_congr' fun asserts => ⟨?_, fun usable => ?_⟩)
    · rintro ⟨content, commandLine⟩
      exact ⟨room asserts, fun _ _ => content, fun _ _ => commandLine⟩
    · exact ⟨usable.content success timed, usable.commandLine success timed⟩
  · cases asserts : env.build.ndebug with
    | true =>
      have passed : env.build.assert .other (decide (env.elapsed > 0)) (.ok ()) = .ok () := by
        simp [Build.assert, asserts]
      rw [passed]
      exact loading.trans (by simp [asserts])
    | false =>
      have failed : env.build.assert .other (decide (env.elapsed > 0)) (.ok ()) =
          .assertionFailed .other := by
        simp [Build.assert, asserts, timed]
      rw [failed]
      exact iff_of_true (buffersSound_nil.mpr (by simp)) fun _ =>
        ⟨room asserts, fun _ late => absurd late timed, fun _ late => absurd late timed⟩

/-- From the kernel section on: the kernel has to be usable when assertions are checked. -/
theorem startKernel_buffersSound_iff (unregistered : st.initrdHandle = none)
    (built : OptionsBuilt env cmdline options) (nonempty : linux.size ≠ 0) :
    BuffersSound (startKernel env st options linux) ↔
      (env.build.ndebug = false → KernelUsable env cmdline linux) := by
  have before : ∀ buffer ∈ [buildLinuxSection env linux, zeroBuffer], BufferSound buffer := by
    simp only [List.mem_cons, List.not_mem_nil, or_false, forall_eq_or_imp, forall_eq]
    exact ⟨⟨UInt64.zero_le, UInt64.le_refl _⟩, bufferSound_zeroBuffer⟩
  rw [startKernel, buffersSound_prepend, and_iff_right before, buffersSound_after]
  by_cases success : (decompressLinux env linux).outcome = .ok
  · have output : ∀ buffer ∈ [(decompressLinux env linux).output], BufferSound buffer := by
      have rewound : RewoundBuffer (decompressLinux env linux).output := decompress_rewound rfl success
      simpa using rewound.sound
    rw [success]
    dsimp only
    rw [buffersSound_prepend, and_iff_right output]
    exact decompressed_buffersSound_iff unregistered built nonempty success
  · have usable (returns : (decompressLinux env linux).outcome ≠ .assertionFailed)
        (asserts : env.build.ndebug = false) : KernelUsable env cmdline linux :=
      ⟨lz4Room_of_ne_assertionFailed nonempty asserts returns, fun ok => absurd ok success,
        fun ok => absurd ok success⟩
    cases outcome : (decompressLinux env linux).outcome with
    | ok => exact absurd outcome success
    | assertionFailed =>
      obtain ⟨asserts, address, format, exhausted⟩ :=
        (decompressLinux_assertionFailed_iff nonempty).mp outcome
      exact iff_of_false (fun sound => sound.accessors rfl) fun usable =>
        (usable asserts).room address format exhausted
    | error status => exact iff_of_true (buffersSound_nil.mpr (by simp)) (usable (by simp [outcome]))
    | nullCall => exact iff_of_true (buffersSound_nil.mpr (by simp)) (usable (by simp [outcome]))
    | running => exact iff_of_true (buffersSound_nil.mpr (by simp)) (usable (by simp [outcome]))

/-- Nothing sets the size of the memory behind an embedded initrd. -/
theorem not_bufferSound_buildInitrd {initrd : WantedSection} (nonempty : initrd.size ≠ 0) :
    ¬ BufferSound (buildInitrd env initrd) := fun sound =>
  nonempty (UInt64.le_antisymm sound.memory (UInt64.zero_le))

/-- Nor of that behind an embedded DeviceTree. -/
theorem not_bufferSound_buildFdt {fdt : WantedSection} (nonempty : fdt.size ≠ 0) :
    ¬ BufferSound (buildFdt env fdt) := fun sound =>
  nonempty (UInt64.le_antisymm sound.memory (UInt64.zero_le))

/-- An embedded DeviceTree that is installed makes the run unsound. -/
theorem fixDevicetree_buffersSound_iff {sections : StubSections}
    (nonempty : sections.fdt.loadAddress ≠ 0 → sections.fdt.size ≠ 0) :
    BuffersSound (fixDevicetree env st options sections) ↔
      (env.build.useEfiDtFixup = true → sections.fdt.loadAddress = 0) ∧
        BuffersSound (startKernel env st options sections.linux) := by
  rw [fixDevicetree]
  by_cases fixed : env.build.useEfiDtFixup = true ∧ sections.fdt.loadAddress ≠ 0
  · rw [if_pos (by simpa using fixed), buffersSound_prepend]
    refine iff_of_false (fun sound => ?_) fun none => fixed.2 (none.1 fixed.1)
    exact not_bufferSound_buildFdt (nonempty fixed.2) (sound.1 _ List.mem_cons_self)
  · rw [if_neg (by simpa using fixed)]
    exact (and_iff_right (by simpa using fixed)).symm

end Run

section Located

variable {build : Build} {loaded : StubImage}

/-- Sizes of sections come from 32-bit fields. -/
theorem WantedSection.fill_size {wanted : WantedSection} (small : wanted.size.toNat < 2 ^ 32)
    (sec : PeSectionHeader) : (wanted.fill sec).size.toNat < 2 ^ 32 := by
  rw [WantedSection.fill]
  split_ifs
  · exact small
  · exact sec.virtualSize.toNat_lt

theorem locateSectionsLoop_size {memory : ByteStore} {count : ℕ} {image : SimpleBuffer}
    {wanted found : List WantedSection} (small : ∀ entry ∈ wanted, entry.size.toNat < 2 ^ 32)
    (located : locateSectionsLoop build memory count image wanted = .ok found) :
    ∀ entry ∈ found, entry.size.toNat < 2 ^ 32 := by
  induction count generalizing image wanted with
  | zero =>
    obtain rfl := Outcome.ok.inj located
    exact small
  | succ count ih =>
    rw [locateSectionsLoop, Outcome.bind_eq_ok] at located
    obtain ⟨_, _, rest⟩ := located
    refine ih (fun entry member => ?_) rest
    obtain ⟨before, listed, rfl⟩ := List.mem_map.mp member
    exact WantedSection.fill_size (small before listed) _

theorem peLocateSections_size {found : List WantedSection}
    (located : peLocateSections build loaded wantedSections = .ok (some found)) :
    ∀ entry ∈ found, entry.size.toNat < 2 ^ 32 := by
  rw [peLocateSections, Outcome.bind_eq_ok] at located
  obtain ⟨offset, _, located⟩ := located
  split_ifs at located
  · simp at located
  · rw [Outcome.bind_eq_ok] at located
    obtain ⟨_, _, located⟩ := located
    dsimp only at located
    split_ifs at located
    any_goals simp at located
    rw [Outcome.bind_eq_ok] at located
    obtain ⟨filled, looped, same⟩ := located
    obtain rfl := Option.some.inj (Outcome.ok.inj same)
    exact locateSectionsLoop_size (by decide) looped

end Located

section Stub

variable {D σ τ : Type} {env : StubEnvironment D σ τ} {sections : StubSections}

/-- An image that `PE_locate_sections` accepts, with a kernel, and whose other sections are not
empty where they are present. -/
structure AcceptedStub (env : StubEnvironment D σ τ) (sections : StubSections) : Prop where
  located : ∃ found, peLocateSections env.build env.loaded wantedSections = .ok (some found) ∧
    StubSections.ofList? found = some sections
  kernel : sections.linux.loadAddress ≠ 0 ∧ sections.linux.size ≠ 0
  cmdline : sections.cmdline.loadAddress ≠ 0 → sections.cmdline.size ≠ 0
  initrd : sections.initrd.loadAddress ≠ 0 → sections.initrd.size ≠ 0
  fdt : sections.fdt.loadAddress ≠ 0 → sections.fdt.size ≠ 0

theorem AcceptedStub.efiMain_eq (accepted : AcceptedStub env sections) :
    efiMain env = stubMain env sections := by
  obtain ⟨found, located, listed⟩ := accepted.located
  rw [efiMain, located]
  simp [Outcome.andRun, listed]

theorem StubSections.cmdline_mem {entries : List WantedSection} {sections : StubSections}
    (listed : StubSections.ofList? entries = some sections) : sections.cmdline ∈ entries := by
  rw [StubSections.ofList?.eq_def] at listed
  split at listed
  · obtain rfl := Option.some.inj listed
    simp
  · contradiction

theorem AcceptedStub.cmdline_size (accepted : AcceptedStub env sections) :
    sections.cmdline.size.toNat < 2 ^ 32 := by
  obtain ⟨found, located, listed⟩ := accepted.located
  exact peLocateSections_size located _ (StubSections.cmdline_mem listed)

/-- The sections and buffers that a sound run needs. -/
structure SectionsUsable (env : StubEnvironment D σ τ) (sections : StubSections) : Prop where
  noInitrd : sections.initrd.loadAddress = 0
  noDevicetree : env.build.useEfiDtFixup = true → sections.fdt.loadAddress = 0
  kernel : env.build.ndebug = false → KernelUsable env sections.cmdline sections.linux

/-- A run over an accepted image keeps all buffers sound and fails no assertion of an accessor
exactly when it ends for lack of memory before it starts anything, or the image has no initrd, no
DeviceTree to fix, and a kernel and command line that are usable. -/
theorem efiMain_buffersSound_iff (accepted : AcceptedStub env sections) :
    BuffersSound (efiMain env) ↔
      ¬ CommandLineAllocated env sections.cmdline ∨ SectionsUsable env sections := by
  rw [accepted.efiMain_eq, stubMain, if_neg (by simpa using accepted.kernel)]
  cases known : buildOptions env sections.cmdline with
  | none => exact iff_of_true (buffersSound_nil.mpr (by simp)) (.inl (buildOptions_eq_none_iff.mp known))
  | some options =>
    have allocated : CommandLineAllocated env sections.cmdline := by
      by_contra failed
      rw [buildOptions_eq_none_iff.mpr failed] at known
      contradiction
    have built := buildOptions_built accepted.cmdline_size known
    have first : BufferSound options := ⟨by rw [built.start]; exact UInt64.zero_le, built.fits⟩
    rw [or_iff_right (not_not.mpr allocated)]
    dsimp only
    by_cases absent : sections.initrd.loadAddress = 0
    · rw [if_neg (by simpa using absent), buffersSound_prepend, and_iff_right (by simpa using first),
        fixDevicetree_buffersSound_iff accepted.fdt,
        startKernel_buffersSound_iff rfl built accepted.kernel.2]
      exact ⟨fun ⟨unfixed, usable⟩ => ⟨absent, unfixed, usable⟩,
        fun usable => ⟨usable.noDevicetree, usable.kernel⟩⟩
    · rw [if_pos (by simpa using absent), buffersSound_prepend]
      refine iff_of_false (fun sound => ?_) fun usable => absent usable.noInitrd
      exact not_bufferSound_buildInitrd (accepted.initrd absent)
        (sound.1 (buildInitrd env sections.initrd) (by simp))

end Stub

/-! ## Small stubs

Two sections behind a page of headers: a compressed kernel with a command line, and a kernel that
is stored as it is with an initrd. -/

/-- The fields of a section header with its name. -/
def namedSection (index name virtualSize virtualAddress : ℕ) : List (ℕ × ℕ × ℕ) :=
  (0x148 + sizeofPeSectionHeader * index, 8, name) ::
    sectionFields index virtualSize virtualAddress virtualSize virtualAddress 0x40000040

/-- A stub at `0x400000`, with the given section headers and content. -/
def smallStub (loadOptionsSize : UInt32) (sections : List (ℕ × ℕ × ℕ)) (content : ByteStore) :
    StubImage where
  imageBase := 0x400000
  imageSize := 0x4000
  loadOptions := 0x300000
  loadOptionsSize := loadOptionsSize
  memory index :=
    if index < 0x1000 then smallImage 2 0x4000 0x400 0 ((0x9c, 2, 10) :: sections) index
    else content (index - 0x1000)

/-- An environment in which every request is served and the kernel does not come back. -/
def stubEnvironment (loaded : StubImage) (kernelCalls : List LoadFileCall) :
    StubEnvironment SmallDatabase Unit Unit where
  build := defaultBuild
  loaded := loaded
  secureBoot := none
  malloc := smallMalloc
  firmware := smallFirmware
  statics := smallStatics
  database := []
  dtFixup := ⟨efiNotFound, 0, fun size => (efiSuccess, size), fun size => (efiSuccess, size), none,
    efiSuccess⟩
  lz4 := smallLz4 true
  zstd := smallZstd
  kernelMalloc := smallMalloc
  turns := 1
  decompressed _ := 0
  elapsed := 1
  services := smallServices
  pages _ := 0
  kernelCalls := kernelCalls
  kernelStatus := none

/-- Sections ".linux" and ".cmdline", with an LZ4 frame and the text "quiet". -/
def compressedStub : StubEnvironment SmallDatabase Unit Unit :=
  stubEnvironment (smallStub 0
    (namedSection 0 0x78756e696c2e 27 0x1000 ++ namedSection 1 0x656e696c646d632e 5 0x3000)
    (.ofFields [(0, 4, 0x184d2204), (0x2000, 5, 0x7465697571)])) []

/-- Sections ".linux" and ".initrd", and a kernel that asks for the initrd. -/
def initrdStub : StubEnvironment SmallDatabase Unit Unit :=
  stubEnvironment (smallStub 8
    (namedSection 0 0x78756e696c2e 0x400 0x1000 ++ namedSection 1 0x647274696e692e 64 0x3000)
    (smallImage 1 0x2000 0x200 5 []))
    [⟨0x403000, some ⟨0x7f, 0xff, 4⟩, false, some 64, 0x700000⟩]

/-- The sections of a small stub, by the addresses and sizes of three of them. -/
def smallSections (cmdline linux initrd : UInt64 × UInt64) : StubSections where
  osrel := ⟨[0x2e, 0x6f, 0x73, 0x72, 0x65, 0x6c], 0, 0, 0⟩
  cmdline := ⟨[0x2e, 0x63, 0x6d, 0x64, 0x6c, 0x69, 0x6e, 0x65], cmdline.1, cmdline.1, cmdline.2⟩
  linux := ⟨[0x2e, 0x6c, 0x69, 0x6e, 0x75, 0x78], linux.1, linux.1, linux.2⟩
  initrd := ⟨[0x2e, 0x69, 0x6e, 0x69, 0x74, 0x72, 0x64], initrd.1, initrd.1, initrd.2⟩
  fdt := ⟨[0x2e, 0x64, 0x74, 0x62], 0, 0, 0⟩

theorem acceptedStub_compressedStub :
    AcceptedStub compressedStub (smallSections (0x3000, 5) (0x1000, 27) (0, 0)) where
  located := ⟨_, rfl, rfl⟩
  kernel := by decide
  cmdline := by decide
  initrd := by decide
  fdt := by decide

theorem acceptedStub_initrdStub :
    AcceptedStub initrdStub (smallSections (0, 0) (0x1000, 0x400) (0x3000, 64)) where
  located := ⟨_, rfl, rfl⟩
  kernel := by decide
  cmdline := by decide
  initrd := by decide
  fdt := by decide

theorem efiMain_buffersSound_compressedStub : BuffersSound (efiMain compressedStub) := by
  refine (efiMain_buffersSound_iff acceptedStub_compressedStub).mpr
    (.inr ⟨rfl, fun _ => rfl, fun _ => ⟨fun _ _ exhausted => ?_, fun _ _ => by decide, fun _ _ _ => ?_⟩⟩)
  · obtain ⟨_, _, _, _, exhausts⟩ := exhausted
    revert exhausts
    decide
  · rw [CommandLineUsable, if_neg (by decide)]
    decide

/-- The kernel asks for the initrd, and the callback fails an assertion. -/
theorem not_efiMain_buffersSound_initrdStub :
    ¬ ∀ (D σ τ : Type) (env : StubEnvironment D σ τ) (sections : StubSections),
      AcceptedStub env sections → BuffersSound (efiMain env) := by
  intro claim
  have sound := claim SmallDatabase Unit Unit initrdStub _ acceptedStub_initrdStub
  exact sound.accessors (by decide +kernel)

end ZLoader
