import ZLoader.Soundness.StubBuffers

/-! # Load options in secure mode

The options of the kernel come from one of two places, and SecureBoot alone decides which. In secure
mode nothing of what the caller supplied is looked at, so two boots with different load options are
the same run, and the bytes the kernel finds are a function of the embedded command line.
-/

namespace ZLoader

/-! ## The decoder reads its window -/

section Decoder

variable {first second : ℕ → UInt8}

theorem mbstowcsLoop_congr {len : ℕ} (same : ∀ index < len, first index = second index)
    (turns i : ℕ) : mbstowcsLoop first len turns i = mbstowcsLoop second len turns i := by
  induction turns generalizing i with
  | zero => rfl
  | succ turns ih =>
    have decoded : mbtowc (fun index => first (i + index)) (len - i) =
        mbtowc (fun index => second (i + index)) (len - i) := by
      apply mbtowc_congr
      intro index bound
      exact same (i + index) (by omega)
    simp only [mbstowcsLoop, decoded, ih]

/-- Decoding depends on the bytes of the window only. -/
theorem mbstowcs_congr {len : ℕ} (same : ∀ index < len, first index = second index) :
    mbstowcs first len = mbstowcs second len :=
  mbstowcsLoop_congr same len 0

end Decoder

section Options

variable {D σ τ : Type}

/-- The sections the program has located. -/
def StubEnvironment.located (env : StubEnvironment D σ τ) : Option StubSections :=
  match peLocateSections env.build env.loaded wantedSections with
  | .ok found => found.bind StubSections.ofList?
  | .error _ | .assertionFailed _ => none

/-- The bytes of the embedded .cmdline section; none when there is no such section. -/
def StubEnvironment.cmdlineBytes (env : StubEnvironment D σ τ) : List UInt8 :=
  match env.located with
  | none => []
  | some sections =>
      if sections.cmdline.loadAddress = 0 then []
      else
        env.loaded.memory.bytesAt sections.cmdline.loadAddress.toNat sections.cmdline.size.toNat

/-- The bytes of the load options that the kernel is started with, if it is; `supplied` are the bytes
at the load options of the caller. -/
def StubEnvironment.kernelOptions (env : StubEnvironment D σ τ) (supplied : ByteStore) :
    Option (List UInt8) :=
  match env.located with
  | none => none
  | some sections =>
      (efiMain env).started.map fun started =>
        (optionsContent env supplied sections.cmdline).bytesAt 0 started.2.toNat

/-- The UTF-16 form of a command line, as much of it as a size of 32 bits can tell. -/
def embeddedOptions (cmdline : List UInt8) : List UInt8 :=
  let encoded := (mbstowcs (ByteStore.ofList cmdline fun _ => 0) cmdline.length).flatMap
    fun unichar => leBytes 2 unichar.toNat
  encoded.take (encoded.length % 2 ^ 32)

/-- The same boot with other load options. -/
def StubEnvironment.withLoadOptions (env : StubEnvironment D σ τ) (address : UInt64)
    (size : UInt32) : StubEnvironment D σ τ :=
  { env with loaded := { env.loaded with loadOptions := address, loadOptionsSize := size } }

/-- Two boots of one image that differ only in the load options of the caller. -/
def DifferInLoadOptions (first second : StubEnvironment D σ τ) : Prop :=
  ∃ address size, second = first.withLoadOptions address size

/-- Load options of the caller reach the kernel unchanged outside of secure mode, and not at all in
it: there the kernel sees the embedded command line. -/
structure ConfinesLoadOptions (first second : StubEnvironment D σ τ)
    (suppliedFirst suppliedSecond : ByteStore) : Prop where
  identical : first.secureBoot = some 1 →
    (efiMain second).started = (efiMain first).started ∧
      second.kernelOptions suppliedSecond = first.kernelOptions suppliedFirst
  embedded : first.secureBoot = some 1 → ∀ handed, first.kernelOptions suppliedFirst = some handed →
    handed = embeddedOptions first.cmdlineBytes
  supplied : first.secureBoot ≠ some 1 → first.loaded.loadOptionsSize ≠ 0 →
    ∀ handed, first.kernelOptions suppliedFirst = some handed →
      (efiMain first).started = some (first.loaded.loadOptions, first.loaded.loadOptionsSize) ∧
        handed = suppliedFirst.bytesAt 0 first.loaded.loadOptionsSize.toNat

/-! ## What the kernel is started with -/

/-- A run that starts the kernel has got past the call. -/
theorem andRun_started {α : Type} {outcome : Outcome α} {next : α → StubRun}
    {started : UInt64 × UInt32} (reached : (outcome.andRun next).started = some started) :
    ∃ value, outcome = .ok value ∧ (next value).started = some started := by
  cases outcome with
  | ok value => exact ⟨value, rfl, reached⟩
  | error status => cases reached
  | assertionFailed assertion => cases reached

variable {env : StubEnvironment D σ τ} {st : InitrdState D} {options : SimpleBuffer}
  {started : UInt64 × UInt32}

theorem executeImageFromMemory_started {kernel : SimpleBuffer} {content : ByteStore}
    (reached : (executeImageFromMemory env st kernel options content).started = some started) :
    startOptions env.build options = .ok started := by
  simp only [executeImageFromMemory] at reached
  split at reached
  · cases reached
  · cases reached
  · cases reached
  · obtain ⟨value, known, same⟩ := andRun_started reached
    rw [known]
    exact congrArg Outcome.ok (Option.some.inj same)

theorem startKernel_started {linux : WantedSection}
    (reached : (startKernel env st options linux).started = some started) :
    startOptions env.build options = .ok started := by
  simp only [startKernel, StubRun.prepend, StubRun.after] at reached
  split at reached
  · cases reached
  · cases reached
  · cases reached
  · cases reached
  · obtain ⟨_, _, later⟩ := andRun_started reached
    exact executeImageFromMemory_started later

theorem fixDevicetree_started {sections : StubSections}
    (reached : (fixDevicetree env st options sections).started = some started) :
    startOptions env.build options = .ok started := by
  simp only [fixDevicetree] at reached
  split_ifs at reached
  · obtain ⟨_, _, later⟩ := andRun_started reached
    exact startKernel_started later
  · exact startKernel_started reached

/-- The kernel is started with the options that were built. -/
theorem stubMain_started {sections : StubSections}
    (reached : (stubMain env sections).started = some started) :
    ∃ options, buildOptions env sections.cmdline = some options ∧
      startOptions env.build options = .ok started := by
  cases built : buildOptions env sections.cmdline with
  | none =>
    simp only [stubMain, built] at reached
    split_ifs at reached
    · cases reached
    · cases reached
  | some options =>
    refine ⟨options, rfl, ?_⟩
    simp only [stubMain, built] at reached
    split_ifs at reached
    · cases reached
    · exact fixDevicetree_started reached
    · exact fixDevicetree_started reached

theorem efiMain_started (reached : (efiMain env).started = some started) :
    ∃ sections, env.located = some sections ∧ ∃ options,
      buildOptions env sections.cmdline = some options ∧
        startOptions env.build options = .ok started := by
  simp only [efiMain] at reached
  obtain ⟨found, known, later⟩ := andRun_started reached
  rw [StubEnvironment.located, known]
  dsimp only at later ⊢
  cases listed : found.bind StubSections.ofList? with
  | none =>
    rw [listed] at later
    cases later
  | some sections =>
    rw [listed] at later
    exact ⟨sections, rfl, stubMain_started later⟩

/-- Without assertions the options are handed on as far as there are any. -/
theorem startOptions_of_ndebug {build : Build} (quiet : build.ndebug = true)
    (options : SimpleBuffer) :
    startOptions build options = .ok (if options.length - options.pos > 0 then
      (options.buffer + options.pos, (options.length - options.pos).toUInt32) else (0, 0)) := by
  rw [startOptions, bufferLen_of_ndebug quiet, Outcome.bind, bufferPos_of_ndebug quiet]
  split_ifs <;> rfl

/-! ## The two sources of the options -/

/-- Outside of secure mode the options of the caller are handed on as they are. -/
theorem startOptions_supplied (quiet : env.build.ndebug = true) (used : env.usesLoadOptions = true)
    {cmdline : WantedSection} (built : buildOptions env cmdline = some options)
    (known : startOptions env.build options = .ok started) :
    started = (env.loaded.loadOptions, env.loaded.loadOptionsSize) := by
  rw [buildOptions, if_pos used] at built
  obtain rfl := Option.some.inj built
  rw [startOptions_of_ndebug quiet] at known
  have nonempty : env.loaded.loadOptionsSize.toUInt64 > 0 := by
    simp only [StubEnvironment.usesLoadOptions, Bool.and_eq_true, decide_eq_true_eq] at used
    exact UInt32.toUInt64_lt.mpr used.1
  rw [← Outcome.ok.inj known]
  simp [zeroBuffer, nonempty]

/-- The characters of the embedded command line come from the bytes of its section. -/
theorem embeddedCmdline_eq (cmdline : WantedSection) :
    env.embeddedCmdline cmdline = mbstowcs
      (ByteStore.ofList (env.loaded.memory.bytesAt cmdline.loadAddress.toNat cmdline.size.toNat)
        fun _ => 0) cmdline.size.toNat := by
  apply mbstowcs_congr
  intro index bound
  simp [ByteStore.ofList, ByteStore.from_, ByteStore.bytesAt, bound]

/-- The size handed on is a word of 32 bits. -/
theorem startOptions_size {build : Build} (quiet : build.ndebug = true) (fresh : options.pos = 0)
    (known : startOptions build options = .ok started) :
    started.2.toNat = options.length.toNat % 2 ^ 32 := by
  rw [startOptions_of_ndebug quiet, fresh, UInt64.sub_zero] at known
  obtain rfl := Outcome.ok.inj known
  split_ifs with some_
  · exact UInt64.toNat_toUInt32 _
  · have none_ : options.length.toNat = 0 := by
      rw [gt_iff_lt, UInt64.lt_iff_toNat_lt, UInt64.toNat_zero] at some_
      omega
    rw [none_]
    rfl

/-- In secure mode the size handed on counts the encoded characters. -/
theorem startOptions_embedded (quiet : env.build.ndebug = true)
    (unused : env.usesLoadOptions = false) {cmdline : WantedSection}
    (built : buildOptions env cmdline = some options)
    (known : startOptions env.build options = .ok started) :
    started.2.toNat =
      if cmdline.loadAddress = 0 then 0 else (env.embeddedCmdline cmdline).length * 2 % 2 ^ 32 := by
  rw [buildOptions, if_neg (by rw [unused]; exact Bool.false_ne_true)] at built
  by_cases absent : cmdline.loadAddress = 0
  · rw [if_neg (by simpa using absent)] at built
    obtain rfl := Option.some.inj built
    rw [startOptions_size quiet rfl known, if_pos absent]
    rfl
  · rw [if_pos (by simpa using absent), allocateSimpleBuffer_eq] at built
    split_ifs at built with failed
    obtain rfl := Option.some.inj built
    rw [startOptions_size quiet rfl known, if_neg absent, UInt64.toNat_mul, UInt64.toNat_ofNat']
    change _ * 2 % _ % _ = _
    omega

/-- The characters of an encoded command line take two bytes each. -/
theorem encoded_length (unichars : List UInt16) :
    (unichars.flatMap fun unichar => leBytes 2 unichar.toNat).length = unichars.length * 2 := by
  induction unichars with
  | nil => rfl
  | cons first rest ih =>
    rw [List.flatMap_cons, List.length_append, leBytes_length, ih, List.length_cons]
    omega

/-- The first bytes of a list in memory. -/
theorem bytesAt_ofList_zero (bytes : List UInt8) (behind : ByteStore) {size : ℕ}
    (fits : size ≤ bytes.length) :
    (ByteStore.ofList bytes behind).bytesAt 0 size = bytes.take size := by
  have whole := ByteStore.bytesAt_ofList [] (bytes.take size) (bytes.drop size) behind
  rwa [List.nil_append, List.take_append_drop, List.length_nil, List.length_take,
    Nat.min_eq_left fits] at whole

/-- Options that the kernel finds come from a run that has built them and started it. -/
theorem kernelOptions_found {supplied : ByteStore} {handed : List UInt8}
    (found : env.kernelOptions supplied = some handed) :
    ∃ sections options started, env.located = some sections ∧
      buildOptions env sections.cmdline = some options ∧
      startOptions env.build options = .ok started ∧ (efiMain env).started = some started ∧
      handed = (optionsContent env supplied sections.cmdline).bytesAt 0 started.2.toNat := by
  rw [StubEnvironment.kernelOptions] at found
  cases located : env.located with
  | none =>
    rw [located] at found
    cases found
  | some sections =>
    rw [located] at found
    obtain ⟨started, reached, rfl⟩ := Option.map_eq_some_iff.mp found
    obtain ⟨others, same, options, built, known⟩ := efiMain_started reached
    obtain rfl := Option.some.inj (located.symm.trans same)
    exact ⟨sections, options, started, rfl, built, known, reached, rfl⟩

/-- What the kernel finds in secure mode. -/
theorem kernelOptions_embedded (quiet : env.build.ndebug = true)
    (unused : env.usesLoadOptions = false) {supplied : ByteStore} {handed : List UInt8}
    (found : env.kernelOptions supplied = some handed) :
    handed = embeddedOptions env.cmdlineBytes := by
  obtain ⟨sections, options, started, located, built, known, -, rfl⟩ := kernelOptions_found found
  have size := startOptions_embedded quiet unused built known
  rw [optionsContent, if_neg (by rw [unused]; exact Bool.false_ne_true)]
  simp only [StubEnvironment.cmdlineBytes, located]
  by_cases absent : sections.cmdline.loadAddress = 0
  · rw [if_pos absent] at size ⊢
    rw [size]
    rfl
  · rw [if_neg absent] at size ⊢
    have length : (env.loaded.memory.bytesAt sections.cmdline.loadAddress.toNat
        sections.cmdline.size.toNat).length = sections.cmdline.size.toNat := by
      simp [ByteStore.bytesAt]
    rw [embeddedOptions, length, ← embeddedCmdline_eq, encoded_length, size]
    apply bytesAt_ofList_zero
    rw [encoded_length]
    exact Nat.mod_le _ _

/-- In secure mode the run does not depend on the load options of the caller. -/
theorem efiMain_withLoadOptions (secure : env.secureBoot = some 1) (address : UInt64)
    (size : UInt32) : efiMain (env.withLoadOptions address size) = efiMain env := by
  have active : env.secureBootActive = true := by rw [StubEnvironment.secureBootActive, secure]; rfl
  have unused : env.usesLoadOptions = false := by
    rw [StubEnvironment.usesLoadOptions, active, Bool.not_true, Bool.and_false]
  have unusedToo : (env.withLoadOptions address size).usesLoadOptions = false := by
    rw [StubEnvironment.usesLoadOptions]
    change (_ && !env.secureBootActive) = false
    rw [active, Bool.not_true, Bool.and_false]
  have options (cmdline : WantedSection) :
      buildOptions (env.withLoadOptions address size) cmdline = buildOptions env cmdline := by
    rw [buildOptions, buildOptions, unused, unusedToo]
    rfl
  have program (sections : StubSections) :
      stubMain (env.withLoadOptions address size) sections = stubMain env sections := by
    unfold stubMain
    rw [options]
    rfl
  simp only [efiMain, program]
  rfl

/-- Without assertions two boots that differ in the load options of the caller hand the same ones to
the kernel in secure mode; outside of it each hands on its own. -/
theorem confinesLoadOptions {first second : StubEnvironment D σ τ}
    (quiet : first.build.ndebug = true) (differ : DifferInLoadOptions first second)
    (suppliedFirst suppliedSecond : ByteStore) :
    ConfinesLoadOptions first second suppliedFirst suppliedSecond := by
  have inactive (env : StubEnvironment D σ τ) (secure : env.secureBoot = some 1) :
      env.usesLoadOptions = false := by
    simp [StubEnvironment.usesLoadOptions, StubEnvironment.secureBootActive, secure]
  refine ⟨?_, ?_, ?_⟩
  · intro secure
    obtain ⟨address, size, rfl⟩ := differ
    have unused := inactive first secure
    have unusedToo := inactive (first.withLoadOptions address size) secure
    have same := efiMain_withLoadOptions secure address size
    refine ⟨by rw [same], ?_⟩
    simp only [StubEnvironment.kernelOptions, same, optionsContent, unused, unusedToo]
    rfl
  · intro secure handed found
    exact kernelOptions_embedded quiet (inactive first secure) found
  · intro insecure nonempty handed found
    have used : first.usesLoadOptions = true := by
      simp [StubEnvironment.usesLoadOptions, StubEnvironment.secureBootActive, insecure,
        UInt32.pos_iff_ne_zero.mpr nonempty]
    obtain ⟨sections, options, started, -, built, known, reached, rfl⟩ := kernelOptions_found found
    obtain rfl := startOptions_supplied quiet used built known
    exact ⟨reached, by rw [optionsContent, if_pos used]⟩

end Options

/-- A stub with a stored kernel and the text "quiet", started in secure mode with load options. -/
def secureStub : StubEnvironment SmallDatabase Unit Unit :=
  { stubEnvironment (smallStub 8
      (namedSection 0 0x78756e696c2e 0x400 0x1000 ++ namedSection 1 0x656e696c646d632e 5 0x3000)
      (smallImage 1 0x2000 0x200 5 [(0x2000, 5, 0x7465697571)])) [] with
    build := { defaultBuild with ndebug := true }
    secureBoot := some 1 }

/-- Whatever the load options, the kernel is started with "quiet". -/
theorem confinesLoadOptions_secureStub :
    ConfinesLoadOptions secureStub (secureStub.withLoadOptions 0x310000 4) (fun _ => 0x61)
        (fun _ => 0x62) ∧
      secureStub.kernelOptions (fun _ => 0x61) =
        some [0x71, 0, 0x75, 0, 0x69, 0, 0x65, 0, 0x74, 0] :=
  ⟨confinesLoadOptions rfl ⟨_, _, rfl⟩ _ _, by decide +kernel⟩

end ZLoader
