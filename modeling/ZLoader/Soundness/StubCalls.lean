import ZLoader.Soundness.InitrdService
import ZLoader.Soundness.LoadOptions

/-! # The calls of a run

Without assertions nothing stops the program on the way to its kernel: once it has the sections and
the memory for the command line, it registers the initrd, has the DeviceTree fixed and decompresses
the kernel, whatever the firmware answers. A kernel that can be loaded is started, and all its calls
come to the callback when the initrd has been registered.
-/

namespace ZLoader

/-- A call of the callback. -/
def StubCall.loadFile? : StubCall → Option LoadFileCall
  | .fl2LoadFile _ call => some call
  | _ => none

/-- The calls of the callback in a run. -/
def StubRun.loadFileCalls (run : StubRun) : List LoadFileCall := run.calls.filterMap StubCall.loadFile?

section Calls

variable {D σ τ : Type} {env : StubEnvironment D σ τ} {sections : StubSections}

/-- The program gets to its files: there is a kernel, and memory for the command line. -/
structure GetsToFiles (env : StubEnvironment D σ τ) (sections : StubSections) : Prop where
  linux : sections.linux.loadAddress ≠ 0 ∧ sections.linux.size ≠ 0
  commandLine : CommandLineAllocated env sections.cmdline

/-- The kernel is decompressed, and what comes out is loaded. -/
structure KernelLoads (env : StubEnvironment D σ τ) (linux : WantedSection) : Prop where
  decompressed : (decompressLinux env linux).outcome = .ok
  loaded : (peHandleImage env.build env.services (decompressLinux env linux).output
    ⟨kernelContent env linux, env.pages⟩).outcome = .ok

/-- The static variables before and after the registration. -/
def StubEnvironment.unregistered (env : StubEnvironment D σ τ) : InitrdState D :=
  ⟨env.database, zeroBuffer, none⟩

def StubEnvironment.registered (env : StubEnvironment D σ τ) (initrd : WantedSection) :
    InitrdState D :=
  if initrd.loadAddress = 0 then env.unregistered
  else (initrdRegister env.firmware env.statics (buildInitrd env initrd) env.unregistered).2

/-- The calls in which the program hands its files on. -/
def fileCalls (env : StubEnvironment D σ τ) (sections : StubSections) : List StubCall :=
  (if sections.initrd.loadAddress = 0 then []
    else [.initrdRegister (buildInitrd env sections.initrd)]) ++
  (if env.build.useEfiDtFixup = true ∧ sections.fdt.loadAddress ≠ 0 then
    [.doDevicetreeFixup (buildFdt env sections.fdt)] else []) ++
  [.decompress (buildLinuxSection env sections.linux)]

/-- The kernel runs: with load options, and with the callback for its calls if there is an
initrd. -/
structure RunsKernel (env : StubEnvironment D σ τ) (st : InitrdState D) (run : StubRun)
    (loads : Prop) (before : List StubCall) : Prop where
  started : loads → run.started.isSome
  calls : ∃ served, run.calls = before ++ served.map (.fl2LoadFile st.initrd) ∧
    (loads → served = if st.initrdHandle.isSome then env.kernelCalls else []) ∧
    (st.initrdHandle = none → served = [])

theorem RunsKernel.after {st : InitrdState D} {run : StubRun} {loads : Prop}
    {before : List StubCall} (call : StubCall) (runs : RunsKernel env st run loads before) :
    RunsKernel env st (run.after call) loads (call :: before) := by
  obtain ⟨served, same, all, none_⟩ := runs.calls
  refine ⟨runs.started, served, ?_, all, none_⟩
  rw [StubRun.after, same]
  rfl

theorem RunsKernel.prepend {st : InitrdState D} {run : StubRun} {loads : Prop}
    {before : List StubCall} (built : List SimpleBuffer) (runs : RunsKernel env st run loads before) :
    RunsKernel env st (run.prepend built) loads before := ⟨runs.started, runs.calls⟩

/-- A run that ends before the kernel. -/
theorem runsKernel_ended (env : StubEnvironment D σ τ) (st : InitrdState D) (outcome : StubOutcome)
    {loads : Prop} (fails : ¬ loads) : RunsKernel env st (.ended outcome) loads [] :=
  ⟨fun loads => absurd loads fails, [], rfl, fun loads => absurd loads fails, fun _ => rfl⟩

/-- Without assertions the callback returns. -/
theorem fl2LoadFile_of_ndebug {build : Build} (quiet : build.ndebug = true)
    (statics : InitrdStatics) (initrd : SimpleBuffer) (call : LoadFileCall) :
    ∃ reply, fl2LoadFile build statics initrd call = .ok reply := by
  rw [fl2LoadFile.eq_def, bufferLen_of_ndebug quiet, bufferPos_of_ndebug quiet]
  simp only [Outcome.bind, LoadFileCall.refuse]
  split
  · split_ifs <;> exact ⟨_, rfl⟩
  · exact ⟨_, rfl⟩

/-- All the calls of the kernel are served. -/
theorem serveKernelCalls_calls {build : Build} (quiet : build.ndebug = true)
    (statics : InitrdStatics) (initrd : SimpleBuffer) (next : StubRun) (calls : List LoadFileCall) :
    (serveKernelCalls build statics initrd next calls).calls =
      calls.map (.fl2LoadFile initrd) ++ next.calls := by
  induction calls with
  | nil => rfl
  | cons call calls ih =>
    obtain ⟨reply, answered⟩ := fl2LoadFile_of_ndebug quiet statics initrd call
    rw [serveKernelCalls, answered, StubRun.after, Outcome.andRun, ih]
    rfl

/-- Without assertions the fixup returns. -/
theorem doDevicetreeFixup_of_ndebug {build : Build} (quiet : build.ndebug = true)
    (protocol : DtFixupProtocol) (fdt : SimpleBuffer) :
    ∃ fixed, doDevicetreeFixup build protocol fdt = .ok fixed := by
  rw [doDevicetreeFixup.eq_def]
  by_cases absent : efiError protocol.locate = true
  · exact ⟨_, if_pos absent⟩
  by_cases old : protocol.revision < efiDtFixupProtocolRevision
  · rw [if_neg absent, if_pos old]
    exact ⟨_, rfl⟩
  simp only [if_neg absent, if_neg old, bufferLen_of_ndebug quiet, bufferPos_of_ndebug quiet,
    Outcome.bind]
  cases protocol.allocatePool with
  | none => exact ⟨_, rfl⟩
  | some address =>
    dsimp only
    cases (protocol.fixup (fdt.length - fdt.pos)).1 == efiBufferTooSmall with
    | true =>
      simp only [if_true]
      split_ifs <;> exact ⟨_, rfl⟩
    | false =>
      simp only [Bool.false_eq_true, if_false]
      split_ifs <;> exact ⟨_, rfl⟩

/-! ## The parts of the program -/

section Parts

variable (quiet : env.build.ndebug = true) {st : InitrdState D} {options : SimpleBuffer}

include quiet

theorem executeImageFromMemory_runs (kernel : SimpleBuffer) (content : ByteStore) :
    RunsKernel env st (executeImageFromMemory env st kernel options content)
      ((peHandleImage env.build env.services kernel ⟨content, env.pages⟩).outcome = .ok) [] := by
  rw [executeImageFromMemory]
  cases loaded : (peHandleImage env.build env.services kernel ⟨content, env.pages⟩).outcome with
  | error status => exact runsKernel_ended env st _ (by simp)
  | assertionFailed assertion => exact runsKernel_ended env st _ (by simp)
  | printing => exact runsKernel_ended env st _ (by simp)
  | ok =>
    dsimp only
    rw [startOptions_of_ndebug quiet, Outcome.andRun]
    refine ⟨fun _ => rfl, if st.initrdHandle.isSome then env.kernelCalls else [], ?_, fun _ => rfl,
      fun none_ => by rw [none_]; rfl⟩
    dsimp only
    rw [serveKernelCalls_calls quiet, List.nil_append]
    cases env.kernelStatus <;> exact List.append_nil _

theorem startKernel_runs (linux : WantedSection) :
    RunsKernel env st (startKernel env st options linux) (KernelLoads env linux)
      [.decompress (buildLinuxSection env linux)] := by
  have fails (other : (decompressLinux env linux).outcome ≠ .ok) : ¬ KernelLoads env linux :=
    fun loads => other loads.decompressed
  rw [startKernel]
  refine .prepend _ (.after _ ?_)
  cases outcome : (decompressLinux env linux).outcome with
  | error status => exact runsKernel_ended env st _ (fails (by simp [outcome]))
  | assertionFailed => exact runsKernel_ended env st _ (fails (by simp [outcome]))
  | nullCall => exact runsKernel_ended env st _ (fails (by simp [outcome]))
  | running => exact runsKernel_ended env st _ (fails (by simp [outcome]))
  | ok =>
    have passed : env.build.assert .other (decide (env.elapsed > 0)) (.ok ()) = .ok () := by
      simp [Build.assert, quiet]
    dsimp only
    rw [passed, Outcome.andRun]
    refine .prepend _ ?_
    have runs : RunsKernel env st (executeImageFromMemory env st (decompressLinux env linux).output
        options (kernelContent env linux)) _ _ := executeImageFromMemory_runs quiet _ _
    obtain ⟨served, same, all, none_⟩ := runs.calls
    exact ⟨fun loads => runs.started loads.loaded, served, same, fun loads => all loads.loaded, none_⟩

theorem fixDevicetree_runs (sections : StubSections) :
    RunsKernel env st (fixDevicetree env st options sections) (KernelLoads env sections.linux)
      ((if env.build.useEfiDtFixup = true ∧ sections.fdt.loadAddress ≠ 0 then
          [.doDevicetreeFixup (buildFdt env sections.fdt)] else []) ++
        [.decompress (buildLinuxSection env sections.linux)]) := by
  rw [fixDevicetree]
  by_cases fixed : env.build.useEfiDtFixup = true ∧ sections.fdt.loadAddress ≠ 0
  · obtain ⟨answer, answered⟩ := doDevicetreeFixup_of_ndebug quiet env.dtFixup
      (buildFdt env sections.fdt)
    rw [if_pos (by simpa using fixed), if_pos fixed]
    dsimp only
    rw [answered]
    exact .prepend _ (.after _ (.prepend _ (startKernel_runs quiet sections.linux)))
  · rw [if_neg (by simpa using fixed), if_neg fixed]
    exact startKernel_runs quiet sections.linux

/-- Once it gets to its files, the program hands each of them on. -/
theorem stubMain_runs (gets : GetsToFiles env sections) :
    RunsKernel env (env.registered sections.initrd) (stubMain env sections)
      (KernelLoads env sections.linux) (fileCalls env sections) := by
  cases built : buildOptions env sections.cmdline with
  | none => exact absurd gets.commandLine (buildOptions_eq_none_iff.mp built)
  | some options =>
    rw [stubMain, if_neg (by simpa using gets.linux), built, fileCalls, StubEnvironment.registered]
    dsimp only
    by_cases absent : sections.initrd.loadAddress = 0
    · rw [if_pos absent, if_pos absent, if_neg (by simpa using absent)]
      exact .prepend _ (fixDevicetree_runs quiet sections)
    · rw [if_neg absent, if_neg absent, if_pos (by simpa using absent)]
      exact .prepend _ (.after _ (fixDevicetree_runs quiet sections))

end Parts

/-! ## The calls of each kind -/

section Kinds

variable {run : StubRun} {st : InitrdState D} {loads : Prop}

/-- The kernel and the DeviceTree, and the initrd if there is one, are handed on once. -/
theorem RunsKernel.mem_iff (runs : RunsKernel env st run loads (fileCalls env sections))
    (buffer : SimpleBuffer) :
    (.decompress buffer ∈ run.calls ↔ buffer = buildLinuxSection env sections.linux) ∧
    (.doDevicetreeFixup buffer ∈ run.calls ↔ (env.build.useEfiDtFixup = true ∧
      sections.fdt.loadAddress ≠ 0) ∧ buffer = buildFdt env sections.fdt) ∧
    (.initrdRegister buffer ∈ run.calls ↔ sections.initrd.loadAddress ≠ 0 ∧
      buffer = buildInitrd env sections.initrd) := by
  obtain ⟨served, same, -⟩ := runs.calls
  rw [same, fileCalls]
  refine ⟨?_, ?_, ?_⟩ <;> split_ifs with absent fixed <;> simp_all

omit run st loads in
/-- None of them is one of the callback. -/
theorem not_mem_fileCalls (env : StubEnvironment D σ τ) (sections : StubSections)
    (initrd : SimpleBuffer) (call : LoadFileCall) : .fl2LoadFile initrd call ∉ fileCalls env sections := by
  rw [fileCalls]
  split_ifs <;> simp

/-- The callback is called for the static buffer. -/
theorem RunsKernel.served (runs : RunsKernel env st run loads (fileCalls env sections)) :
    run.calls = fileCalls env sections ++ run.loadFileCalls.map (.fl2LoadFile st.initrd) ∧
      (loads → st.initrdHandle.isSome → run.loadFileCalls = env.kernelCalls) := by
  obtain ⟨served, same, all, -⟩ := runs.calls
  have others : (fileCalls env sections).filterMap StubCall.loadFile? = [] := by
    rw [fileCalls]
    split_ifs <;> rfl
  have calls : run.loadFileCalls = served := by
    rw [StubRun.loadFileCalls, same, List.filterMap_append, others, List.nil_append,
      List.filterMap_map]
    exact List.filterMap_some
  rw [calls]
  refine ⟨same, fun loaded handle => ?_⟩
  rw [all loaded, if_pos handle]

end Kinds

end Calls

end ZLoader
