import ZLoader.Model.Loader.Sections

/-! # What the section loop does, as data

The loop of `relocate_sections` interleaves checks, reads and writes. Here it is compared with a
plan computed from the file alone: the headers the loop reaches, in table order, and which of
them it loads. Memory after the loop is the plan's patches applied in order, and the trace is the
plan's events. Every result about the loop is a result about the plan.
-/

namespace ZLoader

/-- A header the loop reaches, whether it is loaded, and the walk over its name if that is
printed. -/
structure Turn where
  offset : ℕ
  sec : PeSectionHeader
  loads : Bool
  printed : Option StringWalk
deriving DecidableEq, Repr

/-- Copying happens: the data is not in place and there is some. -/
def copiesRawData (buffer : UInt64) (ctx : PeLoaderCtx) (sec : PeSectionHeader) : Bool :=
  !inPlace buffer ctx sec && sec.sizeOfRawData > 0

/-- The window writes of a loaded section. -/
def sectionPatches (buffer : UInt64) (ctx : PeLoaderCtx) (file : ByteStore)
    (sec : PeSectionHeader) : List Patch :=
  let base := (sectionBase buffer ctx sec - buffer).toNat
  if sec.uninitializedData then [.fill base sec.virtualSize.toNat 0]
  else
    (if copiesRawData buffer ctx sec then
      [.copy base sec.sizeOfRawData.toNat file sec.pointerToRawData.toNat] else []) ++
    (if sec.sizeOfRawData < sec.virtualSize then
      [.fill (base + sec.sizeOfRawData.toNat) (sec.virtualSize - sec.sizeOfRawData).toNat 0]
      else [])

/-- The reads and writes of a loaded section. -/
def sectionEvents (buffer : UInt64) (ctx : PeLoaderCtx) (sec : PeSectionHeader) : List Event :=
  let base := (sectionBase buffer ctx sec - buffer).toNat
  if sec.uninitializedData then [.writeImage ⟨base, sec.virtualSize.toNat⟩]
  else
    (if copiesRawData buffer ctx sec then
      [.readFile ⟨sec.pointerToRawData.toNat, sec.sizeOfRawData.toNat⟩,
        .writeImage ⟨base, sec.sizeOfRawData.toNat⟩] else []) ++
    (if sec.sizeOfRawData < sec.virtualSize then
      [.writeImage ⟨base + sec.sizeOfRawData.toNat,
        (sec.virtualSize - sec.sizeOfRawData).toNat⟩] else [])

/-- The headers reached from a point of the loop; a rejected header is the last one. -/
def turns (buffer : UInt64) (ctx : PeLoaderCtx) (directory : PeDataDirectory) (file : ByteStore) :
    ℕ → ℕ → Option ℕ → List Turn
  | 0, _, _ => []
  | count + 1, offset, relocSection =>
      let sec := PeSectionHeader.read file offset
      match checkSection buffer ctx directory relocSection offset sec with
      | .error _ => [⟨offset, sec, false, none⟩]
      | .ok .illegalVma => [⟨offset, sec, false, some (printIllegalVma file offset)⟩]
      | .ok (.skip relocSection) =>
          ⟨offset, sec, false, none⟩ ::
            turns buffer ctx directory file count (offset + sizeofPeSectionHeader) relocSection
      | .ok (.load relocSection) =>
          ⟨offset, sec, true, none⟩ ::
            turns buffer ctx directory file count (offset + sizeofPeSectionHeader) relocSection

namespace Turn

/-- The patches of a turn. -/
def patches (buffer : UInt64) (ctx : PeLoaderCtx) (file : ByteStore) (turn : Turn) : List Patch :=
  if turn.loads then sectionPatches buffer ctx file turn.sec else []

/-- The bytes of the file that the turn's message reads. -/
def printReads (turn : Turn) : List Event :=
  match turn.printed with
  | none => []
  | some walk => nameReads walk turn.offset

/-- The turn does not come to an end: that of its message does not. -/
def hangs (turn : Turn) : Bool := turn.printed.any fun walk => !walk.ends

/-- The events of a turn: the header is read, then the section written or its name printed. -/
def events (buffer : UInt64) (ctx : PeLoaderCtx) (turn : Turn) : List Event :=
  .readFile ⟨turn.offset, sizeofPeSectionHeader⟩ ::
    ((if turn.loads then sectionEvents buffer ctx turn.sec else []) ++ turn.printReads)

/-- A message only reads the file. -/
theorem printReads_onlyReads (turn : Turn) :
    ∀ event ∈ turn.printReads, ∃ window, event = .readFile window := by
  intro event member
  rw [printReads] at member
  split at member
  · cases member
  · obtain ⟨index, _, rfl⟩ := List.mem_map.mp member
    exact ⟨_, rfl⟩

section Events

variable {buffer : UInt64} {ctx : PeLoaderCtx} (turn : Turn)

theorem mem_events_of_loads (loads : turn.loads = true) {event : Event}
    (member : event ∈ sectionEvents buffer ctx turn.sec) : event ∈ turn.events buffer ctx := by
  rw [events, if_pos loads]
  exact List.mem_cons_of_mem _ (List.mem_append_left _ member)

/-- Only a loaded section is written. -/
theorem writeImage_mem {window : Window} (member : .writeImage window ∈ turn.events buffer ctx) :
    turn.loads = true ∧ .writeImage window ∈ sectionEvents buffer ctx turn.sec := by
  rw [events, List.mem_cons, List.mem_append] at member
  rcases member with ⟨⟨⟩⟩ | written | printed
  · split_ifs at written with loads
    · exact ⟨loads, written⟩
    · cases written
  · obtain ⟨_, same⟩ := turn.printReads_onlyReads _ printed
    cases same

end Events

end Turn

theorem loadSection_image (buffer : UInt64) (ctx : PeLoaderCtx) (sec : PeSectionHeader)
    (st : LoaderState) :
    (loadSection buffer ctx sec st).memory.image =
      Patch.applyAll (sectionPatches buffer ctx st.memory.file sec) st.memory.image := by
  unfold loadSection sectionPatches copiesRawData
  dsimp only
  split_ifs <;> rfl

theorem loadSection_trace (buffer : UInt64) (ctx : PeLoaderCtx) (sec : PeSectionHeader)
    (st : LoaderState) :
    (loadSection buffer ctx sec st).trace = st.trace ++ sectionEvents buffer ctx sec := by
  unfold loadSection sectionEvents copiesRawData
  dsimp only
  split_ifs <;> simp [LoaderState.copyToImage, LoaderState.fillImage]

/-- A loaded section is written to the image and nowhere else. -/
theorem loadSection_frame (buffer : UInt64) (ctx : PeLoaderCtx) (sec : PeSectionHeader)
    (st : LoaderState) :
    (loadSection buffer ctx sec st).memory.file = st.memory.file ∧
      (loadSection buffer ctx sec st).fixups = st.fixups ∧
      (loadSection buffer ctx sec st).visits = st.visits := by
  unfold loadSection
  dsimp only
  split_ifs <;> exact ⟨rfl, rfl, rfl⟩

section Loop

variable (buffer : UInt64) (ctx : PeLoaderCtx) (directory : PeDataDirectory)

theorem relocateSectionsLoop_frame (count offset : ℕ) (relocSection : Option ℕ) (found : Bool)
    (st : LoaderState) :
    let result := relocateSectionsLoop buffer ctx directory count offset relocSection found st
    result.state.memory.file = st.memory.file ∧ result.state.fixups = st.fixups ∧
      result.state.visits = st.visits := by
  induction count generalizing offset relocSection found st with
  | zero => exact ⟨rfl, rfl, rfl⟩
  | succ count ih =>
    simp only [relocateSectionsLoop]
    split
    · exact ⟨rfl, rfl, rfl⟩
    · exact ⟨rfl, rfl, rfl⟩
    · exact ih _ _ _ _
    · obtain ⟨file, fixups, visits⟩ := loadSection_frame buffer ctx
        (PeSectionHeader.read st.memory.file offset)
        (st.log (.readFile ⟨offset, sizeofPeSectionHeader⟩))
      obtain ⟨fileLater, fixupsLater, visitsLater⟩ := ih (offset + sizeofPeSectionHeader) _ _ _
      exact ⟨fileLater.trans file, fixupsLater.trans fixups, visitsLater.trans visits⟩

/-- The image after the loop is the plan applied to the image before it. -/
theorem relocateSectionsLoop_image (count offset : ℕ) (relocSection : Option ℕ) (found : Bool)
    (st : LoaderState) :
    (relocateSectionsLoop buffer ctx directory count offset relocSection found st).state.memory.image =
      Patch.applyAll ((turns buffer ctx directory st.memory.file count offset relocSection).flatMap
        (Turn.patches buffer ctx st.memory.file)) st.memory.image := by
  induction count generalizing offset relocSection found st with
  | zero => rfl
  | succ count ih =>
    simp only [relocateSectionsLoop, turns]
    cases checkSection buffer ctx directory relocSection offset
      (PeSectionHeader.read st.memory.file offset) with
    | error status => rfl
    | ok verdict =>
      cases verdict with
      | illegalVma => rfl
      | skip next => exact ih _ _ _ _
      | load next =>
        rw [ih, loadSection_image, (loadSection_frame buffer ctx _ _).1, List.flatMap_cons,
          Patch.applyAll_append]
        rfl

/-- The trace grows by the events of the plan, in order. -/
theorem relocateSectionsLoop_trace (count offset : ℕ) (relocSection : Option ℕ) (found : Bool)
    (st : LoaderState) :
    (relocateSectionsLoop buffer ctx directory count offset relocSection found st).state.trace =
      st.trace ++ (turns buffer ctx directory st.memory.file count offset relocSection).flatMap
        (Turn.events buffer ctx) := by
  induction count generalizing offset relocSection found st with
  | zero => simp [relocateSectionsLoop, turns]
  | succ count ih =>
    simp only [relocateSectionsLoop, turns]
    cases checkSection buffer ctx directory relocSection offset
      (PeSectionHeader.read st.memory.file offset) with
    | error status => simp [LoaderState.log, Turn.events, Turn.printReads]
    | ok verdict =>
      cases verdict with
      | illegalVma => simp [LoaderState.log, Turn.events, Turn.printReads]
      | skip next =>
        dsimp only
        rw [ih]
        simp [LoaderState.log, Turn.events, Turn.printReads]
      | load next =>
        dsimp only
        rw [ih, loadSection_trace, (loadSection_frame buffer ctx _ _).1]
        simp [LoaderState.log, Turn.events, Turn.printReads]

end Loop

theorem selectReloc_error {buffer : UInt64} {ctx : PeLoaderCtx} {directory : PeDataDirectory}
    {relocSection : Option ℕ} {offset : ℕ} {sec : PeSectionHeader} {status : EfiStatus}
    (rejected : selectReloc buffer ctx directory relocSection offset sec = .error status) :
    efiError status = true := by
  unfold selectReloc at rejected
  split_ifs at rejected
  obtain rfl := Except.error.inj rejected
  decide

/-- What the checks on a section can come to: an EFI error, a section whose address is illegal, a
skipped discardable section, or a section to load that is not discardable and whose first and last
byte are in bounds. -/
theorem checkSection_cases (buffer : UInt64) (ctx : PeLoaderCtx) (directory : PeDataDirectory)
    (relocSection : Option ℕ) (offset : ℕ) (sec : PeSectionHeader) :
    (∃ status, checkSection buffer ctx directory relocSection offset sec = .error status ∧
      efiError status = true) ∨
    (checkSection buffer ctx directory relocSection offset sec = .ok .illegalVma ∧
      sec.discardable = false) ∨
    (∃ next, checkSection buffer ctx directory relocSection offset sec = .ok (.skip next) ∧
      sec.discardable = true) ∨
    (∃ next, checkSection buffer ctx directory relocSection offset sec = .ok (.load next) ∧
      sec.discardable = false ∧ sectionBase buffer ctx sec ≠ 0 ∧ sectionEnd buffer ctx sec ≠ 0 ∧
      sectionBase buffer ctx sec ≤ sectionEnd buffer ctx sec) := by
  have loadError : efiError efiLoadError = true := by decide
  unfold checkSection
  by_cases empty : (sec.discardable && sec.virtualSize == 0) = true
  · rw [if_pos empty]
    exact .inr (.inr (.inl ⟨_, rfl, (Bool.and_eq_true_iff.mp empty).1⟩))
  rw [if_neg empty]
  by_cases negative : sectionEnd buffer ctx sec < sectionBase buffer ctx sec
  · rw [if_pos negative]
    exact .inl ⟨_, rfl, loadError⟩
  rw [if_neg negative]
  cases selected : selectReloc buffer ctx directory relocSection offset sec with
  | error status => exact .inl ⟨status, rfl, selectReloc_error selected⟩
  | ok next =>
    dsimp only
    split_ifs with discardable illegal inside
    · exact .inr (.inr (.inl ⟨_, rfl, discardable⟩))
    · exact .inr (.inl ⟨rfl, Bool.eq_false_iff.mpr discardable⟩)
    · exact .inl ⟨_, rfl, loadError⟩
    · simp only [Bool.or_eq_true, beq_iff_eq, not_or] at illegal
      exact .inr (.inr (.inr ⟨next, rfl, Bool.eq_false_iff.mpr discardable, illegal.1, illegal.2,
        UInt64.not_lt.mp negative⟩))

/-- A section is loaded after passing every check of the source. -/
theorem checkSection_load {buffer : UInt64} {ctx : PeLoaderCtx} {directory : PeDataDirectory}
    {relocSection next : Option ℕ} {offset : ℕ} {sec : PeSectionHeader}
    (passed : checkSection buffer ctx directory relocSection offset sec = .ok (.load next)) :
    sec.discardable = false ∧ sectionBase buffer ctx sec ≠ 0 ∧ sectionEnd buffer ctx sec ≠ 0 ∧
      sectionBase buffer ctx sec ≤ sectionEnd buffer ctx sec := by
  rcases checkSection_cases buffer ctx directory relocSection offset sec with
    ⟨_, other, _⟩ | ⟨other, _⟩ | ⟨_, other, _⟩ | ⟨_, _, facts⟩
  · cases passed.symm.trans other
  · cases passed.symm.trans other
  · cases passed.symm.trans other
  · exact facts

/-- Only discardable sections are skipped. -/
theorem checkSection_skip {buffer : UInt64} {ctx : PeLoaderCtx} {directory : PeDataDirectory}
    {relocSection next : Option ℕ} {offset : ℕ} {sec : PeSectionHeader}
    (passed : checkSection buffer ctx directory relocSection offset sec = .ok (.skip next)) :
    sec.discardable = true := by
  rcases checkSection_cases buffer ctx directory relocSection offset sec with
    ⟨_, other, _⟩ | ⟨other, _⟩ | ⟨_, _, discardable⟩ | ⟨_, other, _⟩
  · cases passed.symm.trans other
  · cases passed.symm.trans other
  · exact discardable
  · cases passed.symm.trans other

/-- A rejected section makes the loop fail. -/
theorem checkSection_error {buffer : UInt64} {ctx : PeLoaderCtx} {directory : PeDataDirectory}
    {relocSection : Option ℕ} {offset : ℕ} {sec : PeSectionHeader} {status : EfiStatus}
    (rejected : checkSection buffer ctx directory relocSection offset sec = .error status) :
    efiError status = true := by
  rcases checkSection_cases buffer ctx directory relocSection offset sec with
    ⟨_, other, failed⟩ | ⟨other, _⟩ | ⟨_, other, _⟩ | ⟨_, other, _⟩
  · obtain rfl := Except.error.inj (rejected.symm.trans other)
    exact failed
  · cases rejected.symm.trans other
  · cases rejected.symm.trans other
  · cases rejected.symm.trans other

/-- Every loaded header of the plan has passed its checks. -/
theorem turns_loaded {buffer : UInt64} {ctx : PeLoaderCtx} {directory : PeDataDirectory}
    {file : ByteStore} {count offset : ℕ} {relocSection : Option ℕ} {turn : Turn}
    (member : turn ∈ turns buffer ctx directory file count offset relocSection)
    (loads : turn.loads = true) :
    ∃ relocSection next,
      checkSection buffer ctx directory relocSection turn.offset turn.sec = .ok (.load next) := by
  induction count generalizing offset relocSection with
  | zero => cases member
  | succ count ih =>
    simp only [turns] at member
    split at member
    · obtain rfl := List.mem_singleton.mp member
      contradiction
    · obtain rfl := List.mem_singleton.mp member
      contradiction
    · rcases List.mem_cons.mp member with rfl | member
      · contradiction
      · exact ih member
    · next next passed =>
      rcases List.mem_cons.mp member with rfl | member
      · exact ⟨relocSection, next, passed⟩
      · exact ih member

/-- The loop over a table does not return exactly when a turn of it does not come to an end. -/
theorem relocateSectionsLoop_hangs_iff {buffer : UInt64} {ctx : PeLoaderCtx}
    {directory : PeDataDirectory} {count offset : ℕ} {relocSection : Option ℕ} {found : Bool}
    {st : LoaderState} :
    (relocateSectionsLoop buffer ctx directory count offset relocSection found st).status = none ↔
      ∃ turn ∈ turns buffer ctx directory st.memory.file count offset relocSection,
        turn.hangs = true := by
  induction count generalizing offset relocSection found st with
  | zero => simp [relocateSectionsLoop, turns]
  | succ count ih =>
    simp only [relocateSectionsLoop, turns, LoaderState.log_memory]
    cases checkSection buffer ctx directory relocSection offset
      (PeSectionHeader.read st.memory.file offset) with
    | error status => simp [Turn.hangs]
    | ok verdict =>
      cases verdict with
      | illegalVma =>
        simp only [List.mem_singleton, exists_eq_left, Turn.hangs, Option.any_some]
        split_ifs with ends <;> simp [ends]
      | skip next =>
        dsimp only
        rw [ih]
        simp [Turn.hangs]
      | load next =>
        dsimp only
        rw [ih, (loadSection_frame buffer ctx _ _).1]
        simp [Turn.hangs]

/-- A turn that does not come to an end is that of a header from which on the loop never returns. -/
theorem turns_hangs {buffer : UInt64} {ctx : PeLoaderCtx} {directory : PeDataDirectory}
    {file : ByteStore} {count offset : ℕ} {relocSection : Option ℕ} {turn : Turn}
    (member : turn ∈ turns buffer ctx directory file count offset relocSection)
    (hangs : turn.hangs = true) :
    ∃ index < count, turn.offset = offset + sizeofPeSectionHeader * index ∧ ∀ longer > index,
      turn ∈ turns buffer ctx directory file longer offset relocSection := by
  induction count generalizing offset relocSection with
  | zero => cases member
  | succ count ih =>
    simp only [turns] at member
    have further {head : Turn} {next : Option ℕ}
        (unfolded : ∀ rest, turns buffer ctx directory file (rest + 1) offset relocSection =
          head :: turns buffer ctx directory file rest (offset + sizeofPeSectionHeader) next)
        (later : turn ∈ turns buffer ctx directory file count (offset + sizeofPeSectionHeader) next) :
        ∃ index < count + 1, turn.offset = offset + sizeofPeSectionHeader * index ∧
          ∀ longer > index, turn ∈ turns buffer ctx directory file longer offset relocSection := by
      obtain ⟨index, bound, position, found⟩ := ih later
      refine ⟨index + 1, Nat.succ_lt_succ bound, ?_, fun longer above => ?_⟩
      · rw [position, Nat.mul_succ]
        omega
      · obtain ⟨rest, rfl⟩ := Nat.exists_eq_succ_of_ne_zero (Nat.ne_of_gt (Nat.zero_lt_of_lt above))
        rw [unfolded]
        exact List.mem_cons_of_mem _ (found rest (Nat.lt_of_succ_lt_succ above))
    cases passed : checkSection buffer ctx directory relocSection offset
        (PeSectionHeader.read file offset) with
    | error status =>
      simp only [passed, List.mem_singleton] at member
      obtain rfl := member
      contradiction
    | ok verdict =>
      simp only [passed] at member
      cases verdict with
      | illegalVma =>
        obtain rfl := List.mem_singleton.mp member
        refine ⟨0, Nat.succ_pos _, rfl, fun longer positive => ?_⟩
        obtain ⟨rest, rfl⟩ := Nat.exists_eq_succ_of_ne_zero (Nat.ne_of_gt positive)
        simp [turns, passed]
      | skip next =>
        rcases List.mem_cons.mp member with rfl | later
        · contradiction
        · exact further (fun rest => by simp only [turns, passed]; rfl) later
      | load next =>
        rcases List.mem_cons.mp member with rfl | later
        · contradiction
        · exact further (fun rest => by simp only [turns, passed]; rfl) later

/-- The headers of the table in order, as the source means them: every header once, loaded unless
discardable. -/
def tableTurns (file : ByteStore) : ℕ → ℕ → List Turn
  | 0, _ => []
  | count + 1, offset =>
      let sec := PeSectionHeader.read file offset
      ⟨offset, sec, !sec.discardable, none⟩ :: tableTurns file count (offset + sizeofPeSectionHeader)

/-- The loop succeeds only behind the whole table. -/
theorem turns_of_success {buffer : UInt64} {ctx : PeLoaderCtx} {directory : PeDataDirectory}
    {count offset : ℕ} {relocSection : Option ℕ} {found : Bool} {st : LoaderState}
    (success : (relocateSectionsLoop buffer ctx directory count offset relocSection found
      st).succeeds = true) :
    turns buffer ctx directory st.memory.file count offset relocSection =
      tableTurns st.memory.file count offset := by
  induction count generalizing offset relocSection found st with
  | zero => rfl
  | succ count ih =>
    rw [SectionsResult.succeeds] at success
    simp only [relocateSectionsLoop] at success
    simp only [turns, tableTurns]
    cases passed : checkSection buffer ctx directory relocSection offset
        (PeSectionHeader.read st.memory.file offset) with
    | error status =>
      simp only [passed, Option.any_some, checkSection_error passed] at success
      contradiction
    | ok verdict =>
      simp only [passed] at success
      cases verdict with
      | illegalVma =>
        have error : efiError efiLoadError = true := by decide
        cases ends : (printIllegalVma st.memory.file offset).ends <;> simp [ends, error] at success
      | skip next =>
        have later := ih success
        simp only [LoaderState.log_memory] at later
        rw [checkSection_skip passed, ← later]
        rfl
      | load next =>
        have later := ih success
        simp only [(loadSection_frame buffer ctx _ _).1, LoaderState.log_memory] at later
        rw [(checkSection_load passed).1, ← later]
        rfl

end ZLoader
