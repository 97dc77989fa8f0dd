import ZLoader.Soundness.AssertedRun

/-! # The places of the files in the output

The mapping and the output file have room for the stub and the rounded files behind it. The loop
puts the files behind the rounded end of the stub's last section instead, wherever that is, and
their headers behind the section table, whatever is there. A run is looked at turn by turn: what the
memory is after a turn is what it was before, with the file, its header and the totals written.
-/

namespace ZLoader

/-- The data of a section in the file. -/
def PeSectionHeader.rawRange (sec : PeSectionHeader) : Window :=
  ⟨sec.pointerToRawData.toNat, sec.sizeOfRawData.toNat⟩

/-! ## The places that the loop goes through -/

/-- The files with the sizes that are counted for them. -/
def countedSizes (pe : ℕ) (fileAlignment : UInt32) (turns : List (SectionVma × BuildState)) :
    List (SectionVma × ℕ) :=
  turns.map fun turn => (turn.1, (recountedSize pe fileAlignment turn.1 turn.2).toNat)

/-- The files with their rounded sizes. -/
def roundedSizes (fileAlignment : UInt32) (vmas : List SectionVma) : List (SectionVma × ℕ) :=
  vmas.map fun vma => (vma, (alignValue32 vma.rawSize fileAlignment).toNat)

/-- Files one behind the other, each with the offset where it starts. -/
def placesFrom : ℕ → List (SectionVma × ℕ) → List (SectionVma × ℕ)
  | _, [] => []
  | place, (vma, size) :: rest => (vma, place) :: placesFrom (place + size) rest

section Turns

variable {pe : ℕ} {fileAlignment sectionAlignment : UInt32} {vmas : List SectionVma}
  {st : BuildState}

/-- The headers fill the room behind the section table without gaps. -/
theorem buildTurns_headerWindows :
    (buildTurns pe fileAlignment sectionAlignment vmas st).map (fun turn => headerWindow turn.2) =
      stack 1 st.sectionOffset (List.replicate vmas.length sizeofPeSectionHeader) := by
  induction vmas generalizing st with
  | nil => rfl
  | cons vma rest ih =>
    have offset : (st.after pe fileAlignment sectionAlignment vma).sectionOffset =
      st.sectionOffset + sizeofPeSectionHeader := rfl
    rw [buildTurns, List.map_cons, ih, offset, List.length_cons, List.replicate_succ, stack_one_cons]
    rfl

theorem after_rawAddress_toNat {vma : SectionVma} (behind : pe + 24 ≤ st.sectionOffset)
    (room : st.largest.rawAddress.toNat + 2 ^ 32 ≤ 2 ^ 64) :
    (st.after pe fileAlignment sectionAlignment vma).largest.rawAddress.toNat =
      st.largest.rawAddress.toNat + (recountedSize pe fileAlignment vma st).toNat := by
  have word := (recountedSize pe fileAlignment vma st).toNat_lt
  rw [after_rawAddress behind, UInt64.toNat_add, UInt32.toNat_toUInt64, Nat.mod_eq_of_lt (by omega)]

/-- The place of a file is the sum of the sizes that were counted before it. -/
theorem buildTurns_places (behind : pe + 24 ≤ st.sectionOffset)
    (room : st.largest.rawAddress.toNat + vmas.length * 2 ^ 32 ≤ 2 ^ 64) :
    (buildTurns pe fileAlignment sectionAlignment vmas st).map
        (fun turn => (turn.1, turn.2.largest.rawAddress.toNat)) =
      placesFrom st.largest.rawAddress.toNat
        (countedSizes pe fileAlignment (buildTurns pe fileAlignment sectionAlignment vmas st)) := by
  induction vmas generalizing st with
  | nil => rfl
  | cons vma rest ih =>
    rw [List.length_cons] at room
    have word := (recountedSize pe fileAlignment vma st).toNat_lt
    have place := @after_rawAddress_toNat pe fileAlignment sectionAlignment st vma behind (by omega)
    have offset := @after_sectionOffset pe fileAlignment sectionAlignment vma st
    rw [buildTurns, List.map_cons, ih (by omega) (by omega), place]
    rfl

/-- So is the size of the file behind the stub. -/
theorem lastState_filesize (behind : pe + 24 ≤ st.sectionOffset)
    (room : st.filesize.toNat + vmas.length * 2 ^ 32 ≤ 2 ^ 64) :
    (lastState pe fileAlignment sectionAlignment vmas st).filesize.toNat = st.filesize.toNat +
      ((countedSizes pe fileAlignment
        (buildTurns pe fileAlignment sectionAlignment vmas st)).map Prod.snd).sum := by
  induction vmas generalizing st with
  | nil => rfl
  | cons vma rest ih =>
    rw [List.length_cons] at room
    have word := (recountedSize pe fileAlignment vma st).toNat_lt
    have size := @after_filesize_toNat pe fileAlignment sectionAlignment st vma behind (by omega)
    have offset := @after_sectionOffset pe fileAlignment sectionAlignment vma st
    have later := @ih (st.after pe fileAlignment sectionAlignment vma) (by omega) (by omega)
    rw [lastState, List.foldl_cons, ← lastState, later, size, Nat.add_assoc]
    rfl

/-- With the new headers apart from the totals the loop goes by the headers as they were written. -/
theorem buildTurns_eq_plan (table : ∀ total ∈ totalWindows pe,
    total.Disjoint ⟨st.sectionOffset, sizeofPeSectionHeader * vmas.length⟩) :
    (buildTurns pe fileAlignment sectionAlignment vmas st).map
        (fun turn => (turn.1, turn.2.largest)) =
      planSections fileAlignment sectionAlignment vmas st.largest := by
  induction vmas generalizing st with
  | nil => rfl
  | cons vma rest ih =>
    have size : sizeofPeSectionHeader = 40 := rfl
    rw [List.length_cons, size] at table
    have offset := @after_sectionOffset pe fileAlignment sectionAlignment vma st
    have next : (st.after pe fileAlignment sectionAlignment vma).largest =
        st.largest.next fileAlignment sectionAlignment vma := by
      rw [BuildState.after]
      dsimp only
      rw [vma.read_store fileAlignment fun total member at_ inside header =>
        table total member at_ inside (Window.contains_mk.mpr (by
          obtain ⟨lower, upper⟩ := header
          dsimp only [headerWindow, sizeofPeSectionHeader] at lower upper
          omega))]
      rfl
    have later := @ih (st.after pe fileAlignment sectionAlignment vma)
      fun total member at_ inside headers => table total member at_ inside (by
        rw [Window.contains_mk, offset, size] at headers
        rw [Window.contains_mk]
        omega)
    rw [buildTurns, List.map_cons, later, next, planSections]

variable (totals : pe + 84 ≤ st.sectionOffset)

include totals

/-- Behind the totals the sizes that are counted are the rounded ones. -/
theorem countedSizes_eq :
    countedSizes pe fileAlignment (buildTurns pe fileAlignment sectionAlignment vmas st) =
      roundedSizes fileAlignment vmas := by
  have same : ∀ turn ∈ buildTurns pe fileAlignment sectionAlignment vmas st,
      (turn.1, (recountedSize pe fileAlignment turn.1 turn.2).toNat) =
        (turn.1, (alignValue32 turn.1.rawSize fileAlignment).toNat) := by
    intro turn member
    have later := sectionOffset_le_of_mem member
    rw [recountedSize_of_not_over]
    rintro ⟨-, upper⟩
    omega
  have files := @buildTurns_map_fst pe fileAlignment sectionAlignment vmas st
  rw [countedSizes, List.map_congr_left same]
  conv_rhs => rw [roundedSizes, ← files, List.map_map]
  rfl

end Turns

namespace BuildInput

variable (input : BuildInput)

/-- The sections that the builder finds in the stub. -/
def foundSections : List PeSectionHeader :=
  sectionHeaders input.fixedUp
    (input.mappedPe + sizeofPeCoffHeader
      + (PeImageHeaders.sizeOfOptionalHeader input.fixedUp input.mappedPe).toNat)
    (PeImageHeaders.numberOfSections input.fixedUp input.mappedPe).toNat

/-- The sections that it adds. -/
def writtenSections : List PeSectionHeader :=
  input.turns.map fun turn => turn.1.header input.fileAlignment turn.2.largest

/-- The files with the sizes that are counted for them: the rounded sizes, except where a header
lies over `size_of_image`. -/
def counted : List (SectionVma × ℕ) :=
  countedSizes input.mappedPe input.fileAlignment input.turns

/-- The files with their places, from the rounded end of the stub's last section on. -/
def filePlaces : List (SectionVma × ℕ) :=
  placesFrom input.start.largest.rawAddress.toNat input.counted

/-- The size of the output file. -/
def finalSize : ℕ := input.stub.size.toNat + (input.counted.map Prod.snd).sum

/-- The room of the new headers. -/
def newHeaders : Window :=
  ⟨input.start.sectionOffset, sizeofPeSectionHeader * input.vmas.length⟩

end BuildInput

/-- The memory after a turn. -/
def BuildInput.stored (input : BuildInput) (turn : SectionVma × BuildState) : ByteStore :=
  turn.1.store input.mappedPe input.fileAlignment turn.2

/-- Each turn finds the memory that the turn before it has left, the first the stub with its header
fields set, and writes the bytes of its file and of its header to their windows; the output file is
what the last turn has left. -/
structure TurnsWritten (input : BuildInput) (out : InputFile) : Prop where
  first : ∀ turn rest, input.turns = turn :: rest → turn.2.memory = input.fixedUp
  next : ∀ before turn later rest, input.turns = before ++ turn :: later :: rest →
    later.2.memory = input.stored turn
  writes : ∀ turn ∈ input.turns,
    WritesSection input.mappedPe input.fileAlignment turn.1 turn.2 (input.stored turn)
  last : ∀ before turn, input.turns = before ++ [turn] →
    ByteStore.Keeps (fun offset => offset < out.size.toNat ∧ offset < input.mappedSize.toNat)
      (input.stored turn) out.bytes

/-- The payloads and the new headers that the turns write lie in the mapping, apart from each
other's and the stub's section data, and the data of every section lies in the output file. -/
structure WellPlaced (input : BuildInput) (out : InputFile) : Prop extends TurnsWritten input out where
  payloadsInside : ∀ turn ∈ input.turns,
    (payloadWindow turn.1 turn.2).Within input.mappedSize.toNat
  headersInside : ∀ turn ∈ input.turns, (headerWindow turn.2).Within input.mappedSize.toNat
  payloadsClear : ∀ turn ∈ input.turns, ∀ sec ∈ input.foundSections,
    (payloadWindow turn.1 turn.2).Disjoint sec.rawRange
  payloadsApart : input.turns.Pairwise fun first second =>
    (payloadWindow first.1 first.2).Disjoint (payloadWindow second.1 second.2)
  headersClear : ∀ turn ∈ input.turns, ∀ sec ∈ input.foundSections ++ input.writtenSections,
    (headerWindow turn.2).Disjoint sec.rawRange
  rangesInside : ∀ sec ∈ input.foundSections ++ input.writtenSections,
    sec.rawRange.Within out.size.toNat

/-! ## The condition -/

/-- The bytes of a file that is put at a place. -/
def payloadRange (file : SectionVma × ℕ) : Window := ⟨file.2, file.1.rawSize.toNat⟩

/-- The range that the header of a file at a place names; its pointer has 32 bits. -/
def writtenRange (fileAlignment : UInt32) (file : SectionVma × ℕ) : Window :=
  ⟨file.2 % 2 ^ 32, (alignValue32 file.1.rawSize fileAlignment).toNat⟩

/-- The new headers and the files fit where they are put. -/
structure BuildInput.PlacesFit (input : BuildInput) : Prop where
  headers : input.newHeaders.Within input.mappedSize.toNat
  found : ∀ sec ∈ input.foundSections,
    sec.rawRange.Within input.finalSize ∧ input.newHeaders.Disjoint sec.rawRange
  written : ∀ file ∈ input.filePlaces,
    (writtenRange input.fileAlignment file).Within input.finalSize ∧
      input.newHeaders.Disjoint (writtenRange input.fileAlignment file)
  payloads : ∀ file ∈ input.filePlaces, (payloadRange file).Within input.mappedSize.toNat ∧
    ∀ sec ∈ input.foundSections, (payloadRange file).Disjoint sec.rawRange
  apart : input.filePlaces.Pairwise fun first second =>
    (payloadRange first).Disjoint (payloadRange second)

instance (input : BuildInput) : Decidable input.PlacesFit :=
  decidable_of_iff (_ ∧ _ ∧ _ ∧ _ ∧ _)
    ⟨fun ⟨headers, found, written, payloads, apart⟩ => ⟨headers, found, written, payloads, apart⟩,
      fun fit => ⟨fit.headers, fit.found, fit.written, fit.payloads, fit.apart⟩⟩

namespace BuildInput

variable {input : BuildInput}

/-- The loop goes through the places. -/
theorem turns_places :
    input.turns.map (fun turn => (turn.1, turn.2.largest.rawAddress.toNat)) = input.filePlaces := by
  have few := input.vmas_length
  have raw : input.start.largest.rawAddress.toNat < 2 ^ 32 := (largestEnds_lt ..).1
  apply buildTurns_places start_behind
  omega

theorem forall_written_iff {p : Window → Prop} :
    (∀ sec ∈ input.writtenSections, p sec.rawRange) ↔
      ∀ file ∈ input.filePlaces, p (writtenRange input.fileAlignment file) := by
  rw [writtenSections, List.forall_mem_map, ← turns_places, List.forall_mem_map]
  have range (turn : SectionVma × BuildState) :
      (turn.1.header input.fileAlignment turn.2.largest).rawRange =
        writtenRange input.fileAlignment (turn.1, turn.2.largest.rawAddress.toNat) := by
    simp only [SectionVma.header, PeSectionHeader.rawRange, UInt64.toNat_toUInt32, writtenRange]
  simp only [range]

/-- The new headers are one window. -/
theorem turns_headerWindows :
    input.turns.map (fun turn => headerWindow turn.2) =
      stack 1 input.start.sectionOffset
        (List.replicate input.vmas.length sizeofPeSectionHeader) := buildTurns_headerWindows

theorem newHeaders_eq : input.newHeaders = ⟨input.start.sectionOffset,
    (List.replicate input.vmas.length sizeofPeSectionHeader).sum⟩ := by
  rw [newHeaders, List.sum_replicate_nat, Nat.mul_comm]

theorem headers_within_iff {limit : ℕ} :
    (∀ turn ∈ input.turns, (headerWindow turn.2).Within limit) ↔
      input.newHeaders.Within limit := by
  rw [newHeaders_eq, ← forall_stack_one_within_iff, ← turns_headerWindows, List.forall_mem_map]

theorem headers_disjoint_iff {other : Window} :
    (∀ turn ∈ input.turns, (headerWindow turn.2).Disjoint other) ↔
      input.newHeaders.Disjoint other := by
  rw [newHeaders_eq, ← forall_stack_one_disjoint_iff, ← turns_headerWindows, List.forall_mem_map]

end BuildInput

/-- The output file is cut to the size that has been counted. -/
theorem Completes.finalSize {input : BuildInput} {out : InputFile} {last : BuildState}
    (run : Completes input out last) : out.size.toNat = input.finalSize := by
  have few := input.vmas_length
  have transferred := run.transferred
  have limit : maxTransfer = 0x7ffff000 := rfl
  have filesize : input.start.filesize = input.stub.size := rfl
  rw [run.result, truncate, (appendSections_eq_ok_iff.mp run.appended).2,
    lastState_filesize BuildInput.start_behind (by rw [filesize]; omega)]
  rfl

section Written

variable {pe : ℕ} {fileAlignment sectionAlignment : UInt32} {vmas : List SectionVma}
  {st : BuildState}

/-- The turns start in the state that they are given. -/
theorem buildTurns_first {turn : SectionVma × BuildState} {rest : List (SectionVma × BuildState)}
    (split : buildTurns pe fileAlignment sectionAlignment vmas st = turn :: rest) : turn.2 = st := by
  cases vmas with
  | nil => cases split
  | cons vma vmas => exact congrArg Prod.snd (List.cons.inj split).1.symm

/-- A turn goes on from the state behind the one before it. -/
theorem buildTurns_next {before rest : List (SectionVma × BuildState)}
    {turn later : SectionVma × BuildState}
    (split : buildTurns pe fileAlignment sectionAlignment vmas st =
      before ++ turn :: later :: rest) :
    later.2 = turn.2.after pe fileAlignment sectionAlignment turn.1 := by
  induction vmas generalizing before st with
  | nil => simp [buildTurns] at split
  | cons vma vmas ih =>
    rw [buildTurns] at split
    cases before with
    | nil =>
      obtain ⟨rfl, behind⟩ := List.cons.inj split
      exact buildTurns_first behind
    | cons _ before => exact ih (List.cons.inj split).2

/-- And the last one leaves the state behind all of them. -/
theorem buildTurns_last {before : List (SectionVma × BuildState)} {turn : SectionVma × BuildState}
    (split : buildTurns pe fileAlignment sectionAlignment vmas st = before ++ [turn]) :
    lastState pe fileAlignment sectionAlignment vmas st =
      turn.2.after pe fileAlignment sectionAlignment turn.1 := by
  induction vmas generalizing before st with
  | nil => simp [buildTurns] at split
  | cons vma vmas ih =>
    rw [buildTurns] at split
    rw [lastState, List.foldl_cons, ← lastState]
    cases before with
    | nil =>
      obtain ⟨rfl, behind⟩ := List.cons.inj split
      cases vmas with
      | nil => rfl
      | cons _ _ => cases behind
    | cons _ before => exact ih (List.cons.inj split).2

end Written

/-- A run that completes has written what its turns say. -/
theorem Completes.turnsWritten {input : BuildInput} {out : InputFile} {last : BuildState}
    (run : Completes input out last) : TurnsWritten input out := by
  refine ⟨fun turn rest split => ?_, fun before turn later rest split => ?_, fun turn _ => ?_,
    fun before turn split => ?_⟩
  · rw [buildTurns_first split]
    rfl
  · rw [buildTurns_next split]
    rfl
  · exact turn.1.store_writes input.fileAlignment
  · have final := buildTurns_last split
    rw [← (appendSections_eq_ok_iff.mp run.appended).2] at final
    have memory : last.memory = input.stored turn := by
      rw [final]
      rfl
    rw [← memory]
    exact run.written

/-- A run that completes has put everything where it belongs exactly when the places fit. -/
theorem wellPlaced_iff {input : BuildInput} {out : InputFile}
    (built : buildImage input = .ok out) : WellPlaced input out ↔ input.PlacesFit := by
  obtain ⟨last, run⟩ := buildImage_ok built
  have size := run.finalSize
  constructor
  · intro placed
    have clear : ∀ sec ∈ input.foundSections ++ input.writtenSections,
        input.newHeaders.Disjoint sec.rawRange := by
      intro sec member
      apply BuildInput.headers_disjoint_iff.mp
      intro turn listed
      exact placed.headersClear turn listed sec member
    have inside := placed.rangesInside
    rw [size] at inside
    rw [List.forall_mem_append] at clear inside
    refine ⟨BuildInput.headers_within_iff.mp placed.headersInside, ?_, ?_, ?_, ?_⟩
    · intro sec member
      exact ⟨inside.1 sec member, clear.1 sec member⟩
    · intro file member
      have ranges := BuildInput.forall_written_iff (p := (·.Within input.finalSize)).mp inside.2
      have headers := BuildInput.forall_written_iff (p := input.newHeaders.Disjoint).mp clear.2
      exact ⟨ranges file member, headers file member⟩
    · rw [← BuildInput.turns_places, List.forall_mem_map]
      intro turn member
      exact ⟨placed.payloadsInside turn member, placed.payloadsClear turn member⟩
    · rw [← BuildInput.turns_places, List.pairwise_map]
      exact placed.payloadsApart
  · intro fit
    have payloads := fit.payloads
    have apart := fit.apart
    rw [← BuildInput.turns_places] at payloads apart
    rw [List.forall_mem_map] at payloads
    rw [List.pairwise_map] at apart
    have clear : ∀ sec ∈ input.foundSections ++ input.writtenSections,
        input.newHeaders.Disjoint sec.rawRange := by
      rw [List.forall_mem_append, BuildInput.forall_written_iff (p := input.newHeaders.Disjoint)]
      exact ⟨fun sec member => (fit.found sec member).2,
        fun file member => (fit.written file member).2⟩
    refine ⟨run.turnsWritten, ?_, BuildInput.headers_within_iff.mpr fit.headers, ?_, apart, ?_, ?_⟩
    · intro turn member
      exact (payloads turn member).1
    · intro turn member
      exact (payloads turn member).2
    · intro turn member sec listed
      exact BuildInput.headers_disjoint_iff.mpr (clear sec listed) turn member
    · rw [size, List.forall_mem_append,
        BuildInput.forall_written_iff (p := (·.Within input.finalSize))]
      exact ⟨fun sec member => (fit.found sec member).1,
        fun file member => (fit.written file member).1⟩

/-- The stub of one page with its headers further down, so that the room in front of its section is
enough for one more header. -/
def fullHeaderInput : BuildInput where
  stub :=
    { size := 0x1400
      bytes := .ofFields
        [(0, 2, 0x5a4d), (0x3c, 4, 0x290), (0x290, 4, 0x4550), (0x294, 2, 0x8664), (0x296, 2, 1),
          (0x2a4, 2, 0xf0), (0x2a6, 2, 2), (0x2a8, 2, 0x20b), (0x2c8, 4, 0x1000),
          (0x2cc, 4, 0x200), (0x2e0, 4, 0x2000), (0x2e4, 4, 0x400), (0x2ec, 2, 10),
          (0x398, 4, 0x7865742e), (0x3a0, 4, 0x1000), (0x3a4, 4, 0x1000), (0x3a8, 4, 0x1000),
          (0x3ac, 4, 0x400)] }
  osrel := ⟨10, fun _ => 0x20⟩
  cmdline := none
  dtb := none
  linux := ⟨20, fun _ => 0x20⟩
  initrd := none
  outfile := ⟨0, fun _ => 0⟩
  efiVersion := none

/-- The header of the kernel is put over the first bytes of the stub's code. -/
theorem not_wellPlaced_fullHeader :
    ¬ ∀ (input : BuildInput) (out : InputFile), buildImage input = .ok out →
      WellPlaced input out := by
  intro claim
  obtain ⟨out, built, -⟩ := exists_of_check (buildImage fullHeaderInput) (fun _ => true)
    (by decide +kernel)
  have clear : ∀ sec ∈ fullHeaderInput.foundSections,
      fullHeaderInput.newHeaders.Disjoint sec.rawRange := by
    intro sec member
    apply BuildInput.headers_disjoint_iff.mp
    intro turn listed
    exact (claim _ out built).headersClear turn listed sec (List.mem_append_left _ member)
  revert clear
  decide +kernel

/-- With the headers at the start there is room for both. -/
theorem wellPlaced_onePage :
    ∃ out, buildImage (blankInput 0x1000 0x2000) = .ok out ∧
      WellPlaced (blankInput 0x1000 0x2000) out := by
  obtain ⟨out, built, -⟩ := exists_of_check (buildImage (blankInput 0x1000 0x2000))
    (fun _ => true) (by decide +kernel)
  have fit : (blankInput 0x1000 0x2000).PlacesFit := by decide +kernel
  exact ⟨out, built, (wellPlaced_iff built).mpr fit⟩

/-! ## Headers behind the totals -/

section Rounded

variable {fileAlignment : UInt32} {vmas : List SectionVma} {place : ℕ}

theorem writtenRange_of_lt {vma : SectionVma} (small : place < 2 ^ 32) :
    writtenRange fileAlignment (vma, place) =
      ⟨place, (alignValue32 vma.rawSize fileAlignment).toNat⟩ := by
  rw [writtenRange, Nat.mod_eq_of_lt small]

/-- Where the pointers do not wrap the new sections fill the room behind the stub's without gaps. -/
theorem placesFrom_writtenRanges (bounded : place + rawTotal fileAlignment vmas < 2 ^ 32) :
    (placesFrom place (roundedSizes fileAlignment vmas)).map (writtenRange fileAlignment) =
      stack 1 place (vmas.map fun vma => (alignValue32 vma.rawSize fileAlignment).toNat) := by
  induction vmas generalizing place with
  | nil => rfl
  | cons vma rest ih =>
    rw [rawTotal_cons] at bounded
    have later := @ih (place + (alignValue32 vma.rawSize fileAlignment).toNat) (by omega)
    rw [List.map_cons, stack_one_cons, ← later, ← writtenRange_of_lt (by omega)]
    rfl

theorem forall_writtenRange_iff (bounded : place + rawTotal fileAlignment vmas < 2 ^ 32)
    {p : ℕ → Prop} :
    (∀ file ∈ placesFrom place (roundedSizes fileAlignment vmas),
        ∀ offset, (writtenRange fileAlignment file).Contains offset → p offset) ↔
      ∀ offset, (Window.mk place (rawTotal fileAlignment vmas)).Contains offset → p offset := by
  have each := @forall_stack_one_iff place
    (vmas.map fun vma => (alignValue32 vma.rawSize fileAlignment).toNat) p
  rwa [← placesFrom_writtenRanges bounded, List.forall_mem_map] at each

theorem writtenRanges_pairwise (bounded : place + rawTotal fileAlignment vmas < 2 ^ 32) :
    (placesFrom place (roundedSizes fileAlignment vmas)).Pairwise fun first second =>
      (writtenRange fileAlignment first).Disjoint (writtenRange fileAlignment second) := by
  have apart := stack_pairwise Nat.one_pos place
    (vmas.map fun vma => (alignValue32 vma.rawSize fileAlignment).toNat)
  rwa [← placesFrom_writtenRanges bounded, List.pairwise_map] at apart

/-- There every file lies in the range of its section. -/
theorem payload_contains (positive : 0 < fileAlignment.toNat)
    (transfer : ∀ vma ∈ vmas, vma.rawSize.toNat ≤ maxTransfer)
    (bounded : place + rawTotal fileAlignment vmas < 2 ^ 32) {file : SectionVma × ℕ}
    (member : file ∈ placesFrom place (roundedSizes fileAlignment vmas)) :
    place ≤ file.2 ∧ ∀ offset, (payloadRange file).Contains offset →
      (writtenRange fileAlignment file).Contains offset := by
  induction vmas generalizing place with
  | nil => cases member
  | cons vma rest ih =>
    rw [rawTotal_cons] at bounded
    rw [List.forall_mem_cons] at transfer
    rcases List.mem_cons.mp member with rfl | later
    · refine ⟨Nat.le_refl _, ?_⟩
      rintro offset ⟨lower, upper⟩
      have rounded := le_alignValue32 positive transfer.1
      dsimp only [payloadRange] at lower upper
      rw [writtenRange_of_lt (by omega), Window.contains_mk]
      omega
    · obtain ⟨behind, covered⟩ := ih transfer.2 (by omega) later
      exact ⟨by omega, covered⟩

end Rounded

/-- The room of the rounded files. -/
def BuildInput.newData (input : BuildInput) : Window :=
  ⟨input.start.largest.rawAddress.toNat, rawTotal input.fileAlignment input.vmas⟩

/-- Where the headers lie behind the totals and no address wraps, everything fits exactly when
the mapping has room for the new headers, the stub's sections end in the stub, with their last end
rounded up if there is data to add, and the new headers are apart from the old and the new data. -/
theorem placesFit_iff {input : BuildInput} {out : InputFile} (built : buildImage input = .ok out)
    (small : ∀ vma ∈ input.vmas, vma.file.size.toNat ≤ maxTransfer)
    (totals : input.mappedPe + 84 ≤ input.start.sectionOffset)
    (ends : ∀ sec ∈ input.foundSections,
      sec.rawRange.start + sec.rawRange.length ≤ input.newData.start)
    (bounded : input.newData.start + input.newData.length < 2 ^ 32) :
    input.PlacesFit ↔ input.newHeaders.Within input.mappedSize.toNat ∧
      (∀ sec ∈ input.foundSections,
        sec.rawRange.Within input.mappedSize.toNat ∧ input.newHeaders.Disjoint sec.rawRange) ∧
      (input.newData.length = 0 ∨ input.newData.start ≤ input.stub.size.toNat) ∧
        input.newData.Disjoint input.newHeaders := by
  obtain ⟨last, run⟩ := buildImage_ok built
  have positive : 0 < input.fileAlignment.toNat := defaultAlignment_pos (by decide)
  have counted : input.counted = roundedSizes input.fileAlignment input.vmas :=
    countedSizes_eq totals
  have mapped := BuildInput.mappedSize_toNat small run.transferred
  have size : input.finalSize = input.mappedSize.toNat := by
    rw [BuildInput.finalSize, counted, mapped, rawTotal, roundedSizes, List.map_map]
    rfl
  rw [BuildInput.newData] at ends bounded ⊢
  dsimp only at ends bounded ⊢
  have places : input.filePlaces = placesFrom input.start.largest.rawAddress.toNat
      (roundedSizes input.fileAlignment input.vmas) := by
    rw [BuildInput.filePlaces, counted]
  have covers : ∀ file ∈ input.filePlaces, input.start.largest.rawAddress.toNat ≤ file.2 ∧
      ∀ offset, (payloadRange file).Contains offset →
        (writtenRange input.fileAlignment file).Contains offset := by
    intro file member
    rw [places] at member
    refine payload_contains positive ?_ bounded member
    intro vma listed
    exact BuildInput.rawSize_le_of_completes run listed
  have inMapping := forall_writtenRange_iff bounded (p := fun offset =>
    offset < input.mappedSize.toNat)
  have besideHeaders := forall_writtenRange_iff bounded (p := fun offset =>
    ¬ input.newHeaders.Contains offset)
  rw [← places] at inMapping besideHeaders
  have inStub : (Window.mk input.start.largest.rawAddress.toNat
      (rawTotal input.fileAlignment input.vmas)).Within input.mappedSize.toNat ↔
        rawTotal input.fileAlignment input.vmas = 0 ∨
          input.start.largest.rawAddress.toNat ≤ input.stub.size.toNat := by
    rw [Window.within_iff, mapped]
    dsimp only
    rw [Nat.add_le_add_iff_right]
  rw [← inStub]
  constructor
  · intro fit
    have found := fit.found
    have ranges := fit.written
    rw [size] at found ranges
    refine ⟨fit.headers, found, ?_, ?_⟩
    · apply inMapping.mp
      intro file member
      exact (ranges file member).1
    · apply besideHeaders.mp
      intro file member
      exact (ranges file member).2.symm
  · rintro ⟨headers, found, inside, apart⟩
    have ranges := inMapping.mpr inside
    refine ⟨headers, ?_, ?_, ?_, ?_⟩
    · rw [size]
      exact found
    · rw [size]
      intro file member
      exact ⟨ranges file member, Window.Disjoint.symm (besideHeaders.mpr apart file member)⟩
    · intro file member
      obtain ⟨behind, covered⟩ := covers file member
      constructor
      · intro offset payload
        exact ranges file member offset (covered offset payload)
      · intro sec listed
        apply (Window.disjoint_iff _ _).mpr
        exact .inr (.inr (.inr ((ends sec listed).trans behind)))
    · have pairwise := writtenRanges_pairwise bounded
      rw [← places] at pairwise
      apply pairwise.imp_of_mem
      intro first second one other separate offset own payload
      apply separate offset
      · exact (covers first one).2 offset own
      · exact (covers second other).2 offset payload

section Output

variable {input : BuildInput} {out : InputFile} (kept : input.HeadersKept)

include kept

theorem BuildInput.foundSections_eq : input.foundSections = input.stubSections := by
  rw [foundSections, mappedPe_eq kept, fixedUp_sizeOfOptionalHeader kept,
    fixedUp_numberOfSections kept, ← fixedUp_sections kept]
  rfl

theorem BuildInput.writtenSections_eq :
    input.writtenSections = input.plan.map (plannedHeader input.fileAlignment) := by
  have state := start_eq kept
  have planned := @buildTurns_eq_plan input.mappedPe input.fileAlignment input.sectionAlignment
    input.vmas input.start (by rw [mappedPe_eq kept, state]; exact kept.totals)
  have largest : input.start.largest = input.stubEnds := by rw [state]
  rw [largest] at planned
  rw [plan, ← planned, List.map_map]
  rfl

/-- With the headers kept these are the sections that the output file has. -/
theorem outputSections_eq (built : buildImage input = .ok out) :
    (PeLayout.read out.bytes).sections = input.foundSections ++ input.writtenSections := by
  rw [(buildImage_builds kept built).layout, BuildInput.foundSections_eq kept,
    BuildInput.writtenSections_eq kept]

end Output

end ZLoader
