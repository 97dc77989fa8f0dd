import ZLoader.Soundness.BufferReads
import ZLoader.Soundness.HeaderBounds
import ZLoader.Soundness.SectionReader

/-! # The search for the wanted sections

`PE_locate_sections` either returns before it writes anything or goes through the whole table, and
then every wanted entry holds what the last header of its name says. Names are compared up to their
terminator and over at most eight characters.
-/

namespace ZLoader

/-! ## Names -/

/-- The characters of a string in front of its terminator, at most so many. -/
def boundedText (s : ℕ → UInt8) (length : ℕ) : List UInt8 :=
  ((List.range length).map s).takeWhile (· != 0)

theorem boundedText_succ (s : ℕ → UInt8) (length : ℕ) :
    boundedText s (length + 1) =
      if s 0 = 0 then [] else s 0 :: boundedText (fun index => s (index + 1)) length := by
  rw [boundedText, List.range_succ_eq_map, List.map_cons, List.map_map, List.takeWhile_cons]
  by_cases ended : s 0 = 0
  · simp [ended]
  · simp [ended, boundedText, Function.comp_def]

/-- Characters differ by zero exactly when they are the same. -/
theorem char_sub_eq_zero (first second : UInt8) :
    first.toInt8.toInt - second.toInt8.toInt = 0 ↔ first = second := by
  rw [Int.sub_eq_zero, Int8.toInt_inj]
  refine ⟨fun same => ?_, congrArg _⟩
  rw [← first.toUInt8_toInt8, same, UInt8.toUInt8_toInt8]

/-- `strncmp` compares the bounded texts. -/
theorem strncmp_eq_zero_iff (a b : ℕ → UInt8) (length : ℕ) :
    strncmp a b length = 0 ↔ boundedText a length = boundedText b length := by
  induction length generalizing a b with
  | zero => simp [strncmp, boundedText]
  | succ length ih =>
    rw [strncmp, boundedText_succ, boundedText_succ]
    by_cases same : a 0 = b 0
    · by_cases ended : a 0 = 0
      · simp [ended, ← same]
      · simp [ended, ← same, ih]
    · rw [if_neg (by simp [same]), char_sub_eq_zero]
      apply iff_of_false same
      intro texts
      split_ifs at texts with first second
      · exact same (first.trans second.symm)
      · exact same (List.cons.inj texts).1

/-- The text of a name field. -/
def shortText (name : List UInt8) : List UInt8 :=
  boundedText (fun index => name.getD index 0) peSectionSizeOfShortName

theorem named_iff (sec : PeSectionHeader) (name : List UInt8) :
    sec.Named name ↔ shortText sec.name = shortText name := by
  rw [PeSectionHeader.Named, strncmp_eq_zero_iff]
  exact eq_comm

/-! ## Entries -/

/-- The last section header of the name. -/
def lastNamed (sections : List PeSectionHeader) (name : List UInt8) : Option PeSectionHeader :=
  (sections.filter fun sec => shortText sec.name = shortText name).getLast?

/-- An entry with what a section header says. -/
def WantedSection.report (wanted : WantedSection) (sec : PeSectionHeader) : WantedSection :=
  { wanted with
    loadAddress := sec.virtualAddress.toUInt64
    offset := sec.pointerToRawData.toUInt64
    size := sec.virtualSize.toUInt64 }

/-- An entry after a search: the last header of its name, or as it was. -/
def WantedSection.located (wanted : WantedSection) (sections : List PeSectionHeader) :
    WantedSection := ((lastNamed sections wanted.name).map wanted.report).getD wanted

/-- A table with one more header. -/
theorem lastNamed_concat (sections : List PeSectionHeader) (sec : PeSectionHeader)
    (name : List UInt8) :
    lastNamed (sections ++ [sec]) name =
      if shortText sec.name = shortText name then some sec else lastNamed sections name := by
  rw [lastNamed, List.filter_append]
  split_ifs with same
  · simp [same]
  · simp [same, lastNamed]

/-- The headers of a table one after the other leave what the last one of the name says. -/
theorem WantedSection.fillAll_eq_located (wanted : WantedSection)
    (sections : List PeSectionHeader) : wanted.fillAll sections = wanted.located sections := by
  induction sections using List.reverseRecOn with
  | nil => rfl
  | append_singleton sections sec ih =>
    have name := wanted.fillAll_name sections
    have step : wanted.fillAll (sections ++ [sec]) = (wanted.fillAll sections).fill sec := by
      rw [fillAll, List.foldl_append]
      rfl
    rw [step, located, lastNamed_concat]
    split_ifs with same
    · rw [fill_of_named (name ▸ (named_iff sec wanted.name).mpr same), name]
      rfl
    · rw [fill_of_not_named (name ▸ mt (named_iff sec wanted.name).mp same), ih]
      rfl

/-- The array after a search: the entries in front of the nameless one, located, and the rest. -/
def locatedEntries (sections : List PeSectionHeader) (entries : List WantedSection) :
    List WantedSection :=
  (entries.takeWhile (!·.nameless)).map (·.located sections) ++
    entries.dropWhile (!·.nameless)

theorem WantedSection.fill_nameless (wanted : WantedSection) (sec : PeSectionHeader) :
    (wanted.fill sec).nameless = wanted.nameless := by
  rw [nameless, fill_name]
  rfl

/-- The outer loop on the array, as far as the entries go. -/
def fillTable (sections : List PeSectionHeader) (entries : List WantedSection) :
    List WantedSection := sections.foldl (fun entries sec => fillEntries sec entries) entries

theorem fillTable_nil (sections : List PeSectionHeader) : fillTable sections [] = [] := by
  induction sections with
  | nil => rfl
  | cons sec later ih => exact ih

theorem fillTable_nameless (sections : List PeSectionHeader) {ls : WantedSection}
    {rest : List WantedSection} (ended : ls.nameless = true) :
    fillTable sections (ls :: rest) = ls :: rest := by
  induction sections with
  | nil => rfl
  | cons sec later ih =>
    have step : fillTable (sec :: later) (ls :: rest) =
        fillTable later (fillEntries sec (ls :: rest)) := rfl
    rw [step, fillEntries, if_pos ended, ih]

theorem fillTable_named (sections : List PeSectionHeader) {ls : WantedSection}
    {rest : List WantedSection} (named : ls.nameless = false) :
    fillTable sections (ls :: rest) = ls.fillAll sections :: fillTable sections rest := by
  induction sections generalizing ls rest with
  | nil => rfl
  | cons sec later ih =>
    have step : fillTable (sec :: later) (ls :: rest) =
        fillTable later (fillEntries sec (ls :: rest)) := rfl
    rw [step, fillEntries, if_neg (by simp [named]), ih ((ls.fill_nameless sec).trans named)]
    rfl

/-- After the whole table the entries in front of the nameless one are located. -/
theorem fillTable_eq (sections : List PeSectionHeader) (entries : List WantedSection) :
    fillTable sections entries = locatedEntries sections entries := by
  induction entries with
  | nil => exact fillTable_nil sections
  | cons ls rest ih =>
    rw [locatedEntries]
    cases named : ls.nameless with
    | true => simp [fillTable_nameless sections named, named]
    | false => simp [fillTable_named sections named, ih, locatedEntries, ls.fillAll_eq_located, named]

/-! ## The outer loop -/

/-- The headers of a table, as windows of the image. -/
def headerWindows (start count : ℕ) : List Window :=
  (List.range count).map fun index => ⟨start + sizeofPeSectionHeader * index, sizeofPeSectionHeader⟩

theorem headerWindows_succ (start count : ℕ) :
    headerWindows start (count + 1) =
      ⟨start, sizeofPeSectionHeader⟩ :: headerWindows (start + sizeofPeSectionHeader) count :=
  map_range_stride (fun position => (⟨position, sizeofPeSectionHeader⟩ : Window)) _ _ _

/-- The next header of the table, as long as the sum does not wrap. -/
theorem nextHeader_toNat {pos : UInt64} {count : ℕ}
    (bounded : pos.toNat + sizeofPeSectionHeader * (count + 1) < 2 ^ 64) :
    (pos + UInt64.ofNat sizeofPeSectionHeader).toNat = pos.toNat + sizeofPeSectionHeader := by
  have size : sizeofPeSectionHeader = 40 := rfl
  rw [UInt64.toNat_add, UInt64.toNat_ofNat', size]
  rw [size] at bounded
  omega

section Loop

variable {build : Build} {memory : ByteStore}

/-- The cursor inside of a buffer can be looked at, and any cursor without assertions. -/
theorem bufferPos_of_inside {image : SimpleBuffer}
    (based : build.ndebug = true ∨ image.buffer ≠ 0)
    (inside : build.ndebug = true ∨ image.pos.toNat < image.allocated.toNat) :
    bufferPos build image = .ok (image.buffer + image.pos) := by
  rcases inside with quiet | room
  · exact bufferPos_of_ndebug quiet image
  · rcases based with quiet | nonnull
    · exact bufferPos_of_ndebug quiet image
    · exact bufferPos_of_lt build nonnull (UInt64.lt_iff_toNat_lt.mpr room)

/-- A loop that comes to its end has gone through the whole table. -/
theorem fillLoop_entries {count : ℕ} {image : SimpleBuffer} {entries : List WantedSection}
    {headers : List Window}
    (bounded : image.pos.toNat + sizeofPeSectionHeader * count < 2 ^ 64)
    (finished : (fillLoop build memory count image entries headers).outcome = .ok true) :
    (fillLoop build memory count image entries headers).entries =
      fillTable (sectionHeaders memory image.pos.toNat count) entries := by
  induction count generalizing image entries headers with
  | zero => rfl
  | succ count ih =>
    have next := nextHeader_toNat bounded
    rw [Nat.mul_succ] at bounded
    rw [fillLoop] at finished ⊢
    split at finished
    · rw [ih (by dsimp only; rw [next]; omega) finished, sectionHeaders_succ]
      dsimp only
      rw [next]
      rfl
    · cases finished
    · cases finished

theorem fillLoop_ne_refused {count : ℕ} {image : SimpleBuffer} {entries : List WantedSection}
    {headers : List Window} :
    (fillLoop build memory count image entries headers).outcome ≠ .ok false := by
  induction count generalizing image entries headers with
  | zero => simp [fillLoop]
  | succ count ih =>
    rw [fillLoop]
    split
    · exact ih
    · simp
    · simp

/-- The loop has been to the headers up to the first one behind the image, or to all of them if
assertions are compiled out. -/
theorem fillLoop_headers {count : ℕ} {image : SimpleBuffer} {entries : List WantedSection}
    {headers : List Window} (based : build.ndebug = true ∨ image.buffer ≠ 0)
    (bounded : image.pos.toNat + sizeofPeSectionHeader * count < 2 ^ 64) :
    (fillLoop build memory count image entries headers).headers =
      headers ++ (headerWindows image.pos.toNat count).takeWhile
        fun window => build.ndebug || window.start < image.allocated.toNat := by
  induction count generalizing image entries headers with
  | zero => exact (List.append_nil headers).symm
  | succ count ih =>
    have next := nextHeader_toNat bounded
    rw [Nat.mul_succ] at bounded
    rw [fillLoop, headerWindows_succ, List.takeWhile_cons]
    by_cases inside : build.ndebug = true ∨ image.pos.toNat < image.allocated.toNat
    · rw [bufferPos_of_inside based inside, if_pos (by simpa using inside)]
      dsimp only
      rw [ih (by exact based) (by dsimp only; rw [next]; omega), List.append_assoc]
      dsimp only
      rw [next]
      rfl
    · obtain ⟨asserts, full⟩ := not_or.mp inside
      rw [bufferPos_of_not_lt (Bool.not_eq_true _ ▸ asserts) (by rwa [UInt64.lt_iff_toNat_lt]),
        if_neg (by simpa using inside), List.append_nil]

/-- The loop comes to its end exactly when it has been to all headers. -/
theorem fillLoop_finished_iff {count : ℕ} {image : SimpleBuffer} {entries : List WantedSection}
    {headers : List Window} (based : build.ndebug = true ∨ image.buffer ≠ 0)
    (bounded : image.pos.toNat + sizeofPeSectionHeader * count < 2 ^ 64) :
    (fillLoop build memory count image entries headers).outcome = .ok true ↔
      ∀ window ∈ headerWindows image.pos.toNat count,
        build.ndebug = true ∨ window.start < image.allocated.toNat := by
  induction count generalizing image entries headers with
  | zero => simp [fillLoop, headerWindows]
  | succ count ih =>
    have next := nextHeader_toNat bounded
    rw [Nat.mul_succ] at bounded
    rw [fillLoop, headerWindows_succ, List.forall_mem_cons]
    by_cases inside : build.ndebug = true ∨ image.pos.toNat < image.allocated.toNat
    · rw [bufferPos_of_inside based inside, and_iff_right inside]
      dsimp only
      rw [ih (by exact based) (by dsimp only; rw [next]; omega)]
      dsimp only
      rw [next]
    · obtain ⟨asserts, full⟩ := not_or.mp inside
      rw [bufferPos_of_not_lt (Bool.not_eq_true _ ▸ asserts)
        (by rwa [UInt64.lt_iff_toNat_lt])]
      exact iff_of_false (by simp) fun all => inside all.1

/-- Without a nameless entry the inner loop goes over all of them. -/
theorem fillEntries_of_named (sec : PeSectionHeader) {entries : List WantedSection}
    (named : ∀ ls ∈ entries, ls.nameless = false) :
    fillEntries sec entries = entries.map fun ls => ls.fill sec := by
  induction entries with
  | nil => rfl
  | cons ls rest ih =>
    rw [List.forall_mem_cons] at named
    rw [fillEntries, if_neg (by simp [named.1]), ih named.2, List.map_cons]

/-- The loop on the array and the loop on the list. -/
theorem locateSectionsLoop_eq {count : ℕ} {image : SimpleBuffer} {entries : List WantedSection}
    (headers : List Window) (named : ∀ ls ∈ entries, ls.nameless = false) :
    locateSectionsLoop build memory count image entries =
      (fillLoop build memory count image entries headers).outcome.bind fun _ =>
        .ok (fillLoop build memory count image entries headers).entries := by
  induction count generalizing image entries headers with
  | zero => rfl
  | succ count ih =>
    rw [locateSectionsLoop, fillLoop, fillEntries_of_named _ named]
    cases bufferPos build image with
    | ok cursor =>
      apply ih _
      intro ls member
      obtain ⟨before, listed, rfl⟩ := List.mem_map.mp member
      exact (before.fill_nameless _).trans (named before listed)
    | error status => rfl
    | assertionFailed assertion => rfl

end Loop

/-! ## The whole search -/

/-- Where the PE header, and behind it the section table, start in the image. -/
def StubImage.pe (loaded : StubImage) : ℕ := (loaded.memory.u32 dosPeOffsetLocation).toNat

def StubImage.table (loaded : StubImage) : ℕ := tableStart loaded.memory loaded.pe

def StubImage.sectionCount (loaded : StubImage) : ℕ :=
  (PeImageHeaders.numberOfSections loaded.memory loaded.pe).toNat

/-- The section headers of the image. -/
def StubImage.sections (loaded : StubImage) : List PeSectionHeader :=
  sectionHeaders loaded.memory loaded.table loaded.sectionCount

/-- The image is accepted, and no assertion has ended the program at its base. -/
structure TableReached (build : Build) (loaded : StubImage) : Prop where
  based : build.ndebug = true ∨ loaded.imageBase ≠ 0
  accepted : AcceptedBy build loaded.memory loaded.imageSize

section Search

variable {build : Build} {loaded : StubImage}

/-- The table of an accepted image is short. -/
theorem AcceptedBy.table_bounded (accepted : AcceptedBy build loaded.memory loaded.imageSize) :
    loaded.table + sizeofPeSectionHeader * loaded.sectionCount < 2 ^ 64 := by
  have count : loaded.sectionCount ≤ 96 := accepted.count
  have word := (loaded.memory.u32 dosPeOffsetLocation).toNat_lt
  have half := (PeImageHeaders.sizeOfOptionalHeader loaded.memory loaded.pe).toNat_lt
  have coff : sizeofPeCoffHeader = 24 := rfl
  have size : sizeofPeSectionHeader = 40 := rfl
  have start : loaded.table = (loaded.memory.u32 dosPeOffsetLocation).toNat + sizeofPeCoffHeader +
    (PeImageHeaders.sizeOfOptionalHeader loaded.memory loaded.pe).toNat := rfl
  rw [start, coff, size]
  omega

/-- In an image that is accepted the search is the loop over its table. -/
theorem peLocateSectionsInPlace_reached (reached : TableReached build loaded)
    (entries : List WantedSection) :
    ∃ pos : UInt64, pos.toNat = loaded.table ∧
      peLocateSectionsInPlace build loaded entries =
        fillLoop build loaded.memory loaded.sectionCount
          ⟨loaded.imageBase, loaded.imageSize, pos, loaded.imageSize, none⟩ entries [] := by
  obtain ⟨based, accepted⟩ := reached
  have room := accepted.room
  have headers : sizeofPeImageHeaders = 264 := rfl
  have limit : peHeaderMaxNumberOfSections.toNat = 96 := rfl
  have nonzero : ((loaded.memory.u32 dosPeOffsetLocation).toUInt64 == 0) = false := by
    have positive := accepted.offset
    rw [beq_eq_false_iff_ne, ne_eq, ← UInt64.toNat_inj, UInt32.toNat_toUInt64]
    exact Nat.ne_of_gt positive
  have start : bufferPos build ⟨loaded.imageBase, loaded.imageSize, 0, loaded.imageSize, none⟩ =
      .ok (loaded.imageBase + 0) :=
    bufferPos_of_inside based (.inr (by
      change 0 < loaded.imageSize.toNat
      omega))
  have left : bufferLen build ⟨loaded.imageBase, loaded.imageSize, 0, loaded.imageSize, none⟩ =
      .ok (loaded.imageSize - 0) := by
    rcases based with quiet | nonnull
    · exact bufferLen_of_ndebug quiet _
    · refine bufferLen_of_lt build nonnull (UInt64.lt_iff_toNat_lt.mpr ?_)
      change 0 < loaded.imageSize.toNat
      omega
  have cursor : bufferPos build ⟨loaded.imageBase, loaded.imageSize,
      0 + (loaded.memory.u32 dosPeOffsetLocation).toUInt64, loaded.imageSize, none⟩ = .ok _ :=
    bufferPos_of_inside based (.inr (by
      dsimp only
      rw [UInt64.zero_add, UInt32.toNat_toUInt64]
      omega))
  refine ⟨_, tableStart_toNat (loaded.memory.u32 dosPeOffsetLocation)
    (PeImageHeaders.sizeOfOptionalHeader loaded.memory loaded.pe), ?_⟩
  rw [peLocateSectionsInPlace, peHeader_of_accessors start left,
    if_pos ⟨accepted.dos, room.1, room.2, accepted.signature⟩]
  simp only [nonzero, Bool.false_eq_true, if_false, cursor]
  simp only [UInt64.zero_add, UInt32.toNat_toUInt64]
  rw [if_neg (by simpa using accepted.machine), if_neg (by
      rw [gt_iff_lt, UInt16.lt_iff_toNat_lt, limit]
      exact Nat.not_lt.mpr accepted.count), if_neg (by simpa using accepted.executable),
    if_neg (by simpa using accepted.magic), if_neg (by simpa using accepted.subsystem)]
  rfl

/-- A signature is found only through accessors that return. -/
theorem peHeader_accessors {buffer : SimpleBuffer} {file : ByteStore} {peOffset : UInt64}
    (found : (peHeader build buffer file).1 = .ok peOffset) (nonzero : peOffset ≠ 0) :
    bufferPos build buffer = .ok (buffer.buffer + buffer.pos) ∧
      bufferLen build buffer = .ok (buffer.length - buffer.pos) := by
  rcases bufferPos_cases build buffer with position | aborted
  · refine ⟨position, ?_⟩
    rcases bufferLen_cases build buffer with left | aborted
    · exact left
    · rw [peHeader, position, aborted] at found
      dsimp only at found
      split_ifs at found
      exact absurd (Outcome.ok.inj found).symm nonzero
  · rw [peHeader, aborted] at found
    cases found

/-- Another image is refused, or an assertion ends the program, before anything is written. -/
theorem peLocateSectionsInPlace_refused (refused : ¬ TableReached build loaded)
    (entries : List WantedSection) :
    (peLocateSectionsInPlace build loaded entries).outcome ≠ .ok true ∧
      (peLocateSectionsInPlace build loaded entries).entries = entries ∧
      (peLocateSectionsInPlace build loaded entries).headers = [] := by
  rw [peLocateSectionsInPlace]
  split
  · next offset found =>
    split_ifs with nothing
    · simp
    · have nonzero : offset ≠ 0 := by simpa using nothing
      obtain ⟨position, left⟩ := peHeader_accessors found nonzero
      have inside := peHeader_found left found nonzero
      obtain ⟨dos, rfl, signature⟩ := peHeader_signed found nonzero
      simp only [UInt64.zero_add, UInt64.sub_zero, UInt32.toNat_toUInt64] at inside ⊢
      split
      · split_ifs with machine count executable magic subsystem
        · simp
        · simp
        · simp
        · simp
        · simp
        · have headers : sizeofPeImageHeaders = 264 := rfl
          refine absurd ⟨?_, dos, ?_, ⟨by omega, inside⟩, signature, by simpa using machine,
            ?_, by simpa using executable, by simpa using magic, by simpa using subsystem⟩ refused
          · by_contra unbased
            obtain ⟨asserts, null⟩ := not_or.mp unbased
            simp [bufferPos, Build.assert, asserts, Decidable.not_not.mp null] at position
          · rw [Nat.pos_iff_ne_zero]
            intro zero
            exact nonzero (UInt64.toNat_inj.mp (by rw [UInt32.toNat_toUInt64, zero]; rfl))
          · rw [gt_iff_lt, UInt16.lt_iff_toNat_lt] at count
            exact Nat.not_lt.mp count
      · simp
      · simp
  · simp
  · simp

/-- What the array holds after a search that returned: the entries located in the table, or the
entries as they were. Names are compared as texts. -/
structure LocatesSections (sections : List PeSectionHeader) (entries : List WantedSection)
    (result : LocateResult) : Prop where
  found : result.outcome = .ok true → result.entries = locatedEntries sections entries
  refused : result.outcome = .ok false → result.entries = entries
  names : ∀ sec ∈ sections, ∀ ls ∈ entries,
    strncmp (cString ls.name) (fun index => sec.name.getD index 0) peSectionSizeOfShortName = 0 ↔
      shortText sec.name = shortText ls.name

/-- Every search locates the sections of the table of its image, or leaves the array alone. -/
theorem peLocateSectionsInPlace_locates (build : Build) (loaded : StubImage)
    (entries : List WantedSection) :
    LocatesSections loaded.sections entries (peLocateSectionsInPlace build loaded entries) := by
  have names : ∀ sec ∈ loaded.sections, ∀ ls ∈ entries,
      strncmp (cString ls.name) (fun index => sec.name.getD index 0) peSectionSizeOfShortName = 0 ↔
        shortText sec.name = shortText ls.name := fun sec _ ls _ => named_iff sec ls.name
  by_cases reached : TableReached build loaded
  · obtain ⟨pos, start, loop⟩ := peLocateSectionsInPlace_reached reached entries
    have bounded := reached.accepted.table_bounded
    rw [← start] at bounded
    rw [loop]
    refine ⟨fun finished => ?_, fun refused => absurd refused fillLoop_ne_refused, names⟩
    rw [fillLoop_entries bounded finished, fillTable_eq]
    dsimp only
    rw [start]
    rfl
  · obtain ⟨unfinished, same, -⟩ := peLocateSectionsInPlace_refused reached entries
    exact ⟨fun finished => absurd finished unfinished, fun _ => same, names⟩

/-- The array of the source is the list that `peLocateSections` is about: with named entries only,
they return the same. -/
theorem peLocateSections_eq (build : Build) (loaded : StubImage) {wanted : List WantedSection}
    (named : ∀ ls ∈ wanted, ls.nameless = false) :
    peLocateSections build loaded wanted =
      (peLocateSectionsInPlace build loaded wanted).outcome.bind fun found =>
        .ok (if found then some (peLocateSectionsInPlace build loaded wanted).entries else none) := by
  rw [peLocateSections, peLocateSectionsInPlace]
  cases (peHeader build _ loaded.memory).1 with
  | ok offset =>
    dsimp only [Outcome.bind]
    cases nothing : offset == 0 with
    | true => rfl
    | false =>
      simp only [Bool.false_eq_true, if_false]
      generalize bufferPos build _ = position
      cases position with
      | ok cursor =>
        dsimp only
        split_ifs
        -- The five refusals, and the loop.
        iterate 5 exact Eq.refl (Outcome.ok none)
        · rw [locateSectionsLoop_eq [] named]
          generalize ended : fillLoop build loaded.memory _ _ wanted [] = result
          obtain ⟨outcome, entries, headers⟩ := result
          cases outcome with
          | ok finished =>
            cases finished with
            | true => rfl
            | false => exact absurd (congrArg LocateResult.outcome ended) fillLoop_ne_refused
          | error status => rfl
          | assertionFailed assertion => rfl
      | error status => rfl
      | assertionFailed assertion => rfl
  | error status => rfl
  | assertionFailed assertion => rfl

end Search

end ZLoader
