import ZLoader.Soundness.SectionBounds

/-! # Reads of a load against the end of the file buffer

Only the position of the PE headers is checked against the length of the buffer, and that check
comes after two bytes have been read. Everything further on is bounded by the sizes in the headers
themselves. The reads stay inside the buffer exactly when each of these sizes does.
-/

namespace ZLoader

/-- The bytes of the buffer from its cursor on. -/
def SimpleBuffer.available (buffer : SimpleBuffer) : ℕ := buffer.length.toNat - buffer.pos.toNat

/-- Every byte that the call reads from the file buffer lies before the end of its data. -/
def ReadsInside (imageData : SimpleBuffer) (result : HandleImageResult) : Prop :=
  ∀ window, .readFile window ∈ result.state.trace → window.Within imageData.available

/-- The call gets as far as reading the headers. -/
def headersReached (build : Build) (imageData : SimpleBuffer) : Bool :=
  imageData.buffer != 0 && bufferPos build imageData == .ok (imageData.buffer + imageData.pos) &&
    bufferLen build imageData == .ok (imageData.length - imageData.pos) &&
    imageData.length - imageData.pos != 0

/-- The header of a section, the raw data copied from it and its name as far as it is printed lie in
the buffer. -/
def SectionReadsFit (limit : ℕ) (buffer : UInt64) (ctx : PeLoaderCtx) (turn : Turn) : Prop :=
  turn.offset + sizeofPeSectionHeader ≤ limit ∧
    (turn.loads = true → turn.sec.uninitializedData = false →
      copiesRawData buffer ctx turn.sec = true →
        turn.sec.pointerToRawData.toNat + turn.sec.sizeOfRawData.toNat ≤ limit) ∧
    ∀ walk, turn.printed = some walk → ∀ index ∈ walk.reads, turn.offset + index < limit

section Walk

variable (limit : ℕ) (ctx : PeLoaderCtx) (adjust : UInt64) (stop : ℕ)

/-- The entries of a block, up to the first of unknown type, and the fields they name lie in the
buffer. -/
def EntriesFit (block : ℕ) (page : UInt32) : ℕ → ℕ → LoaderState → Prop
  | 0, _, _ => True
  | turns + 1, index, st =>
      index < (blockSize st.memory.file block).toNat / 2 →
        fixupEntryOffset block index + 2 ≤ limit ∧
        ∀ field, fixupField adjust (st.memory.file.u16 (fixupEntryOffset block index)) = some field →
          (∀ changed, field = some changed →
            fixupOffset page (st.memory.file.u16 (fixupEntryOffset block index)) + changed.width ≤
              limit) ∧
          EntriesFit block page turns (index + 1)
            (applyFixup page (st.memory.file.u16 (fixupEntryOffset block index)) field
              (st.log (.readFile ⟨fixupEntryOffset block index, 2⟩)))

/-- The block headers that the walk comes to lie in the buffer, and so do the entries of the blocks
that it accepts. -/
def BlocksFit : ℕ → ℕ → LoaderState → Prop
  | 0, _, _ => True
  | turns + 1, block, st =>
      block < stop →
        block + sizeofPeBaseRelocation ≤ limit ∧
        (checkBlock ctx st.memory.file block = none →
          EntriesFit limit adjust block (blockVirtualAddress st.memory.file block) (2 ^ 31) 0
            (st.log (.readFile ⟨block, sizeofPeBaseRelocation⟩)) ∧
          ∀ entries after,
            fixupEntries adjust block (blockVirtualAddress st.memory.file block) (2 ^ 31) 0
              (st.log (.readFile ⟨block, sizeofPeBaseRelocation⟩)) = (none, entries, after) →
            BlocksFit turns (nextBlock after.memory.file block)
              { after with visits := after.visits ++
                [⟨block, (blockSize after.memory.file block).toNat, entries⟩] })

/-- The relocation data of a section as far as the walk reads it lie in the buffer. -/
def FixupReadsFit (buffer : UInt64) (sec : PeSectionHeader) (st : LoaderState) : Prop :=
  (relocBase ctx sec == 0 || relocEnd ctx sec == 0 || loadDelta buffer ctx == 0) = false →
    BlocksFit limit ctx (loadDelta buffer ctx) (relocEnd ctx sec - ctx.base).toNat
      ((relocEnd ctx sec - ctx.base).toNat - (relocBase ctx sec - ctx.base).toNat)
      (relocBase ctx sec - ctx.base).toNat st

/-- Every recorded read of the file is inside the buffer. -/
def FileReadsWithin (st : LoaderState) : Prop := ∀ window ∈ fileReads st.trace, window.Within limit

theorem fileReadsWithin_log (st : LoaderState) {start length : ℕ} (nonempty : 0 < length) :
    FileReadsWithin limit (st.log (.readFile ⟨start, length⟩)) ↔
      FileReadsWithin limit st ∧ start + length ≤ limit := by
  unfold FileReadsWithin
  rw [LoaderState.log_trace, fileReads_append, List.forall_mem_append]
  simp [Window.within_iff_of_pos nonempty]

theorem fixupField_width {adjust : UInt64} {entry : UInt16} {field : Field}
    (known : fixupField adjust entry = some (some field)) : 0 < field.width := by
  unfold fixupField at known
  dsimp only at known
  split_ifs at known
  · cases Option.some.inj known
  all_goals
    obtain rfl := Option.some.inj (Option.some.inj known)
    exact Nat.succ_pos _

theorem fileReadsWithin_applyFixup {adjust : UInt64} (page : UInt32) {entry : UInt16}
    {field : Option Field} (known : fixupField adjust entry = some field) (st : LoaderState) :
    FileReadsWithin limit (applyFixup page entry field st) ↔
      FileReadsWithin limit st ∧
        ∀ changed, field = some changed → fixupOffset page entry + changed.width ≤ limit := by
  unfold FileReadsWithin applyFixup
  dsimp only
  rw [fileReads_append, List.forall_mem_append]
  cases field with
  | none => simp [fixupEvents]
  | some field => simp [fixupEvents, Window.within_iff_of_pos (fixupField_width known)]

theorem fileReadsWithin_fixupEntries (block : ℕ) (page : UInt32) (turns index : ℕ)
    (st : LoaderState) :
    FileReadsWithin limit (fixupEntries adjust block page turns index st).2.2 ↔
      FileReadsWithin limit st ∧ EntriesFit limit adjust block page turns index st := by
  induction turns generalizing index st with
  | zero => simp [fixupEntries, EntriesFit]
  | succ turns ih =>
    simp only [fixupEntries, EntriesFit]
    split_ifs with more
    · cases known : fixupField adjust (st.memory.file.u16 (fixupEntryOffset block index)) with
      | none => simp [more, fileReadsWithin_log]
      | some field =>
        dsimp only
        rw [ih, fileReadsWithin_applyFixup limit page known, fileReadsWithin_log _ _ (by omega)]
        simp [more, and_assoc]
    · simp [more]

theorem fileReadsWithin_fixupBlocks (turns block : ℕ) (st : LoaderState) :
    FileReadsWithin limit (fixupBlocks ctx adjust stop turns block st).2 ↔
      FileReadsWithin limit st ∧ BlocksFit limit ctx adjust stop turns block st := by
  induction turns generalizing block st with
  | zero => simp [fixupBlocks, BlocksFit]
  | succ turns ih =>
    simp only [fixupBlocks, BlocksFit, LoaderState.log_memory]
    split_ifs with more
    · cases checked : checkBlock ctx st.memory.file block with
      | some status =>
        simp [more, fileReadsWithin_log, sizeofPeBaseRelocation]
      | none =>
        have entries := fileReadsWithin_fixupEntries limit adjust block
          (blockVirtualAddress st.memory.file block) (2 ^ 31) 0
          (st.log (.readFile ⟨block, sizeofPeBaseRelocation⟩))
        rw [fileReadsWithin_log _ _ (by decide), and_assoc] at entries
        dsimp only
        split
        · next stopped =>
          rw [stopped] at entries
          simp only [more, forall_const, stopped]
          simpa using entries
        · next count after finished =>
          rw [finished] at entries
          rw [ih]
          simp only [more, forall_const, finished]
          change FileReadsWithin limit after ∧ _ ↔ _
          rw [entries]
          constructor
          · rintro ⟨⟨reads, header, fit⟩, later⟩
            refine ⟨reads, header, fit, fun entries state reached => ?_⟩
            obtain ⟨rfl, rfl⟩ : count = entries ∧ after = state := by simpa using reached
            exact later
          · rintro ⟨reads, header, fit, later⟩
            exact ⟨⟨reads, header, fit⟩, later count after rfl⟩
    · simp [more]

end Walk

section Headers

variable {build : Build} {imageData : SimpleBuffer}

/-- Reaching the headers settles both accessors of the buffer. -/
theorem headersReached_iff :
    headersReached build imageData = true ↔
      imageData.buffer ≠ 0 ∧
      bufferPos build imageData = .ok (imageData.buffer + imageData.pos) ∧
      bufferLen build imageData = .ok (imageData.length - imageData.pos) ∧
      imageData.length - imageData.pos ≠ 0 := by
  simp [headersReached, and_assoc]

/-- With a byte to read the remaining length is the length of the available data. -/
theorem available_eq (nonempty : 0 < imageData.available) :
    (imageData.length - imageData.pos).toNat = imageData.available := by
  unfold SimpleBuffer.available at nonempty ⊢
  have bound := imageData.length.toNat_lt
  rw [UInt64.toNat_sub]
  omega

/-- The PE signature is found only in a buffer that holds the headers behind it. -/
theorem peHeader_found {file : ByteStore} {length peOffset : UInt64}
    (known : bufferLen build imageData = .ok length)
    (found : (peHeader build imageData file).1 = .ok peOffset) (nonzero : peOffset ≠ 0) :
    peOffset.toNat + sizeofPeImageHeaders < length.toNat := by
  unfold peHeader at found
  rw [known] at found
  split at found
  · dsimp only at found
    split_ifs at found with unsigned short truncated signature
    · exact absurd (Outcome.ok.inj found).symm nonzero
    · exact absurd (Outcome.ok.inj found).symm nonzero
    · exact absurd (Outcome.ok.inj found).symm nonzero
    · obtain rfl := Outcome.ok.inj found
      simp only [gt_iff_lt, Bool.not_eq_true', decide_eq_false_iff_not, Decidable.not_not,
        UInt64.lt_iff_toNat_lt, UInt64.toNat_add, UInt32.toNat_toUInt64] at truncated
      have small := (file.u32 dosPeOffsetLocation).toNat_lt
      have header : (264 : UInt64).toNat = 264 := rfl
      rw [header] at truncated
      rw [UInt32.toNat_toUInt64, sizeofPeImageHeaders]
      omega
    · exact absurd (Outcome.ok.inj found).symm nonzero
  · contradiction
  · contradiction

/-- Looking for the signature reads two bytes unconditionally and stays inside the buffer if these
are. -/
theorem peHeader_reads (file : ByteStore) (reached : headersReached build imageData = true) :
    (∀ window ∈ fileReads (peHeader build imageData file).2, window.Within imageData.available) ↔
      2 ≤ imageData.available := by
  obtain ⟨_, cursor, known, _⟩ := headersReached_iff.mp reached
  have first : (∀ window ∈ [Window.mk 0 2], window.Within imageData.available) ↔
      2 ≤ imageData.available := by simp [Window.within_iff_of_pos]
  unfold peHeader
  rw [cursor, known]
  dsimp only
  split_ifs with unsigned short truncated signature
  · exact first
  · exact first
  -- From here on the length has been checked, and it is the available length once a byte is there.
  all_goals
    have long : 2 ≤ imageData.available → 0x40 < imageData.available := by
      intro two
      rw [← available_eq (by omega)]
      simpa [UInt64.lt_iff_toNat_lt] using short
  · simp only [fileReads_readFile, fileReads_nil, List.forall_mem_cons, dosPeOffsetLocation,
      Window.within_iff_of_pos (by decide : 0 < 2), Window.within_iff_of_pos (by decide : 0 < 4)]
    constructor
    · exact fun within => within.1
    · exact fun two => ⟨two, by have := long two; omega, fun _ member => absurd member List.not_mem_nil⟩
  all_goals
    have signed : 2 ≤ imageData.available →
        (file.u32 dosPeOffsetLocation).toNat + 4 ≤ imageData.available := by
      intro two
      have small := (file.u32 dosPeOffsetLocation).toNat_lt
      have header : (264 : UInt64).toNat = 264 := rfl
      simp only [gt_iff_lt, Bool.not_eq_true', decide_eq_false_iff_not, Decidable.not_not,
        UInt64.lt_iff_toNat_lt, UInt64.toNat_add, UInt32.toNat_toUInt64, header,
        available_eq (show 0 < imageData.available by omega)] at truncated
      omega
    simp only [fileReads_readFile, fileReads_nil, List.cons_append, List.nil_append,
      List.forall_mem_cons, dosPeOffsetLocation, Window.within_iff_of_pos (by decide : 0 < 2),
      Window.within_iff_of_pos (by decide : 0 < 4)] at signed ⊢
    constructor
    · exact fun within => within.1
    · exact fun two => ⟨two, by have := long two; omega, signed two,
        fun _ member => absurd member List.not_mem_nil⟩

/-- Reading the headers stays inside the buffer exactly when its first two bytes do. -/
theorem readHeaders_reads (file : ByteStore) (reached : headersReached build imageData = true) :
    (∀ window ∈ fileReads (readHeaders build imageData file).2,
        window.Within imageData.available) ↔ 2 ≤ imageData.available := by
  have reads := peHeader_reads file reached
  obtain ⟨_, _, known, _⟩ := headersReached_iff.mp reached
  unfold readHeaders
  split
  · next peOffset events found =>
    rw [found] at reads
    dsimp only at reads
    split_ifs with missing rejected
    · exact reads
    all_goals
      have bound := peHeader_found known (by rw [found]) (by simpa using missing)
      simp only [fileReads_append, fileReads_readFile, fileReads_nil, List.forall_mem_append,
        List.forall_mem_singleton, reads, Window.within_iff_of_pos (by decide : 0 < sizeofPeImageHeaders)]
      apply and_iff_left_of_imp
      intro two
      rw [← available_eq (by omega)]
      omega
  · next found => rw [found] at reads; exact reads
  · next found => rw [found] at reads; exact reads

end Headers

section Load

variable (limit : ℕ) (build : Build) (services : Services) (ctx : PeLoaderCtx)

/-- The bytes that a message examines. -/
theorem turn_printReads (turn : Turn) :
    (∀ window ∈ fileReads turn.printReads, window.Within limit) ↔
      ∀ walk, turn.printed = some walk → ∀ index ∈ walk.reads, turn.offset + index < limit := by
  rw [Turn.printReads]
  cases turn.printed with
  | none => simp
  | some walk =>
    simp only [Option.some.injEq, forall_eq', mem_fileReads, nameReads, List.mem_map]
    constructor
    · intro within index examined
      have inside := within ⟨turn.offset + index, 1⟩ ⟨index, examined, rfl⟩
      rwa [Window.within_iff_of_pos (by decide)] at inside
    · rintro inside _ ⟨index, examined, ⟨⟩⟩
      rw [Window.within_iff_of_pos (by decide)]
      exact inside index examined

/-- The reads of one turn of the section loop. -/
theorem turn_reads (buffer : UInt64) (turn : Turn) :
    (∀ window ∈ fileReads (turn.events buffer ctx), window.Within limit) ↔
      SectionReadsFit limit buffer ctx turn := by
  have copies (nonempty : copiesRawData buffer ctx turn.sec = true) :
      0 < turn.sec.sizeOfRawData.toNat := by
    simp only [copiesRawData, Bool.and_eq_true, decide_eq_true_eq, gt_iff_lt,
      UInt32.lt_iff_toNat_lt] at nonempty
    exact nonempty.2
  rw [Turn.events, SectionReadsFit, fileReads_readFile, fileReads_append, List.forall_mem_cons,
    List.forall_mem_append, turn_printReads, Window.within_iff_of_pos (by decide)]
  refine and_congr_right fun _ => and_congr_left fun _ => ?_
  unfold sectionEvents
  cases turn.loads with
  | false => simp
  | true =>
    cases turn.sec.uninitializedData with
    | true => simp
    | false =>
      cases copied : copiesRawData buffer ctx turn.sec with
      | false => split_ifs <;> simp_all
      | true => split_ifs <;> simp_all [Window.within_iff_of_pos (copies copied)]

theorem fileReadsWithin_sections (st : LoaderState) :
    FileReadsWithin limit (sectionsLoaded services ctx st).state ↔
      FileReadsWithin limit st ∧ ctx.sizeOfHeaders.toNat ≤ limit ∧
        ∀ turn ∈ turns (destination services ctx).buffer ctx (.read st.memory.file ctx.relocDirectory)
          st.memory.file ctx.numberOfSections.toNat ctx.firstSection none,
          SectionReadsFit limit (destination services ctx).buffer ctx turn := by
  unfold FileReadsWithin sectionsLoaded relocateSections
  rw [relocateSectionsLoop_trace, fileReads_append, (headersCopied_accesses ..).2,
    headersCopied_memory, List.forall_mem_append, List.forall_mem_append, List.forall_mem_singleton,
    and_assoc]
  refine and_congr_right fun _ => and_congr ?_ ?_
  · rw [Window.within_iff]
    dsimp only
    omega
  · simp only [← turn_reads]
    constructor
    · intro within turn member window read
      rw [mem_fileReads] at read
      exact within window (mem_fileReads.mpr (List.mem_flatMap.mpr ⟨turn, member, read⟩))
    · intro within window read
      obtain ⟨turn, member, read⟩ := List.mem_flatMap.mp (mem_fileReads.mp read)
      exact within turn member window (mem_fileReads.mpr read)

theorem fileReadsWithin_relocationFixup (buffer : UInt64) (sec : PeSectionHeader)
    (st : LoaderState) :
    FileReadsWithin limit (relocationFixup buffer ctx sec st).2 ↔
      FileReadsWithin limit st ∧ FixupReadsFit limit ctx buffer sec st := by
  unfold relocationFixup FixupReadsFit
  cases relocBase ctx sec == 0 <;> cases relocEnd ctx sec == 0 <;>
    cases loadDelta buffer ctx == 0 <;> simp
  exact fileReadsWithin_fixupBlocks ..

/-- What a load with these headers reads lies in the buffer. -/
structure LoadReadsFit (st : LoaderState) : Prop where
  headers : ctx.sizeOfHeaders.toNat ≤ limit
  sections : ∀ turn ∈ sectionPlan build services ctx st.memory.file,
    SectionReadsFit limit (destination services ctx).buffer ctx turn
  relocations : sectionsReached build services ctx = true → ∀ sec,
    fixupSection ctx (sectionsLoaded services ctx st) = some sec →
      FixupReadsFit limit ctx (destination services ctx).buffer sec
        (sectionsLoaded services ctx st).state

theorem loadReadsFit_iff (st : LoaderState) :
    LoadReadsFit limit build services ctx st ↔
      ctx.sizeOfHeaders.toNat ≤ limit ∧
      (∀ turn ∈ sectionPlan build services ctx st.memory.file,
        SectionReadsFit limit (destination services ctx).buffer ctx turn) ∧
      (sectionsReached build services ctx = true → ∀ sec,
        fixupSection ctx (sectionsLoaded services ctx st) = some sec →
          FixupReadsFit limit ctx (destination services ctx).buffer sec
            (sectionsLoaded services ctx st).state) :=
  ⟨fun ⟨headers, sections, relocations⟩ => ⟨headers, sections, relocations⟩,
    fun ⟨headers, sections, relocations⟩ => ⟨headers, sections, relocations⟩⟩

theorem fileReadsWithin_accessed (st : LoaderState) :
    FileReadsWithin limit (accessed build services ctx st) ↔
      FileReadsWithin limit st ∧ LoadReadsFit limit build services ctx st := by
  have sections := fileReadsWithin_sections limit services ctx st
  rw [loadReadsFit_iff]
  unfold accessed sectionPlan
  split_ifs with reached
  · dsimp only
    cases chosen : fixupSection ctx (sectionsLoaded services ctx st) with
    | none => simp [sections]
    | some sec =>
      rw [fileReadsWithin_relocationFixup, sections]
      simp [and_assoc, reached]
  · unfold FileReadsWithin
    rw [(headersCopied_accesses ..).2, List.forall_mem_append, List.forall_mem_singleton,
      Window.within_iff]
    simp only [List.not_mem_nil, false_implies, implies_true, reached, Bool.false_eq_true, and_true]
    apply and_congr_right
    intro _
    omega

end Load

/-- Before the headers are reached nothing is read. -/
theorem peHandleImage_unread {build : Build} (services : Services) {imageData : SimpleBuffer}
    (memory : Memory) (unreached : headersReached build imageData = false) :
    fileReads (peHandleImage build services imageData memory).state.trace = [] := by
  unfold peHandleImage
  cases null : imageData.buffer == 0 with
  | true => rfl
  | false =>
    rcases bufferLen_cases build imageData with known | failed
    · cases empty : imageData.length - imageData.pos == 0 with
      | true => simp only [known, empty, if_true, Bool.false_eq_true, if_false]; rfl
      | false =>
        rcases bufferPos_cases build imageData with cursor | failed
        · simp [headersReached, known, cursor, null, empty, bne] at unreached
        · simp [known, empty, readHeaders, peHeader, failed]
    · simp only [failed, Bool.false_eq_true, if_false]
      rfl

/-- With rejected headers the call reads nothing else. -/
theorem peHandleImage_rejected {build : Build} (services : Services) {imageData : SimpleBuffer}
    (memory : Memory) (reached : headersReached build imageData = true)
    (rejected : ∀ ctx, (readHeaders build imageData memory.file).1 ≠ .ok ctx) :
    fileReads (peHandleImage build services imageData memory).state.trace =
      fileReads (readHeaders build imageData memory.file).2 := by
  obtain ⟨pointer, _, known, nonempty⟩ := headersReached_iff.mp reached
  have nonnull : (imageData.buffer == 0) = false := by simpa using pointer
  have remaining : (imageData.length - imageData.pos == 0) = false := by simpa using nonempty
  simp only [peHandleImage, known, nonnull, remaining, Bool.false_eq_true, if_false]
  cases outcome : (readHeaders build imageData memory.file).1 with
  | ok ctx => exact absurd outcome (rejected ctx)
  | error status => rfl
  | assertionFailed => rfl

/-- All reads of a call stay inside the buffer exactly when, once it reads at all, there are two
bytes to read, and what an accepted header asks for lies in the buffer. -/
theorem readsInside_iff (build : Build) (services : Services) (imageData : SimpleBuffer)
    (memory : Memory) :
    ReadsInside imageData (peHandleImage build services imageData memory) ↔
      (headersReached build imageData = true → 2 ≤ imageData.available ∧
        ∀ ctx, (readHeaders build imageData memory.file).1 = .ok ctx →
          LoadReadsFit imageData.available build services ctx
            (headersRead build imageData memory)) := by
  have within : ReadsInside imageData (peHandleImage build services imageData memory) ↔
      FileReadsWithin imageData.available (peHandleImage build services imageData memory).state := by
    simp only [ReadsInside, FileReadsWithin, mem_fileReads]
  rw [within]
  cases reached : headersReached build imageData with
  | false =>
    unfold FileReadsWithin
    rw [peHandleImage_unread services memory reached]
    simp
  | true =>
    have headers := readHeaders_reads memory.file reached
    obtain ⟨pointer, _, known, nonempty⟩ := headersReached_iff.mp reached
    simp only [forall_const]
    cases accepted : (readHeaders build imageData memory.file).1 with
    | ok ctx =>
      have load := fileReadsWithin_accessed imageData.available build services ctx
        (headersRead build imageData memory)
      unfold FileReadsWithin at load ⊢
      rw [peHandleImage_accepted memory pointer accepted, (loadImage_serviced ..).fileReads_eq, load]
      change (∀ window ∈ fileReads (readHeaders build imageData memory.file).2, _) ∧ _ ↔ _
      rw [headers]
      refine and_congr_right fun _ => ⟨?_, fun fit => fit ctx rfl⟩
      rintro fit other same
      obtain rfl := Outcome.ok.inj same
      exact fit
    | error status =>
      have rejected := peHandleImage_rejected services memory reached (by simp [accepted])
      unfold FileReadsWithin
      rw [rejected, headers]
      simp
    | assertionFailed =>
      have rejected := peHandleImage_rejected services memory reached (by simp [accepted])
      unfold FileReadsWithin
      rw [rejected, headers]
      simp

/-- An image whose headers claim to be longer than the file. -/
def longHeadersImage : ByteStore := smallImage 0 0x2000 0x1000 16 []

set_option maxRecDepth 4000 in
/-- The header copy reads behind the end of the file. -/
theorem not_readsInside_longHeadersImage :
    ¬ ∀ (build : Build) (services : Services) (imageData : SimpleBuffer) (memory : Memory),
      ReadsInside imageData (peHandleImage build services imageData memory) := by
  intro claim
  have inside := claim defaultBuild smallServices (smallBuffer 0x200) ⟨longHeadersImage, fun _ => 0⟩
    ⟨0, 0x1000⟩ (by decide)
  revert inside
  decide

end ZLoader
