import ZLoader.Soundness.SectionBounds

/-! # The loaded image against the PE layout

Loading a section copies all of its raw data, also what lies beyond its virtual size, so a section
can spill into a neighbour; in an image whose data directory stops before the base relocations no
section is loaded at all. The image before base relocation is the layout of the file format
exactly when neither changes a byte.
-/

namespace ZLoader

/-- Every header of the section table, loaded unless discardable. -/
def sectionTable (ctx : PeLoaderCtx) (file : ByteStore) : List Turn :=
  tableTurns file ctx.numberOfSections.toNat ctx.firstSection

/-- The addresses a section occupies in the image. -/
def Turn.virtualRange (turn : Turn) : Window :=
  ⟨turn.sec.virtualAddress.toNat, turn.sec.virtualSize.toNat⟩

/-- The byte the file format puts at an offset of a section: raw data as far as it goes, zero
behind it. -/
def sectionByte (file : ByteStore) (sec : PeSectionHeader) (offset : ℕ) : UInt8 :=
  if sec.uninitializedData then 0
  else if offset < sec.virtualAddress.toNat + sec.sizeOfRawData.toNat then
    file (sec.pointerToRawData.toNat + (offset - sec.virtualAddress.toNat))
  else 0

/-- The reference layout: the header bytes, and in every section that is not discardable the bytes
the file format puts there. -/
structure ReferenceLayout (ctx : PeLoaderCtx) (file image : ByteStore) : Prop where
  headers : ∀ offset < ctx.sizeOfHeaders.toNat, image offset = file offset
  sections : ∀ turn ∈ sectionTable ctx file, turn.loads = true → ∀ offset,
    turn.virtualRange.Contains offset → image offset = sectionByte file turn.sec offset

/-- The loaded image before the base relocations are applied. -/
def imageBeforeFixup (build : Build) (services : Services) (ctx : PeLoaderCtx)
    (st : LoaderState) : ByteStore :=
  if sectionsReached build services ctx then (sectionsLoaded services ctx st).state.memory.image
  else (headersCopied services ctx st).memory.image

/-- The image that results from a load has the reference layout before the base relocations,
whatever the pages held when they were allocated. -/
def LoadsReferenceLayout (build : Build) (services : Services) (imageData : SimpleBuffer)
    (ctx : PeLoaderCtx) (file : ByteStore) : Prop :=
  ∀ image, ReferenceLayout ctx file
    (imageBeforeFixup build services ctx (headersRead build imageData ⟨file, image⟩))

/-- The sections that are not discardable are pairwise disjoint and lie behind the headers. -/
structure WellSeparated (ctx : PeLoaderCtx) (file : ByteStore) : Prop where
  disjoint : (sectionTable ctx file).Pairwise fun first second =>
    first.loads = true → second.loads = true → first.virtualRange.Disjoint second.virtualRange
  behind : ∀ turn ∈ sectionTable ctx file, turn.loads = true →
    ctx.sizeOfHeaders.toNat ≤ turn.sec.virtualAddress.toNat

instance (ctx : PeLoaderCtx) (file : ByteStore) : Decidable (WellSeparated ctx file) :=
  decidable_of_iff (_ ∧ _) ⟨fun ⟨disjoint, behind⟩ => ⟨disjoint, behind⟩,
    fun ⟨disjoint, behind⟩ => ⟨disjoint, behind⟩⟩

section Bytes

variable (buffer : UInt64) (ctx : PeLoaderCtx) (file : ByteStore)

/-- Loading the section writes the offset. -/
def Turn.Writes (turn : Turn) (offset : ℕ) : Prop :=
  turn.loads = true ∧
    (turn.sec.uninitializedData = true ∧ turn.virtualRange.Contains offset ∨
      turn.sec.uninitializedData = false ∧
        (copiesRawData buffer ctx turn.sec = true ∧
          turn.sec.virtualAddress.toNat ≤ offset ∧
            offset < turn.sec.virtualAddress.toNat + turn.sec.sizeOfRawData.toNat ∨
          turn.sec.virtualAddress.toNat + turn.sec.sizeOfRawData.toNat ≤ offset ∧
            offset < turn.sec.virtualAddress.toNat + turn.sec.virtualSize.toNat))

/-- The section is copied over an offset behind its own range. -/
def Turn.SpillsOver (turn : Turn) (offset : ℕ) : Prop :=
  turn.loads = true ∧ turn.sec.uninitializedData = false ∧
    copiesRawData buffer ctx turn.sec = true ∧
    turn.sec.virtualAddress.toNat + turn.sec.virtualSize.toNat ≤ offset ∧
    offset < turn.sec.virtualAddress.toNat + turn.sec.sizeOfRawData.toNat

instance (turn : Turn) (offset : ℕ) : Decidable (turn.Writes buffer ctx offset) :=
  inferInstanceAs (Decidable (_ ∧ _))

instance (turn : Turn) (offset : ℕ) : Decidable (turn.SpillsOver buffer ctx offset) :=
  inferInstanceAs (Decidable (_ ∧ _))

/-- The last section that spills over the offset. -/
def lastSpill (table : List Turn) (offset : ℕ) : Option Turn :=
  (table.filter fun turn => turn.SpillsOver buffer ctx offset).getLast?

/-- What the patches of a section do to one offset. -/
theorem Turn.patches_byte {turn : Turn}
    (placed : turn.loads = true →
      (sectionBase buffer ctx turn.sec - buffer).toNat = turn.sec.virtualAddress.toNat)
    (current : ByteStore) (offset : ℕ) :
    Patch.applyAll (turn.patches buffer ctx file) current offset =
      if turn.Writes buffer ctx offset then sectionByte file turn.sec offset else current offset := by
  unfold Turn.patches
  cases loads : turn.loads with
  | false =>
    have kept : ¬ turn.Writes buffer ctx offset := fun written => by
      simpa [loads] using written.1
    simp [kept]
  | true =>
    have written : turn.Writes buffer ctx offset ↔ _ := and_iff_right loads
    simp only [if_true, sectionPatches, placed loads, sectionByte, written]
    cases turn.sec.uninitializedData with
    | true =>
      simp only [if_true, true_and, Bool.true_eq_false, false_and, or_false]
      rfl
    | false =>
      have tailIff : (turn.sec.sizeOfRawData < turn.sec.virtualSize ∧
          turn.sec.virtualAddress.toNat + turn.sec.sizeOfRawData.toNat ≤ offset ∧
          offset < turn.sec.virtualAddress.toNat + turn.sec.sizeOfRawData.toNat +
            (turn.sec.virtualSize - turn.sec.sizeOfRawData).toNat) ↔
          turn.sec.virtualAddress.toNat + turn.sec.sizeOfRawData.toNat ≤ offset ∧
          offset < turn.sec.virtualAddress.toNat + turn.sec.virtualSize.toNat := by
        have size := turn.sec.virtualSize.toNat_lt
        rw [UInt32.lt_iff_toNat_lt, UInt32.toNat_sub]
        omega
      simp only [Bool.false_eq_true, if_false, Patch.applyAll_append, Patch.applyAll_ite, false_and,
        false_or, true_and, Patch.copy, Patch.fill, Window.contains_mk, tailIff]
      by_cases tail : turn.sec.virtualAddress.toNat + turn.sec.sizeOfRawData.toNat ≤ offset ∧
          offset < turn.sec.virtualAddress.toNat + turn.sec.virtualSize.toNat
      · rw [if_pos tail, if_pos (.inr tail), if_neg (by omega)]
      · simp only [tail, or_false, if_false]
        split_ifs with raw beyond
        · rfl
        · exact absurd raw.2.2 beyond
        · rfl

/-- Outside its own range a section writes what it spills. -/
theorem Turn.writes_outside {turn : Turn} {offset : ℕ}
    (outside : turn.loads = true → ¬ turn.virtualRange.Contains offset) :
    turn.Writes buffer ctx offset ↔ turn.SpillsOver buffer ctx offset := by
  unfold Turn.Writes Turn.SpillsOver
  cases loads : turn.loads with
  | false => simp
  | true =>
    have apart := outside loads
    simp only [Turn.virtualRange, Window.contains_mk] at apart ⊢
    cases turn.sec.uninitializedData with
    | true => simp only [true_and, Bool.true_eq_false, false_and, or_false, apart]
    | false =>
      simp only [Bool.false_eq_true, false_and, false_or, true_and]
      constructor
      · rintro (⟨copied, _, upper⟩ | tail)
        · exact ⟨copied, by omega, upper⟩
        · omega
      · rintro ⟨copied, lower, upper⟩
        exact .inl ⟨copied, by omega, upper⟩

/-- In its own range a section writes everything except raw data that is in place. -/
theorem Turn.writes_inside {turn : Turn} {offset : ℕ} (loads : turn.loads = true)
    (inside : turn.virtualRange.Contains offset) :
    turn.Writes buffer ctx offset ↔
      (turn.sec.uninitializedData = true ∨ copiesRawData buffer ctx turn.sec = true ∨
        turn.sec.virtualAddress.toNat + turn.sec.sizeOfRawData.toNat ≤ offset) := by
  obtain ⟨lower, upper⟩ := Window.contains_mk.mp inside
  unfold Turn.Writes
  cases turn.sec.uninitializedData with
  | true => simp [loads, inside]
  | false =>
    simp only [loads, Bool.false_eq_true, false_and, false_or, true_and]
    constructor
    · rintro (⟨copied, _⟩ | ⟨tail, _⟩)
      · exact .inl copied
      · exact .inr tail
    · intro written
      by_cases tail : turn.sec.virtualAddress.toNat + turn.sec.sizeOfRawData.toNat ≤ offset
      · exact .inr ⟨tail, upper⟩
      · exact .inl ⟨written.resolve_right tail, lower, by omega⟩

/-- Sections that do not own an offset leave the last spill over it, or what was there. -/
theorem applyAll_foreign {table : List Turn} (start : ByteStore) {offset : ℕ}
    (placed : ∀ turn ∈ table, turn.loads = true →
      (sectionBase buffer ctx turn.sec - buffer).toNat = turn.sec.virtualAddress.toNat)
    (foreign : ∀ turn ∈ table, turn.loads = true → ¬ turn.virtualRange.Contains offset) :
    Patch.applyAll (table.flatMap (Turn.patches buffer ctx file)) start offset =
      (lastSpill buffer ctx table offset).elim (start offset)
        fun spill => sectionByte file spill.sec offset := by
  apply Patch.applyAll_flatMap table start
  intro turn member current
  rw [Turn.patches_byte buffer ctx file (placed turn member)]
  simp only [Turn.writes_outside buffer ctx (foreign turn member), decide_eq_true_eq]

end Bytes

/-- Where a section of the table ends up: a later spill wins over the section, the section over
what was there before. -/
theorem applyAll_owned {buffer : UInt64} {ctx : PeLoaderCtx} {file : ByteStore}
    {before after : List Turn} {turn : Turn} (start : ByteStore) {offset : ℕ}
    (placed : ∀ other ∈ before ++ turn :: after, other.loads = true →
      (sectionBase buffer ctx other.sec - buffer).toNat = other.sec.virtualAddress.toNat)
    (disjoint : (before ++ turn :: after).Pairwise fun first second =>
      first.loads = true → second.loads = true → first.virtualRange.Disjoint second.virtualRange)
    (loads : turn.loads = true) (inside : turn.virtualRange.Contains offset) :
    Patch.applyAll ((before ++ turn :: after).flatMap (Turn.patches buffer ctx file)) start offset =
      (lastSpill buffer ctx after offset).elim
        (if turn.Writes buffer ctx offset then sectionByte file turn.sec offset
          else (lastSpill buffer ctx before offset).elim (start offset)
            fun spill => sectionByte file spill.sec offset)
        fun spill => sectionByte file spill.sec offset := by
  obtain ⟨_, tail, crossed⟩ := List.pairwise_append.mp disjoint
  obtain ⟨later, _⟩ := List.pairwise_cons.mp tail
  have placedBefore : ∀ other ∈ before, other.loads = true →
      (sectionBase buffer ctx other.sec - buffer).toNat = other.sec.virtualAddress.toNat :=
    fun other member => placed other (List.mem_append_left _ member)
  have placedAfter : ∀ other ∈ after, other.loads = true →
      (sectionBase buffer ctx other.sec - buffer).toNat = other.sec.virtualAddress.toNat :=
    fun other member => placed other (List.mem_append_right _ (List.mem_cons_of_mem _ member))
  rw [List.flatMap_append, List.flatMap_cons, Patch.applyAll_append, Patch.applyAll_append,
    applyAll_foreign buffer ctx file _ placedAfter
      fun other member loaded owned => later other member loads loaded offset inside owned,
    Turn.patches_byte buffer ctx file (placed turn (by simp)),
    applyAll_foreign buffer ctx file _ placedBefore
      fun other member loaded owned =>
        crossed other member turn (by simp) loaded loads offset owned inside]

/-- A load that succeeds has found the entry point in the image and, if it went through the
section table, no section to reject. -/
theorem loadImage_success {build : Build} {services : Services} {ctx : PeLoaderCtx}
    {st : LoaderState} (success : (loadImage build services ctx st).outcome = .ok) :
    (sectionsReached build services ctx = true ↔ ctx.numberOfRvaAndSizes > 5) ∧
      (sectionsReached build services ctx = true →
        (sectionsLoaded services ctx st).succeeds = true) := by
  have outcome := relocateImage_cases build (destination services ctx).buffer ctx
    (headersCopied services ctx st)
  simp only [loadImage] at success
  split_ifs at success with invalid
  · simp [failImage] at success
  · have reached : sectionsReached build services ctx =
        reachesSections build (destination services ctx).buffer ctx := by
      simp only [sectionsReached, bne, Bool.eq_false_iff.mpr invalid, Bool.not_false, Bool.true_and]
    rw [reached]
    generalize relocateImage build (destination services ctx).buffer ctx
      (headersCopied services ctx st) = relocated at success outcome
    obtain ⟨outcome', after⟩ := relocated
    rcases outcome with ⟨rfl, passes⟩ | ⟨status, error, rfl⟩ | ⟨_, _, _, rfl⟩ | ⟨_, _, rfl⟩
    · have long (both : reachesSections build (destination services ctx).buffer ctx = true) :
          ctx.numberOfRvaAndSizes > 5 := of_decide_eq_true (Bool.and_eq_true_iff.mp both).1
      exact ⟨⟨long, fun directories => (passes directories).1⟩, fun both => (passes (long both)).2⟩
    · simp [failImage] at success
    · simp at success
    · simp at success

/-- The image before base relocation is the section plan applied to the copied headers. -/
theorem imageBeforeFixup_eq (build : Build) (services : Services) (ctx : PeLoaderCtx)
    (st : LoaderState) :
    imageBeforeFixup build services ctx st =
      Patch.applyAll ((sectionPlan build services ctx st.memory.file).flatMap
        (Turn.patches (destination services ctx).buffer ctx st.memory.file))
        ((Patch.copy 0 ctx.sizeOfHeaders.toNat st.memory.file 0).apply st.memory.image) := by
  unfold imageBeforeFixup sectionPlan
  split_ifs with reached
  · unfold sectionsLoaded relocateSections
    rw [relocateSectionsLoop_image, headersCopied_memory]
  · rw [headersCopied_memory]
    rfl

/-- In a successful load the plan is the whole table, or nothing. -/
theorem sectionPlan_of_success {build : Build} {services : Services} {ctx : PeLoaderCtx}
    {st : LoaderState} (success : (loadImage build services ctx st).outcome = .ok) :
    sectionPlan build services ctx st.memory.file =
      if ctx.numberOfRvaAndSizes > 5 then sectionTable ctx st.memory.file else [] := by
  obtain ⟨reachedIff, passes⟩ := loadImage_success success
  unfold sectionPlan
  by_cases reached : sectionsReached build services ctx = true
  · rw [if_pos reached, if_pos (reachedIff.mp reached)]
    have table := turns_of_success (passes reached)
    rwa [headersCopied_memory] at table
  · rw [if_neg reached, if_neg fun long => reached (reachedIff.mpr long)]

/-- Every section keeps its bytes: where a later section spills over it the spilled byte is the
section's own, and raw data that is not copied because it is in place was left by a spill. -/
def KeepsSections (buffer : UInt64) (ctx : PeLoaderCtx) (file : ByteStore) : Prop :=
  ∀ before turn after, sectionTable ctx file = before ++ turn :: after → turn.loads = true →
    ∀ offset, turn.virtualRange.Contains offset →
      (∀ spill, lastSpill buffer ctx after offset = some spill →
        sectionByte file spill.sec offset = sectionByte file turn.sec offset) ∧
      (lastSpill buffer ctx after offset = none → ¬ turn.Writes buffer ctx offset →
        ∃ spill, lastSpill buffer ctx before offset = some spill ∧
          sectionByte file spill.sec offset = sectionByte file turn.sec offset)

/-- Sections behind the headers leave the header bytes alone. -/
theorem applyAll_headers {buffer : UInt64} {ctx : PeLoaderCtx} {file : ByteStore}
    {table : List Turn} (start : ByteStore) {offset : ℕ}
    (placed : ∀ turn ∈ table, turn.loads = true →
      (sectionBase buffer ctx turn.sec - buffer).toNat = turn.sec.virtualAddress.toNat)
    (behind : ∀ turn ∈ table, turn.loads = true → offset < turn.sec.virtualAddress.toNat) :
    Patch.applyAll (table.flatMap (Turn.patches buffer ctx file)) start offset = start offset := by
  have foreign : ∀ turn ∈ table, turn.loads = true → ¬ turn.virtualRange.Contains offset := by
    intro turn member loads owned
    exact absurd owned.1 (Nat.not_le.mpr (behind turn member loads))
  have none : lastSpill buffer ctx table offset = none := by
    rw [lastSpill, List.getLast?_eq_none_iff, List.filter_eq_nil_iff]
    intro turn member spills
    obtain ⟨loads, _, _, lower, _⟩ := of_decide_eq_true spills
    have := behind turn member loads
    omega
  rw [applyAll_foreign buffer ctx file start placed foreign, none]
  rfl

section Success

variable {build : Build} {services : Services} {imageData : SimpleBuffer} {ctx : PeLoaderCtx}
  {file initial : ByteStore}
  (success : (loadImage build services ctx
    (headersRead build imageData ⟨file, initial⟩)).outcome = .ok)

include success in
/-- In a successful load that goes through the table every section to load is in place to be
written at its virtual address. -/
theorem sectionTable_placed (long : ctx.numberOfRvaAndSizes > 5) :
    ∀ turn ∈ sectionTable ctx file, turn.loads = true →
      (sectionBase (destination services ctx).buffer ctx turn.sec -
        (destination services ctx).buffer).toNat = turn.sec.virtualAddress.toNat := by
  intro turn member loads
  have plan := sectionPlan_of_success success
  rw [if_pos long] at plan
  obtain ⟨_, ⟨_, _, passed⟩, _⟩ := sectionPlan_loaded
    (headersRead build imageData ⟨file, initial⟩) (plan ▸ member) loads
  exact (checkSection_load_start passed).1

include success in
/-- The image before base relocation, from the file and any initial contents of the pages. -/
theorem imageBeforeFixup_of_success (image : ByteStore) :
    imageBeforeFixup build services ctx (headersRead build imageData ⟨file, image⟩) =
      Patch.applyAll ((if ctx.numberOfRvaAndSizes > 5 then sectionTable ctx file else []).flatMap
        (Turn.patches (destination services ctx).buffer ctx file))
        ((Patch.copy 0 ctx.sizeOfHeaders.toNat file 0).apply image) := by
  have plan : sectionPlan build services ctx file = _ := sectionPlan_of_success success
  rw [imageBeforeFixup_eq]
  change Patch.applyAll ((sectionPlan build services ctx file).flatMap _) _ = _
  rw [plan]
  rfl

include success in
/-- The header bytes survive the loading of sections that lie behind them. -/
theorem imageBeforeFixup_headers (separated : WellSeparated ctx file) (image : ByteStore)
    {offset : ℕ} (bound : offset < ctx.sizeOfHeaders.toNat) :
    imageBeforeFixup build services ctx (headersRead build imageData ⟨file, image⟩) offset =
      file offset := by
  have header : (Patch.copy 0 ctx.sizeOfHeaders.toNat file 0).apply image offset = file offset := by
    have copied := @Patch.apply_copy image file 0 _ 0 _ bound
    rwa [Nat.zero_add] at copied
  rw [imageBeforeFixup_of_success success]
  split_ifs with long
  · rw [applyAll_headers _ (sectionTable_placed success long), header]
    intro turn member loads
    exact Nat.lt_of_lt_of_le bound (separated.behind turn member loads)
  · exact header

/-- Behind the headers the header copy changes nothing. -/
theorem copyHeaders_outside (image : ByteStore) {offset : ℕ}
    (behind : ctx.sizeOfHeaders.toNat ≤ offset) :
    (Patch.copy 0 ctx.sizeOfHeaders.toNat file 0).apply image offset = image offset :=
  Patch.apply_copy_outside image file (.inr (by omega))

include success in
/-- A byte of a section after the section loop. -/
theorem imageBeforeFixup_section (separated : WellSeparated ctx file)
    (long : ctx.numberOfRvaAndSizes > 5) (image : ByteStore) {before after : List Turn}
    {turn : Turn} {offset : ℕ} (split : sectionTable ctx file = before ++ turn :: after)
    (loads : turn.loads = true) (inside : turn.virtualRange.Contains offset) :
    imageBeforeFixup build services ctx (headersRead build imageData ⟨file, image⟩) offset =
      (lastSpill (destination services ctx).buffer ctx after offset).elim
        (if turn.Writes (destination services ctx).buffer ctx offset then
            sectionByte file turn.sec offset
          else (lastSpill (destination services ctx).buffer ctx before offset).elim
            (image offset) fun spill => sectionByte file spill.sec offset)
        fun spill => sectionByte file spill.sec offset := by
  have member : turn ∈ sectionTable ctx file := by rw [split]; simp
  have behind := Nat.le_trans (separated.behind turn member loads) inside.1
  have placed := sectionTable_placed success long
  have disjoint := separated.disjoint
  rw [imageBeforeFixup_of_success success, if_pos long]
  rw [split] at placed disjoint ⊢
  rw [applyAll_owned _ placed disjoint loads inside, copyHeaders_outside image behind]

include success in
/-- Without the section loop a section keeps what the pages held. -/
theorem imageBeforeFixup_unloaded (separated : WellSeparated ctx file)
    (short : ¬ ctx.numberOfRvaAndSizes > 5) (image : ByteStore) {turn : Turn} {offset : ℕ}
    (member : turn ∈ sectionTable ctx file) (loads : turn.loads = true)
    (inside : turn.virtualRange.Contains offset) :
    imageBeforeFixup build services ctx (headersRead build imageData ⟨file, image⟩) offset =
      image offset := by
  have behind := Nat.le_trans (separated.behind turn member loads) inside.1
  rw [imageBeforeFixup_of_success success, if_neg short]
  exact copyHeaders_outside image behind

end Success

/-- No byte differs from itself plus one, so unknown contents cannot be relied on. -/
theorem exists_other_byte (byte : UInt8) : ∃ other : UInt8, other ≠ byte :=
  ⟨byte + 1, by simp⟩

/-- A successful load of separated sections has the reference layout exactly when the sections are
loaded at all, or all empty, and every section keeps its bytes. -/
theorem loadsReferenceLayout_iff {build : Build} {services : Services} {imageData : SimpleBuffer}
    {ctx : PeLoaderCtx} {file : ByteStore} (initial : ByteStore)
    (accepted : (readHeaders build imageData file).1 = .ok ctx)
    (success : (peHandleImage build services imageData ⟨file, initial⟩).outcome = .ok)
    (separated : WellSeparated ctx file) :
    LoadsReferenceLayout build services imageData ctx file ↔
      (∀ turn ∈ sectionTable ctx file, turn.loads = true → turn.sec.virtualSize = 0) ∨
        ctx.numberOfRvaAndSizes > 5 ∧ KeepsSections (destination services ctx).buffer ctx file := by
  have pointer := peHandleImage_pointer success
  rw [peHandleImage_accepted ⟨file, initial⟩ pointer accepted] at success
  constructor
  · intro layout
    by_cases long : ctx.numberOfRvaAndSizes > 5
    · refine .inr ⟨long, fun before turn after split loads offset inside => ?_⟩
      have member : turn ∈ sectionTable ctx file := by rw [split]; simp
      constructor
      · intro spill later
        have byte := imageBeforeFixup_section success separated long initial split loads inside
        rw [(layout initial).sections turn member loads offset inside, later] at byte
        exact byte.symm
      · intro unspilled kept
        obtain ⟨other, differs⟩ := exists_other_byte (sectionByte file turn.sec offset)
        have byte := imageBeforeFixup_section success separated long (fun _ => other) split loads
          inside
        rw [(layout _).sections turn member loads offset inside, unspilled, if_neg kept] at byte
        cases earlier : lastSpill (destination services ctx).buffer ctx before offset with
        | none => rw [earlier] at byte; exact absurd byte.symm differs
        | some spill => rw [earlier] at byte; exact ⟨spill, rfl, byte.symm⟩
    · refine .inl fun turn member loads => ?_
      by_contra nonempty
      have positive : 0 < turn.sec.virtualSize.toNat :=
        UInt32.lt_iff_toNat_lt.mp (UInt32.pos_iff_ne_zero.mpr nonempty)
      have inside : turn.virtualRange.Contains turn.sec.virtualAddress.toNat :=
        ⟨Nat.le_refl _, Nat.lt_add_of_pos_right positive⟩
      obtain ⟨other, differs⟩ :=
        exists_other_byte (sectionByte file turn.sec turn.sec.virtualAddress.toNat)
      have byte := imageBeforeFixup_unloaded success separated long (fun _ => other) member loads
        inside
      rw [(layout _).sections turn member loads _ inside] at byte
      exact differs byte.symm
  · rintro condition image
    refine ⟨fun offset bound => imageBeforeFixup_headers success separated image bound, ?_⟩
    intro turn member loads offset inside
    rcases condition with empty | ⟨long, keeps⟩
    · have impossible := inside.2
      have lower := inside.1
      simp only [Turn.virtualRange, empty turn member loads] at impossible lower
      simp at impossible
      omega
    · obtain ⟨before, after, split⟩ := List.append_of_mem member
      obtain ⟨spilled, inPlace⟩ := keeps before turn after split loads offset inside
      rw [imageBeforeFixup_section success separated long image split loads inside]
      cases later : lastSpill (destination services ctx).buffer ctx after offset with
      | some spill => exact spilled spill later
      | none =>
        by_cases written : turn.Writes (destination services ctx).buffer ctx offset
        · simp only [Option.elim_none, if_pos written]
        · obtain ⟨spill, earlier, same⟩ := inPlace later written
          simp only [Option.elim_none, if_neg written, earlier, Option.elim_some, same]

/-- Raw data that fits the virtual size and is not in place makes every section keep its bytes. -/
theorem keepsSections_of_rawFits {buffer : UInt64} {ctx : PeLoaderCtx} {file : ByteStore}
    (fits : ∀ turn ∈ sectionTable ctx file, turn.loads = true →
      turn.sec.uninitializedData = true ∨
        turn.sec.sizeOfRawData ≤ turn.sec.virtualSize ∧ inPlace buffer ctx turn.sec = false) :
    KeepsSections buffer ctx file := by
  intro before turn after split loads offset inside
  have later : lastSpill buffer ctx after offset = none := by
    rw [lastSpill, List.getLast?_eq_none_iff, List.filter_eq_nil_iff]
    intro other member spills
    obtain ⟨loaded, initialized, _, lower, upper⟩ := of_decide_eq_true spills
    rcases fits other (by rw [split]; simp [member]) loaded with uninitialized | ⟨rawFits, _⟩
    · rw [uninitialized] at initialized
      contradiction
    · rw [UInt32.le_iff_toNat_le] at rawFits
      omega
  refine ⟨fun spill some => by rw [later] at some; contradiction, fun _ kept => absurd ?_ kept⟩
  rw [Turn.writes_inside buffer ctx loads inside]
  rcases fits turn (by rw [split]; simp) loads with uninitialized | ⟨_, elsewhere⟩
  · exact .inl uninitialized
  · by_cases empty : turn.sec.sizeOfRawData > 0
    · exact .inr (.inl (by simp [copiesRawData, elsewhere, empty]))
    · refine .inr (.inr ?_)
      have zero : turn.sec.sizeOfRawData.toNat = 0 := by
        simpa [UInt32.lt_iff_toNat_lt] using empty
      rw [zero]
      exact inside.1

set_option maxRecDepth 4000 in
theorem loadsReferenceLayout_fittingImage :
    ∃ ctx, (readHeaders defaultBuild (smallBuffer 0xa00) fittingImage).1 = .ok ctx ∧
      LoadsReferenceLayout defaultBuild smallServices (smallBuffer 0xa00) ctx fittingImage :=
  ⟨_, rfl, (loadsReferenceLayout_iff (fun _ => 0) rfl (by decide) (by decide)).mpr
    (.inr ⟨by decide, keepsSections_of_rawFits (by decide)⟩)⟩

/-- An image whose data directory ends right before the base relocations. -/
def shortDirectoryImage : ByteStore :=
  smallImage 1 0x2000 0x200 5 (sectionFields 0 0x1000 0x1000 0x200 0x200 0x60000020)

set_option maxRecDepth 4000 in
/-- The load succeeds and leaves the section as the pages were allocated. -/
theorem not_loadsReferenceLayout_shortDirectoryImage :
    ¬ ∀ (build : Build) (services : Services) (imageData : SimpleBuffer) (ctx : PeLoaderCtx)
      (file initial : ByteStore), (readHeaders build imageData file).1 = .ok ctx →
      (peHandleImage build services imageData ⟨file, initial⟩).outcome = .ok →
      WellSeparated ctx file → LoadsReferenceLayout build services imageData ctx file := by
  intro claim
  have layout := claim defaultBuild smallServices (smallBuffer 0x400) _ shortDirectoryImage
    (fun _ => 0) rfl (by decide) (by decide) (fun _ => 0xff)
  have byte := layout.sections ⟨0x148, PeSectionHeader.read shortDirectoryImage 0x148, true, none⟩
    (by decide) rfl 0x1000 (by decide)
  revert byte
  decide

end ZLoader
