import ZLoader.Soundness.FixupInvariant

/-! # Writes of a load stay inside the image

`image_address` accepts the address right behind the image, so a section may end one byte too far,
and `size_of_raw_data` is compared with nothing. The writes of a load are inside the image exactly
when neither happens in a section that the loop loads.
-/

namespace ZLoader

/-- The sections a load goes through: none if the section loop is not reached. -/
def sectionPlan (build : Build) (services : Services) (ctx : PeLoaderCtx) (file : ByteStore) :
    List Turn :=
  if sectionsReached build services ctx then
    turns (destination services ctx).buffer ctx (.read file ctx.relocDirectory) file
      ctx.numberOfSections.toNat ctx.firstSection none
  else []

/-- The virtual range of the section ends inside the image. -/
def SectionFits (ctx : PeLoaderCtx) (sec : PeSectionHeader) : Prop :=
  sec.virtualAddress.toNat + sec.virtualSize.toNat ≤ ctx.sizeOfImage.toNat

instance (ctx : PeLoaderCtx) (sec : PeSectionHeader) : Decidable (SectionFits ctx sec) :=
  inferInstanceAs (Decidable (_ ≤ _))

/-- The raw data, if it is copied, ends inside the image. -/
def RawDataFits (buffer : UInt64) (ctx : PeLoaderCtx) (sec : PeSectionHeader) : Prop :=
  sec.uninitializedData = false → copiesRawData buffer ctx sec = true →
    sec.virtualAddress.toNat + sec.sizeOfRawData.toNat ≤ ctx.sizeOfImage.toNat

instance (buffer : UInt64) (ctx : PeLoaderCtx) (sec : PeSectionHeader) :
    Decidable (RawDataFits buffer ctx sec) := inferInstanceAs (Decidable (_ → _ → _))

/-- Every byte the call writes to the destination lies in the loaded image. -/
def WritesInside (ctx : PeLoaderCtx) (result : HandleImageResult) : Prop :=
  ∀ window, .writeImage window ∈ result.state.trace → window.Within ctx.sizeOfImage.toNat

/-- A section that is to be loaded and does not fit makes the section loop return an error by the
end of its turn. -/
def RejectsOversized (build : Build) (services : Services) (ctx : PeLoaderCtx)
    (st : LoaderState) : Prop :=
  sectionsReached build services ctx = true → ∀ index < ctx.numberOfSections.toNat,
    let sec := PeSectionHeader.read st.memory.file (ctx.firstSection + sizeofPeSectionHeader * index)
    sec.discardable = false → ¬ SectionFits ctx sec →
      (relocateSectionsLoop (destination services ctx).buffer ctx
        (.read st.memory.file ctx.relocDirectory) (index + 1) ctx.firstSection none false
        (headersCopied services ctx st)).fails = true

/-- When the message about a section does not come to an end, no section from there on is to be
loaded and does not fit. -/
def HangsHarmlessly (build : Build) (services : Services) (ctx : PeLoaderCtx) (file : ByteStore) :
    Prop :=
  ∀ turn ∈ sectionPlan build services ctx file, turn.hangs = true →
    ∀ index < ctx.numberOfSections.toNat,
      let offset := ctx.firstSection + sizeofPeSectionHeader * index
      turn.offset ≤ offset → (PeSectionHeader.read file offset).discardable = false →
        SectionFits ctx (PeSectionHeader.read file offset)

instance (build : Build) (services : Services) (ctx : PeLoaderCtx) (file : ByteStore) :
    Decidable (HangsHarmlessly build services ctx file) :=
  inferInstanceAs (Decidable (∀ turn ∈ _, _ → ∀ index < _, _ → _ → _))

/-- The loop over the first headers of the table gets past the loaded ones among them. -/
theorem turns_loaded_index {buffer : UInt64} {ctx : PeLoaderCtx} {directory : PeDataDirectory}
    {count offset : ℕ} {relocSection : Option ℕ} {found : Bool} {st : LoaderState} {turn : Turn}
    (member : turn ∈ turns buffer ctx directory st.memory.file count offset relocSection)
    (loads : turn.loads = true) :
    ∃ index < count,
      turn.sec = PeSectionHeader.read st.memory.file (offset + sizeofPeSectionHeader * index) ∧
      (relocateSectionsLoop buffer ctx directory (index + 1) offset relocSection found
        st).succeeds = true := by
  induction count generalizing offset relocSection found st with
  | zero => cases member
  | succ count ih =>
    have shift (index : ℕ) : offset + sizeofPeSectionHeader * (index + 1) =
        offset + sizeofPeSectionHeader + sizeofPeSectionHeader * index := by
      rw [Nat.mul_succ]; omega
    simp only [turns] at member
    cases passed : checkSection buffer ctx directory relocSection offset
        (PeSectionHeader.read st.memory.file offset) with
    | error status =>
      simp only [passed, List.mem_singleton] at member
      obtain rfl := member
      contradiction
    | ok verdict =>
      simp only [passed] at member
      cases verdict with
      | illegalVma =>
        obtain rfl := List.mem_singleton.mp member
        contradiction
      | skip next =>
        rcases List.mem_cons.mp member with rfl | later
        · contradiction
        · obtain ⟨index, bound, header, status⟩ := @ih (offset + sizeofPeSectionHeader) next found
            (st.log (.readFile ⟨offset, sizeofPeSectionHeader⟩)) later
          refine ⟨index + 1, by omega, by rw [shift]; exact header, ?_⟩
          rw [relocateSectionsLoop]
          simpa only [passed] using status
      | load next =>
        rcases List.mem_cons.mp member with rfl | later
        · refine ⟨0, by omega, rfl, ?_⟩
          simp only [relocateSectionsLoop, passed]
          rfl
        · have frame := (loadSection_frame buffer ctx (PeSectionHeader.read st.memory.file offset)
            (st.log (.readFile ⟨offset, sizeofPeSectionHeader⟩))).1
          obtain ⟨index, bound, header, status⟩ := @ih (offset + sizeofPeSectionHeader) next
            (found || containsEntryPoint ctx (PeSectionHeader.read st.memory.file offset))
            (loadSection buffer ctx (PeSectionHeader.read st.memory.file offset)
              (st.log (.readFile ⟨offset, sizeofPeSectionHeader⟩)))
            (by rw [frame]; exact later)
          rw [frame] at header
          refine ⟨index + 1, by omega, by rw [shift]; exact header, ?_⟩
          rw [relocateSectionsLoop]
          simpa only [passed] using status

/-- The plan of a shorter table is part of the plan of a longer one. -/
theorem turns_mono {buffer : UInt64} {ctx : PeLoaderCtx} {directory : PeDataDirectory}
    {file : ByteStore} (short : ℕ) {long offset : ℕ} {relocSection : Option ℕ} {turn : Turn}
    (bound : short ≤ long) (member : turn ∈ turns buffer ctx directory file short offset relocSection) :
    turn ∈ turns buffer ctx directory file long offset relocSection := by
  induction short generalizing long offset relocSection with
  | zero => cases member
  | succ short ih =>
    obtain ⟨long, rfl⟩ : ∃ rest, long = rest + 1 := ⟨long - 1, by omega⟩
    simp only [turns] at member ⊢
    split at member
    · exact member
    · exact member
    · rcases List.mem_cons.mp member with rfl | later
      · exact List.mem_cons_self ..
      · exact List.mem_cons_of_mem _ (ih (by omega) later)
    · rcases List.mem_cons.mp member with rfl | later
      · exact List.mem_cons_self ..
      · exact List.mem_cons_of_mem _ (ih (by omega) later)

theorem mem_tableTurns (file : ByteStore) {count offset index : ℕ} (bound : index < count) :
    let sec := PeSectionHeader.read file (offset + sizeofPeSectionHeader * index)
    ⟨offset + sizeofPeSectionHeader * index, sec, !sec.discardable, none⟩ ∈
      tableTurns file count offset := by
  induction count generalizing offset index with
  | zero => omega
  | succ count ih =>
    cases index with
    | zero => exact List.mem_cons_self ..
    | succ index =>
      have shift : offset + sizeofPeSectionHeader * (index + 1) =
          offset + sizeofPeSectionHeader + sizeofPeSectionHeader * index := by
        rw [Nat.mul_succ]; omega
      rw [shift]
      exact List.mem_cons_of_mem _ (ih (Nat.lt_of_succ_lt_succ bound))

/-- A loaded section starts in the image, at its virtual address. -/
theorem checkSection_load_start {buffer : UInt64} {ctx : PeLoaderCtx} {directory : PeDataDirectory}
    {relocSection next : Option ℕ} {offset : ℕ} {sec : PeSectionHeader}
    (passed : checkSection buffer ctx directory relocSection offset sec = .ok (.load next)) :
    (sectionBase buffer ctx sec - buffer).toNat = sec.virtualAddress.toNat ∧
      sec.virtualAddress.toNat ≤ ctx.sizeOfImage.toNat := by
  have valid := (checkSection_load passed).2.1
  exact ⟨imageAddress_sub valid, (imageAddress_bounds valid).1⟩

/-- A section that fits with its raw data is written inside the image. -/
theorem sectionEvents_within {buffer : UInt64} {ctx : PeLoaderCtx} {sec : PeSectionHeader}
    (start : (sectionBase buffer ctx sec - buffer).toNat = sec.virtualAddress.toNat)
    (fits : SectionFits ctx sec) (rawFits : RawDataFits buffer ctx sec) {window : Window}
    (member : window ∈ imageWrites (sectionEvents buffer ctx sec)) :
    window.Within ctx.sizeOfImage.toNat := by
  unfold SectionFits at fits
  unfold RawDataFits at rawFits
  have tail (less : sec.sizeOfRawData < sec.virtualSize) :
      (Window.mk (sec.virtualAddress.toNat + sec.sizeOfRawData.toNat)
        (sec.virtualSize - sec.sizeOfRawData).toNat).Within ctx.sizeOfImage.toNat := by
    rw [UInt32.lt_iff_toNat_lt] at less
    have size := sec.virtualSize.toNat_lt
    rw [Window.within_iff, UInt32.toNat_sub]
    exact .inr (by dsimp only; omega)
  unfold sectionEvents at member
  rw [start] at member
  dsimp only at member
  split_ifs at member with uninitialized copied short short
  · obtain rfl : window = _ := by simpa using member
    exact (Window.within_iff _ _).mpr (.inr fits)
  · have copyFits := rawFits (Bool.eq_false_iff.mpr uninitialized) copied
    rcases (by simpa using member : window = _ ∨ window = _) with rfl | rfl
    · exact (Window.within_iff _ _).mpr (.inr copyFits)
    · exact tail short
  · have copyFits := rawFits (Bool.eq_false_iff.mpr uninitialized) copied
    obtain rfl : window = _ := by simpa using member
    exact (Window.within_iff _ _).mpr (.inr copyFits)
  · obtain rfl : window = _ := by simpa using member
    exact tail short
  · simp at member

/-- A copy of raw data is one of the writes of its section. -/
theorem sectionEvents_copy {buffer : UInt64} {ctx : PeLoaderCtx} {sec : PeSectionHeader}
    (start : (sectionBase buffer ctx sec - buffer).toNat = sec.virtualAddress.toNat)
    (initialized : sec.uninitializedData = false) (copied : copiesRawData buffer ctx sec = true) :
    ⟨sec.virtualAddress.toNat, sec.sizeOfRawData.toNat⟩ ∈
      imageWrites (sectionEvents buffer ctx sec) := by
  simp [sectionEvents, initialized, copied, start]

/-- The writes of a load: the headers, then the sections of the plan. -/
theorem accessed_imageWrites (build : Build) (services : Services) (ctx : PeLoaderCtx)
    (st : LoaderState) :
    imageWrites (accessed build services ctx st).trace =
      imageWrites st.trace ++ [⟨0, ctx.sizeOfHeaders.toNat⟩] ++
        imageWrites ((sectionPlan build services ctx st.memory.file).flatMap
          (Turn.events (destination services ctx).buffer ctx)) := by
  unfold accessed sectionPlan
  split_ifs with reached
  · have sections : imageWrites (sectionsLoaded services ctx st).state.trace =
        imageWrites st.trace ++ [⟨0, ctx.sizeOfHeaders.toNat⟩] ++
          imageWrites ((turns (destination services ctx).buffer ctx
            (.read st.memory.file ctx.relocDirectory) st.memory.file ctx.numberOfSections.toNat
              ctx.firstSection none).flatMap (Turn.events (destination services ctx).buffer ctx)) := by
      unfold sectionsLoaded relocateSections
      rw [relocateSectionsLoop_trace, imageWrites_append, (headersCopied_accesses ..).1,
        headersCopied_memory]
    dsimp only
    split
    · exact sections
    · rw [relocationFixup_imageWrites, sections]
  · rw [(headersCopied_accesses ..).1]
    simp

theorem readHeaders_imageWrites (build : Build) (buffer : SimpleBuffer) (file : ByteStore) :
    imageWrites (readHeaders build buffer file).2 = [] := by
  rw [imageWrites, List.filterMap_eq_nil_iff]
  intro event member
  obtain ⟨window, rfl⟩ := readHeaders_onlyReads build buffer file event member
  rfl

/-- The writes of a call on an accepted image. -/
theorem peHandleImage_imageWrites {build : Build} {services : Services} {imageData : SimpleBuffer}
    {memory : Memory} {ctx : PeLoaderCtx} (pointer : imageData.buffer ≠ 0)
    (accepted : (readHeaders build imageData memory.file).1 = .ok ctx) :
    imageWrites (peHandleImage build services imageData memory).state.trace =
      ⟨0, ctx.sizeOfHeaders.toNat⟩ ::
        imageWrites ((sectionPlan build services ctx memory.file).flatMap
          (Turn.events (destination services ctx).buffer ctx)) := by
  rw [peHandleImage_accepted memory pointer accepted, (loadImage_serviced ..).imageWrites_eq,
    accessed_imageWrites]
  change imageWrites (readHeaders build imageData memory.file).2 ++ _ ++ _ = _
  rw [readHeaders_imageWrites]
  rfl

/-- A turn of the plan that loads its section has passed the checks, and the loop over the table
up to it succeeds. -/
theorem sectionPlan_loaded {build : Build} {services : Services} {ctx : PeLoaderCtx}
    (st : LoaderState) {turn : Turn} (member : turn ∈ sectionPlan build services ctx st.memory.file)
    (loads : turn.loads = true) :
    sectionsReached build services ctx = true ∧
    (∃ relocSection next, checkSection (destination services ctx).buffer ctx
      (.read st.memory.file ctx.relocDirectory) relocSection turn.offset turn.sec =
        .ok (.load next)) ∧
    ∃ index < ctx.numberOfSections.toNat,
      turn.sec = PeSectionHeader.read st.memory.file
        (ctx.firstSection + sizeofPeSectionHeader * index) ∧
      (relocateSectionsLoop (destination services ctx).buffer ctx
        (.read st.memory.file ctx.relocDirectory) (index + 1) ctx.firstSection none false
        (headersCopied services ctx st)).succeeds = true := by
  unfold sectionPlan at member
  split_ifs at member with reached
  · refine ⟨reached, turns_loaded member loads, ?_⟩
    have file : (headersCopied services ctx st).memory.file = st.memory.file := by
      rw [headersCopied_memory]
    rw [← file]
    exact turns_loaded_index (by rw [file]; exact member) loads
  · cases member

/-- A section that is not discardable is in the plan as soon as the loop gets past it. -/
theorem mem_sectionPlan {build : Build} {services : Services} {ctx : PeLoaderCtx}
    {st : LoaderState} (reached : sectionsReached build services ctx = true) {index : ℕ}
    (bound : index < ctx.numberOfSections.toNat)
    (success : (relocateSectionsLoop (destination services ctx).buffer ctx
      (.read st.memory.file ctx.relocDirectory) (index + 1) ctx.firstSection none false
      (headersCopied services ctx st)).succeeds = true) :
    let sec := PeSectionHeader.read st.memory.file (ctx.firstSection + sizeofPeSectionHeader * index)
    ⟨ctx.firstSection + sizeofPeSectionHeader * index, sec, !sec.discardable, none⟩ ∈
      sectionPlan build services ctx st.memory.file := by
  have file : (headersCopied services ctx st).memory.file = st.memory.file := by
    rw [headersCopied_memory]
  have table := turns_of_success success
  rw [file] at table
  unfold sectionPlan
  rw [if_pos reached]
  apply turns_mono (index + 1) (by omega)
  rw [table]
  exact mem_tableTurns _ (by omega)

/-- The plan of a load is empty unless the section loop is reached. -/
theorem sectionPlan_reached {build : Build} {services : Services} {ctx : PeLoaderCtx}
    {file : ByteStore} {turn : Turn} (member : turn ∈ sectionPlan build services ctx file) :
    sectionsReached build services ctx = true := by
  rw [sectionPlan] at member
  split_ifs at member with reached
  · exact reached
  · cases member

/-- The loop over the first headers of the table never returns exactly when it comes to a header
whose message does not end. -/
theorem relocateSectionsLoop_none_iff {build : Build} {services : Services} {ctx : PeLoaderCtx}
    {st : LoaderState} (reached : sectionsReached build services ctx = true) {count : ℕ}
    (bound : count ≤ ctx.numberOfSections.toNat) :
    (relocateSectionsLoop (destination services ctx).buffer ctx
      (.read st.memory.file ctx.relocDirectory) count ctx.firstSection none false
      (headersCopied services ctx st)).status = none ↔
      ∃ turn ∈ sectionPlan build services ctx st.memory.file, turn.hangs = true ∧
        ∃ index < count, turn.offset = ctx.firstSection + sizeofPeSectionHeader * index := by
  have file : (headersCopied services ctx st).memory.file = st.memory.file := by
    rw [headersCopied_memory]
  rw [relocateSectionsLoop_hangs_iff, file, sectionPlan, if_pos reached]
  constructor
  · rintro ⟨turn, member, hangs⟩
    obtain ⟨index, before, position, _⟩ := turns_hangs member hangs
    exact ⟨turn, turns_mono count bound member, hangs, index, before, position⟩
  · rintro ⟨turn, member, hangs, index, before, position⟩
    obtain ⟨other, _, position', found⟩ := turns_hangs member hangs
    have same : sizeofPeSectionHeader * index = sizeofPeSectionHeader * other := by omega
    obtain rfl := Nat.eq_of_mul_eq_mul_left (by decide) same
    exact ⟨turn, found count before, hangs⟩

theorem SectionsResult.cases (result : SectionsResult) :
    result.status = none ∨ result.fails = true ∨ result.succeeds = true := by
  rw [SectionsResult.fails, SectionsResult.succeeds]
  cases result.status with
  | none => exact .inl rfl
  | some status => cases failed : efiError status <;> simp [failed]

theorem SectionsResult.fails_ne_none {result : SectionsResult} (fails : result.fails = true) :
    result.status ≠ none := by
  intro none_
  rw [SectionsResult.fails, none_] at fails
  contradiction

theorem SectionsResult.not_fails {result : SectionsResult} (succeeds : result.succeeds = true) :
    result.fails = false := by
  rw [SectionsResult.fails]
  rw [SectionsResult.succeeds] at succeeds
  cases status : result.status with
  | none => rfl
  | some word => simpa [status] using succeeds

/-- All writes of a load are inside the image, and sections that do not fit are rejected, exactly
when the loaded sections and their raw data fit, and no message keeps the loop from a section that
does not. -/
theorem writesInside_iff {build : Build} {services : Services} {imageData : SimpleBuffer}
    {memory : Memory} {ctx : PeLoaderCtx} (pointer : imageData.buffer ≠ 0)
    (accepted : (readHeaders build imageData memory.file).1 = .ok ctx) :
    WritesInside ctx (peHandleImage build services imageData memory) ∧
        RejectsOversized build services ctx (headersRead build imageData memory) ↔
      (∀ turn ∈ sectionPlan build services ctx memory.file, turn.loads = true →
        SectionFits ctx turn.sec ∧ RawDataFits (destination services ctx).buffer ctx turn.sec) ∧
      HangsHarmlessly build services ctx memory.file := by
  have file : (headersRead build imageData memory).memory.file = memory.file := rfl
  constructor
  · rintro ⟨inside, rejects⟩
    constructor
    · intro turn member loads
      obtain ⟨reached, ⟨relocSection, next, passed⟩, index, bound, header, success⟩ :=
        sectionPlan_loaded (headersRead build imageData memory) member loads
      obtain ⟨discardable, _⟩ := checkSection_load passed
      obtain ⟨start, startFits⟩ := checkSection_load_start passed
      constructor
      · by_contra oversized
        rw [header] at oversized discardable
        have fails := rejects reached index bound discardable oversized
        rw [SectionsResult.not_fails success] at fails
        contradiction
      · intro initialized copied
        have write := sectionEvents_copy start initialized copied
        have window := inside _ (mem_imageWrites.mp (by
          rw [peHandleImage_imageWrites pointer accepted]
          apply List.mem_cons_of_mem
          rw [mem_imageWrites] at write ⊢
          exact List.mem_flatMap.mpr ⟨turn, member, turn.mem_events_of_loads loads write⟩))
        rcases (Window.within_iff _ _).mp window with empty | fits
        · dsimp only at empty
          omega
        · exact fits
    · intro turn member hangs index bound offset behind discardable
      by_contra oversized
      have reached := sectionPlan_reached member
      obtain ⟨other, before, position, _⟩ :=
        turns_hangs (by rwa [sectionPlan, if_pos reached] at member) hangs
      have earlier : other ≤ index := by
        rw [position] at behind
        exact Nat.le_of_mul_le_mul_left (Nat.le_of_add_le_add_left behind) (by decide)
      refine SectionsResult.fails_ne_none (rejects reached index bound discardable oversized) ?_
      exact (relocateSectionsLoop_none_iff reached bound).mpr
        ⟨turn, member, hangs, other, by omega, position⟩
  · rintro ⟨fits, harmless⟩
    constructor
    · intro window member
      rw [← mem_imageWrites, peHandleImage_imageWrites pointer accepted] at member
      rcases List.mem_cons.mp member with rfl | member
      · have sizes := readHeaders_sizes accepted
        exact (Window.within_iff _ _).mpr (.inr (by simpa using sizes.1))
      · rw [mem_imageWrites] at member
        obtain ⟨turn, planned, event⟩ := List.mem_flatMap.mp member
        obtain ⟨loads, written⟩ := turn.writeImage_mem event
        obtain ⟨_, ⟨relocSection, next, passed⟩, _⟩ :=
          sectionPlan_loaded (headersRead build imageData memory) planned loads
        obtain ⟨sectionFits, rawFits⟩ := fits turn planned loads
        apply sectionEvents_within (checkSection_load_start passed).1 sectionFits rawFits
        rwa [mem_imageWrites]
    · intro reached index bound sec discardable oversized
      rcases SectionsResult.cases (relocateSectionsLoop (destination services ctx).buffer ctx
        (.read memory.file ctx.relocDirectory) (index + 1) ctx.firstSection none false
        (headersCopied services ctx (headersRead build imageData memory))) with
        endless | fails | success
      · obtain ⟨turn, member, hangs, other, before, position⟩ :=
          (relocateSectionsLoop_none_iff reached bound).mp endless
        refine absurd (harmless turn member hangs index bound ?_ discardable) oversized
        rw [position]
        exact Nat.add_le_add_left (Nat.mul_le_mul_left _ (Nat.le_of_lt_succ before)) _
      · exact fails
      · have planned := mem_sectionPlan reached bound success
        exact absurd (fits _ planned (by simpa using discardable)).1 oversized

/-- An image whose sections end where the image ends. -/
def fittingImage : ByteStore :=
  smallImage 2 0x3000 0x200 16 (sectionFields 0 0x1000 0x1000 0x800 0x200 0x60000020 ++
    sectionFields 1 0x1000 0x2000 0 0 0xc0000080)

set_option maxRecDepth 4000 in
theorem writesInside_fittingImage :
    ∃ ctx, (readHeaders defaultBuild (smallBuffer 0xa00) fittingImage).1 = .ok ctx ∧
      WritesInside ctx
        (peHandleImage defaultBuild smallServices (smallBuffer 0xa00) ⟨fittingImage, fun _ => 0⟩) ∧
      RejectsOversized defaultBuild smallServices ctx
        (headersRead defaultBuild (smallBuffer 0xa00) ⟨fittingImage, fun _ => 0⟩) :=
  ⟨_, rfl, (writesInside_iff (by decide) rfl).mpr (by decide)⟩

/-- An image whose uninitialised section is one byte longer than the rest of the image. -/
def oversizedImage : ByteStore :=
  smallImage 1 0x2000 0x200 16 (sectionFields 0 0x1001 0x1000 0 0 0xc0000080)

set_option maxRecDepth 4000 in
/-- The section loop clears one byte behind the image. -/
theorem not_writesInside_oversizedImage :
    ¬ ∀ (build : Build) (services : Services) (imageData : SimpleBuffer) (memory : Memory)
      (ctx : PeLoaderCtx), imageData.buffer ≠ 0 →
      (readHeaders build imageData memory.file).1 = .ok ctx →
        WritesInside ctx (peHandleImage build services imageData memory) ∧
          RejectsOversized build services ctx (headersRead build imageData memory) := by
  intro claim
  have inside := (claim defaultBuild smallServices (smallBuffer 0x200) ⟨oversizedImage, fun _ => 0⟩ _
    (by decide) rfl).1
  have written := inside ⟨0x1000, 0x1001⟩ (by decide)
  revert written
  decide

end ZLoader
