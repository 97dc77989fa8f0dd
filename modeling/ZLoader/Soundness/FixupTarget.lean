import ZLoader.Soundness.RelocationWalk

/-! # Where the fixups go

The walk patches the file buffer, from which it also reads the table. A table has the effect it is
meant to have exactly when none of its entries has an effect: as long as every entry met adds
nothing the file stays as it is and the walk can be followed in the unmodified file; the first
entry that adds something changes the file instead of the loaded image.
-/

namespace ZLoader

/-- One fixup changes the named field of the loaded image by what its type adds, and leaves the
file buffer alone. -/
def RelocatesImage (adjust : UInt64) (step : FixupStep) : Prop :=
  ∀ field, fixupField adjust step.entry = some field →
    step.after.image = Field.addTo step.before.image (fixupOffset step.page step.entry) field ∧
      step.after.file = step.before.file

/-- The image with the fields of the given fixups changed. -/
def relocatedImage (adjust : UInt64) (steps : List FixupStep) (image : ByteStore) : ByteStore :=
  steps.foldl
    (fun current step =>
      match fixupField adjust step.entry with
      | some field => Field.addTo current (fixupOffset step.page step.entry) field
      | none => current)
    image

/-- A walk relocates the loaded image: every fixup goes there, nothing else in the image changes
and the file buffer is left alone. -/
structure WalkRelocatesImage (adjust : UInt64) (memory : Memory) (after : LoaderState) : Prop where
  steps : ∀ step ∈ after.fixups, RelocatesImage adjust step
  image : after.memory.image = relocatedImage adjust after.fixups memory.image
  file : after.memory.file = memory.file

/-- The entry changes no field: its type is ABSOLUTE, or what it adds is zero at its width. -/
def entryVoid (adjust : UInt64) (entry : UInt16) : Bool :=
  match fixupField adjust entry with
  | some (some field) => field.amount % 256 ^ field.width == 0
  | _ => true

/-- The entry has one of the five types. -/
def entryKnown (adjust : UInt64) (entry : UInt16) : Bool := (fixupField adjust entry).isSome

/-- The entries that the loop over a block goes through, from an index on. -/
def blockEntries (file : ByteStore) (block index : ℕ) : List UInt16 :=
  (List.range' index ((blockSize file block).toNat / 2 - index)).map fun index =>
    file.u16 (fixupEntryOffset block index)

/-- The entries that the walk processes in an unmodified file: block by block up to the first
block that is rejected or has an entry of unknown type. -/
def walkedEntries (ctx : PeLoaderCtx) (adjust : UInt64) (stop : ℕ) (file : ByteStore) :
    ℕ → ℕ → List UInt16
  | 0, _ => []
  | turns + 1, block =>
      if block < stop ∧ checkBlock ctx file block = none then
        (blockEntries file block 0).takeWhile (entryKnown adjust) ++
          if (blockEntries file block 0).all (entryKnown adjust) then
            walkedEntries ctx adjust stop file turns (nextBlock file block)
          else []
      else []

/-- The entries that `relocation_fixup` processes as long as the file stays as it is. -/
def processedEntries (buffer : UInt64) (ctx : PeLoaderCtx) (sec : PeSectionHeader)
    (file : ByteStore) : List UInt16 :=
  if relocBase ctx sec == 0 || relocEnd ctx sec == 0 || loadDelta buffer ctx == 0 then []
  else
    let start := (relocBase ctx sec - ctx.base).toNat
    let stop := (relocEnd ctx sec - ctx.base).toNat
    walkedEntries ctx (loadDelta buffer ctx) stop file (stop - start) start

/-- A void entry relocates the image wherever it is applied: nothing is to be changed. -/
theorem addTo_void {adjust : UInt64} {entry : UInt16} {field : Option Field} (store : ByteStore)
    (offset : ℕ) (known : fixupField adjust entry = some field)
    (void : entryVoid adjust entry = true) : Field.addTo store offset field = store := by
  cases field with
  | none => rfl
  | some field =>
    rw [entryVoid, known] at void
    exact (ByteStore.addLE_eq_self_iff ..).mpr (by simpa using void)

/-- Applying a void entry leaves memory as it is. -/
theorem applyFixup_void {adjust : UInt64} (page : UInt32) {entry : UInt16} {field : Option Field}
    (st : LoaderState) (known : fixupField adjust entry = some field)
    (void : entryVoid adjust entry = true) :
    (applyFixup page entry field st).memory = st.memory := by
  simp only [applyFixup, addTo_void st.memory.file (fixupOffset page entry) known void]

/-- Applying any other entry changes the file buffer. -/
theorem applyFixup_effective {adjust : UInt64} (page : UInt32) {entry : UInt16}
    {field : Option Field} (st : LoaderState) (known : fixupField adjust entry = some field)
    (effective : entryVoid adjust entry = false) :
    (applyFixup page entry field st).memory.file ≠ st.memory.file := by
  rw [entryVoid, known] at effective
  cases field with
  | none => contradiction
  | some field =>
    intro same
    have void := (ByteStore.addLE_eq_self_iff _ _ _ _).mp same
    simp [void] at effective

/-- A fixup that had no effect and was meant to have none. -/
def FixupStep.Quiet (adjust : UInt64) (step : FixupStep) : Prop :=
  entryVoid adjust step.entry = true ∧ step.after = step.before

/-- A fixup of known type that changed the file buffer. -/
def FixupStep.PatchesFile (adjust : UInt64) (step : FixupStep) : Prop :=
  entryKnown adjust step.entry = true ∧ step.after.file ≠ step.before.file

theorem blockEntries_cons {file : ByteStore} {block index : ℕ}
    (more : index < (blockSize file block).toNat / 2) :
    blockEntries file block index =
      file.u16 (fixupEntryOffset block index) :: blockEntries file block (index + 1) := by
  unfold blockEntries
  obtain ⟨rest, remaining⟩ : ∃ rest, (blockSize file block).toNat / 2 - index = rest + 1 :=
    ⟨(blockSize file block).toNat / 2 - index - 1, by omega⟩
  rw [remaining, List.range'_succ, List.map_cons,
    show (blockSize file block).toNat / 2 - (index + 1) = rest by omega]

theorem blockEntries_nil {file : ByteStore} {block index : ℕ}
    (finished : ¬ index < (blockSize file block).toNat / 2) : blockEntries file block index = [] := by
  unfold blockEntries
  rw [show (blockSize file block).toNat / 2 - index = 0 by omega]
  rfl

/-- The loop only appends to the log of fixups. -/
theorem fixupEntries_fixups (adjust : UInt64) (block : ℕ) (page : UInt32) (turns index : ℕ)
    (st : LoaderState) :
    ∃ steps, (fixupEntries adjust block page turns index st).2.2.fixups = st.fixups ++ steps := by
  apply fixupEntries_invariant fun after => ∃ steps, after.fixups = st.fixups ++ steps
  · exact fun _ _ appended => appended
  · rintro after page entry field ⟨steps, appended⟩
    exact ⟨steps ++ _, by rw [← List.append_assoc, ← appended]; rfl⟩
  · exact ⟨[], (List.append_nil _).symm⟩

section Block

variable {adjust : UInt64} {block : ℕ} (page : UInt32)

/-- Over void entries the loop keeps memory, logs quiet fixups and ends normally unless it meets
an unknown type. -/
theorem fixupEntries_quiet (turns index : ℕ) (st : LoaderState)
    (enough : (blockSize st.memory.file block).toNat / 2 ≤ index + turns)
    (void : ∀ entry ∈ (blockEntries st.memory.file block index).takeWhile (entryKnown adjust),
      entryVoid adjust entry = true)
    (quiet : ∀ step ∈ st.fixups, step.Quiet adjust) :
    let result := fixupEntries adjust block page turns index st
    result.2.2.memory = st.memory ∧ (∀ step ∈ result.2.2.fixups, step.Quiet adjust) ∧
      (result.1 = none ↔
        (blockEntries st.memory.file block index).all (entryKnown adjust) = true) := by
  induction turns generalizing index st with
  | zero =>
    rw [blockEntries_nil (by omega)]
    exact ⟨rfl, quiet, by simp [fixupEntries]⟩
  | succ turns ih =>
    simp only [fixupEntries]
    split_ifs with more
    · rw [blockEntries_cons more] at void ⊢
      cases known : fixupField adjust (st.memory.file.u16 (fixupEntryOffset block index)) with
      | none => exact ⟨rfl, quiet, by simp [entryKnown, known]⟩
      | some field =>
        have isKnown : entryKnown adjust (st.memory.file.u16 (fixupEntryOffset block index)) = true := by
          rw [entryKnown, known]
          rfl
        rw [List.takeWhile_cons_of_pos isKnown] at void
        have voidHead := void _ (List.mem_cons_self ..)
        have same := applyFixup_void page (st.log (.readFile ⟨fixupEntryOffset block index, 2⟩))
          known voidHead
        rw [LoaderState.log_memory] at same
        have later := ih (index + 1) (applyFixup page
          (st.memory.file.u16 (fixupEntryOffset block index)) field
          (st.log (.readFile ⟨fixupEntryOffset block index, 2⟩)))
        rw [same] at later
        obtain ⟨memory, fixups, status⟩ := later (by omega)
          (fun entry member => void entry (List.mem_cons_of_mem _ member)) (by
            intro step member
            rcases List.mem_append.mp member with member | member
            · exact quiet step member
            · obtain rfl := List.mem_singleton.mp member
              exact ⟨voidHead, same⟩)
        refine ⟨memory, fixups, status.trans ?_⟩
        rw [List.all_cons, isKnown, Bool.true_and]
    · rw [blockEntries_nil more]
      exact ⟨rfl, quiet, by simp⟩

/-- The first entry that is not void is patched into the file buffer. -/
theorem fixupEntries_patches (turns index : ℕ) (st : LoaderState)
    (enough : (blockSize st.memory.file block).toNat / 2 ≤ index + turns)
    (effective : ∃ entry ∈ (blockEntries st.memory.file block index).takeWhile (entryKnown adjust),
      entryVoid adjust entry = false) :
    ∃ step ∈ (fixupEntries adjust block page turns index st).2.2.fixups, step.PatchesFile adjust := by
  induction turns generalizing index st with
  | zero =>
    rw [blockEntries_nil (by omega)] at effective
    obtain ⟨_, member, _⟩ := effective
    cases member
  | succ turns ih =>
    obtain ⟨entry, member, notVoid⟩ := effective
    simp only [fixupEntries]
    split_ifs with more
    · rw [blockEntries_cons more] at member
      cases known : fixupField adjust (st.memory.file.u16 (fixupEntryOffset block index)) with
      | none =>
        rw [List.takeWhile_cons_of_neg (by simp [entryKnown, known])] at member
        cases member
      | some field =>
        have isKnown : entryKnown adjust (st.memory.file.u16 (fixupEntryOffset block index)) = true := by
          rw [entryKnown, known]
          rfl
        rw [List.takeWhile_cons_of_pos isKnown] at member
        dsimp only
        cases void : entryVoid adjust (st.memory.file.u16 (fixupEntryOffset block index)) with
        | true =>
          have same := applyFixup_void page (st.log (.readFile ⟨fixupEntryOffset block index, 2⟩))
            known void
          rw [LoaderState.log_memory] at same
          rcases List.mem_cons.mp member with rfl | member
          · rw [void] at notVoid
            contradiction
          · exact ih _ _ (by rw [same]; omega) ⟨entry, by rw [same]; exact member, notVoid⟩
        | false =>
          have patched := applyFixup_effective page
            (st.log (.readFile ⟨fixupEntryOffset block index, 2⟩)) known void
          obtain ⟨steps, appended⟩ := fixupEntries_fixups adjust block page turns (index + 1)
            (applyFixup page (st.memory.file.u16 (fixupEntryOffset block index)) field
              (st.log (.readFile ⟨fixupEntryOffset block index, 2⟩)))
          rw [appended]
          refine ⟨_, List.mem_append_left _ (List.mem_append_right _ (List.mem_singleton.mpr rfl)),
            isKnown, patched⟩
    · rw [blockEntries_nil more] at member
      cases member

end Block

section Walk

variable {ctx : PeLoaderCtx} {adjust : UInt64} {stop : ℕ}

/-- Over void entries the walk keeps memory and logs quiet fixups. -/
theorem fixupBlocks_quiet {turns block : ℕ} {st : LoaderState}
    (void : ∀ entry ∈ walkedEntries ctx adjust stop st.memory.file turns block,
      entryVoid adjust entry = true)
    (quiet : ∀ step ∈ st.fixups, step.Quiet adjust) :
    let result := fixupBlocks ctx adjust stop turns block st
    result.2.memory = st.memory ∧ ∀ step ∈ result.2.fixups, step.Quiet adjust := by
  induction turns generalizing block st with
  | zero => exact ⟨rfl, quiet⟩
  | succ turns ih =>
    simp only [fixupBlocks, LoaderState.log_memory]
    split_ifs with more
    · cases checked : checkBlock ctx st.memory.file block with
      | some status => exact ⟨rfl, quiet⟩
      | none =>
        rw [walkedEntries, if_pos ⟨more, checked⟩] at void
        have size := (blockSize st.memory.file block).toNat_lt
        obtain ⟨memory, fixups, status⟩ := fixupEntries_quiet
          (blockVirtualAddress st.memory.file block) (2 ^ 31) 0
          (st.log (.readFile ⟨block, sizeofPeBaseRelocation⟩))
          (by rw [LoaderState.log_memory]; omega)
          (fun entry member => void entry (List.mem_append_left _ member)) quiet
        rw [LoaderState.log_memory] at memory
        dsimp only
        split
        · next stopped => rw [stopped] at memory fixups; exact ⟨memory, fixups⟩
        · next entries after finished =>
          rw [finished] at memory fixups status
          have allKnown := status.mp rfl
          rw [LoaderState.log_memory] at allKnown
          dsimp only at memory fixups
          have later := @ih (nextBlock after.memory.file block)
            { after with visits := after.visits ++
              [⟨block, (blockSize after.memory.file block).toNat, entries⟩] }
          dsimp only at later
          rw [memory] at later ⊢
          refine later (fun entry member => void entry (List.mem_append_right _ ?_)) fixups
          rw [if_pos allKnown]
          exact member
    · exact ⟨rfl, quiet⟩

/-- The walk only appends to the log of fixups. -/
theorem fixupBlocks_fixups (ctx : PeLoaderCtx) (adjust : UInt64) (stop turns block : ℕ)
    (st : LoaderState) :
    ∃ steps, (fixupBlocks ctx adjust stop turns block st).2.fixups = st.fixups ++ steps := by
  apply fixupBlocks_invariant fun after => ∃ steps, after.fixups = st.fixups ++ steps
  · exact fun _ _ appended => appended
  · rintro after page entry field ⟨steps, appended⟩
    exact ⟨steps ++ _, by rw [← List.append_assoc, ← appended]; rfl⟩
  · exact fun _ _ appended => appended
  · exact ⟨[], (List.append_nil _).symm⟩

/-- The first entry of the table that is not void is patched into the file buffer. -/
theorem fixupBlocks_patches {turns block : ℕ} {st : LoaderState}
    (quiet : ∀ step ∈ st.fixups, step.Quiet adjust)
    (effective : ∃ entry ∈ walkedEntries ctx adjust stop st.memory.file turns block,
      entryVoid adjust entry = false) :
    ∃ step ∈ (fixupBlocks ctx adjust stop turns block st).2.fixups, step.PatchesFile adjust := by
  induction turns generalizing block st with
  | zero =>
    obtain ⟨_, member, _⟩ := effective
    cases member
  | succ turns ih =>
    obtain ⟨entry, member, notVoid⟩ := effective
    rw [walkedEntries] at member
    by_cases reached : block < stop ∧ checkBlock ctx st.memory.file block = none
    · rw [if_pos reached] at member
      obtain ⟨more, checked⟩ := reached
      have size := (blockSize st.memory.file block).toNat_lt
      simp only [fixupBlocks, LoaderState.log_memory, if_pos more, checked]
      by_cases early : ∃ entry ∈ (blockEntries st.memory.file block 0).takeWhile (entryKnown adjust),
          entryVoid adjust entry = false
      · obtain ⟨step, logged, patches⟩ := fixupEntries_patches
          (blockVirtualAddress st.memory.file block) (2 ^ 31) 0
          (st.log (.readFile ⟨block, sizeofPeBaseRelocation⟩))
          (by rw [LoaderState.log_memory]; omega) early
        split
        · next stopped => rw [stopped] at logged; exact ⟨step, logged, patches⟩
        · next entries after finished =>
          rw [finished] at logged
          obtain ⟨steps, appended⟩ := fixupBlocks_fixups ctx adjust stop turns
            (nextBlock after.memory.file block)
            { after with visits := after.visits ++
              [⟨block, (blockSize after.memory.file block).toNat, entries⟩] }
          rw [appended]
          exact ⟨step, List.mem_append_left _ logged, patches⟩
      · have void : ∀ entry ∈ (blockEntries st.memory.file block 0).takeWhile (entryKnown adjust),
            entryVoid adjust entry = true := by
          intro entry member
          by_contra notVoid
          exact early ⟨entry, member, Bool.eq_false_iff.mpr notVoid⟩
        obtain ⟨memory, fixups, status⟩ := fixupEntries_quiet
          (blockVirtualAddress st.memory.file block) (2 ^ 31) 0
          (st.log (.readFile ⟨block, sizeofPeBaseRelocation⟩))
          (by rw [LoaderState.log_memory]; omega) void quiet
        rw [LoaderState.log_memory] at memory status
        -- The entry lies behind this block, so the block ends normally and the walk goes on.
        rcases List.mem_append.mp member with here | later
        · exact absurd ⟨entry, here, notVoid⟩ early
        · split_ifs at later with allKnown
          · have finished := status.mpr allKnown
            split
            · next stopped => rw [stopped] at finished; contradiction
            · next entries after reached =>
              rw [reached] at memory fixups
              dsimp only at memory fixups
              have rest := @ih (nextBlock after.memory.file block)
                { after with visits := after.visits ++
                  [⟨block, (blockSize after.memory.file block).toNat, entries⟩] } fixups
              dsimp only at rest
              rw [memory] at rest ⊢
              exact rest ⟨entry, later, notVoid⟩
          · cases later
    · rw [if_neg reached] at member
      cases member

/-- Quiet fixups leave nothing to relocate. -/
theorem relocatedImage_quiet {steps : List FixupStep} (image : ByteStore)
    (quiet : ∀ step ∈ steps, step.Quiet adjust) : relocatedImage adjust steps image = image := by
  induction steps with
  | nil => rfl
  | cons step rest ih =>
    have later := ih fun other member => quiet other (List.mem_cons_of_mem _ member)
    have void := (quiet step (List.mem_cons_self ..)).1
    rw [relocatedImage, List.foldl_cons]
    cases known : fixupField adjust step.entry with
    | none => exact later
    | some field =>
      dsimp only
      rw [addTo_void image _ known void]
      exact later

theorem FixupStep.Quiet.relocatesImage {step : FixupStep} (quiet : step.Quiet adjust) :
    RelocatesImage adjust step := by
  intro field known
  rw [addTo_void _ _ known quiet.1, quiet.2]
  exact ⟨rfl, rfl⟩

theorem FixupStep.PatchesFile.not_relocatesImage {step : FixupStep}
    (patches : step.PatchesFile adjust) : ¬ RelocatesImage adjust step := by
  intro relocates
  obtain ⟨field, known⟩ := Option.isSome_iff_exists.mp patches.1
  exact patches.2 (relocates field known).2

/-- The walk over the blocks relocates the loaded image exactly when its entries are void. -/
theorem fixupBlocks_relocates_iff (turns block : ℕ) (memory : Memory) :
    WalkRelocatesImage adjust memory (fixupBlocks ctx adjust stop turns block (.start memory)).2 ↔
      ∀ entry ∈ walkedEntries ctx adjust stop memory.file turns block,
        entryVoid adjust entry = true := by
  have noFixups : ∀ step ∈ (LoaderState.start memory).fixups, step.Quiet adjust :=
    fun _ member => absurd member List.not_mem_nil
  constructor
  · intro relocates entry member
    by_contra notVoid
    obtain ⟨step, logged, patches⟩ := fixupBlocks_patches noFixups
      ⟨entry, member, Bool.eq_false_iff.mpr notVoid⟩
    exact patches.not_relocatesImage (relocates.steps step logged)
  · intro void
    obtain ⟨kept, quiet⟩ := fixupBlocks_quiet void noFixups
    refine ⟨fun step logged => (quiet step logged).relocatesImage, ?_, ?_⟩
    · rw [relocatedImage_quiet memory.image quiet, kept]
      rfl
    · rw [kept]
      rfl

end Walk

/-- The walk relocates the loaded image, and nothing else, exactly when every entry it processes
is void. -/
theorem relocationFixup_relocates_iff (buffer : UInt64) (ctx : PeLoaderCtx) (sec : PeSectionHeader)
    (memory : Memory) :
    WalkRelocatesImage (loadDelta buffer ctx) memory
        (relocationFixup buffer ctx sec (.start memory)).2 ↔
      ∀ entry ∈ processedEntries buffer ctx sec memory.file,
        entryVoid (loadDelta buffer ctx) entry = true := by
  have idle : WalkRelocatesImage (loadDelta buffer ctx) memory (.start memory) :=
    ⟨fun _ member => absurd member List.not_mem_nil, rfl, rfl⟩
  unfold relocationFixup processedEntries
  cases start : relocBase ctx sec == 0 <;> cases stop : relocEnd ctx sec == 0 <;>
    cases delta : loadDelta buffer ctx == 0 <;>
    simp [idle]
  exact fixupBlocks_relocates_iff ..

set_option maxRecDepth 4000 in
/-- The first entry of the image, of type DIR64, is applied to the file buffer. -/
theorem not_relocationFixup_relocates_twoBlockImage :
    ¬ ∀ (buffer : UInt64) (ctx : PeLoaderCtx) (sec : PeSectionHeader) (memory : Memory),
      WalkRelocatesImage (loadDelta buffer ctx) memory
        (relocationFixup buffer ctx sec (.start memory)).2 := by
  intro claim
  have unchanged := congrFun (claim 0x800000 twoBlockCtx twoBlockSection
    ⟨twoBlockImage, fun _ => 0⟩).file 0x1012
  revert unchanged
  decide

end ZLoader
