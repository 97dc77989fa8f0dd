import ZLoader.Soundness.RelocationWalk

/-! # The fixups against the end of the image

The walk checks that the page of a block is not beyond the end of the image. The offset in the page
and the width of the field come on top of that, so what counts is each entry as it stands when the
walk comes to it: a table whose own entries patch it is read as patched.
-/

namespace ZLoader

/-- The write of an event to the file buffer. -/
def Event.fileWrite? : Event → Option Window
  | .writeFile window => some window
  | _ => none

/-- The windows of the file buffer that are written, in order. -/
def fileWrites (trace : List Event) : List Window := trace.filterMap Event.fileWrite?

theorem mem_fileWrites {trace : List Event} {window : Window} :
    window ∈ fileWrites trace ↔ .writeFile window ∈ trace := by
  simp only [fileWrites, List.mem_filterMap]
  constructor
  · rintro ⟨event, member, found⟩
    cases event <;> simp_all [Event.fileWrite?]
  · exact fun member => ⟨_, member, rfl⟩

theorem fileWrites_append (first second : List Event) :
    fileWrites (first ++ second) = fileWrites first ++ fileWrites second :=
  List.filterMap_append

/-- An entry of the table, with the page of its block. -/
structure MetEntry where
  page : UInt32
  entry : UInt16
deriving DecidableEq, Repr

/-- The field that the entry changes, if any. -/
def MetEntry.window (adjust : UInt64) (met : MetEntry) : List Window :=
  match fixupField adjust met.entry with
  | some (some field) => [⟨fixupOffset met.page met.entry, field.width⟩]
  | _ => []

/-- What the walk meets in one block. -/
structure BlockMet where
  entries : List MetEntry
  finished : Bool
  file : ByteStore

/-- The entries of a block, each as it stands behind the ones in front of it, up to the first of
unknown type. -/
def blockMet (adjust : UInt64) (block : ℕ) (page : UInt32) : ℕ → ℕ → ByteStore → BlockMet
  | 0, _, file => ⟨[], true, file⟩
  | turns + 1, index, file =>
      if index < (blockSize file block).toNat / 2 then
        let entry := file.u16 (fixupEntryOffset block index)
        match fixupField adjust entry with
        | none => ⟨[], false, file⟩
        | some field =>
            let rest := blockMet adjust block page turns (index + 1)
              (Field.addTo file (fixupOffset page entry) field)
            { rest with entries := ⟨page, entry⟩ :: rest.entries }
      else ⟨[], true, file⟩

/-- The entries of the blocks from one file offset to another, up to the first block that is
refused. -/
def tableMet (ctx : PeLoaderCtx) (adjust : UInt64) (stop : ℕ) : ℕ → ℕ → ByteStore → List MetEntry
  | 0, _, _ => []
  | turns + 1, block, file =>
      if block < stop then
        match checkBlock ctx file block with
        | some _ => []
        | none =>
            let met := blockMet adjust block (blockVirtualAddress file block) (2 ^ 31) 0 file
            met.entries ++
              if met.finished then tableMet ctx adjust stop turns (nextBlock met.file block) met.file
              else []
      else []

/-- The entries that `relocation_fixup` comes to. -/
def metEntries (buffer : UInt64) (ctx : PeLoaderCtx) (sec : PeSectionHeader) (file : ByteStore) :
    List MetEntry :=
  if relocBase ctx sec == 0 || relocEnd ctx sec == 0 || loadDelta buffer ctx == 0 then []
  else
    let start := (relocBase ctx sec - ctx.base).toNat
    let stop := (relocEnd ctx sec - ctx.base).toNat
    tableMet ctx (loadDelta buffer ctx) stop (stop - start) start file

/-- The field of the entry lies inside of the image. -/
def MetEntry.Inside (adjust sizeOfImage : UInt64) (met : MetEntry) : Prop :=
  ∀ window ∈ met.window adjust, window.start + window.length ≤ sizeOfImage.toNat

instance (adjust sizeOfImage : UInt64) (met : MetEntry) :
    Decidable (met.Inside adjust sizeOfImage) :=
  inferInstanceAs (Decidable (∀ window ∈ met.window adjust, _))

/-- The widest field has eight bytes. -/
theorem fixupField_width_le {adjust : UInt64} {entry : UInt16} {field : Field}
    (known : fixupField adjust entry = some (some field)) : field.width ≤ 8 := by
  rw [fixupField] at known
  split_ifs at known
  · cases Option.some.inj known
  all_goals
    obtain rfl := Option.some.inj (Option.some.inj known)
    simp

section Walk

variable {adjust : UInt64} {block : ℕ} {page : UInt32} {st : LoaderState}

theorem fileWrites_applyFixup {entry : UInt16} {field : Option Field}
    (known : fixupField adjust entry = some field) (st : LoaderState) :
    fileWrites (applyFixup page entry field st).trace =
      fileWrites st.trace ++ (MetEntry.mk page entry).window adjust := by
  rw [applyFixup, fileWrites_append, MetEntry.window, known]
  cases field <;> rfl

@[simp] theorem fileWrites_readFile (trace : List Event) (window : Window) :
    fileWrites (trace ++ [.readFile window]) = fileWrites trace := by
  rw [fileWrites_append]
  exact List.append_nil _

/-- The loop over a block writes the fields of the entries that it meets. -/
theorem fixupEntries_met (turns index : ℕ) (st : LoaderState) :
    let result := fixupEntries adjust block page turns index st
    let met := blockMet adjust block page turns index st.memory.file
    result.1.isNone = met.finished ∧ result.2.2.memory.file = met.file ∧
      fileWrites result.2.2.trace =
        fileWrites st.trace ++ met.entries.flatMap (MetEntry.window adjust) := by
  induction turns generalizing index st with
  | zero => exact ⟨rfl, rfl, (List.append_nil _).symm⟩
  | succ turns ih =>
    simp only [fixupEntries, blockMet]
    split_ifs with more
    · cases known : fixupField adjust (st.memory.file.u16 (fixupEntryOffset block index)) with
      | none => exact ⟨rfl, rfl, by simp⟩
      | some field =>
        obtain ⟨finished, file, writes⟩ := ih (index + 1) (applyFixup page
          (st.memory.file.u16 (fixupEntryOffset block index)) field
          (st.log (.readFile ⟨fixupEntryOffset block index, 2⟩)))
        refine ⟨finished, file, ?_⟩
        rw [fileWrites_applyFixup known, LoaderState.log_trace, fileWrites_readFile,
          List.append_assoc] at writes
        exact writes
    · exact ⟨rfl, rfl, (List.append_nil _).symm⟩

/-- So does the loop over the blocks. -/
theorem fixupBlocks_met (ctx : PeLoaderCtx) (adjust : UInt64) (stop turns block : ℕ)
    (st : LoaderState) :
    fileWrites (fixupBlocks ctx adjust stop turns block st).2.trace =
      fileWrites st.trace ++
        (tableMet ctx adjust stop turns block st.memory.file).flatMap (MetEntry.window adjust) := by
  induction turns generalizing block st with
  | zero => exact (List.append_nil _).symm
  | succ turns ih =>
    simp only [fixupBlocks, tableMet, LoaderState.log_memory]
    rcases Nat.lt_or_ge block stop with more | behind
    · rw [if_pos more, if_pos more]
      cases checked : checkBlock ctx st.memory.file block with
      | some status => simp
      | none =>
        obtain ⟨finished, file, writes⟩ := @fixupEntries_met adjust block
          (blockVirtualAddress st.memory.file block) (2 ^ 31) 0
          (st.log (.readFile ⟨block, sizeofPeBaseRelocation⟩))
        rw [LoaderState.log_trace, fileWrites_readFile] at writes
        rw [LoaderState.log_memory] at finished file writes
        dsimp only
        rw [List.flatMap_append, ← List.append_assoc, ← writes, ← finished, ← file]
        split
        · next status entries after stopped =>
          rw [stopped]
          exact (List.append_nil _).symm
        · next count after ended =>
          rw [ended, ih]
          rfl
    · rw [if_neg (Nat.not_lt.mpr behind), if_neg (Nat.not_lt.mpr behind)]
      exact (List.append_nil _).symm

end Walk

/-- `relocation_fixup` writes the fields of the entries that it comes to. -/
theorem relocationFixup_met (buffer : UInt64) (ctx : PeLoaderCtx) (sec : PeSectionHeader)
    (memory : Memory) :
    fileWrites (relocationFixup buffer ctx sec (.start memory)).2.trace =
      (metEntries buffer ctx sec memory.file).flatMap (MetEntry.window (loadDelta buffer ctx)) := by
  rw [relocationFixup, metEntries]
  cases base : relocBase ctx sec == 0
  · cases stop : relocEnd ctx sec == 0
    · cases delta : loadDelta buffer ctx == 0
      · exact (fixupBlocks_met ..).trans (List.nil_append _)
      · rfl
    · rfl
  · cases stop : relocEnd ctx sec == 0 <;> rfl

/-- Every fixup is written inside of the image, and a table with an entry that names a field outside
of it is refused. -/
structure FixupsConfined (buffer : UInt64) (ctx : PeLoaderCtx) (sec : PeSectionHeader)
    (memory : Memory) : Prop where
  inside : ∀ window, .writeFile window ∈ (relocationFixup buffer ctx sec (.start memory)).2.trace →
    window.start + window.length ≤ ctx.sizeOfImage.toNat
  refused : (∃ met ∈ metEntries buffer ctx sec memory.file,
      ¬ met.Inside (loadDelta buffer ctx) ctx.sizeOfImage) →
    efiError (relocationFixup buffer ctx sec (.start memory)).1 = true

/-- The fixups stay inside of the image exactly when no entry that the walk comes to names a field
outside of it: such an entry is written, not refused. -/
theorem fixupsConfined_iff (buffer : UInt64) (ctx : PeLoaderCtx) (sec : PeSectionHeader)
    (memory : Memory) :
    FixupsConfined buffer ctx sec memory ↔
      ∀ met ∈ metEntries buffer ctx sec memory.file,
        met.Inside (loadDelta buffer ctx) ctx.sizeOfImage := by
  have written (window : Window) :
      .writeFile window ∈ (relocationFixup buffer ctx sec (.start memory)).2.trace ↔
        ∃ met ∈ metEntries buffer ctx sec memory.file,
          window ∈ met.window (loadDelta buffer ctx) := by
    rw [← mem_fileWrites, relocationFixup_met, List.mem_flatMap]
  constructor
  · intro confined met member window field
    exact confined.inside window ((written window).mpr ⟨met, member, field⟩)
  · intro inside
    constructor
    · intro window write
      obtain ⟨met, member, field⟩ := (written window).mp write
      exact inside met member window field
    · rintro ⟨met, member, outside⟩
      exact absurd (inside met member) outside

/-- A field cannot reach behind the image from a page that lies a page and a field in front of its
end. -/
theorem MetEntry.inside_of_page {adjust sizeOfImage : UInt64} (met : MetEntry)
    (room : met.page.toNat + 0xfff + 8 ≤ sizeOfImage.toNat) : met.Inside adjust sizeOfImage := by
  intro window member
  have offset : (met.entry &&& peRelocBasedFixupMask).toNat ≤ 0xfff := by
    rw [UInt16.toNat_and]
    exact Nat.and_le_right
  rw [MetEntry.window] at member
  cases known : fixupField adjust met.entry with
  | none =>
    rw [known] at member
    cases member
  | some field =>
    rw [known] at member
    cases field with
    | none => cases member
    | some field =>
      obtain rfl := List.mem_singleton.mp member
      have width := fixupField_width_le known
      dsimp only [fixupOffset]
      omega

/-- An image whose table has an entry at the last four bytes of the last page. -/
def lastPageImage : ByteStore :=
  smallImage 2 0x3000 0x200 16 (sectionFields 0 0x1000 0x1000 0x200 0x200 0x60000020 ++
    sectionFields 1 24 0x2000 0x200 0x400 0x42000040 ++
    [(0x170, 6, 0x636f6c65722e), (0xf0, 4, 0x2000), (0xf4, 4, 22), (0x400, 4, 0x2000),
      (0x404, 4, 12), (0x408, 2, 0xaffc)])

/-- Eight bytes are patched there. -/
theorem not_fixupsConfined_lastPage :
    ∃ ctx, (readHeaders defaultBuild (smallBuffer 0x600) lastPageImage).1 = .ok ctx ∧
      ¬ FixupsConfined 0x800000 ctx (.read lastPageImage 0x170) ⟨lastPageImage, fun _ => 0⟩ := by
  refine ⟨loaderCtx lastPageImage 0x100000 0x40, by decide +kernel, fun confined => ?_⟩
  have outside := confined.inside ⟨0x2ffc, 8⟩ (by decide +kernel)
  exact absurd outside (by decide +kernel)

end ZLoader
