import ZLoader.Soundness.FixupInvariant

/-! # The blocks of the relocation table

In the table `size_of_block` counts the header of its block, so a block has
`(size_of_block - 8) / 2` entries and the next one starts `size_of_block` bytes further on. The walk
takes it for the size without the header and steps in units of eight bytes: it finishes no block
after as many entries as the block has.
-/

namespace ZLoader

/-- Blocks of these sizes tile the file from one offset to another. -/
def Tiles (file : ByteStore) : ℕ → ℕ → List ℕ → Prop
  | start, stop, [] => start = stop
  | start, stop, size :: rest =>
      (blockSize file start).toNat = size ∧ sizeofPeBaseRelocation ≤ size ∧ size % 2 = 0 ∧
        Tiles file (start + size) stop rest

instance decidableTiles (file : ByteStore) :
    (start stop : ℕ) → (sizes : List ℕ) → Decidable (Tiles file start stop sizes)
  | _, _, [] => inferInstanceAs (Decidable (_ = _))
  | start, stop, size :: rest =>
      have : Decidable (Tiles file (start + size) stop rest) :=
        decidableTiles file (start + size) stop rest
      inferInstanceAs (Decidable (_ ∧ _ ∧ _ ∧ _))

/-- The visits that the table asks for. -/
def tableVisits : ℕ → List ℕ → List BlockVisit
  | _, [] => []
  | start, size :: rest =>
      ⟨start, size, (size - sizeofPeBaseRelocation) / 2⟩ :: tableVisits (start + size) rest

/-- The entry loop ends normally only behind half of `size_of_block` entries; its turns suffice. -/
theorem fixupEntries_finished {adjust : UInt64} {block : ℕ} {page : UInt32} {turns index entries : ℕ}
    {st after : LoaderState} (enough : 2 ^ 31 ≤ index + turns)
    (finished : fixupEntries adjust block page turns index st = (none, entries, after)) :
    (blockSize after.memory.file block).toNat / 2 ≤ entries := by
  induction turns generalizing index st with
  | zero =>
    simp only [fixupEntries, Prod.mk.injEq, true_and] at finished
    obtain ⟨rfl, rfl⟩ := finished
    have size := (blockSize st.memory.file block).toNat_lt
    omega
  | succ turns ih =>
    simp only [fixupEntries] at finished
    split_ifs at finished with more
    · split at finished
      · simp at finished
      · exact ih (by omega) finished
    · simp only [Prod.mk.injEq, true_and] at finished
      obtain ⟨rfl, rfl⟩ := finished
      omega

/-- A finished block has gone through half of its `size_of_block` entries or more. -/
def BlockVisit.Overrun (visit : BlockVisit) : Prop := visit.sizeOfBlock / 2 ≤ visit.entries

theorem fixupEntries_visits (adjust : UInt64) (block : ℕ) (page : UInt32) (turns index : ℕ)
    (st : LoaderState) :
    (fixupEntries adjust block page turns index st).2.2.visits = st.visits :=
  fixupEntries_invariant (fun after => after.visits = st.visits) (fun _ _ same => same)
    (fun _ _ _ _ same => same) adjust block page turns index rfl

/-- Every block that the walk finishes is overrun. -/
theorem fixupBlocks_overrun (ctx : PeLoaderCtx) (adjust : UInt64) (stop turns block : ℕ)
    {st : LoaderState} (overrun : ∀ visit ∈ st.visits, visit.Overrun) :
    ∀ visit ∈ (fixupBlocks ctx adjust stop turns block st).2.visits, visit.Overrun := by
  induction turns generalizing block st with
  | zero => exact overrun
  | succ turns ih =>
    simp only [fixupBlocks]
    split_ifs
    · split
      · exact overrun
      · have entries := fixupEntries_visits adjust block
          (blockVirtualAddress (st.log (.readFile ⟨block, sizeofPeBaseRelocation⟩)).memory.file block)
          (2 ^ 31) 0 (st.log (.readFile ⟨block, sizeofPeBaseRelocation⟩))
        split
        · next finished =>
          rw [finished] at entries
          exact entries ▸ overrun
        · next count after finished =>
          rw [finished] at entries
          apply ih _
          intro visit member
          rcases List.mem_append.mp member with member | member
          · exact overrun visit (entries ▸ member)
          · obtain rfl := List.mem_singleton.mp member
            exact fixupEntries_finished (by omega) finished
    · exact overrun

theorem relocationFixup_overrun (buffer : UInt64) (ctx : PeLoaderCtx) (sec : PeSectionHeader)
    (memory : Memory) :
    ∀ visit ∈ (relocationFixup buffer ctx sec (.start memory)).2.visits, visit.Overrun := by
  have none : ∀ visit ∈ (LoaderState.start memory).visits, visit.Overrun := by
    intro visit member
    cases member
  unfold relocationFixup
  split_ifs
  · exact none
  · exact none
  · exact none
  · exact fixupBlocks_overrun ctx _ _ _ _ none

/-- The relocation data of a section in the file: its first offset and the one behind it. -/
def relocationStart (sec : PeSectionHeader) : ℕ := sec.pointerToRawData.toNat
def relocationStop (sec : PeSectionHeader) : ℕ :=
  sec.pointerToRawData.toNat + sec.virtualSize.toNat

/-- Without relocation data the walk visits nothing. -/
theorem relocationFixup_empty (buffer : UInt64) (ctx : PeLoaderCtx) {sec : PeSectionHeader}
    (memory : Memory) (empty : relocationStart sec = relocationStop sec) :
    (relocationFixup buffer ctx sec (.start memory)).2.visits = [] := by
  have zero : sec.virtualSize = 0 := by
    apply UInt32.toNat_inj.mp
    unfold relocationStart relocationStop at empty
    simpa using empty
  unfold relocationFixup
  split_ifs
  · rfl
  · rfl
  · rfl
  · have same : relocEnd ctx sec = relocBase ctx sec := by
      unfold relocEnd relocBase
      rw [zero, UInt32.add_zero]
    simp only [same, Nat.sub_self]
    rfl

/-- The walk visits the blocks of a table, each with its entries, exactly when the table has no
block. -/
theorem relocationFixup_visits_iff {buffer : UInt64} {ctx : PeLoaderCtx} {sec : PeSectionHeader}
    {memory : Memory} {sizes : List ℕ}
    (tiles : Tiles memory.file (relocationStart sec) (relocationStop sec) sizes) :
    (relocationFixup buffer ctx sec (.start memory)).2.visits =
        tableVisits (relocationStart sec) sizes ↔ sizes = [] := by
  cases sizes with
  | nil =>
    refine iff_of_true ?_ rfl
    exact relocationFixup_empty buffer ctx memory tiles
  | cons size rest =>
    refine iff_of_false (fun visited => ?_) (List.cons_ne_nil _ _)
    have overrun := relocationFixup_overrun buffer ctx sec memory
      ⟨relocationStart sec, size, (size - sizeofPeBaseRelocation) / 2⟩
      (by rw [visited]; exact List.mem_cons_self ..)
    have header := tiles.2.1
    unfold BlockVisit.Overrun at overrun
    unfold sizeofPeBaseRelocation at header overrun
    dsimp only at overrun
    omega

/-- An image with a table of two blocks, each with two entries, in its second section. -/
def twoBlockImage : ByteStore :=
  smallImage 2 0x3000 0x200 16 (sectionFields 0 0x1000 0x1000 0x200 0x200 0x60000020 ++
    sectionFields 1 24 0x2000 0x200 0x400 0x42000040 ++
    [(0x170, 6, 0x636f6c65722e), (0xf0, 4, 0x2000), (0xf4, 4, 22), (0x400, 4, 0x1000),
      (0x404, 4, 12), (0x408, 2, 0xa010), (0x40c, 4, 0x1000), (0x410, 4, 12)])

def twoBlockCtx : PeLoaderCtx := loaderCtx twoBlockImage 0x100000 0x40

def twoBlockSection : PeSectionHeader := .read twoBlockImage 0x170

set_option maxRecDepth 4000 in
/-- The first block is left after six entries instead of two, and the second is stepped over. -/
theorem twoBlockImage_visits :
    (relocationFixup 0x800000 twoBlockCtx twoBlockSection
      (.start ⟨twoBlockImage, fun _ => 0⟩)).2.visits = [⟨0x400, 12, 6⟩] := by decide

set_option maxRecDepth 4000 in
theorem twoBlockImage_visits_iff :
    (relocationFixup 0x800000 twoBlockCtx twoBlockSection
        (.start ⟨twoBlockImage, fun _ => 0⟩)).2.visits = tableVisits 0x400 [12, 12] ↔
      [12, 12] = [] :=
  relocationFixup_visits_iff (by decide)

set_option maxRecDepth 4000 in
theorem not_relocationFixup_visits_twoBlockImage :
    ¬ ∀ (buffer : UInt64) (ctx : PeLoaderCtx) (sec : PeSectionHeader) (memory : Memory)
      (sizes : List ℕ), loadDelta buffer ctx ≠ 0 →
      Tiles memory.file (relocationStart sec) (relocationStop sec) sizes →
        (relocationFixup buffer ctx sec (.start memory)).2.visits =
          tableVisits (relocationStart sec) sizes := by
  intro claim
  have visited := claim 0x800000 twoBlockCtx twoBlockSection ⟨twoBlockImage, fun _ => 0⟩ [12, 12]
    (by decide) (by decide)
  rw [twoBlockImage_visits] at visited
  revert visited
  decide

end ZLoader
