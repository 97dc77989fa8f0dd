import ZLoader.Model.Loader.Fixup
import ZLoader.Soundness.HandleImage

/-! # An invariant rule for the relocation walk

The walk reads, applies fixups and notes finished blocks. A property that these three actions
preserve holds after the whole walk, however long it is and wherever it stops.
-/

namespace ZLoader

section Rule

variable (invariant : LoaderState → Prop)
  (read : ∀ st window, invariant st → invariant (st.log (.readFile window)))
  (patch : ∀ st page entry field, invariant st → invariant (applyFixup page entry field st))
  (visit : ∀ st visits, invariant st → invariant { st with visits := visits })

include read patch in
theorem fixupEntries_invariant (adjust : UInt64) (block : ℕ) (page : UInt32) (turns index : ℕ)
    {st : LoaderState} (holds : invariant st) :
    invariant (fixupEntries adjust block page turns index st).2.2 := by
  induction turns generalizing index st with
  | zero => exact holds
  | succ turns ih =>
    simp only [fixupEntries]
    split_ifs
    · split
      · exact read _ _ holds
      · exact ih _ (patch _ _ _ _ (read _ _ holds))
    · exact holds

include read patch visit in
theorem fixupBlocks_invariant (ctx : PeLoaderCtx) (adjust : UInt64) (stop turns block : ℕ)
    {st : LoaderState} (holds : invariant st) :
    invariant (fixupBlocks ctx adjust stop turns block st).2 := by
  induction turns generalizing block st with
  | zero => exact holds
  | succ turns ih =>
    simp only [fixupBlocks]
    split_ifs
    · split
      · exact read _ _ holds
      · have entries := fixupEntries_invariant invariant read patch adjust block
          (blockVirtualAddress (st.log (.readFile ⟨block, sizeofPeBaseRelocation⟩)).memory.file block)
          (2 ^ 31) 0 (read _ ⟨block, sizeofPeBaseRelocation⟩ holds)
        split
        · next status _ after finished => rw [finished] at entries; exact entries
        · next count after finished =>
          rw [finished] at entries
          exact ih _ (visit _ _ entries)
    · exact holds

include read patch visit in
/-- What reading, patching and noting a block preserve, `relocation_fixup` preserves. -/
theorem relocationFixup_invariant (buffer : UInt64) (ctx : PeLoaderCtx) (sec : PeSectionHeader)
    {st : LoaderState} (holds : invariant st) :
    invariant (relocationFixup buffer ctx sec st).2 := by
  unfold relocationFixup
  split_ifs
  · exact holds
  · exact holds
  · exact holds
  · exact fixupBlocks_invariant invariant read patch visit ctx _ _ _ _ holds

end Rule

theorem relocationFixup_imageWrites (buffer : UInt64) (ctx : PeLoaderCtx) (sec : PeSectionHeader)
    (st : LoaderState) :
    imageWrites (relocationFixup buffer ctx sec st).2.trace = imageWrites st.trace := by
  apply relocationFixup_invariant fun after => imageWrites after.trace = imageWrites st.trace
  · intro after window same
    simpa using same
  · intro after page entry field same
    cases field <;> simpa [applyFixup, fixupEvents] using same
  · exact fun _ _ same => same
  · rfl

end ZLoader
