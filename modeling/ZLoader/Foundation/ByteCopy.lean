import ZLoader.Foundation.ByteStore

/-! # Copying byte by byte

A loop that copies from the lowest offset upwards reads bytes that it may have written. It writes the
bytes that stood in the source before when no byte of the source is written in front of its turn:
the target begins below the source, or behind its end.
-/

namespace ZLoader

/-- Copy so many bytes, one after another from the first. -/
def forwardCopy : ℕ → ℕ → ℕ → ByteStore → ByteStore
  | 0, _, _, store => store
  | count + 1, target, source, store =>
      forwardCopy count (target + 1) (source + 1) (Function.update store target (store source))

section ForwardCopy

variable {count target source : ℕ} (store : ByteStore)

theorem copy_apply_inside {offset : ℕ} (lower : target ≤ offset) (upper : offset < target + count) :
    (Patch.copy target count store source).apply store offset =
      store (source + (offset - target)) :=
  Patch.apply_inside _ _ ⟨lower, upper⟩

/-- The loop is one patch with the bytes of the source. -/
theorem forwardCopy_eq (safe : target ≤ source ∨ source + count ≤ target) :
    forwardCopy count target source store =
      (Patch.copy target count store source).apply store := by
  induction count generalizing target source store with
  | zero =>
    funext offset
    exact (Patch.apply_copy_outside store store (Nat.lt_or_ge offset target)).symm
  | succ count ih =>
    have kept : ∀ offset ≠ target,
        Function.update store target (store source) offset = store offset := fun _ other =>
      Function.update_of_ne other ..
    rw [forwardCopy, ih _ (by omega)]
    funext offset
    rcases Nat.lt_trichotomy offset target with before | rfl | behind
    · rw [Patch.apply_copy_outside _ _ (by omega), Patch.apply_copy_outside _ _ (by omega),
        kept _ (by omega)]
    · rw [Patch.apply_copy_outside _ _ (by omega), copy_apply_inside _ (Nat.le_refl _) (by omega),
        Nat.sub_self]
      exact Function.update_self ..
    · rcases Nat.lt_or_ge offset (target + 1 + count) with inside | outside
      · -- the byte of the source has not been written yet
        rw [copy_apply_inside _ (by omega) inside, copy_apply_inside _ (by omega) (by omega),
          kept _ (by omega)]
        congr 1
        omega
      · rw [Patch.apply_copy_outside _ _ (by omega), Patch.apply_copy_outside _ _ (by omega),
          kept _ (by omega)]

end ForwardCopy

end ZLoader
