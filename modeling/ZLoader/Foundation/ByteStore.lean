import Mathlib.Data.List.Induction
import Mathlib.Tactic.Common
import Mathlib.Algebra.Group.Nat.Defs

/-! # Byte stores and overlapping window writes

A store gives a byte to every natural offset of one allocation. A window is a run of offsets and
a patch is a window with the bytes written through it. A list of patches is applied from left to
right, so at every offset the last covering patch decides. No allocation bound is part of a store:
whether an access stays inside its allocation is a statement about windows, kept separate from
the value that the access returns or leaves behind.
-/

namespace ZLoader

/-- The bytes of one allocation, and of whatever memory follows it. -/
abbrev ByteStore := ℕ → UInt8

/-- A run of consecutive offsets. -/
structure Window where
  start : ℕ
  length : ℕ
deriving DecidableEq, Repr

namespace Window

/-- The offset belongs to the window. -/
def Contains (window : Window) (offset : ℕ) : Prop :=
  window.start ≤ offset ∧ offset < window.start + window.length

instance (window : Window) (offset : ℕ) : Decidable (window.Contains offset) :=
  inferInstanceAs (Decidable (_ ∧ _))

theorem contains_mk {start length offset : ℕ} :
    (Window.mk start length).Contains offset ↔ start ≤ offset ∧ offset < start + length :=
  ⟨fun inside => inside, fun inside => inside⟩

/-- Every byte of the window lies below the limit; an empty window has no byte to check. -/
def Within (window : Window) (limit : ℕ) : Prop :=
  ∀ offset, window.Contains offset → offset < limit

theorem within_iff (window : Window) (limit : ℕ) :
    window.Within limit ↔ window.length = 0 ∨ window.start + window.length ≤ limit := by
  constructor
  · intro within
    by_cases empty : window.length = 0
    · exact .inl empty
    · have last := within (window.start + window.length - 1) ⟨by omega, by omega⟩
      exact .inr (by omega)
  · rintro (empty | bound) offset ⟨_, upper⟩ <;> omega

instance (window : Window) (limit : ℕ) : Decidable (window.Within limit) :=
  decidable_of_iff _ (window.within_iff limit).symm

/-- A nonempty window stays below a limit exactly when its end does. -/
theorem within_iff_of_pos {start length limit : ℕ} (nonempty : 0 < length) :
    (Window.mk start length).Within limit ↔ start + length ≤ limit := by
  rw [within_iff]
  exact or_iff_right (Nat.ne_of_gt nonempty)

/-- No offset belongs to both windows. -/
def Disjoint (first second : Window) : Prop :=
  ∀ offset, first.Contains offset → ¬ second.Contains offset

theorem disjoint_iff (first second : Window) :
    first.Disjoint second ↔ first.length = 0 ∨ second.length = 0 ∨
      first.start + first.length ≤ second.start ∨ second.start + second.length ≤ first.start := by
  constructor
  · intro disjoint
    by_contra overlap
    exact disjoint (max first.start second.start) ⟨by omega, by omega⟩ ⟨by omega, by omega⟩
  · rintro separated offset ⟨lower, upper⟩ ⟨_, _⟩
    omega

theorem Disjoint.symm {first second : Window} (disjoint : first.Disjoint second) :
    second.Disjoint first := by
  intro offset other own
  exact disjoint offset own other

instance (first second : Window) : Decidable (first.Disjoint second) :=
  decidable_of_iff _ (first.disjoint_iff second).symm

end Window

/-- One window write: the byte at index `k` of the window is `byte k`. -/
structure Patch where
  window : Window
  byte : ℕ → UInt8

namespace Patch

/-- The bytes inside the window are replaced, all others are kept. -/
def apply (patch : Patch) (store : ByteStore) : ByteStore := fun offset =>
  if patch.window.Contains offset then patch.byte (offset - patch.window.start) else store offset

/-- Copy `length` bytes of `source` from offset `origin`. -/
def copy (start length : ℕ) (source : ByteStore) (origin : ℕ) : Patch :=
  ⟨⟨start, length⟩, fun index => source (origin + index)⟩

/-- Fill `length` bytes with one value. -/
def fill (start length : ℕ) (value : UInt8) : Patch := ⟨⟨start, length⟩, fun _ => value⟩

theorem apply_inside (patch : Patch) (store : ByteStore) {offset : ℕ}
    (inside : patch.window.Contains offset) :
    patch.apply store offset = patch.byte (offset - patch.window.start) := if_pos inside

theorem apply_outside (patch : Patch) (store : ByteStore) {offset : ℕ}
    (outside : ¬ patch.window.Contains offset) : patch.apply store offset = store offset :=
  if_neg outside

section Copy

variable (store source : ByteStore) {start length origin : ℕ}

/-- From its start on a copy holds the bytes of its source. -/
theorem apply_copy {index : ℕ} (inside : index < length) :
    (copy start length source origin).apply store (start + index) = source (origin + index) := by
  have covered : (copy start length source origin).window.Contains (start + index) :=
    ⟨Nat.le_add_right .., Nat.add_lt_add_left inside _⟩
  rw [apply_inside _ _ covered, copy, Nat.add_sub_cancel_left]

theorem apply_copy_outside {offset : ℕ} (outside : offset < start ∨ start + length ≤ offset) :
    (copy start length source origin).apply store offset = store offset := by
  apply apply_outside
  rintro ⟨lower, upper⟩
  dsimp only [copy] at lower upper
  omega

end Copy

/-- Patches in the order in which they are written. -/
def applyAll (patches : List Patch) (store : ByteStore) : ByteStore :=
  patches.foldl (fun current patch => patch.apply current) store

@[simp] theorem applyAll_nil (store : ByteStore) : applyAll [] store = store := rfl

@[simp] theorem applyAll_cons (patch : Patch) (rest : List Patch) (store : ByteStore) :
    applyAll (patch :: rest) store = applyAll rest (patch.apply store) := rfl

theorem applyAll_append (first second : List Patch) (store : ByteStore) :
    applyAll (first ++ second) store = applyAll second (applyAll first store) :=
  List.foldl_append

/-- A patch that is written under a condition. -/
theorem applyAll_ite (condition : Prop) [Decidable condition] (patch : Patch) (store : ByteStore)
    (offset : ℕ) :
    applyAll (if condition then [patch] else []) store offset =
      if condition ∧ patch.window.Contains offset then patch.byte (offset - patch.window.start)
      else store offset := by
  by_cases written : condition
  · simp only [written, true_and]
    rfl
  · simp only [written, false_and, if_false]
    rfl

/-- An offset that no patch covers keeps its byte. -/
theorem applyAll_untouched (patches : List Patch) (store : ByteStore) {offset : ℕ}
    (outside : ∀ patch ∈ patches, ¬ patch.window.Contains offset) :
    applyAll patches store offset = store offset := by
  induction patches generalizing store with
  | nil => rfl
  | cons patch rest ih =>
    rw [applyAll_cons, ih _ (fun other member => outside other (List.mem_cons_of_mem _ member))]
    exact patch.apply_outside store (outside patch (List.mem_cons_self ..))

/-- The last patch that covers an offset gives its byte. -/
theorem applyAll_last (before : List Patch) (patch : Patch) (after : List Patch)
    (store : ByteStore) {offset : ℕ} (inside : patch.window.Contains offset)
    (outside : ∀ later ∈ after, ¬ later.window.Contains offset) :
    applyAll (before ++ patch :: after) store offset =
      patch.byte (offset - patch.window.start) := by
  rw [applyAll_append, applyAll_cons, applyAll_untouched after _ outside]
  exact patch.apply_inside _ inside

/-- Groups of patches, each of which either supplies its own byte at an offset or keeps the byte
there: the last group that supplies one decides. -/
theorem applyAll_flatMap {α : Type} {group : α → List Patch} {supplies : α → Bool}
    {byte : α → UInt8} {offset : ℕ} (items : List α) (store : ByteStore)
    (each : ∀ item ∈ items, ∀ current : ByteStore, applyAll (group item) current offset =
      if supplies item then byte item else current offset) :
    applyAll (items.flatMap group) store offset =
      ((items.filter supplies).getLast?).elim (store offset) byte := by
  induction items using List.reverseRecOn with
  | nil => rfl
  | append_singleton before item ih =>
    rw [List.flatMap_append, applyAll_append, List.flatMap_singleton, each item (by simp),
      ih fun other member => each other (by simp [member]), List.filter_append]
    cases chosen : supplies item with
    | true => simp [chosen]
    | false => simp [chosen]

end Patch

namespace ByteStore

/-- Every byte at an offset of the region is the same after as before. -/
def Keeps (region : ℕ → Prop) (before after : ByteStore) : Prop :=
  ∀ offset, region offset → after offset = before offset

section Keeps

variable {region : ℕ → Prop} {before middle after : ByteStore}

theorem Keeps.refl (region : ℕ → Prop) (store : ByteStore) : Keeps region store store :=
  fun _ _ => rfl

theorem Keeps.trans (first : Keeps region before middle) (second : Keeps region middle after) :
    Keeps region before after :=
  fun offset inside => (second offset inside).trans (first offset inside)

theorem Keeps.mono {part : ℕ → Prop} (keeps : Keeps region before after)
    (inside : ∀ offset, part offset → region offset) : Keeps part before after :=
  fun offset member => keeps offset (inside offset member)

/-- A patch keeps what is outside of its window. -/
theorem keeps_apply (patch : Patch) (store : ByteStore)
    (outside : ∀ offset, region offset → ¬ patch.window.Contains offset) :
    Keeps region store (patch.apply store) :=
  fun offset inside => patch.apply_outside store (outside offset inside)

end Keeps

end ByteStore

end ZLoader
