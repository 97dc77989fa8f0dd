import Mathlib.Data.List.GetD
import Mathlib.Order.Defs.LinearOrder
import Mathlib.Order.Lattice

/-! # First differences of lists

Two lists without a terminator in them are looked at as if each were followed by one. Lists that
differ have a first place at which their entries do, and where the terminator is the least entry
that place decides their lexicographic order.
-/

namespace ZLoader

variable {α : Type} {nul : α}

variable (nul) in
/-- The entries at an index are the first that differ. -/
structure FirstDifference (first second : List α) (index : ℕ) : Prop where
  same : first.take index = second.take index
  left : index ≤ first.length
  right : index ≤ second.length
  differs : first.getD index nul ≠ second.getD index nul

theorem getD_take {entries : List α} {index count : ℕ} (before : index < count) :
    (entries.take count).getD index nul = entries.getD index nul := by
  rw [List.getD_eq_getElem?_getD, List.getD_eq_getElem?_getD, List.getElem?_take_of_lt before]

namespace FirstDifference

variable {first second : List α} {index : ℕ}

theorem symm (difference : FirstDifference nul first second index) :
    FirstDifference nul second first index :=
  ⟨difference.same.symm, difference.right, difference.left, difference.differs.symm⟩

theorem cons (difference : FirstDifference nul first second index) (entry : α) :
    FirstDifference nul (entry :: first) (entry :: second) (index + 1) := by
  refine ⟨?_, Nat.succ_le_succ difference.left, Nat.succ_le_succ difference.right, ?_⟩
  · rw [List.take_succ_cons, List.take_succ_cons, difference.same]
  · rw [List.getD_cons_succ, List.getD_cons_succ]
    exact difference.differs

theorem ne (difference : FirstDifference nul first second index) : first ≠ second := by
  rintro rfl
  exact difference.differs rfl

theorem getD_eq (difference : FirstDifference nul first second index) {before : ℕ}
    (earlier : before < index) : first.getD before nul = second.getD before nul := by
  rw [← getD_take earlier, difference.same, getD_take earlier]

/-- The place is settled. -/
theorem unique {other : ℕ} (difference : FirstDifference nul first second index)
    (difference' : FirstDifference nul first second other) : index = other := by
  rcases Nat.lt_trichotomy index other with before | same | behind
  · exact absurd (difference'.getD_eq before) difference.differs
  · exact same
  · exact absurd (difference.getD_eq behind) difference'.differs

/-- A first difference in front of an index is one of what stands there. -/
theorem take (difference : FirstDifference nul first second index) {count : ℕ}
    (before : index < count) :
    FirstDifference nul (first.take count) (second.take count) index := by
  have bounds := difference.left
  have bounds' := difference.right
  refine ⟨?_, ?_, ?_, ?_⟩
  · rw [List.take_take, List.take_take, Nat.min_eq_left (Nat.le_of_lt before)]
    exact difference.same
  · rw [List.length_take]
    exact Nat.le_min.mpr ⟨Nat.le_of_lt before, bounds⟩
  · rw [List.length_take]
    exact Nat.le_min.mpr ⟨Nat.le_of_lt before, bounds'⟩
  · rw [getD_take before, getD_take before]
    exact difference.differs

theorem of_take {count : ℕ}
    (difference : FirstDifference nul (first.take count) (second.take count) index) :
    index < count ∧ FirstDifference nul first second index := by
  have left := difference.left
  have right := difference.right
  have same := difference.same
  have differs := difference.differs
  rw [List.length_take] at left right
  have before : index < count := by
    refine Nat.lt_of_le_of_ne (Nat.le_trans left (Nat.min_le_left ..)) ?_
    rintro rfl
    -- behind both of them stands the terminator
    apply differs
    rw [List.getD_eq_default, List.getD_eq_default]
    · exact List.length_take_le ..
    · exact List.length_take_le ..
  rw [List.take_take, List.take_take, Nat.min_eq_left (Nat.le_of_lt before)] at same
  rw [getD_take before, getD_take before] at differs
  exact ⟨before, same, Nat.le_trans left (Nat.min_le_right ..),
    Nat.le_trans right (Nat.min_le_right ..), differs⟩

/-- Lists that differ have a first difference. -/
theorem exists_of_ne (nulFree : nul ∉ first) (nulFree' : nul ∉ second) (differ : first ≠ second) :
    ∃ index, FirstDifference nul first second index := by
  induction first generalizing second with
  | nil =>
    cases second with
    | nil => exact absurd rfl differ
    | cons entry rest =>
      exact ⟨0, rfl, Nat.zero_le _, Nat.zero_le _, List.ne_of_not_mem_cons nulFree'⟩
  | cons entry rest ih =>
    cases second with
    | nil => exact ⟨0, rfl, Nat.zero_le _, Nat.zero_le _, (List.ne_of_not_mem_cons nulFree).symm⟩
    | cons entry' rest' =>
      by_cases same : entry = entry'
      · subst same
        obtain ⟨index, difference⟩ := ih (List.not_mem_of_not_mem_cons nulFree)
          (List.not_mem_of_not_mem_cons nulFree') (fun tails => differ (congrArg _ tails))
        exact ⟨index + 1, difference.cons entry⟩
      · exact ⟨0, rfl, Nat.zero_le _, Nat.zero_le _, same⟩

/-- The entries there decide the lexicographic order. -/
theorem lt_iff [LinearOrder α] (least : ∀ entry, nul ≤ entry)
    (difference : FirstDifference nul first second index) :
    first < second ↔ first.getD index nul < second.getD index nul := by
  induction index generalizing first second with
  | zero =>
    have differs := difference.differs
    cases first with
    | nil =>
      cases second with
      | nil => exact absurd rfl differs
      | cons entry rest => exact iff_of_true (List.nil_lt_cons ..) (lt_of_le_of_ne (least _) differs)
    | cons entry rest =>
      cases second with
      | nil => exact iff_of_false (List.not_lt_nil _) (not_lt_of_ge (least _))
      | cons entry' rest' =>
        rw [List.cons_lt_cons_iff]
        exact or_iff_left fun same => differs same.1
  | succ index ih =>
    cases first with
    | nil => exact absurd difference.left (Nat.not_succ_le_zero _)
    | cons entry rest =>
      cases second with
      | nil => exact absurd difference.right (Nat.not_succ_le_zero _)
      | cons entry' rest' =>
        have same := difference.same
        have differs := difference.differs
        rw [List.take_succ_cons, List.take_succ_cons] at same
        obtain ⟨rfl, tails⟩ := List.cons.inj same
        rw [List.getD_cons_succ, List.getD_cons_succ] at differs ⊢
        rw [List.cons_lt_cons_self]
        exact ih ⟨tails, Nat.le_of_succ_le_succ difference.left,
          Nat.le_of_succ_le_succ difference.right, differs⟩

end FirstDifference

end ZLoader
