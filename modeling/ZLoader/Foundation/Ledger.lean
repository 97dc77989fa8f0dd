import Mathlib.Data.List.Basic
import Mathlib.Data.Nat.Notation

/-! # Ledgers of granted resources

A provider grants resources and takes them back one at a time. The ledger holds what has been
granted and not given back; giving back what is not held changes nothing.
-/

namespace ZLoader

/-- A resource changes hands. -/
inductive Movement (R : Type) where
  | grant (resource : R)
  | release (resource : R)
deriving DecidableEq, Repr

section Ledger

variable {R : Type} [DecidableEq R]

/-- The ledger after one movement. -/
def settle (held : List R) : Movement R → List R
  | .grant resource => resource :: held
  | .release resource => held.erase resource

/-- The ledger after some movements. -/
def outstanding (held : List R) (movements : List (Movement R)) : List R :=
  movements.foldl settle held

@[simp] theorem outstanding_nil (held : List R) : outstanding held [] = held := rfl

theorem outstanding_append (held : List R) (first second : List (Movement R)) :
    outstanding held (first ++ second) = outstanding (outstanding held first) second :=
  List.foldl_append ..

@[simp] theorem outstanding_grant (held : List R) (resource : R) (rest : List (Movement R)) :
    outstanding held (.grant resource :: rest) = outstanding (resource :: held) rest := rfl

@[simp] theorem outstanding_release_last (held : List R) (resource : R) (rest : List (Movement R)) :
    outstanding (resource :: held) (.release resource :: rest) = outstanding held rest := by
  rw [outstanding, List.foldl_cons, settle, List.erase_cons_head]
  rfl

/-- Two resources can also be given back in the order in which they were granted. -/
@[simp] theorem outstanding_release_both (held : List R) (older newer : R)
    (rest : List (Movement R)) :
    outstanding (newer :: older :: held) (.release older :: .release newer :: rest) =
      outstanding held rest := by
  by_cases same : newer = older
  · subst same
    simp
  · rw [outstanding, List.foldl_cons, settle, List.erase_cons_tail (by simpa using same),
      List.erase_cons_head]
    exact outstanding_release_last held newer rest

/-- Each resource is given back once: a release is of what is held, and in the end nothing is. -/
def Settles (held : List R) : List (Movement R) → Prop
  | [] => held = []
  | .grant resource :: rest => Settles (resource :: held) rest
  | .release resource :: rest => resource ∈ held ∧ Settles (held.erase resource) rest

instance Settles.decide (held : List R) (movements : List (Movement R)) :
    Decidable (Settles held movements) :=
  match movements with
  | [] => inferInstanceAs (Decidable (held = []))
  | .grant resource :: rest => Settles.decide (resource :: held) rest
  | .release resource :: rest =>
      have := Settles.decide (held.erase resource) rest
      inferInstanceAs (Decidable (resource ∈ held ∧ Settles (held.erase resource) rest))

@[simp] theorem settles_nil (held : List R) : Settles held [] ↔ held = [] := Iff.rfl

@[simp] theorem settles_grant (held : List R) (resource : R) (rest : List (Movement R)) :
    Settles held (.grant resource :: rest) ↔ Settles (resource :: held) rest := Iff.rfl

@[simp] theorem settles_release_last (held : List R) (resource : R) (rest : List (Movement R)) :
    Settles (resource :: held) (.release resource :: rest) ↔ Settles held rest := by
  rw [Settles, List.erase_cons_head, and_iff_right List.mem_cons_self]

/-- Two resources can be given back in either order. -/
@[simp] theorem settles_release_both (held : List R) (older newer : R) (rest : List (Movement R)) :
    Settles (newer :: older :: held) (.release older :: .release newer :: rest) ↔
      Settles held rest := by
  rcases eq_or_ne newer older with rfl | other
  · rw [settles_release_last, settles_release_last]
  · rw [Settles, List.erase_cons_tail (by simpa using other), List.erase_cons_head,
      settles_release_last, and_iff_right (List.mem_cons_of_mem _ List.mem_cons_self)]

/-- Some movements leave more held than there was, whatever was. -/
def Leaves (kept : List R) (movements : List (Movement R)) : Prop :=
  ∀ held rest, Settles held (movements ++ rest) ↔ Settles (kept ++ held) rest

theorem Leaves.append {first second : List (Movement R)} {kept more : List R}
    (left : Leaves kept first) (right : Leaves more second) :
    Leaves (more ++ kept) (first ++ second) := fun held rest => by
  rw [List.append_assoc, left, right, List.append_assoc]

theorem leaves_nil : Leaves ([] : List R) [] := fun _ _ => Iff.rfl

theorem leaves_grant (resource : R) : Leaves [resource] [.grant resource] := fun _ _ => Iff.rfl

/-- What is held last is given back. -/
theorem Leaves.release {movements : List (Movement R)} {resource : R} {kept : List R}
    (leaves : Leaves (resource :: kept) movements) :
    Leaves kept (movements ++ [.release resource]) := fun held rest => by
  rw [List.append_assoc, leaves, List.cons_append, List.singleton_append, settles_release_last]
  
theorem Leaves.settles {movements : List (Movement R)} (leaves : Leaves [] movements) :
    Settles [] movements := by
  have all := leaves [] []
  rw [List.append_nil] at all
  exact all.mpr rfl

theorem leaves_releases {movements : List (Movement R)} {kept others : List R}
    (leaves : Leaves (kept ++ others) movements) :
    Leaves others (movements ++ kept.map .release) := by
  induction kept generalizing movements with
  | nil => rwa [List.map_nil, List.append_nil]
  | cons resource kept ih =>
    rw [List.map_cons, List.append_cons]
    exact ih leaves.release

/-- What is held below the last is given back. -/
theorem Leaves.release_second {movements : List (Movement R)} {newer older : R} {kept : List R}
    (leaves : Leaves (newer :: older :: kept) movements) :
    Leaves (newer :: kept) (movements ++ [.release older]) := fun held rest => by
  rw [List.append_assoc, leaves, List.singleton_append]
  simp only [List.cons_append]
  rcases eq_or_ne newer older with rfl | other
  · rw [settles_release_last]
  · rw [Settles, List.erase_cons_tail (by simpa using other), List.erase_cons_head,
      and_iff_right (List.mem_cons_of_mem _ List.mem_cons_self)]

end Ledger

end ZLoader
