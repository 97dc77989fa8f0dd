import ZLoader.Foundation.ByteStore

/-! # Programs over a mapping

A program accesses windows of a mapping one after the other. An access that leaves the mapping is
the last one. A run is how the program ends, the bytes it leaves and the windows it has accessed, so
what holds of a run can be taken apart access by access.
-/

namespace ZLoader

/-- A run: how it ends, what it leaves, and its accesses in order. -/
structure AccessRun (ε : Type) where
  exit : ε
  memory : ByteStore
  accesses : List Window

namespace AccessRun

section Touch

variable {ε : Type} (fault : ε) (limit : ℕ) (memory : ByteStore)

/-- An access, and what follows it unless it leaves the mapping. -/
def touch (window : Window) (rest : AccessRun ε) : AccessRun ε :=
  if window.Within limit then { rest with accesses := window :: rest.accesses }
  else ⟨fault, memory, [window]⟩

/-- Accesses in a row. -/
def touchAll (windows : List Window) (rest : AccessRun ε) : AccessRun ε :=
  windows.foldr (touch fault limit memory) rest

/-- All accesses are below a limit. -/
def Inside (size : ℕ) (run : AccessRun ε) : Prop := ∀ window ∈ run.accesses, window.Within size

/-- What holds of the end of a run and of the bytes it leaves. -/
def Ends (good : ε → ByteStore → Prop) (run : AccessRun ε) : Prop := good run.exit run.memory

variable {fault limit memory} {window : Window} {windows : List Window} {rest : AccessRun ε}

@[simp] theorem inside_nil {size : ℕ} {exit : ε} : Inside size ⟨exit, memory, []⟩ := by
  intro window member
  cases member

/-- Below the end of the mapping an access is followed by the rest. -/
theorem inside_touch_iff {size : ℕ} (mapped : size ≤ limit) :
    Inside size (touch fault limit memory window rest) ↔
      window.Within size ∧ Inside size rest := by
  rw [touch]
  split_ifs with within
  · exact List.forall_mem_cons
  · have beyond : ¬ window.Within size := fun inside =>
      within fun offset contained => Nat.lt_of_lt_of_le (inside offset contained) mapped
    simp [Inside, beyond]

theorem inside_touchAll_iff {size : ℕ} (mapped : size ≤ limit) :
    Inside size (touchAll fault limit memory windows rest) ↔
      (∀ window ∈ windows, window.Within size) ∧ Inside size rest := by
  induction windows with
  | nil => simp [touchAll]
  | cons window windows ih =>
    rw [touchAll, List.foldr_cons, ← touchAll, inside_touch_iff mapped, ih, List.forall_mem_cons,
      and_assoc]

/-- The end of a run is that of the rest, if it gets there. -/
theorem ends_touch_iff {good : ε → ByteStore → Prop} (faulted : ∀ memory, good fault memory) :
    Ends good (touch fault limit memory window rest) ↔
      (window.Within limit → Ends good rest) := by
  rw [touch]
  split_ifs with within
  · exact ⟨fun ends _ => ends, fun ends => ends within⟩
  · exact ⟨fun _ inside => absurd inside within, fun _ => faulted memory⟩

theorem ends_touchAll_iff {good : ε → ByteStore → Prop} (faulted : ∀ memory, good fault memory) :
    Ends good (touchAll fault limit memory windows rest) ↔
      ((∀ window ∈ windows, window.Within limit) → Ends good rest) := by
  induction windows with
  | nil => simp [touchAll]
  | cons window windows ih =>
    rw [touchAll, List.foldr_cons, ← touchAll, ends_touch_iff faulted, ih, List.forall_mem_cons,
      and_imp]

end Touch

end AccessRun

end ZLoader
