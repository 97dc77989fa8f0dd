import ZLoader.Foundation.ByteList

/-! # Regions of memory

A program owns some regions of memory, no two of which share a byte. It is confined to them when
every window it reads lies in a region that may be read, every window it writes in one that may be
written, and all other memory stays as it was.
-/

namespace ZLoader

/-- One window lies in another one. -/
def Window.Inside (window region : Window) : Prop :=
  ∀ offset, window.Contains offset → region.Contains offset

theorem Window.inside_of_le {window region : Window} (start : region.start ≤ window.start)
    (limit : window.start + window.length ≤ region.start + region.length) :
    window.Inside region := fun _ inside =>
  ⟨Nat.le_trans start inside.1, Nat.lt_of_lt_of_le inside.2 limit⟩

theorem Window.inside_of_empty {window : Window} (region : Window) (empty : window.length = 0) :
    window.Inside region := fun offset inside => by
  have bounds := Window.contains_mk.mp inside
  omega

section Regions

variable {ι : Type} {region : ι → Window} {readable writable : ι → Prop}
  {before middle after : ByteStore} {reads writes reads' writes' : List Window}

/-- No two of the regions share a byte. -/
def RegionsApart (region : ι → Window) : Prop := ∀ a b, a ≠ b → (region a).Disjoint (region b)

theorem RegionsApart.cases (apart : RegionsApart region) {a b : ι} (other : a ≠ b) :
    (region a).length = 0 ∨ (region b).length = 0 ∨
      (region a).start + (region a).length ≤ (region b).start ∨
      (region b).start + (region b).length ≤ (region a).start :=
  (Window.disjoint_iff _ _).mp (apart a b other)

/-- What a program does to memory when it is confined to its regions. -/
structure Confined (region : ι → Window) (readable writable : ι → Prop)
    (before after : ByteStore) (reads writes : List Window) : Prop where
  reads : ∀ window ∈ reads, ∃ r, readable r ∧ window.Inside (region r)
  writes : ∀ window ∈ writes, ∃ r, writable r ∧ window.Inside (region r)
  frame : ∀ index, (∀ r, writable r → ¬ (region r).Contains index) → after index = before index

theorem confined_nil (region : ι → Window) (readable writable : ι → Prop) (memory : ByteStore) :
    Confined region readable writable memory memory [] [] :=
  ⟨fun _ member => absurd member List.not_mem_nil, fun _ member => absurd member List.not_mem_nil,
    fun _ _ => rfl⟩

namespace Confined

variable (confined : Confined region readable writable before after reads writes)

include confined

theorem load {window : Window} (r : ι) (allowed : readable r) (inside : window.Inside (region r)) :
    Confined region readable writable before after (window :: reads) writes where
  reads := List.forall_mem_cons.mpr ⟨⟨r, allowed, inside⟩, confined.reads⟩
  writes := confined.writes
  frame := confined.frame

theorem copy {d s size : ℕ} (r q : ι) (readable_ : readable r)
    (from_ : (Window.mk s size).Inside (region r)) (writable_ : writable q)
    (to_ : (Window.mk d size).Inside (region q)) (source : ByteStore) :
    Confined region readable writable before ((Patch.copy d size source s).apply after)
      (⟨s, size⟩ :: reads) (⟨d, size⟩ :: writes) where
  reads := (confined.load r readable_ from_).reads
  writes := List.forall_mem_cons.mpr ⟨⟨q, writable_, to_⟩, confined.writes⟩
  frame := fun index outside => by
    rw [Patch.apply_copy_outside _ _ ?_]
    · exact confined.frame index outside
    · by_contra inside
      exact outside q writable_ (to_ index ⟨by dsimp only; omega, by dsimp only; omega⟩)

/-- What happens behind it is confined as well. -/
theorem join (later : Confined region readable writable after middle reads' writes') :
    Confined region readable writable before middle (reads' ++ reads) (writes' ++ writes) where
  reads := fun window member => (List.mem_append.mp member).elim (later.reads window)
    (confined.reads window)
  writes := fun window member => (List.mem_append.mp member).elim (later.writes window)
    (confined.writes window)
  frame := fun index outside => (later.frame index outside).trans (confined.frame index outside)

/-- Larger regions, and more of them. -/
theorem mono {other : ι → Window} {readable' writable' : ι → Prop}
    (reads_ : ∀ r, readable r → readable' r ∧ other r = region r)
    (writes_ : ∀ r, writable r → writable' r ∧ other r = region r) :
    Confined other readable' writable' before after reads writes where
  reads := fun window member => by
    obtain ⟨r, allowed, inside⟩ := confined.reads window member
    obtain ⟨allowed', same⟩ := reads_ r allowed
    exact ⟨r, allowed', same ▸ inside⟩
  writes := fun window member => by
    obtain ⟨r, allowed, inside⟩ := confined.writes window member
    obtain ⟨allowed', same⟩ := writes_ r allowed
    exact ⟨r, allowed', same ▸ inside⟩
  frame := fun index outside => by
    refine confined.frame index fun r allowed inside => ?_
    obtain ⟨allowed', same⟩ := writes_ r allowed
    exact outside r allowed' (same.symm ▸ inside)

/-- A region that is not written is what it was. -/
theorem kept (apart : RegionsApart region) {r : ι} (constant : ¬ writable r) {index : ℕ}
    (inside : (region r).Contains index) : after index = before index :=
  confined.frame index fun q allowed => apart r q
    (fun same => constant (same ▸ allowed)) index inside

end Confined

/-- Bytes outside of a window that is written. -/
theorem ByteStore.bytesAt_copy_of_apart (store source : ByteStore) {d s size p count : ℕ}
    (apart : p + count ≤ d ∨ d + size ≤ p) :
    ((Patch.copy d size source s).apply store).bytesAt p count = store.bytesAt p count :=
  ByteStore.bytesAt_congr fun _ inside => Patch.apply_copy_outside _ _ (by omega)

end Regions

end ZLoader
