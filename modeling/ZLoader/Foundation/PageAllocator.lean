import Mathlib.Data.Nat.Notation
import Mathlib.Data.Set.Basic
import Mathlib.Data.Set.BooleanAlgebra
import Mathlib.Order.CompletePartialOrder
import Mathlib.Order.Interval.Set.Basic

/-! # Page allocators

An allocator hands out runs of page frames and takes them back. A run is given by its first frame and
its length; frames have numbers from one to a limit. Whoever is granted a run holds its frames until
they are given back, and only what is held can be given back, in any portions.

An allocator here carries that contract, so results hold for every implementation of it.
-/

namespace ZLoader

/-- A run of frames. -/
def frameRun (first count : ℕ) : Set ℕ := Set.Ico first (first + count)

@[simp] theorem mem_frameRun {first count frame : ℕ} :
    frame ∈ frameRun first count ↔ first ≤ frame ∧ frame < first + count := Iff.rfl

@[simp] theorem frameRun_zero (first : ℕ) : frameRun first 0 = ∅ := Set.Ico_self first

/-- An allocator of the frames below `limit` with its contract: `S` are its states and `E` the reasons
of a refusal. -/
structure PageAllocator (S E : Type) (limit : ℕ) where
  held : S → Set ℕ
  allocate : S → ℕ → Except E (ℕ × S)
  free : S → ℕ → ℕ → Except E S
  held_bounded : ∀ st, ∀ frame ∈ held st, frame < limit
  allocate_placed : ∀ st count first next, allocate st count = .ok (first, next) →
    0 < first ∧ first < limit
  allocate_fresh : ∀ st count first next, allocate st count = .ok (first, next) →
    Disjoint (held st) (frameRun first count)
  held_allocate : ∀ st count first next, allocate st count = .ok (first, next) →
    held next = held st ∪ frameRun first count
  free_held : ∀ st first count next, free st first count = .ok next →
    frameRun first count ⊆ held st
  free_accepts : ∀ st first count, count ≠ 0 → frameRun first count ⊆ held st →
    ∃ next, free st first count = .ok next
  held_free : ∀ st first count next, free st first count = .ok next →
    held next = held st \ frameRun first count

namespace PageAllocator

variable {S E : Type} {limit : ℕ} (allocator : PageAllocator S E limit)

/-- A run that was just granted can be given back, and everything is as before. -/
theorem held_allocate_free {st granted : S} {count first : ℕ}
    (accepted : allocator.allocate st count = .ok (first, granted)) (nonempty : count ≠ 0) :
    ∃ next, allocator.free granted first count = .ok next ∧ allocator.held next = allocator.held st := by
  have holds := allocator.held_allocate _ _ _ _ accepted
  obtain ⟨next, freed⟩ := allocator.free_accepts granted first count nonempty
    (holds ▸ Set.subset_union_right)
  refine ⟨next, freed, ?_⟩
  rw [allocator.held_free _ _ _ _ freed, holds, Set.union_sdiff_right]
  exact (allocator.allocate_fresh _ _ _ _ accepted).sdiff_eq_left

/-- A run that ends behind the limit is refused. -/
theorem free_beyond {st next : S} {first count : ℕ} (nonempty : count ≠ 0)
    (beyond : limit < first + count) : allocator.free st first count ≠ .ok next := by
  intro freed
  have last : first + count - 1 ∈ frameRun first count := by
    rw [mem_frameRun]
    omega
  have bound := allocator.held_bounded _ _ (allocator.free_held _ _ _ _ freed last)
  omega

/-- Giving back an empty run changes nothing. -/
theorem held_free_empty {st next : S} {first : ℕ} (freed : allocator.free st first 0 = .ok next) :
    allocator.held next = allocator.held st := by
  rw [allocator.held_free _ _ _ _ freed, frameRun_zero, Set.sdiff_empty]

end PageAllocator

/-! ## An allocator as a list

The frames that are held in a list; the next run starts behind the highest of them. -/

section Frames

variable {E : Type} {limit : ℕ}

/-- Frames below the limit. -/
abbrev FrameList (limit : ℕ) := { frames : List ℕ // ∀ frame ∈ frames, frame < limit }

/-- The first frame behind all the frames of a list. -/
def nextFrame (frames : List ℕ) : ℕ := frames.foldr (fun frame last => max (frame + 1) last) 1

theorem lt_nextFrame {frames : List ℕ} {frame : ℕ} (member : frame ∈ frames) :
    frame < nextFrame frames := by
  induction frames with
  | nil => cases member
  | cons first rest ih =>
    rw [nextFrame, List.foldr_cons]
    rcases List.mem_cons.mp member with rfl | later
    · exact Nat.lt_of_succ_le (Nat.le_max_left ..)
    · exact Nat.lt_of_lt_of_le (ih later) (Nat.le_max_right ..)

theorem nextFrame_pos (frames : List ℕ) : 0 < nextFrame frames := by
  cases frames with
  | nil => exact Nat.one_pos
  | cons first rest => exact Nat.lt_of_lt_of_le (Nat.succ_pos first) (Nat.le_max_left ..)

/-- The allocator of the frames in a list. -/
def PageAllocator.ofFrames (refusal : E) : PageAllocator (FrameList limit) E limit where
  held frames := { frame | frame ∈ frames.val }
  allocate frames count :=
    if fits : nextFrame frames.val + count < limit then
      .ok (nextFrame frames.val, ⟨List.range' (nextFrame frames.val) count ++ frames.val, by
        intro frame member
        rcases List.mem_append.mp member with granted | old
        · have bounds := List.mem_range'_1.mp granted
          omega
        · exact frames.property frame old⟩)
    else .error refusal
  free frames first count :=
    if ∀ frame ∈ List.range' first count, frame ∈ frames.val then
      .ok ⟨frames.val.filter fun frame => !decide (first ≤ frame ∧ frame < first + count), fun frame
        member => frames.property frame (List.mem_filter.mp member).1⟩
    else .error refusal
  held_bounded frames := frames.property
  allocate_placed frames count first next accepted := by
    split_ifs at accepted with fits
    obtain ⟨rfl, _⟩ := Prod.mk.inj (Except.ok.inj accepted)
    exact ⟨nextFrame_pos _, by omega⟩
  allocate_fresh frames count first next accepted := by
    split_ifs at accepted with fits
    obtain ⟨rfl, _⟩ := Prod.mk.inj (Except.ok.inj accepted)
    rw [Set.disjoint_left]
    intro frame old granted
    have below : frame < nextFrame frames.val := lt_nextFrame old
    rw [mem_frameRun] at granted
    omega
  held_allocate frames count first next accepted := by
    split_ifs at accepted with fits
    obtain ⟨rfl, rfl⟩ := Prod.mk.inj (Except.ok.inj accepted)
    ext frame
    simp [List.mem_range'_1, or_comm]
  free_held frames first count next freed frame member := by
    split_ifs at freed with all
    exact all frame (List.mem_range'_1.mpr member)
  free_accepts frames first count _ all := by
    have listed : ∀ frame ∈ List.range' first count, frame ∈ frames.val :=
      fun frame member => all (List.mem_range'_1.mp member)
    rw [if_pos listed]
    exact ⟨_, rfl⟩
  held_free frames first count next freed := by
    split_ifs at freed
    obtain rfl := Except.ok.inj freed
    ext frame
    simp only [Set.mem_ofPred_eq, List.mem_filter, Set.mem_sdiff, mem_frameRun, Bool.not_eq_true',
      decide_eq_false_iff_not]

end Frames

end ZLoader
