import ZLoader.Foundation.ByteList

/-! # Repeating what stands some way back

A match of a dictionary coder repeats bytes that lie at one distance in front of it, and it may be
longer than that distance. Byte after byte this is one list growing; a program copies whole blocks,
from the distance or from a multiple of it, and may write more than the match is long. Both are
compared with the memory that is wanted in the end, from which every block is a copy of itself.
-/

namespace ZLoader

/-- So many bytes, each one the byte at a distance in front of it; at no distance they are zero. -/
def repeatBytes (data : List UInt8) (offset : ℕ) : ℕ → List UInt8
  | 0 => data
  | count + 1 =>
      let data := repeatBytes data offset count
      data ++ [if offset = 0 then 0 else data.getD (data.length - offset) 0]

@[simp] theorem repeatBytes_length (data : List UInt8) (offset count : ℕ) :
    (repeatBytes data offset count).length = data.length + count := by
  induction count with
  | zero => rfl
  | succ count ih => rw [repeatBytes, List.length_append, ih, List.length_singleton, Nat.add_assoc]

/-- The bytes there are do not change. -/
theorem repeatBytes_getD_of_lt (data : List UInt8) (offset : ℕ) {few more index : ℕ}
    (inside : index < data.length + few) :
    (repeatBytes data offset (few + more)).getD index 0 =
      (repeatBytes data offset few).getD index 0 := by
  induction more with
  | zero => rfl
  | succ more ih =>
    rw [← Nat.add_assoc, repeatBytes, List.getD_eq_getElem?_getD, List.getElem?_append_left,
      ← List.getD_eq_getElem?_getD, ih]
    rw [repeatBytes_length]
    omega

/-- Data further in front is not looked at. -/
theorem repeatBytes_append (front data : List UInt8) {offset : ℕ} (reaches : offset ≤ data.length)
    (count : ℕ) : repeatBytes (front ++ data) offset count = front ++ repeatBytes data offset count := by
  induction count with
  | zero => rfl
  | succ count ih =>
    have longer : data.length ≤ (repeatBytes data offset count).length := by simp
    rw [repeatBytes, repeatBytes, ih, List.append_assoc, List.length_append]
    congr 3
    split_ifs with none_
    · rfl
    · rw [List.getD_eq_getElem?_getD, List.getElem?_append_right (by omega),
        ← List.getD_eq_getElem?_getD]
      congr 1
      omega

/-- The list without an end. -/
def repeated (data : List UInt8) (offset : ℕ) : ByteStore := fun index =>
  (repeatBytes data offset (index + 1)).getD index 0

theorem repeated_eq (data : List UInt8) (offset : ℕ) {count index : ℕ}
    (inside : index < data.length + count) :
    repeated data offset index = (repeatBytes data offset count).getD index 0 := by
  rw [repeated, ← @repeatBytes_getD_of_lt data offset _ count _
    (Nat.lt_of_lt_of_le (Nat.lt_succ_self index) (Nat.le_add_left ..)), Nat.add_comm,
    repeatBytes_getD_of_lt data offset inside]

theorem repeated_of_lt (data : List UInt8) (offset : ℕ) {index : ℕ} (inside : index < data.length) :
    repeated data offset index = data.getD index 0 :=
  @repeated_eq data offset 0 index inside

/-- Behind the data each byte is the one at the distance. -/
theorem repeated_of_ge (data : List UInt8) (offset : ℕ) {index : ℕ} (outside : data.length ≤ index)
    (far : offset ≤ index) :
    repeated data offset index = if offset = 0 then 0 else repeated data offset (index - offset) := by
  obtain ⟨count, rfl⟩ := Nat.exists_eq_add_of_le outside
  rw [@repeated_eq data offset (count + 1) _ (by omega), repeatBytes,
    List.getD_eq_getElem?_getD, List.getElem?_append_right (by simp)]
  simp only [repeatBytes_length, Nat.sub_self, List.getElem?_cons_zero, Option.getD_some]
  split_ifs with none_
  · rfl
  · exact (repeated_eq data offset (by omega)).symm

/-! ## Copies in place -/

/-- The store has what is wanted in front of an offset. -/
def FilledTo (want store : ByteStore) (p : ℕ) : Prop := ∀ index < p, store index = want index

/-- What is wanted at one place stands in front of it at another. -/
def Mirrors (want : ByteStore) (s p : ℕ) : Prop := ∀ index, want (p + index) = want (s + index)

section Copy

variable {want store : ByteStore} {p s size : ℕ}

theorem FilledTo.mono {q : ℕ} (filled : FilledTo want store p) (le : q ≤ p) : FilledTo want store q :=
  fun index before => filled index (Nat.lt_of_lt_of_le before le)

/-- A block of bytes that are wanted there. -/
theorem FilledTo.patch (filled : FilledTo want store p) {byte : ℕ → UInt8}
    (feeds : ∀ index < size, byte index = want (p + index)) :
    FilledTo want (Patch.apply ⟨⟨p, size⟩, byte⟩ store) (p + size) := by
  intro index before
  rcases Nat.lt_or_ge index p with old | new
  · rw [Patch.apply_outside _ _ (fun inside => absurd inside.1 (Nat.not_le.mpr old))]
    exact filled index old
  · obtain ⟨skip, rfl⟩ := Nat.exists_eq_add_of_le new
    rw [Patch.apply_inside _ _ ⟨new, before⟩]
    dsimp only
    rw [Nat.add_sub_cancel_left]
    exact feeds skip (by omega)

theorem FilledTo.copy (filled : FilledTo want store p)
    (feeds : ∀ index < size, store (s + index) = want (p + index)) :
    FilledTo want ((Patch.copy p size store s).apply store) (p + size) :=
  filled.patch feeds

theorem Mirrors.shift (mirrors : Mirrors want s p) (skip : ℕ) :
    Mirrors want (s + skip) (p + skip) := fun index => by
  rw [Nat.add_assoc, Nat.add_assoc]
  exact mirrors _

/-- A block that lies in front of the place it is copied to is what is wanted there. -/
theorem Mirrors.feeds (mirrors : Mirrors want s p) (filled : FilledTo want store p)
    (behind : s + size ≤ p) : ∀ index < size, store (s + index) = want (p + index) :=
  fun index inside => by
    rw [filled _ (by omega), mirrors]

end Copy

/-! ## What is wanted of a match -/

/-- From an offset on each byte is the one at a distance in front of it. -/
def RepeatsFrom (want : ByteStore) (op offset : ℕ) : Prop :=
  ∀ index ≥ op, want index = if offset = 0 then 0 else want (index - offset)

section RepeatsFrom

variable {want : ByteStore} {op offset s : ℕ}

/-- A multiple of the distance is a distance too. -/
theorem RepeatsFrom.mirrors_mul (repeats : RepeatsFrom want op offset) (positive : 0 < offset)
    (start : op ≤ s + offset) (count : ℕ) : Mirrors want s (s + count * offset) := by
  intro index
  induction count with
  | zero => rw [Nat.zero_mul, Nat.add_zero]
  | succ count ih =>
    rw [repeats _ (by rw [Nat.succ_mul]; omega), if_neg (Nat.ne_of_gt positive), ← ih, Nat.succ_mul]
    congr 1
    omega

theorem RepeatsFrom.mirrors (repeats : RepeatsFrom want op offset) (positive : 0 < offset)
    (start : s + offset = op) : Mirrors want s op := by
  have one := repeats.mirrors_mul positive (Nat.le_of_eq start.symm) 1
  rwa [Nat.one_mul, start] at one

/-- At no distance everything is zero. -/
theorem RepeatsFrom.mirrors_zero (repeats : RepeatsFrom want op 0) {p : ℕ} (first : op ≤ s) (second : op ≤ p) :
    Mirrors want s p := fun index => by
  rw [repeats _ (by omega), repeats (s + index) (by omega), if_pos rfl, if_pos rfl]

end RepeatsFrom

end ZLoader
