import Mathlib.Data.Nat.Bitwise
import Mathlib.Data.Nat.ModEq
import ZLoader.Foundation.ByteStore

/-! # Rounding up to a multiple

`roundUp` is the first multiple at or above a number. Programs round up by adding the distance
`a - v` masked with `a - 1`, on words of some width: that is `maskPadding`, which rounds up when
the alignment is a power of two. For another alignment it adds less than the alignment, and where
it ends on a multiple below the modulus that multiple is the right one. A stack of windows puts each
window at the first multiple behind the one before.
-/

namespace ZLoader

/-- The first multiple of `a` that is not below `v`. -/
def roundUp (a v : ℕ) : ℕ := (v + (a - 1)) / a * a

section RoundUp

variable {a v limit : ℕ}

theorem dvd_roundUp (a v : ℕ) : a ∣ roundUp a v := Nat.dvd_mul_left a _

theorem le_roundUp (positive : 0 < a) (v : ℕ) : v ≤ roundUp a v := by
  have split := Nat.div_add_mod (v + (a - 1)) a
  have rest := Nat.mod_lt (v + (a - 1)) positive
  have same : a * ((v + (a - 1)) / a) = roundUp a v := Nat.mul_comm ..
  omega

theorem roundUp_lt (positive : 0 < a) (v : ℕ) : roundUp a v < v + a := by
  have below : roundUp a v ≤ v + (a - 1) := Nat.div_mul_le_self ..
  omega

/-- Two multiples less than one alignment apart are the same. -/
theorem eq_of_dvd_of_lt {first second : ℕ} (one : a ∣ first) (other : a ∣ second)
    (below : first ≤ second) (near : second < first + a) : first = second := by
  have gap : a ∣ second - first := Nat.dvd_sub other one
  have none := Nat.eq_zero_of_dvd_of_lt gap (by omega)
  omega

/-- A multiple at most one alignment above the number is the rounded number. -/
theorem eq_roundUp (positive : 0 < a) {value : ℕ} (divides : a ∣ value) (above : v ≤ value)
    (near : value < v + a) : value = roundUp a v := by
  have lower := le_roundUp positive v
  have upper := roundUp_lt positive v
  rcases Nat.le_total value (roundUp a v) with below | beyond
  · exact eq_of_dvd_of_lt divides (dvd_roundUp a v) below (by omega)
  · exact (eq_of_dvd_of_lt (dvd_roundUp a v) divides beyond (by omega)).symm

theorem roundUp_le (positive : 0 < a) (divides : a ∣ limit) (above : v ≤ limit) :
    roundUp a v ≤ limit := by
  by_contra beyond
  have upper := roundUp_lt positive v
  have same := eq_of_dvd_of_lt divides (dvd_roundUp a v) (by omega) (by omega)
  omega

/-- A multiple in front is not touched by rounding. -/
theorem roundUp_add (positive : 0 < a) {base : ℕ} (divides : a ∣ base) (v : ℕ) :
    roundUp a (base + v) = base + roundUp a v := by
  have lower := le_roundUp positive v
  have upper := roundUp_lt positive v
  apply Eq.symm
  apply eq_roundUp positive (Nat.dvd_add divides (dvd_roundUp a v))
  · omega
  · omega

end RoundUp

/-- What `v + ((a - v) & (a - 1))` adds to `v`, on words of `width` bits. -/
def maskPadding (width a v : ℕ) : ℕ := ((a + (2 ^ width - v)) % 2 ^ width) &&& (a - 1)

section MaskPadding

variable {width a v : ℕ}

theorem maskPadding_lt (width v : ℕ) (positive : 0 < a) : maskPadding width a v < a := by
  have masked : maskPadding width a v ≤ a - 1 := Nat.and_le_right
  omega

/-- The mask sees the low bits of a number only. -/
theorem maskPadding_mod {narrow : ℕ} (shorter : narrow ≤ width) (word : a ≤ 2 ^ narrow)
    (positive : 0 < a) (bound : v ≤ 2 ^ width) :
    maskPadding width a v = maskPadding narrow a (v % 2 ^ narrow) := by
  have divides : 2 ^ narrow ∣ 2 ^ width := Nat.pow_dvd_pow 2 shorter
  have small : v % 2 ^ narrow < 2 ^ narrow := Nat.mod_lt _ (Nat.two_pow_pos narrow)
  have distance : 2 ^ width - v ≡ 2 ^ narrow - v % 2 ^ narrow [MOD 2 ^ narrow] := by
    apply Nat.ModEq.add_right_cancel' (v % 2 ^ narrow)
    calc
      2 ^ width - v + v % 2 ^ narrow ≡ 2 ^ width - v + v [MOD 2 ^ narrow] :=
        (Nat.mod_modEq v _).add_left _
      _ = 2 ^ width := by omega
      _ ≡ 0 [MOD 2 ^ narrow] := Nat.modEq_zero_iff_dvd.mpr divides
      _ ≡ 2 ^ narrow [MOD 2 ^ narrow] := (Nat.modEq_zero_iff_dvd.mpr (dvd_refl _)).symm
      _ = 2 ^ narrow - v % 2 ^ narrow + v % 2 ^ narrow := by omega
  have mask : (a - 1) % 2 ^ narrow = a - 1 := Nat.mod_eq_of_lt (by omega)
  have low : maskPadding width a v % 2 ^ narrow = maskPadding width a v :=
    Nat.mod_eq_of_lt ((maskPadding_lt width v positive).trans_le word)
  rw [← low, maskPadding, Nat.and_mod_two_pow, Nat.mod_mod_of_dvd _ divides, mask, maskPadding,
    distance.add_left a]

/-- The sum has all bits of the mask where the number had them, which leaves the mask none. -/
theorem eq_zero_of_add_and {a y : ℕ} (fixed : (y + a) &&& a = y) : a = 0 := by
  induction a using Nat.strongRecOn generalizing y with
  | ind a ih =>
    rcases Nat.eq_zero_or_pos a with none | positive
    · exact none
    · have bit : ((y + a) &&& a) % 2 = y % 2 := congrArg (· % 2) fixed
      have half := congrArg (· / 2) fixed
      simp only [Nat.and_div_two] at half
      rcases Nat.mod_two_eq_zero_or_one a with even | odd
      · have halved : (y + a) / 2 = y / 2 + a / 2 := by omega
        rw [halved] at half
        have smaller := ih (a / 2) (by omega) half
        omega
      · -- the lowest bit of the sum is the other one
        have low : ((y + a) &&& a) % 2 = 1 ↔ (y + a) % 2 = 1 ∧ a % 2 = 1 := Nat.and_mod_two_eq_one
        omega

/-- Only a power of two has a mask that gives the padding back from the wrapped distance. -/
theorem isPowerOfTwo_of_add_and {a y : ℕ} (positive : 0 < a) (fixed : (y + a) &&& (a - 1) = y) :
    ∃ t, a = 2 ^ t := by
  induction a using Nat.strongRecOn generalizing y with
  | ind a ih =>
    have half := congrArg (· / 2) fixed
    simp only [Nat.and_div_two] at half
    rcases Nat.mod_two_eq_zero_or_one a with even | odd
    · have halved : (y + a) / 2 = y / 2 + a / 2 := by omega
      have mask : (a - 1) / 2 = a / 2 - 1 := by omega
      rw [halved, mask] at half
      obtain ⟨t, power⟩ := ih (a / 2) (by omega) (by omega) half
      exact ⟨t + 1, by rw [Nat.pow_succ]; omega⟩
    · have mask : (a - 1) / 2 = a / 2 := by omega
      have low : ((y + a) &&& (a - 1)) % 2 = 1 ↔ (y + a) % 2 = 1 ∧ (a - 1) % 2 = 1 :=
        Nat.and_mod_two_eq_one
      have even : y % 2 = 0 := by omega
      have halved : (y + a) / 2 = y / 2 + a / 2 := by omega
      rw [halved, mask] at half
      have nothing := eq_zero_of_add_and half
      exact ⟨0, by omega⟩

/-- For a power of two the padded number is the rounded one. -/
theorem add_maskPadding_of_pow {t : ℕ} (bound : t ≤ width) (small : v < 2 ^ width) :
    v + maskPadding width (2 ^ t) v = roundUp (2 ^ t) v := by
  have positive : 0 < 2 ^ t := Nat.two_pow_pos t
  have divides : 2 ^ t ∣ 2 ^ width := Nat.pow_dvd_pow 2 bound
  have padding : maskPadding width (2 ^ t) v = (2 ^ t + (2 ^ width - v)) % 2 ^ t := by
    rw [maskPadding, Nat.and_two_pow_sub_one_eq_mod, Nat.mod_mod_of_dvd _ divides]
  apply eq_roundUp positive
  · apply Nat.dvd_of_mod_eq_zero
    rw [padding, Nat.add_mod_mod, show v + (2 ^ t + (2 ^ width - v)) = 2 ^ t + 2 ^ width by omega]
    exact Nat.mod_eq_zero_of_dvd (Nat.dvd_add (dvd_refl _) divides)
  · omega
  · have less := maskPadding_lt width v positive
    omega

/-- Where the padded number, cut to the width, comes out as a multiple although a multiple of the
width lies above the number, nothing was cut and the number was rounded up. -/
theorem add_maskPadding_of_dvd {limit : ℕ} (positive : 0 < a) (word : a < 2 ^ width)
    (room : v ≤ limit) (limited : limit < 2 ^ width) (target : a ∣ limit)
    (divides : a ∣ (v + maskPadding width a v) % 2 ^ width) :
    v + maskPadding width a v = roundUp a v := by
  have less := maskPadding_lt width v positive
  rcases Nat.lt_or_ge (v + maskPadding width a v) (2 ^ width) with small | wraps
  · rw [Nat.mod_eq_of_lt small] at divides
    exact eq_roundUp positive divides (by omega) (by omega)
  · have cut : (v + maskPadding width a v) % 2 ^ width = v + maskPadding width a v - 2 ^ width := by
      rw [Nat.mod_eq_sub_mod (by omega), Nat.mod_eq_of_lt (by omega)]
    rw [cut] at divides
    have zero := Nat.eq_zero_of_dvd_of_lt divides (by omega)
    -- the mask has given the whole distance to the modulus: the alignment is a power of two
    have distance : 2 ^ width - v = maskPadding width a v := by omega
    have fixed : (maskPadding width a v + a) &&& (a - 1) = maskPadding width a v := by
      have unfolded : maskPadding width a v =
          ((a + maskPadding width a v) % 2 ^ width) &&& (a - 1) := by
        conv_lhs => rw [maskPadding, distance]
      have uncut : ((a + maskPadding width a v) % 2 ^ width) &&& (a - 1) =
          (a + maskPadding width a v) &&& (a - 1) := by
        have mask : (a - 1) % 2 ^ width = a - 1 := Nat.mod_eq_of_lt (by omega)
        have bounded : (a + maskPadding width a v) &&& (a - 1) ≤ a - 1 := Nat.and_le_right
        conv_lhs => rw [← mask, ← Nat.and_mod_two_pow]
        exact Nat.mod_eq_of_lt (by omega)
      rw [Nat.add_comm, ← uncut, ← unfolded]
    obtain ⟨t, rfl⟩ := isPowerOfTwo_of_add_and positive fixed
    have bound : t ≤ width := (Nat.pow_lt_pow_iff_right (by omega)).mp word |>.le
    exact add_maskPadding_of_pow bound (by omega)

end MaskPadding

/-- Windows of the given lengths, each at the first multiple of `a` behind the one before. -/
def stack (a : ℕ) : ℕ → List ℕ → List Window
  | _, [] => []
  | start, size :: sizes => ⟨start, size⟩ :: stack a (roundUp a (start + size)) sizes

section Stack

variable {a start : ℕ} {sizes : List ℕ}

theorem le_of_mem_stack (positive : 0 < a) {window : Window} (member : window ∈ stack a start sizes) :
    start ≤ window.start := by
  induction sizes generalizing start with
  | nil => cases member
  | cons size sizes ih =>
    rcases List.mem_cons.mp member with rfl | later
    · exact Nat.le_refl _
    · have behind := le_roundUp positive (start + size)
      have above := ih later
      omega

theorem stack_pairwise (positive : 0 < a) (start : ℕ) (sizes : List ℕ) :
    (stack a start sizes).Pairwise Window.Disjoint := by
  induction sizes generalizing start with
  | nil => exact List.Pairwise.nil
  | cons size sizes ih =>
    apply List.Pairwise.cons
    · intro window later
      have behind := le_roundUp positive (start + size)
      have above := le_of_mem_stack positive later
      apply (Window.disjoint_iff _ _).mpr
      exact .inr (.inr (.inl (Nat.le_trans behind above)))
    · exact ih _

theorem dvd_of_mem_stack (aligned : a ∣ start) {window : Window}
    (member : window ∈ stack a start sizes) : a ∣ window.start := by
  induction sizes generalizing start with
  | nil => cases member
  | cons size sizes ih =>
    rcases List.mem_cons.mp member with rfl | later
    · exact aligned
    · exact ih (dvd_roundUp _ _) later

/-! ### Windows without gaps -/

theorem roundUp_one (v : ℕ) : roundUp 1 v = v := by
  simp [roundUp]

theorem stack_one_cons (start size : ℕ) (sizes : List ℕ) :
    stack 1 start (size :: sizes) = ⟨start, size⟩ :: stack 1 (start + size) sizes := by
  rw [stack, roundUp_one]

/-- Without gaps the windows cover one of the total length. -/
theorem exists_contains_stack_one_iff {offset : ℕ} :
    (∃ window ∈ stack 1 start sizes, window.Contains offset) ↔
      (Window.mk start sizes.sum).Contains offset := by
  induction sizes generalizing start with
  | nil =>
    simp only [stack, List.not_mem_nil, false_and, exists_false, List.sum_nil, Window.contains_mk,
      false_iff]
    omega
  | cons size sizes ih =>
    rw [stack_one_cons, List.sum_cons]
    simp only [List.mem_cons, exists_eq_or_imp, ih, Window.contains_mk]
    omega

theorem forall_stack_one_iff {p : ℕ → Prop} :
    (∀ window ∈ stack 1 start sizes, ∀ offset, window.Contains offset → p offset) ↔
      ∀ offset, (Window.mk start sizes.sum).Contains offset → p offset := by
  constructor
  · intro each offset inside
    obtain ⟨window, member, covers⟩ := exists_contains_stack_one_iff.mpr inside
    exact each window member offset covers
  · intro total window member offset covers
    apply total offset
    exact exists_contains_stack_one_iff.mp ⟨window, member, covers⟩

theorem forall_stack_one_within_iff {limit : ℕ} :
    (∀ window ∈ stack 1 start sizes, window.Within limit) ↔
      (Window.mk start sizes.sum).Within limit := forall_stack_one_iff

theorem forall_stack_one_disjoint_iff {other : Window} :
    (∀ window ∈ stack 1 start sizes, window.Disjoint other) ↔
      (Window.mk start sizes.sum).Disjoint other := forall_stack_one_iff

/-- The last window ends above the sum of all lengths. -/
theorem exists_sum_le (start : ℕ) (positive : 0 < a) (nonempty : sizes ≠ []) :
    ∃ window ∈ stack a start sizes, start + sizes.sum ≤ window.start + window.length := by
  induction sizes generalizing start with
  | nil => exact absurd rfl nonempty
  | cons size sizes ih =>
    cases sizes with
    | nil => exact ⟨_, List.mem_singleton_self _, by simp⟩
    | cons next rest =>
      obtain ⟨window, later, above⟩ := ih (roundUp a (start + size)) (List.cons_ne_nil _ _)
      have behind := le_roundUp positive (start + size)
      refine ⟨window, List.mem_cons_of_mem _ later, ?_⟩
      rw [List.sum_cons] at above ⊢
      rw [List.sum_cons]
      omega

end Stack

end ZLoader
