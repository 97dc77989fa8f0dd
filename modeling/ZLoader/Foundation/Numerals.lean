import Mathlib.Data.Int.Notation
import Mathlib.Data.List.Basic
import Mathlib.Data.Nat.Notation

/-! # Numerals

Numerals are lists of digits, the highest one first, in a base of at most sixteen; zero has one
digit. They are Lean's own, seen through a map of characters. Reading accepts zeros in front of a
numeral and nothing else that is no digit.
-/

namespace ZLoader

section Numerals

variable {α : Type} [DecidableEq α] (symbol : Char → α) (base : ℕ)

/-- The digits of the base are different symbols. -/
def DistinctDigits : Prop :=
  ∀ first < base, ∀ second < base, symbol first.digitChar = symbol second.digitChar → first = second

instance : Decidable (DistinctDigits symbol base) := by
  unfold DistinctDigits
  infer_instance

/-- The number that a symbol is the digit of. -/
def digitValue (c : α) : Option ℕ :=
  (List.range base).find? fun value => symbol value.digitChar = c

/-- The number read from a text behind the digits of another. -/
def readDigits (value : ℕ) (text : List α) : Option ℕ :=
  text.foldlM (fun value c => (digitValue symbol base c).map (base * value + ·)) value

/-- The number that a text is a numeral of. -/
def readNumeral (text : List α) : Option ℕ :=
  if text = [] then none else readDigits symbol base 0 text

/-- The integer that a text is a numeral of, with a minus sign or without one. -/
def readSigned (text : List α) : Option ℤ :=
  if text.head? = some (symbol '-') then
    (readNumeral symbol base text.tail).map fun value : ℕ => -(value : ℤ)
  else (readNumeral symbol base text).map fun value : ℕ => (value : ℤ)

variable {symbol base}

theorem digitValue_digitChar (distinct : DistinctDigits symbol base) {value : ℕ}
    (small : value < base) : digitValue symbol base (symbol value.digitChar) = some value := by
  rw [digitValue, List.find?_range_eq_some]
  refine ⟨decide_eq_true rfl, List.mem_range.mpr small, fun other before => ?_⟩
  simp only [Bool.not_eq_true', decide_eq_false_iff_not]
  intro same
  exact Nat.ne_of_lt before (distinct other (Nat.lt_trans before small) value small same)

theorem readDigits_append (value : ℕ) (first second : List α) :
    readDigits symbol base value (first ++ second) =
      (readDigits symbol base value first).bind fun between =>
        readDigits symbol base between second :=
  List.foldlM_append

theorem readDigits_digit (distinct : DistinctDigits symbol base) (value : ℕ) {digit : ℕ}
    (small : digit < base) :
    readDigits symbol base value [symbol digit.digitChar] = some (base * value + digit) := by
  simp only [readDigits, List.foldlM_cons, digitValue_digitChar distinct small]
  rfl

/-- A numeral is made of digits of its base. -/
theorem mem_toDigits {base : ℕ} (many : 1 < base) {n : ℕ} {c : Char}
    (member : c ∈ Nat.toDigits base n) : ∃ digit < base, c = digit.digitChar := by
  induction n using Nat.base_induction base many with
  | single digit small =>
    rw [Nat.toDigits_of_lt_base small, List.mem_singleton] at member
    exact ⟨digit, small, member⟩
  | digit high digit small positive ih =>
    rw [← Nat.toDigits_append_toDigits many positive small, Nat.toDigits_of_lt_base small,
      List.mem_append, List.mem_singleton] at member
    rcases member with higher | last
    · exact ih higher
    · exact ⟨digit, small, last⟩

/-- Reading a numeral. -/
theorem readDigits_toDigits (many : 1 < base) (distinct : DistinctDigits symbol base) (n : ℕ) :
    readDigits symbol base 0 ((Nat.toDigits base n).map symbol) = some n := by
  induction n using Nat.base_induction base many with
  | single digit small =>
    rw [Nat.toDigits_of_lt_base small, List.map_singleton, readDigits_digit distinct 0 small,
      Nat.mul_zero, Nat.zero_add]
  | digit high digit small positive ih =>
    rw [← Nat.toDigits_append_toDigits many positive small, List.map_append, readDigits_append, ih,
      Nat.toDigits_of_lt_base small, List.map_singleton]
    exact readDigits_digit distinct high small

theorem readDigits_zeros (many : 1 < base) (distinct : DistinctDigits symbol base) (count : ℕ) :
    readDigits symbol base 0 ((List.replicate count '0').map symbol) = some 0 := by
  induction count with
  | zero => rfl
  | succ count ih =>
    have zero := readDigits_digit distinct 0 (Nat.zero_lt_of_lt many)
    rw [Nat.mul_zero, Nat.add_zero] at zero
    rw [List.replicate_succ', List.map_append, readDigits_append, ih]
    exact zero

/-- A numeral is read through zeros in front of it. -/
theorem readNumeral_zeros_append (many : 1 < base) (distinct : DistinctDigits symbol base)
    (count n : ℕ) :
    readNumeral symbol base ((List.replicate count '0' ++ Nat.toDigits base n).map symbol) =
      some n := by
  rw [readNumeral, if_neg (by simp), List.map_append, readDigits_append,
    readDigits_zeros many distinct]
  exact readDigits_toDigits many distinct n

theorem readNumeral_toDigits (many : 1 < base) (distinct : DistinctDigits symbol base) (n : ℕ) :
    readNumeral symbol base ((Nat.toDigits base n).map symbol) = some n :=
  readNumeral_zeros_append many distinct 0 n

/-- A numeral of a fixed width. -/
theorem readNumeral_leftpad (many : 1 < base) (distinct : DistinctDigits symbol base)
    (width n : ℕ) :
    readNumeral symbol base (((Nat.toDigits base n).leftpad width '0').map symbol) = some n :=
  readNumeral_zeros_append many distinct _ n

theorem readDigits_eq_none {text : List α} {c : α} (member : c ∈ text)
    (foreign : digitValue symbol base c = none) (value : ℕ) :
    readDigits symbol base value text = none := by
  obtain ⟨front, behind, rfl⟩ := List.append_of_mem member
  rw [readDigits_append]
  cases readDigits symbol base value front with
  | none => rfl
  | some between =>
    rw [Option.bind_some, readDigits, List.foldlM_cons, foreign]
    rfl

/-- A text with a symbol that is no digit is no numeral. -/
theorem readNumeral_eq_none {text : List α} {c : α} (member : c ∈ text)
    (foreign : digitValue symbol base c = none) : readNumeral symbol base text = none := by
  rw [readNumeral, if_neg (List.ne_nil_of_mem member)]
  exact readDigits_eq_none member foreign 0

theorem readSigned_minus (text : List α) :
    readSigned symbol base (symbol '-' :: text) =
      (readNumeral symbol base text).map fun value : ℕ => -(value : ℤ) := by
  rw [readSigned, if_pos (by rfl)]
  rfl

/-- Without a minus sign an integer is read as a number. -/
theorem readSigned_numeral (foreign : digitValue symbol base (symbol '-') = none) {text : List α}
    {value : ℕ} (read : readNumeral symbol base text = some value) :
    readSigned symbol base text = some (value : ℤ) := by
  rw [readSigned, if_neg, read]
  · rfl
  · intro signed
    rw [readNumeral_eq_none (List.mem_of_mem_head? (Option.mem_def.mpr signed)) foreign] at read
    cases read

end Numerals

end ZLoader
