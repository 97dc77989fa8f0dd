import ZLoader.Foundation.Numerals
import ZLoader.Model.Lib.PrintText

/-! # The texts of numbers

`value_to_hex_string` writes the hexadecimal numeral of every value. `value_to_string` writes the
decimal one, behind a minus sign where the value is negative; the negation of the lowest `int64_t`
is not positive, and the remainders of its division are no digits.
-/

namespace ZLoader

theorem hexDigits_getD {value : ℕ} (small : value < 16) :
    hexDigits.getD value '0' = value.digitChar := by
  decide +revert

theorem toNat_nibble (value : UInt64) : (value &&& 0xf).toNat = value.toNat % 16 := by
  rw [UInt64.toNat_and]
  exact Nat.and_two_pow_sub_one_eq_mod value.toNat 4

theorem toNat_shift_nibble (value : UInt64) : (value >>> 4).toNat = value.toNat / 16 := by
  rw [UInt64.toNat_shiftRight]
  exact Nat.shiftRight_eq_div_pow value.toNat 4

/-- The loop writes a numeral in front of the digits it has. -/
theorem valueToHexLoop_eq {turns : ℕ} {value : UInt64} (enough : value.toNat < 16 ^ turns)
    (digits : List Char) :
    valueToHexLoop turns value digits =
      (if value = 0 then [] else Nat.toDigits 16 value.toNat) ++ digits := by
  induction turns generalizing value digits with
  | zero =>
    have zero : value = 0 := UInt64.toNat_inj.mp (by simpa using enough)
    rw [if_pos zero]
    rfl
  | succ turns ih =>
    rw [valueToHexLoop]
    by_cases zero : value = 0
    · rw [if_pos (by simpa using zero), if_pos zero]
      rfl
    · have shifted := toNat_shift_nibble value
      have lower : (value >>> 4).toNat < 16 ^ turns := by
        rw [shifted]
        rw [Nat.pow_succ] at enough
        omega
      rw [if_neg (by simpa using zero), if_neg zero, ih lower, toNat_nibble,
        hexDigits_getD (Nat.mod_lt _ (by decide)), Nat.toDigits_eq_if (by decide) (n := value.toNat)]
      have last : value >>> 4 = 0 ↔ value.toNat < 16 := by
        rw [← UInt64.toNat_inj, shifted]
        exact Nat.div_eq_zero_iff_lt (by decide)
      split_ifs with ended small small
      · rw [List.nil_append, Nat.mod_eq_of_lt small]
        rfl
      · exact absurd (last.mp ended) small
      · exact absurd (last.mpr small) ended
      · rw [shifted, List.append_assoc]
        rfl

theorem valueToHexString_eq (value : UInt64) :
    valueToHexString value = Nat.toDigits 16 value.toNat := by
  rw [valueToHexString]
  by_cases zero : value = 0
  · rw [if_pos (by simpa using zero), zero]
    exact (Nat.toDigits_zero 16).symm
  · rw [if_neg (by simpa using zero), valueToHexLoop_eq value.toNat_lt, if_neg zero, List.append_nil]

theorem decimalDigit {digit : ℕ} (small : digit < 10) :
    Char.ofUInt8 ((Int64.ofNat digit).toUInt64.toUInt8 + '0'.toUInt8) = digit.digitChar := by
  decide +revert

/-- The loop over a value that is not negative writes a numeral in front of the digits it has. -/
theorem valueToStringLoop_eq {turns n : ℕ} {value : Int64} (same : value.toInt = n)
    (enough : n < 10 ^ turns) (digits : List Char) :
    valueToStringLoop turns value digits = (if n = 0 then [] else Nat.toDigits 10 n) ++ digits := by
  induction turns generalizing n value digits with
  | zero =>
    have zero : n = 0 := by simpa using enough
    rw [if_pos zero]
    rfl
  | succ turns ih =>
    have zero_iff : value = 0 ↔ n = 0 := by
      rw [← Int64.toInt_inj, same]
      exact Int.natCast_eq_zero
    rw [valueToStringLoop]
    by_cases zero : n = 0
    · rw [if_pos (by simpa using zero_iff.mpr zero), if_pos zero]
      rfl
    · have quotient : (value / 10).toInt = (n / 10 : ℕ) := by
        rw [Int64.toInt_div_of_ne_right value 10 (by decide), same]
        rfl
      have remainder : value % 10 = Int64.ofNat (n % 10) := by
        apply Int64.toInt_inj.mp
        rw [Int64.toInt_mod, same, Int64.toInt_ofNat_of_lt (by omega)]
        rfl
      have lower : n / 10 < 10 ^ turns := by
        rw [Nat.pow_succ] at enough
        omega
      rw [if_neg (by simpa using mt zero_iff.mp zero), ih quotient lower, if_neg zero, remainder,
        decimalDigit (Nat.mod_lt n (by decide)), Nat.toDigits_eq_if (by decide) (n := n)]
      have last : n / 10 = 0 ↔ n < 10 := Nat.div_eq_zero_iff_lt (by decide)
      split_ifs with ended small small
      · rw [List.nil_append, Nat.mod_eq_of_lt small]
        rfl
      · exact absurd (last.mp ended) small
      · exact absurd (last.mpr small) ended
      · rw [List.append_assoc]
        rfl

/-- A value that is not negative. -/
theorem valueToString_natCast {n : ℕ} {value : Int64} (same : value.toInt = n) :
    valueToString value = Nat.toDigits 10 n := by
  have zero_iff : value = 0 ↔ n = 0 := by
    rw [← Int64.toInt_inj, same]
    exact Int.natCast_eq_zero
  have upper := value.toInt_lt
  rw [valueToString]
  by_cases zero : n = 0
  · rw [if_pos (by simpa using zero_iff.mpr zero), zero]
    exact (Nat.toDigits_zero 10).symm
  · have nonnegative : ¬ value < 0 := by
      rw [Int64.lt_iff_toInt_lt, same]
      exact Int.not_lt.mpr (Int.natCast_nonneg n)
    rw [if_neg (by simpa using mt zero_iff.mp zero), if_neg nonnegative,
      valueToStringLoop_eq same (by omega), if_neg zero, List.append_nil]

/-- A negative value whose negation is an `int64_t`. -/
theorem valueToString_negative {n : ℕ} {value : Int64} (same : value.toInt = -n)
    (positive : 0 < n) (bound : n < 2 ^ 63) :
    valueToString value = '-' :: Nat.toDigits 10 n := by
  have negative : value < 0 := by
    rw [Int64.lt_iff_toInt_lt, same]
    exact Int.neg_neg_of_pos (Int.natCast_pos.mpr positive)
  have nonzero : value ≠ 0 := by
    rintro rfl
    exact absurd negative (by decide)
  have negated : (-value).toInt = n := by
    rw [Int64.toInt_neg, same, Int.neg_neg]
    exact Int.bmod_eq_of_le (by omega) (by omega)
  rw [valueToString, if_neg (by simpa using nonzero), if_pos negative,
    valueToStringLoop_eq negated (by omega), if_neg (Nat.ne_of_gt positive), List.append_nil]

/-! ## Fields of a fixed width -/

/-- A hexadecimal numeral behind zeros up to a width. -/
def hexField (width n : ℕ) : List Char := (Nat.toDigits 16 n).leftpad width '0'

theorem length_hexField {width n : ℕ} (positive : 0 < width) (bound : n < 16 ^ width) :
    (hexField width n).length = width := by
  rw [hexField, List.length_leftpad]
  exact Nat.max_eq_left ((Nat.length_toDigits_le_iff (by decide) positive).mpr bound)

theorem leadingZeros_cons (value bound : ℕ) (bounds : List ℕ) :
    leadingZeros value (bound :: bounds) =
      (if value < bound then ['0'] else []) ++ leadingZeros value bounds := by
  simp only [leadingZeros, List.filter_cons, decide_eq_true_eq]
  split_ifs
  · rfl
  · rfl

/-- The comparisons with the powers of sixteen count the digits that are missing. -/
theorem leadingZeros_powers (value count : ℕ) :
    leadingZeros value ((List.range count).reverse.map fun i => 16 ^ (i + 1)) =
      List.replicate (count + 1 - (Nat.toDigits 16 value).length) '0' := by
  have positive : 0 < (Nat.toDigits 16 value).length := Nat.length_toDigits_pos
  induction count with
  | zero =>
    rw [Nat.sub_eq_zero_of_le positive]
    rfl
  | succ count ih =>
    have fits := Nat.length_toDigits_le_iff (b := 16) (n := value) (by decide) count.succ_pos
    rw [List.range_succ, List.reverse_append, List.reverse_singleton, List.singleton_append,
      List.map_cons, leadingZeros_cons, ih]
    split_ifs with below
    · rw [Nat.succ_sub (fits.mpr below)]
      rfl
    · have long := mt fits.mp below
      rw [Nat.sub_eq_zero_of_le (by omega), Nat.sub_eq_zero_of_le (by omega)]
      rfl

/-- Zeros counted against the powers of sixteen, in front of the hexadecimal numeral. -/
theorem hexField_eq (value : UInt64) (count : ℕ) :
    leadingZeros value.toNat ((List.range count).reverse.map fun i => 16 ^ (i + 1)) ++
      valueToHexString value = hexField (count + 1) value.toNat := by
  rw [leadingZeros_powers, valueToHexString_eq]
  rfl

end ZLoader
