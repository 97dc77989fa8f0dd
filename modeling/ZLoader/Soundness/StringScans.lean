import Mathlib.Algebra.GroupWithZero.Nat
import ZLoader.Soundness.PrintItems
import ZLoader.Soundness.Utf8Conversion

/-! # The characters of strings

A wide string has a character for each of its units, a UTF-8 string one for each of its characters,
with as many units as the character has bytes.
-/

namespace ZLoader

/-- Characters one behind the other, with the units each takes. -/
def Scan.ofChars (chars : List (UInt16 × ℕ)) : Scan :=
  chars.foldr (fun entry rest => .char entry.1 entry.2 rest) .nul

theorem Scan.ofChars_cons (c : UInt16) (units : ℕ) (chars : List (UInt16 × ℕ)) :
    ofChars ((c, units) :: chars) = .char c units (ofChars chars) := rfl

/-- The characters that stand in a text from an index on are settled. -/
theorem Text.StandsAt.unique {text : Text} {first second : Scan} {index : ℕ}
    (stands : text.StandsAt first index) (stands' : text.StandsAt second index) :
    first = second := by
  induction first generalizing second index with
  | nul =>
    obtain rfl : index = text.length := stands
    cases second with
    | nul => rfl
    | malformed => exact absurd stands'.1 (Nat.lt_irrefl _)
    | char c units rest =>
      obtain ⟨positive, bound, -⟩ := stands'
      omega
  | malformed =>
    obtain ⟨inside, stalled⟩ := stands
    cases second with
    | nul => exact absurd (show index = text.length from stands') (Nat.ne_of_lt inside)
    | malformed => rfl
    | char c units rest =>
      obtain ⟨positive, -, read, -⟩ := stands'
      have same : index = index + units := congrArg (fun result => result.2.index)
        (stalled.symm.trans read)
      omega
  | char c units rest ih =>
    obtain ⟨positive, bound, read, behind⟩ := stands
    cases second with
    | nul =>
      have same : index = text.length := stands'
      omega
    | malformed =>
      have same : index = index + units := congrArg (fun result => result.2.index)
        (stands'.2.symm.trans read)
      omega
    | char c' units' rest' =>
      obtain ⟨positive', bound', read', behind'⟩ := stands'
      obtain ⟨rfl, next⟩ := Prod.mk.inj (read.symm.trans read')
      have sameUnits : units = units' := Nat.add_left_cancel (congrArg Ptr.index next)
      subst sameUnits
      rw [ih behind behind']

theorem Text.scan_eq {text : Text} {scan : Scan} (stands : text.StandsAt scan 0) :
    text.scan = scan := text.scan_stands.unique stands

/-- The units of a wide string are its characters. -/
theorem wide_stands (front units : List UInt16) (behind : ℕ → UInt16) :
    (Text.unicode ⟨front ++ units, behind⟩).StandsAt (.ofChars (units.map fun c => (c, 1)))
      front.length := by
  induction units generalizing front with
  | nil => exact congrArg List.length (List.append_nil front).symm
  | cons c units ih =>
    have next := ih (front ++ [c])
    rw [List.append_assoc, List.singleton_append, List.length_append] at next
    refine ⟨Nat.one_pos, ?_, ?_, next⟩
    · simp only [Text.length, List.length_append, List.length_cons]
      omega
    · have read : (⟨front ++ c :: units, behind⟩ : Terminated UInt16).get front.length = c := by
        rw [Terminated.get_of_lt _ (by simp), List.getElem_append_right (Nat.le_refl _)]
        simp
      rw [ptrGetc]
      simp only [read]

theorem scan_wide (units : List UInt16) (behind : ℕ → UInt16) :
    (Text.unicode ⟨units, behind⟩).scan = .ofChars (units.map fun c => (c, 1)) :=
  Text.scan_eq (wide_stands [] units behind)

/-- The characters of a UTF-8 string. -/
def utf8Chars (text : List Char) : List (UInt16 × ℕ) :=
  text.map fun c => (UInt16.ofNat c.toNat, (String.utf8EncodeChar c).length)

theorem length_utf8EncodeChar_pos (c : Char) : 0 < (String.utf8EncodeChar c).length := by
  rw [String.length_utf8EncodeChar]
  exact c.utf8Size_pos

theorem length_utf8EncodeChar_le (c : Char) : (String.utf8EncodeChar c).length ≤ 4 := by
  rw [String.length_utf8EncodeChar]
  exact c.utf8Size_le_four

theorem utf8_stands (front : List UInt8) (text : List Char) (behind : ℕ → UInt8) :
    (Text.ascii ⟨front ++ utf8Bytes text, behind⟩).StandsAt (.ofChars (utf8Chars text))
      front.length := by
  induction text generalizing front with
  | nil => exact congrArg List.length (List.append_nil front).symm
  | cons c rest ih =>
    have next := ih (front ++ String.utf8EncodeChar c)
    rw [List.append_assoc, ← utf8Bytes_cons, List.length_append] at next
    refine ⟨length_utf8EncodeChar_pos c, ?_, ?_, next⟩
    · simp only [Text.length, List.length_append, utf8Bytes_cons]
      omega
    · have read : mbtowc (fun index => (⟨front ++ utf8Bytes (c :: rest), behind⟩ :
          Terminated UInt8).get (front.length + index)) 8 =
            some (UInt16.ofNat c.toNat, (String.utf8EncodeChar c).length) := by
        have short := length_utf8EncodeChar_le c
        apply mbtowc_utf8Char c (by omega)
        intro index bound
        rw [Terminated.get_of_lt _ (by simp only [List.length_append, utf8Bytes_cons]; omega),
          List.getElem_append_right (Nat.le_add_right ..), List.getD_eq_getElem _ _ bound]
        simp only [Nat.add_sub_cancel_left, utf8Bytes_cons]
        exact List.getElem_append_left bound
      rw [ptrGetc]
      simp only [read]

theorem scan_utf8 (text : List Char) (behind : ℕ → UInt8) :
    (Text.ascii ⟨utf8Bytes text, behind⟩).scan = .ofChars (utf8Chars text) :=
  Text.scan_eq (utf8_stands [] text behind)

/-! ## Measuring -/

/-- The number of characters that begin in front of the end of a field. -/
def fieldCount (fieldWidth : ℕ) : ℕ → List ℕ → ℕ
  | _, [] => 0
  | index, size :: rest =>
      if index < fieldWidth then fieldCount fieldWidth (index + size) rest + 1 else 0

/-- The first walk over characters without a NUL stops behind those that begin in the field. -/
theorem measure_ofChars {fieldWidth index : ℕ} {chars : List (UInt16 × ℕ)}
    (nulFree : ∀ entry ∈ chars, entry.1 ≠ 0) :
    (Scan.ofChars chars).measure fieldWidth index =
      let count := fieldCount fieldWidth index (chars.map Prod.snd)
      some (index + ((chars.map Prod.snd).take count).sum, (chars.map Prod.fst).take count) := by
  induction chars generalizing index with
  | nil => rfl
  | cons entry rest ih =>
    rw [List.forall_mem_cons] at nulFree
    rw [Scan.ofChars, List.foldr_cons, ← Scan.ofChars, Scan.measure, if_neg nulFree.1]
    simp only [List.map_cons, fieldCount]
    split_ifs with inside
    · rw [ih nulFree.2, List.take_succ_cons, List.take_succ_cons, List.sum_cons, ← Nat.add_assoc]
      rfl
    · rfl

section FieldCount

variable {fieldWidth index : ℕ} {sizes : List ℕ}

theorem fieldCount_le : fieldCount fieldWidth index sizes ≤ sizes.length := by
  induction sizes generalizing index with
  | nil => exact Nat.le_refl 0
  | cons size rest ih =>
    rw [fieldCount]
    split_ifs
    · exact Nat.succ_le_succ ih
    · exact Nat.zero_le _

/-- All characters are counted, or those that are fill the field. -/
theorem fieldCount_full : fieldCount fieldWidth index sizes = sizes.length ∨
    fieldWidth ≤ index + (sizes.take (fieldCount fieldWidth index sizes)).sum := by
  induction sizes generalizing index with
  | nil => exact .inl rfl
  | cons size rest ih =>
    rw [fieldCount]
    split_ifs with inside
    · rw [List.take_succ_cons, List.sum_cons, ← Nat.add_assoc, List.length_cons, Nat.add_left_inj]
      exact ih
    · exact .inr (Nat.le_trans (Nat.not_lt.mp inside) (Nat.le_add_right ..))

/-- The last character that is counted begins in the field. -/
theorem fieldCount_begins (some : 0 < fieldCount fieldWidth index sizes) :
    index + (sizes.take (fieldCount fieldWidth index sizes - 1)).sum < fieldWidth := by
  induction sizes generalizing index with
  | nil => exact absurd some (Nat.lt_irrefl 0)
  | cons size rest ih =>
    rw [fieldCount] at some ⊢
    split_ifs at some ⊢ with inside
    · rcases Nat.eq_zero_or_pos (fieldCount fieldWidth (index + size) rest) with none | more
      · rw [none]
        exact inside
      · have later := ih more
        rw [Nat.add_sub_cancel, ← Nat.succ_pred_eq_of_pos more, List.take_succ_cons, List.sum_cons,
          ← Nat.add_assoc]
        exact later
    · exact absurd some (Nat.lt_irrefl 0)

/-- Characters that fit are all counted. -/
theorem fieldCount_of_fits (positive : ∀ size ∈ sizes, 1 ≤ size)
    (fits : index + sizes.sum ≤ fieldWidth) :
    fieldCount fieldWidth index sizes = sizes.length := by
  induction sizes generalizing index with
  | nil => rfl
  | cons size rest ih =>
    rw [List.forall_mem_cons] at positive
    rw [List.sum_cons] at fits
    have first := positive.1
    rw [fieldCount, if_pos (by omega), ih positive.2 (by omega)]
    rfl

end FieldCount

end ZLoader
