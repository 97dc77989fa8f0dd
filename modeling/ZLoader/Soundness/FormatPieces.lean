import ZLoader.Model.Lib.DevicePathText
import ZLoader.Soundness.GuidText
import ZLoader.Soundness.NumericDirectives

/-! # Calls of `wsprintf`

A call whose directives take its arguments one after another puts the texts of its parts, and the
arguments alone say how long they are. The bound that the call is given has no part in it.
-/

namespace ZLoader

open StateTransition

/-! ## What a part prints -/

/-- The digits of the hexadecimal numeral of a number. -/
def hexWidth (n : ℕ) : ℕ := (Nat.toDigits 16 n).length

def decimalWidth (n : ℕ) : ℕ := (Nat.toDigits 10 n).length

namespace FormatPiece

/-- The units that a part prints. -/
def units : FormatPiece → List UInt16
  | text letters _ => letters.toList.map wide
  | lx word => directiveText [.l] .x word
  | x word => directiveText [] .x word
  | hex word => directiveText [] .X word
  | hex4 word => ((valueToHexString word.toUInt32.toUInt64).map wide).leftpad 4 (wide '0')
  | hu word => directiveText [.h] .u word
  | u word => directiveText [] .u word
  | d word => directiveText [] .d word
  | g guid => (guidToString guid).map wide
  | ls string _ => string.toList.map wide

/-- How many they are: letters, or the digits of the argument up to the size that is read. -/
def width : FormatPiece → ℕ
  | text letters _ => letters.toList.length
  | lx word => hexWidth word.toNat
  | x word => hexWidth word.toUInt32.toNat
  | hex word => max 8 (hexWidth word.toUInt32.toNat)
  | hex4 word => max 4 (hexWidth word.toUInt32.toNat)
  | hu word => decimalWidth word.toUInt16.toNat
  | u word | d word => decimalWidth word.toUInt32.toNat
  | g guid => 28 + max 3 (hexWidth guid.ms2.toNat) + max 3 (hexWidth guid.ms3.toNat)
  | ls string _ => string.toList.length

end FormatPiece

theorem directiveText_length (modifiers : List Modifier) (conversion : Conversion)
    (word : UInt64) :
    (directiveText modifiers conversion word).length =
      max (conversion.widen (modifiedItem modifiers)).width
        (conversion.text ((modifiedItem modifiers).decimal word)).length := by
  rw [directiveText, List.length_leftpad, List.length_map]

/-- A number below the sign bit. -/
theorem decimal_length {word : UInt64} {n : ℕ} (same : word.toNat = n) (bound : n < 2 ^ 63) :
    (valueToString word.toInt64).length = decimalWidth n := by
  have value : word.toInt64.toInt = n := by
    have small : 2 * word.toBitVec.toNat < 2 ^ 64 := by
      rw [UInt64.toNat_toBitVec]
      omega
    rw [Int64.toInt, UInt64.toBitVec_toInt64, BitVec.toInt_eq_toNat_of_lt small,
      UInt64.toNat_toBitVec, same]
  rw [valueToString_natCast value, decimalWidth]

theorem hex_length (word : UInt64) : (valueToHexString word).length = hexWidth word.toNat := by
  rw [valueToHexString_eq, hexWidth]

theorem guid_length (guid : Guid) :
    (guidToString guid).length =
      28 + max 3 (hexWidth guid.ms2.toNat) + max 3 (hexWidth guid.ms3.toNat) := by
  simp only [length_guidToString, hexField, List.length_leftpad, hexWidth]

theorem hexField_nonzero (width n : ℕ) : ∀ c ∈ hexField width n, wide c ≠ 0 := by
  intro c member
  rw [hexField, List.leftpad, List.mem_append] at member
  rcases member with zeros | numeral
  · obtain ⟨-, rfl⟩ := List.mem_replicate.mp zeros
    decide
  · exact (toDigits_plain (by decide) (by decide) c numeral).1

/-- The text of a GUID consists of digits and dashes. -/
theorem guidToString_nulFree (guid : Guid) : 0 ∉ (guidToString guid).map wide := by
  have dash : wide '-' ≠ 0 := by decide
  have bytes : ∀ bytes, ∀ c ∈ bytesText bytes, wide c ≠ 0 := by
    intro bytes c member
    obtain ⟨byte, -, digits⟩ := List.mem_flatMap.mp member
    exact hexField_nonzero _ _ c digits
  have text : ∀ c ∈ guidToString guid, wide c ≠ 0 := by
    rw [guidToString_eq]
    simp only [List.forall_mem_append, List.forall_mem_cons]
    exact ⟨hexField_nonzero _ _, dash, hexField_nonzero _ _, dash, hexField_nonzero _ _, dash,
      bytes _, dash, bytes _⟩
  intro member
  obtain ⟨c, from_, zero⟩ := List.mem_map.mp member
  exact text c from_ zero

theorem guidToString_short (guid : Guid) : (guidToString guid).length < noFieldWidth := by
  have field : ∀ n < 2 ^ 16, hexWidth n ≤ 4 := fun n bound =>
    (Nat.length_toDigits_le_iff (by decide) (by decide)).mpr bound
  have second := field _ guid.ms2.toNat_lt
  have third := field _ guid.ms3.toNat_lt
  rw [guid_length, noFieldWidth]
  omega

theorem FormatPiece.units_length (piece : FormatPiece) : piece.units.length = piece.width := by
  have numeral : ∀ modifiers conversion word,
      (conversion.widen (modifiedItem modifiers)).width = 0 →
      (directiveText modifiers conversion word).length =
        (conversion.text ((modifiedItem modifiers).decimal word)).length := by
    intro modifiers conversion word narrow
    rw [directiveText_length, narrow, Nat.zero_max]
  cases piece with
  | text letters _ => exact List.length_map ..
  | lx word => exact (numeral [.l] .x word rfl).trans (hex_length word)
  | x word => exact (numeral [] .x word rfl).trans (hex_length _)
  | hex word =>
    rw [units, directiveText_length]
    exact congrArg (max 8) (hex_length _)
  | hex4 word =>
    rw [units, List.length_leftpad, List.length_map]
    exact congrArg (max 4) (hex_length _)
  | hu word =>
    have bound := word.toUInt16.toNat_lt
    exact (numeral [.h] .u word rfl).trans (decimal_length rfl (by omega))
  | u word =>
    have bound := word.toUInt32.toNat_lt
    exact (numeral [] .u word rfl).trans (decimal_length rfl (by omega))
  | d word =>
    have bound := word.toUInt32.toNat_lt
    exact (numeral [] .d word rfl).trans (decimal_length rfl (by omega))
  | g guid =>
    rw [units, List.length_map]
    exact guid_length guid
  | ls string _ => exact List.length_map ..

/-! ## The rendering of a format of parts -/

theorem mem_of_isPlain {letters : String} (plain : isPlain letters = true) :
    ∀ c ∈ letters.toList, wide c ≠ 0 ∧ wide c ≠ wide '%' := by
  intro c member
  have tested := List.all_eq_true.mp (Bool.and_eq_true_iff.mp plain).1 c member
  simpa using tested

theorem length_of_isPlain {letters : String} (plain : isPlain letters = true) :
    letters.toList.length < noFieldWidth :=
  of_decide_eq_true (Bool.and_eq_true_iff.mp plain).2

/-- The characters of a format as they are scanned. -/
def unitChars (letters : List Char) : List (UInt16 × ℕ) := letters.map fun c => (wide c, 1)

theorem unitChars_fst (letters : List Char) :
    (unitChars letters).map Prod.fst = letters.map wide := List.map_map

theorem scan_letters (letters : List Char) :
    (Text.unicode ⟨letters.map wide, fun _ => 0⟩).scan = .ofChars (unitChars letters) := by
  rw [scan_wide, List.map_map]
  rfl

section Render

variable {args : ℕ → Argument} {vars : PrintVars}

/-- Letters are printed as they stand. -/
theorem render_letters {letters : List Char}
    (plain : ∀ c ∈ letters, wide c ≠ 0 ∧ wide c ≠ wide '%') (behind : List (UInt16 × ℕ)) :
    render args (.ofChars (unitChars letters ++ behind)) .text vars =
      (render args (.ofChars behind) .text vars).after (letters.map wide) [] := by
  induction letters with
  | nil => rfl
  | cons c letters ih =>
    obtain ⟨⟨nonzero, other⟩, rest⟩ := List.forall_mem_cons.mp plain
    rw [unitChars, List.map_cons, List.cons_append, ← unitChars, Scan.ofChars_cons, render,
      if_neg nonzero, if_neg other, ih rest]
    rfl

/-- A directive begins on a new item. -/
theorem render_percent (quiet : vars.restoreAttr = 0) (behind : List (UInt16 × ℕ)) :
    render args (.ofChars ((wide '%', 1) :: behind)) .text vars =
      render args (.ofChars behind) (.directive newItem) vars := by
  have same : ({ vars with restoreAttr := 0 } : PrintVars) = vars := by rw [← quiet]
  rw [Scan.ofChars_cons, render, if_neg (show wide '%' ≠ 0 by decide), if_pos rfl, same]

theorem shift_leave (quiet : vars.restoreAttr = 0) : vars.shift.leave = vars.shift := by
  have same : ({ vars with restoreAttr := 0 } : PrintVars) = vars := by rw [← quiet]
  rw [← same]
  rfl

/-- An item without a width is its text. -/
theorem itemText_narrow {item : Item} {units : List UInt16} (width : item.width = 0)
    (field : item.fieldWidth = noFieldWidth) (before : item.padBefore = true)
    (nulFree : 0 ∉ units) (short : units.length < noFieldWidth) :
    itemText item (.unicode ⟨units, fun _ => 0⟩) = some units := by
  rw [itemText_scratch field before nulFree short, width, List.leftpad, Nat.zero_sub]
  rfl

/-- `%g`. -/
theorem render_g (quiet : vars.restoreAttr = 0) (behind : List (UInt16 × ℕ)) :
    render args (.ofChars ((wide '%', 1) :: (wide 'g', 1) :: behind)) .text vars =
      (render args (.ofChars behind) .text vars.shift).after
        ((guidToString (args vars.nextArg).guid).map wide) [] := by
  have switch : directiveSwitch args vars newItem (wide 'g') = some ⟨vars.shift, newItem.scratch
      ((guidToString (args vars.nextArg).guid).map wide), 0, none⟩ := rfl
  have short : ((guidToString (args vars.nextArg).guid).map wide).length < noFieldWidth := by
    rw [List.length_map]
    exact guidToString_short _
  have text := @itemText_narrow (newItem.scratch
    ((guidToString (args vars.nextArg).guid).map wide)) _ rfl rfl rfl (guidToString_nulFree _) short
  rw [render_percent quiet, Scan.ofChars_cons, render,
    renderDirective_item (by decide) (by decide) (by decide) switch (Item.scratch_text _ _) text,
    shift_leave quiet]

/-- `%ls` with a string that has no NUL. -/
theorem render_ls (quiet : vars.restoreAttr = 0) {units : List UInt16}
    (given : (args vars.nextArg).wideString = some ⟨units, fun _ => 0⟩) (nulFree : 0 ∉ units)
    (short : units.length < noFieldWidth) (behind : List (UInt16 × ℕ)) :
    render args (.ofChars ((wide '%', 1) :: (wide 'l', 1) :: (wide 's', 1) :: behind)) .text vars =
      (render args (.ofChars behind) .text vars.shift).after units [] := by
  have long : directiveSwitch args vars newItem (wide 'l') =
      some ⟨vars, { newItem with isLong := true }, 0, none⟩ := rfl
  have switch : directiveSwitch args vars { newItem with isLong := true } (wide 's') =
      some ⟨vars.shift, { newItem with
        isLong := true
        text := some (.unicode ⟨units, fun _ => 0⟩) }, 0, none⟩ := by
    change some (Switched.mk _ (Item.string { newItem with isLong := true } (args vars.nextArg))
      _ _) = _
    rw [Item.string, if_pos rfl, given]
    rfl
  have text := @itemText_narrow { newItem with
    isLong := true
    text := some (.unicode ⟨units, fun _ => 0⟩) } units rfl rfl rfl nulFree short
  rw [render_percent quiet, Scan.ofChars_cons, render,
    renderDirective_silent (by decide) (by decide) (by decide) long rfl, Scan.ofChars_cons, render,
    renderDirective_item (by decide) (by decide) (by decide) switch rfl text, shift_leave quiet]

/-- `%04x`: a flag, a width of one digit, and the conversion. -/
theorem render_hex4 (quiet : vars.restoreAttr = 0) (behind : List (UInt16 × ℕ)) :
    render args (.ofChars ((wide '%', 1) :: (wide '0', 1) :: (wide '4', 1) :: (wide 'x', 1) ::
        behind)) .text vars =
      (render args (.ofChars behind) .text vars.shift).after
        (((valueToHexString (args vars.nextArg).word.toUInt32.toUInt64).map wide).leftpad 4
          (wide '0')) [] := by
  have zero : directiveSwitch args vars newItem (wide '0') =
      some ⟨vars, { newItem with padChar := wide '0' }, 0, none⟩ := rfl
  have text := @itemText_conversion { newItem with padChar := wide '0', width := 4 } .x
    (args vars.nextArg).word.toUInt32.toUInt64 rfl rfl
  have switch : directiveSwitch args vars { newItem with padChar := wide '0', width := 4 }
      (wide 'x') = some ⟨vars.shift, Item.scratch { newItem with padChar := wide '0', width := 4 }
        ((valueToHexString (args vars.nextArg).word.toUInt32.toUInt64).map wide), 0, none⟩ := rfl
  have four : ∀ rest, renderDirective args { newItem with padChar := wide '0' } vars (wide '4')
      rest = rest (.digits { newItem with padChar := wide '0', width := 4 }) vars := fun _ => rfl
  rw [render_percent quiet, Scan.ofChars_cons, render,
    renderDirective_silent (by decide) (by decide) (by decide) zero rfl, Scan.ofChars_cons, render,
    four, Scan.ofChars_cons, render, if_neg (by decide), if_pos rfl,
    renderDirective_item (by decide) (by decide) (by decide) switch (Item.scratch_text _ _) text,
    shift_leave quiet]
  rfl

end Render

/-- The argument at the front of those that are left. -/
theorem argumentList_drop {all later : List Argument} {argument : Argument} {index : ℕ}
    (given : all.drop index = argument :: later) :
    argumentList all index = argument ∧ all.drop (index + 1) = later := by
  have first : all[index]? = some argument := by
    rw [← Nat.add_zero index, ← List.getElem?_drop, given]
    rfl
  refine ⟨?_, ?_⟩
  · rw [argumentList, List.getD_eq_getElem?_getD, first]
    rfl
  · rw [← List.drop_drop, given]
    rfl

/-- A part is printed in front of the rest of the format and takes its own arguments. -/
theorem render_piece (piece : FormatPiece) {vars : PrintVars} (quiet : vars.restoreAttr = 0)
    {all later : List Argument}
    (given : all.drop vars.nextArg = piece.arguments ++ later) :
    ∃ vars' : PrintVars, vars'.restoreAttr = 0 ∧ all.drop vars'.nextArg = later ∧
      ∀ behind, render (argumentList all) (.ofChars (unitChars piece.letters ++ behind)) .text
          vars =
        (render (argumentList all) (.ofChars behind) .text vars').after piece.units [] := by
  have same : ({ vars with restoreAttr := 0 } : PrintVars) = vars := by rw [← quiet]
  have number : ∀ modifiers conversion word, all.drop vars.nextArg = [.ofWord word] ++ later →
      ∃ vars' : PrintVars, vars'.restoreAttr = 0 ∧ all.drop vars'.nextArg = later ∧
        ∀ behind, render (argumentList all)
            (.ofChars (unitChars (directiveFormat modifiers conversion) ++ behind)) .text vars =
          (render (argumentList all) (.ofChars behind) .text vars').after
            (directiveText modifiers conversion word) [] := by
    intro modifiers conversion word given
    obtain ⟨argument, later⟩ := argumentList_drop given
    refine ⟨vars.shift, quiet, later, fun behind => ?_⟩
    rw [render_directiveText (unitChars_fst _), same, argument]
    rfl
  cases piece with
  | text letters plain => exact ⟨vars, quiet, given, render_letters (mem_of_isPlain plain)⟩
  | lx word => exact number [.l] .x word given
  | x word => exact number [] .x word given
  | hex word => exact number [] .X word given
  | hu word => exact number [.h] .u word given
  | u word => exact number [] .u word given
  | d word => exact number [] .d word given
  | hex4 word =>
    obtain ⟨argument, later⟩ := argumentList_drop given
    refine ⟨vars.shift, quiet, later, fun behind => ?_⟩
    have rendered := @render_hex4 (argumentList all) _ quiet behind
    rw [argument] at rendered
    exact rendered
  | g guid =>
    obtain ⟨argument, later⟩ := argumentList_drop given
    refine ⟨vars.shift, quiet, later, fun behind => ?_⟩
    have rendered := @render_g (argumentList all) _ quiet behind
    rw [argument] at rendered
    exact rendered
  | ls string plain =>
    obtain ⟨argument, later⟩ := argumentList_drop given
    refine ⟨vars.shift, quiet, later, render_ls quiet ?_ ?_ ?_⟩
    · rw [argument]
      rfl
    · intro member
      obtain ⟨c, from_, zero⟩ := List.mem_map.mp member
      exact (mem_of_isPlain plain c from_).1 zero
    · rw [FormatPiece.units, List.length_map]
      exact length_of_isPlain plain

/-- The parts of a format are printed one behind the other. The induction is on the parts. -/
theorem render_pieces (pieces : List FormatPiece) {vars : PrintVars} (quiet : vars.restoreAttr = 0) {all : List Argument}
    (given : all.drop vars.nextArg = pieces.flatMap FormatPiece.arguments) :
    render (argumentList all) (.ofChars (unitChars (pieces.flatMap FormatPiece.letters))) .text
        vars =
      ⟨pieces.flatMap FormatPiece.units, [], .complete⟩ := by
  induction pieces generalizing vars with
  | nil => rfl
  | cons piece pieces ih =>
    obtain ⟨vars', quiet', given', rendered⟩ := render_piece piece quiet given
    have split : unitChars ((piece :: pieces).flatMap FormatPiece.letters) =
        unitChars piece.letters ++ unitChars (pieces.flatMap FormatPiece.letters) := by
      rw [List.flatMap_cons, unitChars, List.map_append]
      rfl
    rw [split, rendered, ih quiet' given', List.flatMap_cons]
    rfl

/-! ## The run of a call -/

/-- A `vswprintf` output counts what it puts. -/
theorem Emits.bare_len {out out' : Output} {text : List UInt16} (emits : Emits out text out')
    (bare : out.Bare) (counted : out.len = out.pos) : out'.len = out'.pos := by
  induction emits with
  | refl => exact counted
  | put c _ ih =>
    apply ih (bare.putc c).1
    rw [bare.putc_eq]
    exact congrArg (· + 1) counted
  | setattr attr _ ih =>
    apply ih (bare.setattr attr).1
    simp only [Output.setattr, bare.flush]
    split_ifs
    · exact counted
    · exact counted
  | flush _ ih =>
    rw [bare.flush] at ih
    exact ih bare counted

/-- The units that a call puts. -/
def formatWidth (pieces : List FormatPiece) : ℕ := (pieces.map FormatPiece.width).sum

/-- A call of `wsprintf` returns the number of units it has put. Its last store is the terminator
behind them. -/
theorem wsprintf_returns (buffer : TextBuffer) (pieces : List FormatPiece) :
    ∃ last ∈ eval printTurn (wsprintfStart buffer pieces),
      last.out.len = formatWidth pieces ∧ last.out.pos = formatWidth pieces ∧
        ∀ index ∈ last.out.stores, index < last.out.pos := by
  have rendered : (wsprintfStart buffer pieces).rendering =
      ⟨pieces.flatMap FormatPiece.units, [], .complete⟩ := by
    rw [PrintState.rendering]
    change render _ (Text.unicode _).scan _ vswprintfVars = _
    rw [scan_letters]
    exact render_pieces pieces rfl rfl
  have length : (pieces.flatMap FormatPiece.units).length = formatWidth pieces := by
    rw [List.length_flatMap, formatWidth]
    simp only [FormatPiece.units_length]
  have follows := @print_follows (wsprintfStart buffer pieces) rfl rfl
  obtain ⟨last, ended, -, -, emits⟩ := follows.ends (by rw [rendered])
  have start := vswprintfOutput_bare (printItemBufferLen - 1)
    fun index => buffer.units (buffer.pos + index)
  obtain ⟨bare, pos, -⟩ := emits.bare start
  rw [rendered, length] at pos
  have counted := emits.bare_len start rfl
  exact ⟨last, ended, counted.trans (pos.trans (Nat.zero_add _)), pos.trans (Nat.zero_add _),
    bare.filled⟩

end ZLoader
