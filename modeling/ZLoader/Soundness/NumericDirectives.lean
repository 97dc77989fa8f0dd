import ZLoader.Soundness.NumberTexts
import ZLoader.Soundness.PrintAgreement
import ZLoader.Soundness.StringScans

/-! # Numeric directives

The modifiers of a numeric directive select the type of its argument. What is printed can be read
back as a value of that type, except where a sign or a width is lost: narrow values are not extended
by their sign, all decimal conversions go through `int64_t`, whose lowest value has no negation, and
a pointer is read at the width of an integer.
-/

namespace ZLoader

open StateTransition

/-- The modifiers of a numeric directive. -/
inductive Modifier where
  | h
  | l
  | z
deriving DecidableEq, Repr

def Modifier.letter : Modifier → Char
  | .h => 'h'
  | .l => 'l'
  | .z => 'z'

/-- The numeric directives. -/
inductive Conversion where
  | d
  | i
  | u
  | x
  | X
  | p
deriving DecidableEq, Repr

def Conversion.letter : Conversion → Char
  | .d => 'd'
  | .i => 'i'
  | .u => 'u'
  | .x => 'x'
  | .X => 'X'
  | .p => 'p'

/-- The format of a directive on its own. -/
def directiveFormat (modifiers : List Modifier) (conversion : Conversion) : List Char :=
  '%' :: (modifiers.map Modifier.letter ++ [conversion.letter])

/-- The bits of the type that the modifiers select; `h` comes first where there are several. -/
def selectedBits (modifiers : List Modifier) : ℕ :=
  if .h ∈ modifiers then 16 else if .l ∈ modifiers ∨ .z ∈ modifiers then 64 else 32

/-- The value of an argument that a directive stands for. -/
def Conversion.value (conversion : Conversion) (modifiers : List Modifier) (word : UInt64) : ℤ :=
  match conversion with
  | .d | .i => (word.toBitVec.setWidth (selectedBits modifiers)).toInt
  | .u | .x | .X => (word.toNat % 2 ^ selectedBits modifiers : ℕ)
  | .p => word.toNat

/-- The value that a printed text is read as. -/
def Conversion.read (conversion : Conversion) (text : List UInt16) : Option ℤ :=
  match conversion with
  | .d | .i => readSigned wide 10 text
  | .u => (readNumeral wide 10 text).map fun value : ℕ => (value : ℤ)
  | .x | .X | .p => (readNumeral wide 16 text).map fun value : ℕ => (value : ℤ)

/-! ## Printing a format -/

/-- `_print` with a format and arguments, as `vswprintf` calls it or as `_iprint` does, with a wide or
a narrow format. -/
inductive StartsOn (format : List Char) (args : ℕ → Argument) : PrintState → Prop where
  | string (maxlen : ℕ) (str behind : ℕ → UInt16) :
      StartsOn format args (vswprintfStart maxlen str ⟨format.map wide, behind⟩ args)
  | console (modeAttribute : Int32) (buffer behind : ℕ → UInt16) :
      StartsOn format args
        (iprintStart modeAttribute buffer (.unicode ⟨format.map wide, behind⟩) args)
  | narrowConsole (modeAttribute : Int32) (buffer : ℕ → UInt16) (behind : ℕ → UInt8) :
      StartsOn format args
        (iprintStart modeAttribute buffer (.ascii ⟨utf8Bytes format, behind⟩) args)

/-- `_print` comes to its end and has printed the text. -/
def Prints (ps : PrintState) (text : List UInt16) : Prop :=
  ∃ last ∈ eval printTurn ps, last.out.printed = text

theorem Prints.unique {ps : PrintState} {first second : List UInt16} (prints : Prints ps first)
    (prints' : Prints ps second) : first = second := by
  obtain ⟨last, ended, rfl⟩ := prints
  obtain ⟨last', ended', rfl⟩ := prints'
  rw [Part.mem_unique ended ended']

theorem crText_of_not_mem {text : List UInt16} (plain : wide '\n' ∉ text) : crText text = text := by
  induction text with
  | nil => rfl
  | cons c rest ih =>
    rw [List.mem_cons, not_or] at plain
    have other : (c == wide '\n') = false := by simpa using Ne.symm plain.1
    rw [crText, List.flatMap_cons, ← crText, ih plain.2, other]
    rfl

/-- An output without a console has made its calls. -/
structure Output.Silent (out : Output) (calls : List ConsoleCall) : Prop where
  output : out.output = false
  setAttr : out.setAttr = false
  calls : out.calls = calls

section Silent

variable {out out' : Output} {calls : List ConsoleCall}

theorem Output.Silent.flush (silent : out.Silent calls) : ptrFlush out = out := by
  rw [ptrFlush, silent.output]
  rfl

theorem Output.Silent.put (silent : out.Silent calls) (c : UInt16) : (out.put c).Silent calls := by
  have stored : ({ out.store out.pos c with pos := out.pos + 1, len := out.len + 1 } :
      Output).Silent calls := ⟨silent.output, silent.setAttr, silent.calls⟩
  simp only [Output.put, stored.flush, ite_self]
  exact stored

theorem Output.Silent.putc (silent : out.Silent calls) (c : UInt16) :
    (ptrPutc out c).Silent calls := by
  rw [ptrPutc]
  split_ifs
  · exact (silent.put _).put c
  · exact silent.put c

theorem Output.Silent.setattr (silent : out.Silent calls) (attr : UInt64) :
    (out.setattr attr).Silent calls := by
  simp only [Output.setattr, silent.flush, silent.setAttr]
  exact silent

theorem Emits.silent {text : List UInt16} (emits : Emits out text out')
    (silent : out.Silent calls) : out'.Silent calls := by
  induction emits with
  | refl => exact silent
  | put c _ ih => exact ih (silent.putc c)
  | setattr attr _ ih => exact ih (silent.setattr attr)
  | flush _ ih =>
    rw [silent.flush] at ih
    exact ih silent

end Silent

section StartsOn

variable {format : List Char} {args : ℕ → Argument} {ps : PrintState} {text : List UInt16}

/-- The characters of the format. -/
theorem StartsOn.scan (starts : StartsOn format args ps) :
    ∃ chars, ps.fmt.text.scan = .ofChars chars ∧ chars.map Prod.fst = format.map wide := by
  cases starts with
  | string maxlen str behind =>
    refine ⟨_, scan_wide _ behind, ?_⟩
    rw [List.map_map]
    exact List.map_id _
  | console modeAttribute buffer behind =>
    refine ⟨_, scan_wide _ behind, ?_⟩
    rw [List.map_map]
    exact List.map_id _
  | narrowConsole modeAttribute buffer behind =>
    refine ⟨_, scan_utf8 format behind, ?_⟩
    rw [utf8Chars, List.map_map]
    rfl

theorem StartsOn.inputs (starts : StartsOn format args ps) :
    ps.args = args ∧ ps.vars.nextArg = 0 ∧ ps.fmt.index = 0 ∧ ps.control = .text := by
  cases starts <;> exact ⟨rfl, rfl, rfl, rfl⟩

/-- A complete rendering of plain characters is printed. -/
theorem StartsOn.prints (starts : StartsOn format args ps)
    (complete : ps.rendering.ending = .complete) (rendered : ps.rendering.text = text)
    (nulFree : 0 ∉ text) (plain : wide '\n' ∉ text) : Prints ps text := by
  obtain ⟨-, -, atStart, control⟩ := starts.inputs
  obtain ⟨last, ended, -, -, emits⟩ := (print_follows atStart control).ends complete
  rw [rendered] at emits
  refine ⟨last, ended, ?_⟩
  cases starts with
  | string maxlen str behind =>
    obtain ⟨-, -, pending⟩ := emits.bare (vswprintfOutput_bare maxlen str)
    have silent : last.out.Silent [] := emits.silent ⟨rfl, rfl, rfl⟩
    rw [Output.printed, Output.passed, silent.calls, pending]
    rfl
  | console modeAttribute buffer behind =>
    have start : ({ iprintOutput buffer with len := 0 } : Output).Console :=
      ⟨rfl, rfl, show 0 < printStringLen - 1 by decide, List.not_mem_nil⟩
    obtain ⟨-, printed⟩ := emits.console start nulFree
    rw [printed, crText_of_not_mem plain]
    rfl
  | narrowConsole modeAttribute buffer behind =>
    have start : ({ iprintOutput buffer with len := 0 } : Output).Console :=
      ⟨rfl, rfl, show 0 < printStringLen - 1 by decide, List.not_mem_nil⟩
    obtain ⟨-, printed⟩ := emits.console start nulFree
    rw [printed, crText_of_not_mem plain]
    rfl

end StartsOn

/-! ## The rendering of a directive -/

/-- What a modifier sets. -/
def Modifier.apply (item : Item) : Modifier → Item
  | .h => { item with isShort := true }
  | .l | .z => { item with isLong := true }

/-- The item of a directive with the modifiers. -/
def modifiedItem (modifiers : List Modifier) : Item := modifiers.foldl Modifier.apply newItem

/-- The item with the width that the directive settles. -/
def Conversion.widen (item : Item) : Conversion → Item
  | .p => item.fixedHex (wide 'p')
  | .X => item.fixedHex (wide 'X')
  | .d | .i | .u | .x => item

/-- The conversion of a number that a directive makes. -/
def Conversion.text : Conversion → UInt64 → List Char
  | .d, word | .i, word | .u, word => valueToString word.toInt64
  | .x, word | .X, word | .p, word => valueToHexString word

@[simp] theorem Item.scratch_text (item : Item) (text : List UInt16) :
    (item.scratch text).text = some (.unicode ⟨text, fun _ => 0⟩) := rfl

section Switch

variable (args : ℕ → Argument) (vars : PrintVars) (item : Item)

theorem directiveSwitch_modifier (modifier : Modifier) :
    directiveSwitch args vars item (wide modifier.letter) =
      some ⟨vars, modifier.apply item, 0, none⟩ := by
  cases modifier <;> rfl

theorem directiveSwitch_conversion (conversion : Conversion) :
    directiveSwitch args vars item (wide conversion.letter) =
      some ⟨vars.shift, (conversion.widen item).scratch
        ((conversion.text (item.decimal (args vars.nextArg).word)).map wide), 0, none⟩ := by
  cases conversion <;> rfl

end Switch

theorem Modifier.apply_text (item : Item) (modifier : Modifier) :
    (modifier.apply item).text = item.text := by
  cases modifier <;> rfl

theorem modifier_plain (modifier : Modifier) :
    wide modifier.letter ≠ 0 ∧ startsNumber (wide modifier.letter) = false ∧
      wide modifier.letter ∉ standaloneLetters := by
  cases modifier <;> decide

theorem conversion_plain (conversion : Conversion) :
    wide conversion.letter ≠ 0 ∧ startsNumber (wide conversion.letter) = false ∧
      wide conversion.letter ∉ standaloneLetters := by
  cases conversion <;> decide

section Render

variable {args : ℕ → Argument} {vars vars' : PrintVars} {item item' : Item} {c : UInt16}
  {rest : Mode → PrintVars → Rendering}

theorem Rendering.after_nil (rendering : Rendering) : rendering.after [] [] = rendering := rfl

/-- A character that only changes the item. -/
theorem renderDirective_silent (nonzero : c ≠ 0) (unstarted : startsNumber c = false)
    (other : c ∉ standaloneLetters)
    (switch : directiveSwitch args vars item c = some ⟨vars', item', 0, none⟩)
    (plain : item'.text = none) :
    renderDirective args item vars c rest = rest (.directive item') vars' := by
  simp only [renderDirective, if_neg nonzero, unstarted, switch, plain, attributeMet, if_neg other,
    Rendering.after_nil]
  rfl

/-- A character that gives the item its text. -/
theorem renderDirective_item (nonzero : c ≠ 0) (unstarted : startsNumber c = false)
    (other : c ∉ standaloneLetters) {text : Text} {printed : List UInt16} {attr : UInt64}
    (switch : directiveSwitch args vars item c = some ⟨vars', item', attr, none⟩)
    (shown : item'.text = some text) (item_printed : itemText item' text = some printed) :
    renderDirective args item vars c rest = (rest .text vars'.leave).after printed [] := by
  simp only [renderDirective, if_neg nonzero, unstarted, switch, shown, item_printed, attributeMet,
    if_neg other]
  rfl

/-- What a directive with its modifiers prints, in front of the rest of the format. The induction
is on the modifiers. -/
theorem render_modifiers {conversion : Conversion} {printed : List UInt16}
    (modifiers : List Modifier) (plain : item.text = none) {chars behind : List (UInt16 × ℕ)}
    (letters : chars.map Prod.fst =
      (modifiers.map Modifier.letter ++ [conversion.letter]).map wide)
    (shown : let settled := modifiers.foldl Modifier.apply item
      let text := (conversion.text (settled.decimal (args vars.nextArg).word)).map wide
      itemText ((conversion.widen settled).scratch text) (.unicode ⟨text, fun _ => 0⟩) =
        some printed) :
    render args (.ofChars (chars ++ behind)) (.directive item) vars =
      (render args (.ofChars behind) .text vars.shift.leave).after printed [] := by
  induction modifiers generalizing item chars with
  | nil =>
    obtain ⟨⟨c, units⟩, rest, rfl⟩ := List.exists_cons_of_ne_nil (show chars ≠ [] by
      rintro rfl
      cases letters)
    obtain ⟨rfl, tail⟩ := List.cons.inj letters
    obtain rfl := List.map_eq_nil_iff.mp tail
    obtain ⟨nonzero, unstarted, other⟩ := conversion_plain conversion
    rw [List.singleton_append, Scan.ofChars_cons, render,
      renderDirective_item nonzero unstarted other
        (directiveSwitch_conversion args vars item conversion) (Item.scratch_text _ _) shown]
  | cons modifier modifiers ih =>
    obtain ⟨⟨c, units⟩, rest, rfl⟩ := List.exists_cons_of_ne_nil (show chars ≠ [] by
      rintro rfl
      cases letters)
    obtain ⟨rfl, tail⟩ := List.cons.inj letters
    obtain ⟨nonzero, unstarted, other⟩ := modifier_plain modifier
    have plain' := (modifier.apply_text item).trans plain
    rw [List.cons_append, Scan.ofChars_cons, render,
      renderDirective_silent nonzero unstarted other
        (directiveSwitch_modifier args vars item modifier) plain']
    exact ih plain' tail shown

/-- The rendering of a directive in front of the rest of the format. -/
theorem render_directiveFormat {conversion : Conversion} {printed : List UInt16}
    {modifiers : List Modifier} {chars behind : List (UInt16 × ℕ)}
    (letters : chars.map Prod.fst = (directiveFormat modifiers conversion).map wide)
    (shown : let text := (conversion.text ((modifiedItem modifiers).decimal
        (args vars.nextArg).word)).map wide
      itemText ((conversion.widen (modifiedItem modifiers)).scratch text)
        (.unicode ⟨text, fun _ => 0⟩) = some printed) :
    render args (.ofChars (chars ++ behind)) .text vars =
      (render args (.ofChars behind) .text { vars with restoreAttr := 0 }.shift).after
        printed [] := by
  obtain ⟨⟨c, units⟩, rest, rfl⟩ := List.exists_cons_of_ne_nil (show chars ≠ [] by
    rintro rfl
    cases letters)
  obtain ⟨rfl, tail⟩ := List.cons.inj letters
  rw [List.cons_append, Scan.ofChars_cons, render,
    if_neg (show wide '%' ≠ 0 by decide), if_pos rfl]
  exact render_modifiers modifiers rfl tail shown

end Render

/-- An item without a field is padded to its width. -/
theorem itemText_scratch {item : Item} {units : List UInt16} (field : item.fieldWidth = noFieldWidth)
    (before : item.padBefore = true) (nulFree : 0 ∉ units) (short : units.length < noFieldWidth) :
    itemText item (.unicode ⟨units, fun _ => 0⟩) = some (units.leftpad item.width item.padChar) := by
  have sizes : (units.map fun c : UInt16 => (c, 1)).map Prod.snd = List.replicate units.length 1 := by
    simp [List.map_map, Function.comp_def]
  have chars : (units.map fun c : UInt16 => (c, 1)).map Prod.fst = units := by
    rw [List.map_map]
    exact List.map_id _
  have all : fieldCount item.fieldWidth 0 (List.replicate units.length 1) = units.length := by
    rw [fieldCount_of_fits (by simp) (by simp [field, Nat.le_of_lt short]), List.length_replicate]
  rw [itemText, scan_wide, measure_ofChars (by
    rw [List.forall_mem_map]
    rintro c member rfl
    exact nulFree member), sizes, chars, all]
  have total : (List.replicate units.length 1).sum = units.length := by simp
  have padding : max item.width units.length - units.length = item.width - units.length := by omega
  simp only [Option.map_some, Nat.zero_add, Item.fit, field, if_true, before, List.take_length,
    List.take_replicate, Nat.min_self, total, padding,
    Nat.sub_eq_zero_of_le (Nat.le_max_right _ _)]
  rfl

/-! ## The number that is converted -/

theorem foldl_modifiers (modifiers : List Modifier) (item : Item) :
    modifiers.foldl Modifier.apply item =
      { item with
        isShort := item.isShort || decide (.h ∈ modifiers)
        isLong := item.isLong || decide (.l ∈ modifiers ∨ .z ∈ modifiers) } := by
  induction modifiers generalizing item with
  | nil => simp
  | cons modifier modifiers ih =>
    rw [List.foldl_cons, ih]
    cases modifier <;> simp [Modifier.apply]

/-- The argument is cut to the bits of the type selected. -/
theorem decimal_toNat (modifiers : List Modifier) (word : UInt64) :
    ((modifiedItem modifiers).decimal word).toNat = word.toNat % 2 ^ selectedBits modifiers := by
  have bound := word.toNat_lt
  simp only [modifiedItem, foldl_modifiers, Item.decimal, newItem, Bool.false_or, decide_eq_true_eq,
    selectedBits]
  split_ifs
  · simp
  · exact (Nat.mod_eq_of_lt bound).symm
  · simp

/-- The text of the lowest `int64_t`. -/
def lowestText : List Char :=
  ['-', '\'', '.', '.', '-', '-', ')', '.', '0', '-', '*', '(', '+', ',', ')', ')', '+', '(', '0',
    '(']

/-- The texts of `value_to_string`. -/
theorem valueToString_cases (value : Int64) :
    (∃ n < 2 ^ 63, value.toInt = (n : ℕ) ∧ valueToString value = Nat.toDigits 10 n) ∨
    (∃ n < 2 ^ 63, 0 < n ∧ value.toInt = -(n : ℕ) ∧
      valueToString value = '-' :: Nat.toDigits 10 n) ∨
    (value.toInt = -2 ^ 63 ∧ valueToString value = lowestText) := by
  have lower := value.le_toInt
  have upper := value.toInt_lt
  rcases lt_or_ge value.toInt 0 with negative | nonnegative
  rotate_left
  · obtain ⟨n, same⟩ := Int.eq_ofNat_of_zero_le nonnegative
    exact .inl ⟨n, by omega, same, valueToString_natCast same⟩
  · obtain ⟨n, same⟩ := Int.eq_ofNat_of_zero_le (Int.neg_nonneg_of_nonpos (Int.le_of_lt negative))
    have negated : value.toInt = -(n : ℕ) := by omega
    rcases Nat.lt_or_ge n (2 ^ 63) with bound | lowest
    · exact .inr (.inl ⟨n, bound, by omega, negated,
        valueToString_negative negated (by omega) bound⟩)
    · have extreme : value.toInt = -2 ^ 63 := by omega
      have same : value = Int64.minValue := Int64.toInt_inj.mp extreme
      refine .inr (.inr ⟨extreme, ?_⟩)
      rw [same]
      decide

theorem distinctDigits_wide : DistinctDigits wide 16 := by decide

theorem distinctDigits_decimal : DistinctDigits wide 10 := by decide

/-- The characters of a numeral are neither NUL nor newlines. -/
theorem toDigits_plain {base n : ℕ} (many : 1 < base) (small : base ≤ 16) :
    ∀ c ∈ Nat.toDigits base n, wide c ≠ 0 ∧ wide c ≠ wide '\n' := by
  have digit : ∀ digit < 16, wide digit.digitChar ≠ 0 ∧ wide digit.digitChar ≠ wide '\n' := by
    decide
  intro c member
  obtain ⟨value, bound, rfl⟩ := mem_toDigits many member
  exact digit value (Nat.lt_of_lt_of_le bound small)

/-- Nor are those of a conversion. -/
theorem conversion_text_plain (conversion : Conversion) (word : UInt64) :
    ∀ c ∈ conversion.text word, wide c ≠ 0 ∧ wide c ≠ wide '\n' := by
  have decimal : ∀ c ∈ valueToString word.toInt64, wide c ≠ 0 ∧ wide c ≠ wide '\n' := by
    rcases valueToString_cases word.toInt64 with ⟨n, -, -, text⟩ | ⟨n, -, -, -, text⟩ | ⟨-, text⟩
    · rw [text]
      exact toDigits_plain (by decide) (by decide)
    · rw [text, List.forall_mem_cons]
      exact ⟨by decide, toDigits_plain (by decide) (by decide)⟩
    · have signs : lowestText.all fun c => wide c ≠ 0 ∧ wide c ≠ wide '\n' := by decide
      rw [text]
      exact fun c member => of_decide_eq_true (List.all_eq_true.mp signs c member)
  cases conversion with
  | d | i | u => exact decimal
  | x | X | p =>
    rw [Conversion.text, valueToHexString_eq]
    exact toDigits_plain (by decide) (by decide)

theorem length_valueToString (v : Int64) : (valueToString v).length ≤ 20 := by
  rcases valueToString_cases v with ⟨n, bound, -, text⟩ | ⟨n, bound, -, -, text⟩ | ⟨-, text⟩
  · rw [text]
    exact (Nat.length_toDigits_le_iff (by decide) (by decide)).mpr (by omega)
  · rw [text, List.length_cons, Nat.add_one_le_iff, Nat.lt_succ_iff]
    exact (Nat.length_toDigits_le_iff (by decide) (by decide)).mpr (by omega)
  · rw [text]
    decide

theorem length_valueToHexString (value : UInt64) : (valueToHexString value).length ≤ 20 := by
  have bound := value.toNat_lt
  rw [valueToHexString_eq]
  exact (Nat.length_toDigits_le_iff (by decide) (by decide)).mpr (by omega)

theorem conversion_text_length (conversion : Conversion) (word : UInt64) :
    (conversion.text word).length ≤ 20 := by
  cases conversion with
  | d | i | u => exact length_valueToString word.toInt64
  | x | X | p => exact length_valueToHexString word

/-- What a directive prints for an argument. -/
def directiveText (modifiers : List Modifier) (conversion : Conversion) (word : UInt64) :
    List UInt16 :=
  let item := conversion.widen (modifiedItem modifiers)
  ((conversion.text ((modifiedItem modifiers).decimal word)).map wide).leftpad item.width
    item.padChar

theorem modifiedItem_open (modifiers : List Modifier) (conversion : Conversion) :
    (conversion.widen (modifiedItem modifiers)).fieldWidth = noFieldWidth ∧
      (conversion.widen (modifiedItem modifiers)).padBefore = true := by
  rw [modifiedItem, foldl_modifiers]
  cases conversion <;> exact ⟨rfl, rfl⟩

/-- Widths are filled up with zeros. -/
theorem directiveText_eq (modifiers : List Modifier) (conversion : Conversion) (word : UInt64) :
    ∃ count, (conversion ∉ [.X, .p] → count = 0) ∧
      directiveText modifiers conversion word = (List.replicate count '0' ++
        conversion.text ((modifiedItem modifiers).decimal word)).map wide := by
  have narrow : (modifiedItem modifiers).width = 0 := by
    rw [modifiedItem, foldl_modifiers]
    rfl
  have padded (zeros : (conversion.widen (modifiedItem modifiers)).padChar = wide '0') :
      directiveText modifiers conversion word =
        (List.replicate ((conversion.widen (modifiedItem modifiers)).width -
          (conversion.text ((modifiedItem modifiers).decimal word)).length) '0' ++
            conversion.text ((modifiedItem modifiers).decimal word)).map wide := by
    rw [directiveText, List.leftpad, zeros, List.length_map, List.map_append, List.map_replicate]
  cases conversion with
  | d | i | u | x =>
    refine ⟨0, fun _ => rfl, ?_⟩
    simp only [directiveText, Conversion.widen, List.leftpad, narrow, Nat.zero_sub]
    rfl
  | X | p => exact ⟨_, fun other => absurd (by decide) other, padded rfl⟩

/-- The text of a conversion holds no character that ends or breaks a line. -/
theorem conversion_text_units (conversion : Conversion) (word : UInt64) {c : UInt16}
    (special : c = 0 ∨ c = wide '\n') : c ∉ (conversion.text word).map wide := by
  intro member
  obtain ⟨char, from_, rfl⟩ := List.mem_map.mp member
  have plain := conversion_text_plain conversion word char from_
  exact special.elim plain.1 plain.2

/-- The text of a conversion in an item without a field. -/
theorem itemText_conversion {item : Item} (conversion : Conversion) (word : UInt64)
    (field : item.fieldWidth = noFieldWidth) (before : item.padBefore = true) :
    let text := (conversion.text word).map wide
    itemText (item.scratch text) (.unicode ⟨text, fun _ => 0⟩) =
      some (text.leftpad item.width item.padChar) := by
  have short := conversion_text_length conversion word
  apply @itemText_scratch (item.scratch ((conversion.text word).map wide)) _ field before
    (conversion_text_units conversion word (.inl rfl))
  rw [List.length_map]
  exact Nat.lt_of_le_of_lt short (by decide)

/-- What a directive prints in front of the rest of the format. -/
theorem render_directiveText {args : ℕ → Argument} {vars : PrintVars} {modifiers : List Modifier}
    {conversion : Conversion} {chars behind : List (UInt16 × ℕ)}
    (letters : chars.map Prod.fst = (directiveFormat modifiers conversion).map wide) :
    render args (.ofChars (chars ++ behind)) .text vars =
      (render args (.ofChars behind) .text { vars with restoreAttr := 0 }.shift).after
        (directiveText modifiers conversion (args vars.nextArg).word) [] := by
  obtain ⟨field, before⟩ := modifiedItem_open modifiers conversion
  exact render_directiveFormat letters (itemText_conversion conversion _ field before)

/-- Both printers print the text of a directive. -/
theorem StartsOn.prints_directive {modifiers : List Modifier} {conversion : Conversion}
    {args : ℕ → Argument} {ps : PrintState}
    (starts : StartsOn (directiveFormat modifiers conversion) args ps) :
    Prints ps (directiveText modifiers conversion (args 0).word) := by
  obtain ⟨sameArgs, first, -, -⟩ := starts.inputs
  obtain ⟨chars, scan, letters⟩ := starts.scan
  have rendered : ps.rendering =
      ⟨directiveText modifiers conversion (args 0).word, [], .complete⟩ := by
    rw [PrintState.rendering, scan, sameArgs, ← List.append_nil chars,
      render_directiveText letters, first]
    simp [Rendering.after, Scan.ofChars, render]
  obtain ⟨count, -, text⟩ := directiveText_eq modifiers conversion (args 0).word
  have printed : ∀ c, c = 0 ∨ c = wide '\n' →
      c ∉ directiveText modifiers conversion (args 0).word := by
    intro c special member
    rw [text, List.map_append, List.mem_append, List.map_replicate] at member
    rcases member with zeros | later
    · obtain ⟨-, rfl⟩ := List.mem_replicate.mp zeros
      exact absurd special (by decide)
    · exact conversion_text_units conversion _ special later
  exact starts.prints (by rw [rendered]) (by rw [rendered]) (printed 0 (.inl rfl))
    (printed _ (.inr rfl))

/-! ## When the value is kept -/

/-- The printed text of a directive with the modifiers reads back as the value of its argument. -/
def RendersValue (modifiers : List Modifier) (conversion : Conversion) (word : UInt64) : Prop :=
  ∀ args ps, (args 0).word = word → StartsOn (directiveFormat modifiers conversion) args ps →
    ∃ text, Prints ps text ∧ conversion.read text = some (conversion.value modifiers word)

/-- A narrow signed value is not negative, a wide one is not the lowest; an unsigned value is an
`int64_t`; a pointer has no more bits than an integer of the type selected. -/
def Conversion.Keeps (conversion : Conversion) (modifiers : List Modifier) (word : UInt64) : Prop :=
  match conversion with
  | .d | .i =>
      if selectedBits modifiers = 64 then word ≠ 0x8000000000000000
      else word.toNat % 2 ^ selectedBits modifiers < 2 ^ (selectedBits modifiers - 1)
  | .u => word.toNat % 2 ^ selectedBits modifiers < 2 ^ 63
  | .x | .X => True
  | .p => word.toNat < 2 ^ selectedBits modifiers

/-- Reading what is printed. -/
theorem rendersValue_iff_read (modifiers : List Modifier) (conversion : Conversion)
    (word : UInt64) :
    RendersValue modifiers conversion word ↔
      conversion.read (directiveText modifiers conversion word) =
        some (conversion.value modifiers word) := by
  constructor
  · intro renders
    obtain ⟨text, prints, read⟩ := renders (fun _ => { blankArgument none with word := word }) _ rfl
      (.string 0 (fun _ => 0) fun _ => 0)
    rw [← prints.unique (StartsOn.string 0 (fun _ => 0) fun _ => 0).prints_directive]
    exact read
  · rintro read args ps rfl starts
    exact ⟨_, starts.prints_directive, read⟩

/-- A hexadecimal directive. -/
theorem read_hex {modifiers : List Modifier} {conversion : Conversion}
    (hex : conversion ∈ [.x, .X, .p]) (word : UInt64) :
    conversion.read (directiveText modifiers conversion word) =
      some ((word.toNat % 2 ^ selectedBits modifiers : ℕ) : ℤ) := by
  obtain ⟨count, -, text⟩ := directiveText_eq modifiers conversion word
  have read := readNumeral_zeros_append (by decide : 1 < 16) distinctDigits_wide count
    ((modifiedItem modifiers).decimal word).toNat
  rw [← valueToHexString_eq, decimal_toNat] at read
  rw [text]
  cases conversion with
  | d | i | u => exact absurd hex (by decide)
  | x | X | p => exact congrArg (Option.map _) read

/-- The text of a decimal directive. -/
theorem directiveText_decimal {modifiers : List Modifier} {conversion : Conversion}
    (decimal : conversion ∈ [.d, .i, .u]) (word : UInt64) :
    directiveText modifiers conversion word =
      (valueToString ((modifiedItem modifiers).decimal word).toInt64).map wide := by
  obtain ⟨count, none, text⟩ := directiveText_eq modifiers conversion word
  rw [text, none (by revert decimal; cases conversion <;> decide)]
  cases conversion with
  | d | i | u => rfl
  | x | X | p => exact absurd decimal (by decide)

section Decimal

variable (modifiers : List Modifier) (word : UInt64)

theorem selectedBits_cases : selectedBits modifiers = 16 ∨ selectedBits modifiers = 32 ∨
    selectedBits modifiers = 64 := by
  rw [selectedBits]
  split_ifs <;> simp

/-- The `int64_t` that is converted. -/
theorem toInt_decimal :
    ((modifiedItem modifiers).decimal word).toInt64.toInt =
      if word.toNat % 2 ^ selectedBits modifiers < 2 ^ 63 then
        ((word.toNat % 2 ^ selectedBits modifiers : ℕ) : ℤ)
      else ((word.toNat % 2 ^ selectedBits modifiers : ℕ) : ℤ) - 2 ^ 64 := by
  have value := BitVec.toInt_eq_toNat_cond ((modifiedItem modifiers).decimal word).toBitVec
  rw [UInt64.toNat_toBitVec, decimal_toNat] at value
  rw [Int64.toInt, UInt64.toBitVec_toInt64, value]
  split_ifs
  · rfl
  · omega
  · omega
  · rfl

/-- The signed value of an argument. -/
theorem signedValue_eq :
    (word.toBitVec.setWidth (selectedBits modifiers)).toInt =
      if 2 * (word.toNat % 2 ^ selectedBits modifiers) < 2 ^ selectedBits modifiers then
        ((word.toNat % 2 ^ selectedBits modifiers : ℕ) : ℤ)
      else ((word.toNat % 2 ^ selectedBits modifiers : ℕ) : ℤ) -
        ((2 ^ selectedBits modifiers : ℕ) : ℤ) := by
  rw [BitVec.toInt_eq_toNat_cond, BitVec.toNat_setWidth, UInt64.toNat_toBitVec]

theorem minus_foreign : digitValue wide 10 (wide '-') = none := by decide

/-- A number is read from the text of a conversion to decimal where it is an `int64_t`. -/
theorem readNumeral_valueToString (value : Int64) :
    readNumeral wide 10 ((valueToString value).map wide) =
      if 0 ≤ value.toInt then some value.toInt.toNat else none := by
  rcases valueToString_cases value with ⟨n, -, same, text⟩ | ⟨n, -, positive, same, text⟩ |
    ⟨same, text⟩
  · rw [text, same, if_pos (Int.natCast_nonneg n), Int.toNat_natCast]
    exact readNumeral_toDigits (by decide) distinctDigits_decimal n
  · rw [text, same, if_neg (by omega)]
    exact readNumeral_eq_none List.mem_cons_self minus_foreign
  · rw [text, same, if_neg (by decide)]
    exact readNumeral_eq_none List.mem_cons_self minus_foreign

/-- An integer is read from it but for the lowest one. -/
theorem readSigned_valueToString (value : Int64) :
    readSigned wide 10 ((valueToString value).map wide) =
      if value.toInt = -2 ^ 63 then none else some value.toInt := by
  rcases valueToString_cases value with ⟨n, -, same, text⟩ | ⟨n, bound, -, same, text⟩ |
    ⟨same, text⟩
  · rw [text, same, if_neg (by omega)]
    exact readSigned_numeral minus_foreign
      (readNumeral_toDigits (by decide) distinctDigits_decimal n)
  · rw [text, same, if_neg (by omega), List.map_cons, readSigned_minus,
      readNumeral_toDigits (by decide) distinctDigits_decimal n]
    rfl
  · rw [text, same, if_pos rfl]
    decide

/-- An unsigned directive. -/
theorem read_u :
    Conversion.read .u (directiveText modifiers .u word) = some (Conversion.value .u modifiers word) ↔
      word.toNat % 2 ^ selectedBits modifiers < 2 ^ 63 := by
  rw [Conversion.read, directiveText_decimal (by decide), readNumeral_valueToString, toInt_decimal,
    Conversion.value]
  have bound : word.toNat % 2 ^ selectedBits modifiers < 2 ^ 64 :=
    Nat.lt_of_le_of_lt (Nat.mod_le _ _) word.toNat_lt
  split_ifs with small nonnegative nonnegative
  · exact iff_of_true rfl small
  · exact absurd (Int.natCast_nonneg _) nonnegative
  · omega
  · exact iff_of_false nofun small

/-- A signed directive. -/
theorem read_signed :
    readSigned wide 10 ((valueToString ((modifiedItem modifiers).decimal word).toInt64).map wide) =
        some (word.toBitVec.setWidth (selectedBits modifiers)).toInt ↔
      if selectedBits modifiers = 64 then word ≠ 0x8000000000000000
      else word.toNat % 2 ^ selectedBits modifiers < 2 ^ (selectedBits modifiers - 1) := by
  have lowest : word = 0x8000000000000000 ↔ word.toNat = 2 ^ 63 := by
    rw [← UInt64.toNat_inj]
    rfl
  have bound := word.toNat_lt
  rw [readSigned_valueToString, toInt_decimal, signedValue_eq, ne_eq, lowest]
  rcases selectedBits_cases modifiers with bits | bits | bits
  · rw [bits]
    split_ifs <;> simp <;> omega
  · rw [bits]
    split_ifs <;> simp <;> omega
  · rw [bits]
    split_ifs <;> simp <;> omega

end Decimal

/-- A numeric directive renders the value of its argument exactly where the value is kept. -/
theorem rendersValue_iff (modifiers : List Modifier) (conversion : Conversion) (word : UInt64) :
    RendersValue modifiers conversion word ↔ conversion.Keeps modifiers word := by
  rw [rendersValue_iff_read]
  cases conversion with
  | d | i =>
    rw [directiveText_decimal (by decide)]
    exact read_signed modifiers word
  | u => exact read_u modifiers word
  | x | X => exact iff_of_true (read_hex (by decide) word) trivial
  | p =>
    rw [read_hex (by decide), Conversion.value, Conversion.Keeps, Option.some.injEq, Int.natCast_inj]
    exact Nat.mod_eq_iff_lt (Nat.two_pow_pos _).ne'

/-- The `int` minus one is printed as an unsigned number. -/
theorem not_rendersValue_minus_one : ¬ RendersValue [] .d 0xffffffff := by
  intro renders
  have starts : StartsOn (directiveFormat [] .d)
      (fun _ => { blankArgument none with word := 0xffffffff }) _ :=
    .string 0 (fun _ => 0) fun _ => 0
  obtain ⟨text, prints, read⟩ := renders _ _ rfl starts
  rw [prints.unique starts.prints_directive] at read
  revert read
  decide +kernel

end ZLoader
