import ZLoader.Soundness.PrintSafety
import ZLoader.Soundness.StringScans

/-! # Widths of string items

An item shows the first characters of its argument between paddings. `ptr_item` measures the
argument with the index of its reader, which counts units of memory: the widths are met for a wide
string, and for a UTF-8 string as long as the characters that are counted take one byte each.
-/

namespace ZLoader

open StateTransition

/-! ## String arguments -/

/-- A string argument in memory: wide, or UTF-8 within the basic plane. It ends at its terminator
and fits into an address space. -/
inductive StringArgument where
  | ofWide (units : List UInt16) (behind : ℕ → UInt16) (nulFree : 0 ∉ units)
      (fits : units.length < noFieldWidth)
  | ofUtf8 (text : List Char) (behind : ℕ → UInt8) (nulFree : Char.ofNat 0 ∉ text)
      (plane : InBasicPlane text) (fits : (utf8Bytes text).length < noFieldWidth)

namespace StringArgument

def text : StringArgument → Text
  | .ofWide units behind _ _ => .unicode ⟨units, behind⟩
  | .ofUtf8 text behind _ _ _ => .ascii ⟨utf8Bytes text, behind⟩

/-- The characters, with the units of memory that each takes. -/
def chars : StringArgument → List (UInt16 × ℕ)
  | .ofWide units _ _ _ => units.map fun c => (c, 1)
  | .ofUtf8 text _ _ _ _ => utf8Chars text

/-- The characters that are printed. -/
def characters (argument : StringArgument) : List UInt16 := argument.chars.map Prod.fst

/-- The units of memory that each character takes. -/
def sizes (argument : StringArgument) : List ℕ := argument.chars.map Prod.snd

variable (argument : StringArgument)

theorem scan_eq : argument.text.scan = .ofChars argument.chars := by
  cases argument with
  | ofWide units behind nulFree fits => exact scan_wide units behind
  | ofUtf8 text behind nulFree plane fits => exact scan_utf8 text behind

theorem chars_nulFree : ∀ entry ∈ argument.chars, entry.1 ≠ 0 := by
  cases argument with
  | ofWide units behind nulFree fits =>
    rw [chars, List.forall_mem_map]
    rintro c member rfl
    exact nulFree member
  | ofUtf8 text behind nulFree plane fits =>
    rw [chars, utf8Chars, List.forall_mem_map]
    intro c member zero
    have low := plane c member
    have value : c.toNat = 0 := by
      have same := congrArg UInt16.toNat zero
      rwa [UInt16.toNat_ofNat_of_lt' low] at same
    have nul : c = Char.ofNat 0 := Char.toNat_inj.mp value
    exact nulFree (nul ▸ member)

theorem one_le_sizes : ∀ size ∈ argument.sizes, 1 ≤ size := by
  rw [sizes, List.forall_mem_map]
  cases argument with
  | ofWide units behind nulFree fits =>
    rw [chars, List.forall_mem_map]
    exact fun _ _ => Nat.le_refl 1
  | ofUtf8 text behind nulFree plane fits =>
    rw [chars, utf8Chars, List.forall_mem_map]
    exact fun c _ => length_utf8EncodeChar_pos c

theorem sum_sizes_lt : argument.sizes.sum < noFieldWidth := by
  cases argument with
  | ofWide units behind nulFree fits =>
    have total : ((units.map fun c => (c, 1)).map Prod.snd).sum = units.length := by
      simp [List.map_map, Function.comp_def]
    rw [sizes, chars, total]
    exact fits
  | ofUtf8 text behind nulFree plane fits =>
    rw [sizes, chars, utf8Chars, List.map_map]
    rwa [utf8Bytes, List.length_flatMap] at fits

end StringArgument

/-! ## The characters of a field -/

section Field

theorem sum_eq_length_iff {sizes : List ℕ} (positive : ∀ size ∈ sizes, 1 ≤ size) :
    sizes.sum = sizes.length ↔ ∀ size ∈ sizes, size = 1 := by
  induction sizes with
  | nil => simp
  | cons size rest ih =>
    rw [List.forall_mem_cons] at positive
    have more := List.length_le_sum_of_one_le rest positive.2
    rw [List.sum_cons, List.length_cons, List.forall_mem_cons, ← ih positive.2]
    omega

variable {fieldWidth : ℕ} {sizes : List ℕ}

/-- Sizes of one up to a count. -/
theorem sum_take_eq_iff (positive : ∀ size ∈ sizes, 1 ≤ size) {count : ℕ}
    (bound : count ≤ sizes.length) :
    (sizes.take count).sum = count ↔ ∀ size ∈ sizes.take count, size = 1 := by
  have taken : (sizes.take count).length = count := List.length_take_of_le bound
  have iff := @sum_eq_length_iff (sizes.take count) fun size member =>
    positive size (List.mem_of_mem_take member)
  rwa [taken] at iff

theorem le_sum_take (positive : ∀ size ∈ sizes, 1 ≤ size) (count : ℕ)
    (bound : count ≤ sizes.length) : count ≤ (sizes.take count).sum := by
  have taken : (sizes.take count).length = count := List.length_take_of_le bound
  have least := List.length_le_sum_of_one_le (sizes.take count) fun size member =>
    positive size (List.mem_of_mem_take member)
  rwa [taken] at least

/-- No more characters are counted than the field has places. -/
theorem fieldCount_le_field (positive : ∀ size ∈ sizes, 1 ≤ size) :
    fieldCount fieldWidth 0 sizes ≤ fieldWidth := by
  have bound := @fieldCount_le fieldWidth 0 sizes
  rcases Nat.eq_zero_or_pos (fieldCount fieldWidth 0 sizes) with none | some
  · omega
  · have begins := fieldCount_begins some
    have least := le_sum_take positive (fieldCount fieldWidth 0 sizes - 1) (by omega)
    omega

/-- Where the characters of the field take one unit each they are all that is counted. -/
theorem fieldCount_of_ones (positive : ∀ size ∈ sizes, 1 ≤ size)
    (ones : ∀ size ∈ sizes.take fieldWidth, size = 1) :
    fieldCount fieldWidth 0 sizes = min sizes.length fieldWidth ∧
      (sizes.take (fieldCount fieldWidth 0 sizes)).sum = fieldCount fieldWidth 0 sizes := by
  have bound := @fieldCount_le fieldWidth 0 sizes
  have inside := @fieldCount_le_field fieldWidth sizes positive
  have sum : (sizes.take (fieldCount fieldWidth 0 sizes)).sum = fieldCount fieldWidth 0 sizes := by
    rw [sum_take_eq_iff positive bound]
    intro size member
    exact ones size ((List.take_sublist_take_left inside).subset member)
  have full := @fieldCount_full fieldWidth 0 sizes
  rw [sum] at full
  exact ⟨by omega, sum⟩

/-- Where the last character alone reaches over the end of the field, it is counted too. -/
theorem fieldCount_of_ones_before (positive : ∀ size ∈ sizes, 1 ≤ size)
    (long : fieldWidth ≤ sizes.length) (ones : ∀ size ∈ sizes.take (fieldWidth - 1), size = 1) :
    fieldCount fieldWidth 0 sizes = fieldWidth := by
  have bound := @fieldCount_le fieldWidth 0 sizes
  have inside := @fieldCount_le_field fieldWidth sizes positive
  rcases Nat.lt_or_ge (fieldCount fieldWidth 0 sizes) fieldWidth with short | enough
  · have sum : (sizes.take (fieldCount fieldWidth 0 sizes)).sum =
        fieldCount fieldWidth 0 sizes := by
      rw [sum_take_eq_iff positive bound]
      intro size member
      exact ones size ((List.take_sublist_take_left (by omega)).subset member)
    have full := @fieldCount_full fieldWidth 0 sizes
    rw [sum] at full
    omega
  · omega

end Field

/-! ## What is printed -/

/-- The item of a string directive. -/
def stringItem (width : UInt64) (field : Option UInt64) (padChar : UInt16) (padBefore : Bool) :
    Item :=
  { newItem with
    width := width.toNat
    fieldWidth := field.elim noFieldWidth UInt64.toNat
    padChar := padChar
    padBefore := padBefore }

/-- The number of characters of the argument that an item shows. -/
def shownCount (count : ℕ) (field : Option UInt64) : ℕ :=
  field.elim count fun field => min count field.toNat

/-- The number of characters of an item with its paddings. -/
def itemLength (count : ℕ) (width : UInt64) (field : Option UInt64) : ℕ :=
  max (shownCount count field) (max width.toNat (field.elim 0 UInt64.toNat))

/-- The item is the first characters in order, padded to its length. -/
structure FillsItem (characters : List UInt16) (width : UInt64) (field : Option UInt64)
    (padChar : UInt16) (printed : List UInt16) : Prop where
  padded : ∃ before after,
    printed = before ++ characters.take (shownCount characters.length field) ++ after ∧
      ∀ c ∈ before ++ after, c = wide ' ' ∨ c = padChar
  length : printed.length = itemLength characters.length width field

/-- `ptr_item`, called in whatever state of the printer, puts such an item and leaves the
directive. -/
def PrintsItem (argument : StringArgument) (width : UInt64) (field : Option UInt64) : Prop :=
  ∀ (padChar : UInt16) (padBefore : Bool) (ps : PrintState), ∃ printed out',
    FillsItem argument.characters width field padChar printed ∧ Emits ps.out printed out' ∧
      Reaches printTurn
        { ps with
          control := .measuring (stringItem width field padChar padBefore) ⟨argument.text, 0⟩ }
        (leaveDirective { ps with out := out' })

/-- The characters counted, the units that they take and the place that is filled decide the
length. -/
def measuredLength (sizes : List ℕ) (width : UInt64) (field : Option UInt64) : ℕ :=
  let fieldWidth := field.elim noFieldWidth UInt64.toNat
  let count := fieldCount fieldWidth 0 sizes
  let len := (sizes.take count).sum
  max (max width.toNat len) (if fieldWidth = noFieldWidth then len else fieldWidth) - len + count

/-- The characters measured, between the paddings of an item. -/
theorem itemText_padded {item : Item} {text : Text} {len : ℕ} {chars : List UInt16}
    (measured : text.scan.measure item.fieldWidth 0 = some (len, chars)) :
    ∃ before after, itemText item text = some (before ++ chars ++ after) ∧
      (∀ c ∈ before ++ after, c = wide ' ' ∨ c = item.padChar) ∧
      (before ++ chars ++ after).length =
        max (max item.width len) (if item.fieldWidth = noFieldWidth then len else item.fieldWidth) -
          len + chars.length := by
  have field : ∀ c ∈ List.replicate ((item.fit len).fieldWidth - (item.fit len).width) (wide ' '),
      c = wide ' ' ∨ c = item.padChar := fun c member => .inl (List.eq_of_mem_replicate member)
  have padding : ∀ c ∈ List.replicate ((item.fit len).width - len) item.padChar,
      c = wide ' ' ∨ c = item.padChar := fun c member => .inr (List.eq_of_mem_replicate member)
  rw [itemText, measured]
  cases before : item.padBefore with
  | true =>
    refine ⟨List.replicate ((item.fit len).fieldWidth - (item.fit len).width) (wide ' ') ++
      List.replicate ((item.fit len).width - len) item.padChar, [], ?_, ?_, ?_⟩
    · simp [Item.fit, before]
    · rw [List.append_nil, List.forall_mem_append]
      exact ⟨field, padding⟩
    · simp only [List.append_nil, List.length_append, List.length_replicate, Item.fit]
      omega
  | false =>
    refine ⟨List.replicate ((item.fit len).width - len) item.padChar,
      List.replicate ((item.fit len).fieldWidth - (item.fit len).width) (wide ' '), ?_, ?_, ?_⟩
    · simp [Item.fit, before]
    · rw [List.forall_mem_append]
      exact ⟨padding, field⟩
    · simp only [List.length_append, List.length_replicate, Item.fit]
      omega

section Prints

variable (argument : StringArgument) (width : UInt64) (field : Option UInt64)

/-- The number of characters that the first walk counts. -/
def StringArgument.count : ℕ :=
  fieldCount (field.elim noFieldWidth UInt64.toNat) 0 argument.sizes

theorem StringArgument.count_le : argument.count field ≤ argument.characters.length := by
  have counted := @fieldCount_le (field.elim noFieldWidth UInt64.toNat) 0 argument.sizes
  rwa [StringArgument.sizes, List.length_map, ← List.length_map Prod.fst] at counted

theorem StringArgument.itemText_eq (padChar : UInt16) (padBefore : Bool) :
    ∃ before after,
      itemText (stringItem width field padChar padBefore) argument.text =
        some (before ++ argument.characters.take (argument.count field) ++ after) ∧
      (∀ c ∈ before ++ after, c = wide ' ' ∨ c = padChar) ∧
      (before ++ argument.characters.take (argument.count field) ++ after).length =
        measuredLength argument.sizes width field := by
  have measured : argument.text.scan.measure
      (stringItem width field padChar padBefore).fieldWidth 0 =
        some ((argument.sizes.take (argument.count field)).sum,
          argument.characters.take (argument.count field)) := by
    rw [argument.scan_eq, measure_ofChars argument.chars_nulFree]
    dsimp only
    rw [Nat.zero_add]
    rfl
  obtain ⟨before, after, text, pads, length⟩ := itemText_padded measured
  rw [List.length_take_of_le (argument.count_le field)] at length
  exact ⟨before, after, text, pads, length⟩

/-- What `ptr_item` puts, in any state of the printer. -/
theorem StringArgument.item_reaches (padChar : UInt16) (padBefore : Bool) (ps : PrintState)
    {printed : List UInt16}
    (text : itemText (stringItem width field padChar padBefore) argument.text = some printed) :
    ∃ out', Emits ps.out printed out' ∧
      Reaches printTurn
        { ps with
          control := .measuring (stringItem width field padChar padBefore) ⟨argument.text, 0⟩ }
        (leaveDirective { ps with out := out' }) := by
  obtain ⟨out', emits, trace⟩ := item_trace ps (Nat.le_refl ps.fmt.index) text
  exact ⟨out', emits, trace.reaches⟩

/-- A printer at the end of its format, into a string. -/
def atEnd : PrintState :=
  vswprintfStart 0 (fun _ => 0) ⟨[], fun _ => 0⟩ fun _ => blankArgument none

/-- At the end of the format the printer comes to one state behind a directive. -/
theorem atEnd_unique {start : PrintState} {first second : Output}
    (reached : Reaches printTurn start (leaveDirective { atEnd with out := first }))
    (reached' : Reaches printTurn start (leaveDirective { atEnd with out := second })) :
    first = second := by
  have left (out : Output) : leaveDirective { atEnd with out := out } = { atEnd with out := out } :=
    rfl
  -- the next turn returns
  have only {out out' : Output}
      (run : Reaches printTurn { atEnd with out := out } { atEnd with out := out' }) :
      out = out' := by
    rcases Relation.ReflTransGen.cases_head run with same | ⟨next, stepped, behind⟩
    · exact congrArg PrintState.out same
    · obtain rfl := Option.some.inj stepped
      have stays := reaches_invariant (fun ps : PrintState => ps.control = .returned)
        (fun state next returned stepped => by
          rw [printTurn, returned] at stepped
          cases stepped) behind rfl
      cases stays
  rw [left] at reached reached'
  rcases reaches_total reached reached' with forth | back
  · exact only forth
  · exact (only back).symm

/-- The length of what is printed is measured. -/
theorem measuredLength_of_printsItem (prints : PrintsItem argument width field) :
    measuredLength argument.sizes width field =
      itemLength argument.characters.length width field := by
  obtain ⟨before, after, text, -, length⟩ := argument.itemText_eq width field (wide ' ') true
  obtain ⟨printed, out', fills, emits, reached⟩ := prints (wide ' ') true atEnd
  obtain ⟨out'', emits', reached'⟩ := argument.item_reaches width field (wide ' ') true atEnd text
  obtain rfl := atEnd_unique reached reached'
  obtain ⟨-, -, pending⟩ := emits.bare (vswprintfOutput_bare 0 fun _ => 0)
  obtain ⟨-, -, pending'⟩ := emits'.bare (vswprintfOutput_bare 0 fun _ => 0)
  rw [← length, ← List.append_cancel_left (pending.symm.trans pending')]
  exact fills.length

/-- The characters counted are those to be shown, and the length is right. -/
theorem printsItem_of_count
    (count : argument.count field = shownCount argument.characters.length field)
    (length : measuredLength argument.sizes width field =
      itemLength argument.characters.length width field) :
    PrintsItem argument width field := by
  intro padChar padBefore ps
  obtain ⟨before, after, text, pads, measured⟩ :=
    argument.itemText_eq width field padChar padBefore
  obtain ⟨out', emits, reached⟩ :=
    argument.item_reaches width field padChar padBefore ps text
  refine ⟨_, out', ⟨⟨before, after, ?_, pads⟩, measured.trans length⟩, emits, reached⟩
  rw [count]

end Prints

/-! ## When the widths are met -/

/-- The characters that are counted take one unit each, or no padding is asked for that would show
the difference. The field width that stands for none is met by a width as large. -/
def WidthsMet (sizes : List ℕ) (width : UInt64) (field : Option UInt64) : Prop :=
  match field with
  | none => (∀ size ∈ sizes, size = 1) ∨ width.toNat ≤ sizes.length
  | some field =>
      if field.toNat = noFieldWidth then width = field ∧ ∀ size ∈ sizes, size = 1
      else
        (∀ size ∈ sizes.take field.toNat, size = 1) ∨
          field.toNat ≤ sizes.length ∧ width ≤ field ∧
            ∀ size ∈ sizes.take (field.toNat - 1), size = 1

section Widths

variable {sizes : List ℕ} (width field : UInt64)

/-- Without a field. -/
theorem measuredLength_none (positive : ∀ size ∈ sizes, 1 ≤ size)
    (fits : sizes.sum < noFieldWidth) :
    measuredLength sizes width none = itemLength sizes.length width none ↔
      WidthsMet sizes width none := by
  have all : fieldCount noFieldWidth 0 sizes = sizes.length :=
    fieldCount_of_fits positive (by omega)
  have least := List.length_le_sum_of_one_le sizes positive
  simp only [measuredLength, Option.elim_none, all, List.take_length, if_true, itemLength,
    shownCount, WidthsMet, ← sum_eq_length_iff positive]
  omega

/-- With the field width that stands for none. -/
theorem measuredLength_noFieldWidth (positive : ∀ size ∈ sizes, 1 ≤ size)
    (fits : sizes.sum < noFieldWidth) (none_ : field.toNat = noFieldWidth) :
    measuredLength sizes width (some field) = itemLength sizes.length width (some field) ↔
      WidthsMet sizes width (some field) := by
  have all : fieldCount noFieldWidth 0 sizes = sizes.length :=
    fieldCount_of_fits positive (by omega)
  have least := List.length_le_sum_of_one_le sizes positive
  have bound := width.toNat_lt
  have largest : noFieldWidth = 2 ^ 64 - 1 := rfl
  have same : width = field ↔ width.toNat = noFieldWidth := by
    rw [← none_, UInt64.toNat_inj]
  simp only [measuredLength, Option.elim_some, none_, all, List.take_length, if_true, itemLength,
    shownCount, WidthsMet, same, ← sum_eq_length_iff positive]
  omega

/-- With any other field width. -/
theorem measuredLength_field (positive : ∀ size ∈ sizes, 1 ≤ size)
    (given : field.toNat ≠ noFieldWidth) :
    measuredLength sizes width (some field) = itemLength sizes.length width (some field) ↔
      WidthsMet sizes width (some field) := by
  have counted := @fieldCount_le field.toNat 0 sizes
  have inside := @fieldCount_le_field field.toNat sizes positive
  have least := le_sum_take positive _ counted
  have full := @fieldCount_full field.toNat 0 sizes
  simp only [measuredLength, Option.elim_some, given, if_false, itemLength, shownCount, WidthsMet,
    UInt64.le_iff_toNat_le]
  constructor
  · intro same
    rcases Nat.lt_or_ge (max width.toNat field.toNat)
      (sizes.take (fieldCount field.toNat 0 sizes)).sum with beyond | within
    · -- the last character reaches over the end of the field
      have count : fieldCount field.toNat 0 sizes = field.toNat := by omega
      rw [count] at counted beyond same
      have positive' : 0 < field.toNat := by
        apply Nat.pos_of_ne_zero
        intro zero
        rw [zero, List.take_zero] at beyond
        cases beyond
      have begins := @fieldCount_begins field.toNat 0 sizes (by omega)
      rw [count, Nat.zero_add] at begins
      have least' := le_sum_take positive (field.toNat - 1) (by omega)
      exact .inr ⟨counted, by omega, (sum_take_eq_iff positive (by omega)).mp (by omega)⟩
    · have ones := (sum_take_eq_iff positive counted).mp (by omega)
      have taken : sizes.take field.toNat = sizes.take (fieldCount field.toNat 0 sizes) := by
        rcases full with all | filled
        · rw [all, List.take_length, List.take_of_length_le (by omega)]
        · rw [show fieldCount field.toNat 0 sizes = field.toNat from by omega]
      rw [taken]
      exact .inl ones
  · rintro (ones | ⟨long, narrow, ones⟩)
    · obtain ⟨count, sum⟩ := fieldCount_of_ones positive ones
      rw [sum, count]
      omega
    · have count := fieldCount_of_ones_before positive long ones
      rw [count] at least ⊢
      omega

/-- The length is right exactly where the widths are met. -/
theorem measuredLength_iff (width : UInt64) (field : Option UInt64)
    (positive : ∀ size ∈ sizes, 1 ≤ size) (fits : sizes.sum < noFieldWidth) :
    measuredLength sizes width field = itemLength sizes.length width field ↔
      WidthsMet sizes width field := by
  cases field with
  | none => exact measuredLength_none width positive fits
  | some field =>
    rcases eq_or_ne field.toNat noFieldWidth with none_ | given
    · exact measuredLength_noFieldWidth width field positive fits none_
    · exact measuredLength_field width field positive given

/-- Where the widths are met the characters counted are those to be shown. -/
theorem fieldCount_of_widthsMet {field : Option UInt64} (positive : ∀ size ∈ sizes, 1 ≤ size)
    (fits : sizes.sum < noFieldWidth) (met : WidthsMet sizes width field) :
    fieldCount (field.elim noFieldWidth UInt64.toNat) 0 sizes = shownCount sizes.length field := by
  have least := List.length_le_sum_of_one_le sizes positive
  have all : fieldCount noFieldWidth 0 sizes = sizes.length :=
    fieldCount_of_fits positive (by omega)
  cases field with
  | none => exact all
  | some field =>
    simp only [Option.elim_some, shownCount]
    rw [WidthsMet] at met
    split_ifs at met with none_
    · rw [none_, all]
      omega
    · rcases met with ones | ⟨long, -, ones⟩
      · exact (fieldCount_of_ones positive ones).1
      · rw [fieldCount_of_ones_before positive long ones, Nat.min_eq_right long]

end Widths

/-- A string item shows the first characters in the width asked for exactly where its widths are
met. -/
theorem printsItem_iff (argument : StringArgument) (width : UInt64) (field : Option UInt64) :
    PrintsItem argument width field ↔ WidthsMet argument.sizes width field := by
  have count : argument.characters.length = argument.sizes.length := by
    rw [StringArgument.characters, StringArgument.sizes, List.length_map, List.length_map]
  have length := measuredLength_iff width field argument.one_le_sizes argument.sum_sizes_lt
  constructor
  · intro prints
    have measured := measuredLength_of_printsItem argument width field prints
    rw [count] at measured
    exact length.mp measured
  · intro met
    have shown := fieldCount_of_widthsMet width argument.one_le_sizes argument.sum_sizes_lt met
    apply printsItem_of_count argument width field
    · rw [count]
      exact shown
    · rw [count]
      exact length.mpr met

/-- A letter of two bytes. -/
def accentedLetter : StringArgument :=
  .ofUtf8 [Char.ofNat 0xe9] (fun _ => 0) (by decide) (List.forall_mem_singleton.mpr (by decide))
    (by decide)

/-- It fills a width of two. -/
theorem not_printsItem_letter : ¬ PrintsItem accentedLetter 2 none := by
  intro prints
  have length := measuredLength_of_printsItem _ _ _ prints
  revert length
  decide

end ZLoader
