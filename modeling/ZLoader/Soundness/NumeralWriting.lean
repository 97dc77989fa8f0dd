import ZLoader.Foundation.Trace
import ZLoader.Soundness.NumericDirectives
import ZLoader.Soundness.TextBuffers

/-! # Numbers written into a buffer

The digits of a number stand on a stack of at most nineteen bytes and are copied from its top. What
is written is the numeral of the value, but for the lowest `int64_t`, whose negation is itself: the
remainders of its division are negative, and no digits.
-/

namespace ZLoader

open StateTransition Relation

/-! ## What is claimed -/

/-- A call of `value_to_string` or `value_to_hex_string`. -/
inductive NumberCall where
  | decimal (v : Int64)
  | hex (value : UInt64)

/-- The caller's buffer with the pointer that is returned, and the stores to the stack. -/
structure NumberOutcome where
  buffer : TextBuffer
  strStores : List ℕ

def NumeralState.outcome {V : Type} (st : NumeralState V) : NumberOutcome :=
  ⟨st.buffer, st.strStores⟩

namespace NumberCall

/-- The run of the call with what stands in the two arrays. -/
def run (str : ℕ → UInt8) (buffer : TextBuffer) : NumberCall → Part NumberOutcome
  | decimal v =>
      (eval valueToStringTurn (valueToStringStart str buffer v)).map NumeralState.outcome
  | hex value =>
      (eval valueToHexStringTurn (valueToHexStringStart str buffer value)).map NumeralState.outcome

def value : NumberCall → ℤ
  | decimal v => v.toInt
  | hex value => value.toNat

/-- The numeral of the value. -/
def numeral : NumberCall → List Char
  | decimal v => (if v.toInt < 0 then ['-'] else []) ++ Nat.toDigits 10 v.toInt.natAbs
  | hex value => Nat.toDigits 16 value.toNat

/-- The value that a text is a numeral of. -/
def read (text : List UInt16) : NumberCall → Option ℤ
  | decimal _ => readSigned wide 10 text
  | hex _ => (readNumeral wide 16 text).map fun value : ℕ => (value : ℤ)

end NumberCall

/-- The units in front of the pointer. -/
def TextBuffer.text (buffer : TextBuffer) : List UInt16 :=
  (List.range buffer.pos).map buffer.units

/-- The numeral and its terminator have been written, and the pointer is one to the terminator. -/
structure NumberCall.Written (call : NumberCall) (outcome : NumberOutcome) : Prop where
  text : outcome.buffer.text = call.numeral.map wide
  read : call.read outcome.buffer.text = some call.value
  terminated : outcome.buffer.units outcome.buffer.pos = 0
  stores : ∀ index ∈ outcome.buffer.stores, index < 21
  strStores : ∀ index ∈ outcome.strStores, index < 30

/-- The call writes the numeral of its value whatever the arrays held. -/
def NumberCall.WritesNumeral (call : NumberCall) : Prop :=
  ∀ str units, ∃ outcome ∈ call.run str ⟨units, 0, []⟩, call.Written outcome

/-! ## The loops -/

/-- The bytes on the stack, the last one first. -/
def topFirst (str : ℕ → UInt8) : ℕ → List UInt8
  | 0 => []
  | p1 + 1 => str p1 :: topFirst str p1

theorem topFirst_congr {str str' : ℕ → UInt8} {p1 : ℕ} (same : ∀ index < p1, str index = str' index) :
    topFirst str p1 = topFirst str' p1 := by
  induction p1 with
  | zero => rfl
  | succ p1 ih =>
    rw [topFirst, topFirst, same p1 (Nat.lt_succ_self _),
      ih fun index before => same index (Nat.lt_succ_of_lt before)]

theorem topFirst_update (str : ℕ → UInt8) (p1 : ℕ) (byte : UInt8) :
    topFirst (Function.update str p1 byte) (p1 + 1) = byte :: topFirst str p1 := by
  rw [topFirst, Function.update_self]
  exact congrArg _ (topFirst_congr fun index before =>
    Function.update_of_ne (Nat.ne_of_lt before) ..)

section Loops

variable {V : Type} (nonzero : V → Bool) (digit : V → UInt8) (next : V → V)

/-- The bytes that the first loop puts on the stack in so many turns. -/
def digitStack : ℕ → V → List UInt8 → List UInt8
  | 0, _, stack => stack
  | turns + 1, value, stack =>
      if nonzero value then digitStack turns (next value) (digit value :: stack) else stack

variable {nonzero digit next}

/-- What the first loop leaves behind. -/
structure Divided (before after : NumeralState V) (stack : List UInt8) (turns : ℕ) : Prop where
  control : after.control = .copying
  buffer : after.buffer = before.buffer
  stack : topFirst after.str after.p1 = stack
  stores : ∀ index ∈ after.strStores, index ∈ before.strStores ∨ index < before.p1 + turns

variable (digit) in
/-- The first loop ends when the value has become zero. -/
theorem dividing_reaches {turns : ℕ} {st : NumeralState V} (control : st.control = .dividing)
    (ended : nonzero (next^[turns] st.value) = false) :
    ∃ last, Reaches (numeralTurn nonzero digit next) st last ∧
      Divided st last (digitStack nonzero digit next turns st.value (topFirst st.str st.p1))
        turns := by
  have turned : ∀ {st : NumeralState V}, st.control = .dividing →
      numeralTurn nonzero digit next st = some (dividingTurn nonzero digit next st) := by
    intro st control
    rw [numeralTurn, control]
  have stops : ∀ {st : NumeralState V} (turns : ℕ), st.control = .dividing →
      nonzero st.value = false → ∃ last, Reaches (numeralTurn nonzero digit next) st last ∧
        Divided st last (topFirst st.str st.p1) turns := by
    intro st turns control zero
    have turn := turned control
    rw [dividingTurn, zero] at turn
    exact ⟨_, .single turn, rfl, rfl, rfl, fun _ => .inl⟩
  induction turns generalizing st with
  | zero => exact stops 0 control ended
  | succ turns ih =>
    rw [digitStack]
    split_ifs with more
    · have turn := turned control
      rw [dividingTurn, if_pos more] at turn
      obtain ⟨last, run, divided⟩ := @ih
        { st with
          value := next st.value
          str := Function.update st.str st.p1 (digit st.value)
          p1 := st.p1 + 1
          strStores := st.p1 :: st.strStores } control ended
      refine ⟨last, .head turn run, divided.control, divided.buffer, ?_, fun index member => ?_⟩
      · rw [divided.stack, topFirst_update]
      · rcases divided.stores index member with earlier | above
        · rcases List.mem_cons.mp earlier with rfl | before
          · exact .inr (Nat.lt_add_of_pos_right (Nat.succ_pos turns))
          · exact .inl before
        · refine .inr ?_
          change index < st.p1 + 1 + turns at above
          omega
    · exact stops _ control (Bool.eq_false_iff.mpr more)

variable (nonzero digit next) in
/-- The second loop moves the stack into the buffer, its top first. -/
theorem copying_reaches {st : NumeralState V} (control : st.control = .copying) :
    Reaches (numeralTurn nonzero digit next) st
      { st with
        p1 := 0
        buffer := (st.buffer.puts ((topFirst st.str st.p1).map char8ToChar16)).store 0
        control := .returned } := by
  obtain ⟨value, str, p1, strStores, buffer, _⟩ := st
  obtain rfl : _ = NumeralControl.copying := control
  induction p1 generalizing buffer with
  | zero => exact .single rfl
  | succ p1 ih => exact .head rfl (ih (buffer.put (char8ToChar16 (str p1))))

/-- A call from its loops on. -/
theorem numeral_reaches {turns : ℕ} {st : NumeralState V} (control : st.control = .dividing)
    (empty : st.p1 = 0 ∧ st.strStores = []) (ended : nonzero (next^[turns] st.value) = false) :
    ∃ last ∈ eval (numeralTurn nonzero digit next) st,
      last.buffer = (st.buffer.puts
        ((digitStack nonzero digit next turns st.value []).map char8ToChar16)).store 0 ∧
      ∀ index ∈ last.strStores, index < turns := by
  obtain ⟨between, divided, left⟩ := dividing_reaches digit control ended
  have copied := copying_reaches nonzero digit next left.control
  refine ⟨_, mem_eval.mpr ⟨divided.trans copied, rfl⟩, ?_, fun index member => ?_⟩
  · change (between.buffer.puts ((topFirst between.str between.p1).map char8ToChar16)).store 0 = _
    rw [left.stack, left.buffer, empty.1]
    rfl
  · rcases left.stores index member with earlier | bound
    · rw [empty.2] at earlier
      cases earlier
    · rwa [empty.1, Nat.zero_add] at bound

end Loops

/-! ## The digits -/

theorem char8ToChar16_eq {c : UInt8} (ascii : c < 0x80) :
    char8ToChar16 c = wide (Char.ofUInt8 c) := by
  have all : ∀ bits : BitVec 8, UInt8.ofBitVec bits < 0x80 →
      char8ToChar16 (UInt8.ofBitVec bits) = wide (Char.ofUInt8 (UInt8.ofBitVec bits)) := by
    decide +kernel
  exact all c.toBitVec ascii

/-- A remainder is a digit or stands for one of the characters in front of the digits. -/
theorem decimalDigit8_lt (v : Int64) : decimalDigit8 v < 0x80 := by
  have all : ∀ index : ℕ, index < 19 →
      (Int64.ofInt ((index : ℤ) - 9)).toUInt64.toUInt8 + '0'.toUInt8 < 0x80 := by decide
  have remainder : (v % 10).toInt = v.toInt.tmod 10 := by
    rw [Int64.toInt_mod]
    rfl
  have lower := Int.lt_tmod_of_pos v.toInt (show (0 : ℤ) < 10 by decide)
  have upper := Int.tmod_lt_of_pos v.toInt (show (0 : ℤ) < 10 by decide)
  obtain ⟨index, same⟩ := Int.eq_ofNat_of_zero_le (show 0 ≤ (v % 10).toInt + 9 by omega)
  have digit := all index (by omega)
  rwa [← same, Int.add_sub_cancel, Int64.ofInt_toInt] at digit

theorem hexDigit8_wide (value : UInt64) :
    char8ToChar16 (hexDigit8 value) = wide (hexDigits.getD (value &&& 0xf).toNat '0') := by
  have all : ∀ index < 16, char8ToChar16 (hexDigits.getD index '0').toUInt8 =
      wide (hexDigits.getD index '0') := by decide
  apply all
  rw [toNat_nibble]
  exact Nat.mod_lt _ (by decide)

/-- The stack of `value_to_string`, in front of the digits that stand on it. -/
theorem decimalStack (turns : ℕ) (v : Int64) {stack : List UInt8} {digits : List Char}
    (same : stack.map char8ToChar16 = digits.map wide) :
    (digitStack (· != 0) decimalDigit8 (· / 10) turns v stack).map char8ToChar16 =
      (valueToStringLoop turns v digits).map wide := by
  induction turns generalizing v stack digits with
  | zero => exact same
  | succ turns ih =>
    rw [digitStack, valueToStringLoop]
    by_cases zero : v = 0
    · rw [if_neg (by simpa using zero), if_pos (by simpa using zero)]
      exact same
    · rw [if_pos (by simpa using zero), if_neg (by simpa using zero)]
      apply ih
      rw [List.map_cons, List.map_cons, same, char8ToChar16_eq (decimalDigit8_lt v)]
      rfl

/-- The stack of `value_to_hex_string`. -/
theorem hexStack (turns : ℕ) (value : UInt64) {stack : List UInt8} {digits : List Char}
    (same : stack.map char8ToChar16 = digits.map wide) :
    (digitStack (· != 0) hexDigit8 (· >>> 4) turns value stack).map char8ToChar16 =
      (valueToHexLoop turns value digits).map wide := by
  induction turns generalizing value stack digits with
  | zero => exact same
  | succ turns ih =>
    rw [digitStack, valueToHexLoop]
    by_cases zero : value = 0
    · rw [if_neg (by simpa using zero), if_pos (by simpa using zero)]
      exact same
    · rw [if_pos (by simpa using zero), if_neg (by simpa using zero)]
      apply ih
      rw [List.map_cons, List.map_cons, same, hexDigit8_wide]

/-- Nineteen digits are enough. -/
theorem decimal_ended (v : Int64) : ((fun v : Int64 => v / 10)^[19] v != 0) = false := by
  have quotient : ∀ turns,
      ((fun v : Int64 => v / 10)^[turns] v).toInt.natAbs = v.toInt.natAbs / 10 ^ turns := by
    intro turns
    induction turns with
    | zero => exact (Nat.div_one _).symm
    | succ turns ih =>
      rw [Function.iterate_succ_apply', Int64.toInt_div_of_ne_right _ 10 (by decide),
        Int.natAbs_tdiv, ih, Nat.pow_succ, ← Nat.div_div_eq_div_mul]
      rfl
  have zero : (fun v : Int64 => v / 10)^[19] v = 0 := by
    have lower := v.le_toInt
    have upper := v.toInt_lt
    have none : ((fun v : Int64 => v / 10)^[19] v).toInt = 0 := by
      rw [← Int.natAbs_eq_zero, quotient]
      exact Nat.div_eq_of_lt (by omega)
    exact Int64.toInt_inj.mp none
  rw [zero]
  rfl

theorem hex_ended (value : UInt64) :
    ((fun value : UInt64 => value >>> 4)^[16] value != 0) = false := by
  have quotient : ∀ turns,
      ((fun value : UInt64 => value >>> 4)^[turns] value).toNat = value.toNat / 16 ^ turns := by
    intro turns
    induction turns with
    | zero => exact (Nat.div_one _).symm
    | succ turns ih =>
      rw [Function.iterate_succ_apply', toNat_shift_nibble, ih, Nat.div_div_eq_div_mul, Nat.pow_succ]
  have zero : (fun value : UInt64 => value >>> 4)^[16] value = 0 := by
    rw [← UInt64.toNat_inj, quotient]
    exact Nat.div_eq_of_lt value.toNat_lt
  rw [zero]
  rfl

/-! ## The calls -/

/-- The text that a call writes. -/
def NumberCall.written : NumberCall → List Char
  | decimal v => valueToString v
  | hex value => valueToHexString value

section Calls

variable (str : ℕ → UInt8) (buffer : TextBuffer)

/-- The loops of `value_to_string`. -/
theorem decimal_returns (v : Int64) :
    ∃ last ∈ eval valueToStringTurn (numeralStart str buffer v),
      last.buffer = (buffer.puts ((valueToStringLoop 19 v []).map wide)).store 0 ∧
      ∀ index ∈ last.strStores, index < 19 := by
  rw [← @decimalStack 19 v [] [] rfl]
  exact numeral_reaches rfl ⟨rfl, rfl⟩ (decimal_ended v)

/-- The loops of `value_to_hex_string`. -/
theorem hex_returns (value : UInt64) :
    ∃ last ∈ eval valueToHexStringTurn (numeralStart str buffer value),
      last.buffer = (buffer.puts ((valueToHexLoop 16 value []).map wide)).store 0 ∧
      ∀ index ∈ last.strStores, index < 16 := by
  rw [← @hexStack 16 value [] [] rfl]
  exact numeral_reaches rfl ⟨rfl, rfl⟩ (hex_ended value)

/-- A call returns with its text and a terminator in the buffer. -/
theorem NumberCall.run_written (call : NumberCall) :
    ∃ outcome ∈ call.run str buffer,
      outcome.buffer = (buffer.puts (call.written.map wide)).store 0 ∧
      ∀ index ∈ outcome.strStores, index < 30 := by
  cases call with
  | decimal v =>
    suffices returned : ∃ last ∈ eval valueToStringTurn (valueToStringStart str buffer v),
        last.buffer = (buffer.puts ((valueToString v).map wide)).store 0 ∧
        ∀ index ∈ last.strStores, index < 19 by
      obtain ⟨last, ended, text, bound⟩ := returned
      exact ⟨_, Part.mem_map _ ended, text, fun index member =>
        Nat.lt_trans (bound index member) (by decide)⟩
    rw [valueToStringStart, valueToString]
    split_ifs
    · exact ⟨_, mem_eval.mpr ⟨.refl, rfl⟩, rfl, List.forall_mem_nil _⟩
    · exact decimal_returns str (buffer.put (wide '-')) (-v)
    · exact decimal_returns str buffer v
  | hex value =>
    suffices returned : ∃ last ∈ eval valueToHexStringTurn (valueToHexStringStart str buffer value),
        last.buffer = (buffer.puts ((valueToHexString value).map wide)).store 0 ∧
        ∀ index ∈ last.strStores, index < 16 by
      obtain ⟨last, ended, text, bound⟩ := returned
      exact ⟨_, Part.mem_map _ ended, text, fun index member =>
        Nat.lt_trans (bound index member) (by decide)⟩
    rw [valueToHexStringStart, valueToHexString]
    split_ifs
    · exact ⟨_, mem_eval.mpr ⟨.refl, rfl⟩, rfl, List.forall_mem_nil _⟩
    · exact hex_returns str buffer value

end Calls

/-- The text in front of its terminator. -/
theorem TextBuffer.text_terminated (units : ℕ → UInt16) (text : List UInt16) :
    (((⟨units, 0, []⟩ : TextBuffer).puts text).store 0).text = text := by
  have pos := (adds_puts ⟨units, 0, []⟩ text).pos
  rw [Nat.zero_add] at pos
  have kept : ∀ index ∈ List.range text.length,
      (((⟨units, 0, []⟩ : TextBuffer).puts text).store 0).units index =
        ((⟨units, 0, []⟩ : TextBuffer).puts text).units index := by
    intro index member
    apply Function.update_of_ne
    rw [pos]
    exact Nat.ne_of_lt (List.mem_range.mp member)
  change (List.range ((⟨units, 0, []⟩ : TextBuffer).puts text).pos).map _ = text
  rw [pos, List.map_congr_left kept, List.range_eq_range']
  exact map_units_puts ⟨units, 0, []⟩ text

namespace NumberCall

theorem length_written (call : NumberCall) : call.written.length ≤ 20 := by
  cases call with
  | decimal v => exact length_valueToString v
  | hex value => exact length_valueToHexString value

/-- The texts are the numerals but for the lowest `int64_t`. -/
theorem written_eq_iff (call : NumberCall) :
    call.written.map wide = call.numeral.map wide ↔ call ≠ .decimal Int64.minValue := by
  cases call with
  | decimal v =>
    have lowest : NumberCall.decimal v = .decimal Int64.minValue ↔ v.toInt = -2 ^ 63 := by
      rw [decimal.injEq, ← Int64.toInt_inj]
      rfl
    rw [ne_eq, lowest, written, numeral]
    rcases valueToString_cases v with ⟨n, -, same, text⟩ | ⟨n, bound, positive, same, text⟩ |
      ⟨same, text⟩
    · rw [text, same, if_neg (by omega)]
      exact iff_of_true rfl (by omega)
    · rw [text, same, if_pos (by omega), Int.natAbs_neg]
      exact iff_of_true rfl (by omega)
    · rw [text, same]
      exact iff_of_false (by decide) (by decide)
  | hex value =>
    rw [written, valueToHexString_eq]
    exact iff_of_true rfl nofun

/-- The value is read from the text. -/
theorem read_written {call : NumberCall} (numeral : call ≠ .decimal Int64.minValue) :
    call.read (call.written.map wide) = some call.value := by
  cases call with
  | decimal v =>
    rw [read, written, readSigned_valueToString, if_neg]
    · rfl
    · intro lowest
      exact numeral (congrArg decimal (Int64.toInt_inj.mp lowest))
  | hex value =>
    rw [read, written, valueToHexString_eq, readNumeral_toDigits (by decide) distinctDigits_wide]
    rfl

/-- What a call has written is its text. -/
theorem Written.numeral_eq {call : NumberCall} (writes : call.WritesNumeral) :
    call.written.map wide = call.numeral.map wide := by
  obtain ⟨outcome, ended, text, -⟩ := call.run_written (fun _ => 0) ⟨fun _ => 0, 0, []⟩
  obtain ⟨_, ended', written⟩ := writes (fun _ => 0) (fun _ => 0)
  obtain rfl := Part.mem_unique ended ended'
  rw [← written.text, text, TextBuffer.text_terminated]

end NumberCall

/-- A call writes the numeral of its value exactly where that is not the lowest `int64_t`. -/
theorem writesNumeral_iff (call : NumberCall) :
    call.WritesNumeral ↔ call ≠ .decimal Int64.minValue := by
  constructor
  · intro writes
    exact call.written_eq_iff.mp (NumberCall.Written.numeral_eq writes)
  · intro numeral str units
    obtain ⟨outcome, ended, text, bound⟩ := call.run_written str ⟨units, 0, []⟩
    have units_eq : outcome.buffer.text = call.written.map wide := by
      rw [text, TextBuffer.text_terminated]
    refine ⟨outcome, ended, ?_, ?_, ?_, fun index member => ?_, bound⟩
    · rw [units_eq]
      exact call.written_eq_iff.mpr numeral
    · rw [units_eq]
      exact NumberCall.read_written numeral
    · rw [text]
      exact Function.update_self ..
    · have adds := (TextBuffer.adds_puts ⟨units, 0, []⟩ (call.written.map wide)).trans
        (TextBuffer.adds_store _ 0)
      rw [← text] at adds
      rcases adds.stores index member with earlier | inside
      · cases earlier
      · have short := call.length_written
        rw [adds.pos, List.length_map] at inside
        change index ≤ 0 + (call.written.length + 0) at inside
        omega

theorem not_writesNumeral_lowest : ¬ (NumberCall.decimal Int64.minValue).WritesNumeral := by
  intro writes
  exact (NumberCall.written_eq_iff _).mp (NumberCall.Written.numeral_eq writes) rfl

end ZLoader
