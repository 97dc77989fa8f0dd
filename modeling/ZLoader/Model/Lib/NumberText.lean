import ZLoader.Model.Lib.PrintText

/-! # Writing numbers

The stores of `value_to_string` and `value_to_hex_string`: the digits go into an array on the stack,
the lowest one first, and from its top into the buffer of the caller.
-/

namespace ZLoader

/-! ## The buffer -/

/-- The units from `buffer` on, with how far the pointer to them has moved. The stores are kept
backwards. -/
structure TextBuffer where
  units : ℕ → UInt16
  pos : ℕ
  stores : List ℕ

namespace TextBuffer

variable (buffer : TextBuffer)

/-- `*buffer = c`. -/
def store (c : UInt16) : TextBuffer :=
  { buffer with
    units := Function.update buffer.units buffer.pos c
    stores := buffer.pos :: buffer.stores }

/-- `*buffer++ = c`. -/
def put (c : UInt16) : TextBuffer := { buffer.store c with pos := buffer.pos + 1 }

def puts (text : List UInt16) : TextBuffer := text.foldl put buffer

end TextBuffer

/-! ## The digits -/

/-- A `char8_t`, which is signed, as a `char16_t`. -/
def char8ToChar16 (c : UInt8) : UInt16 := c.toInt8.toInt16.toUInt16

inductive NumeralControl where
  | dividing
  | copying
  | returned

/-- `value_to_string` or `value_to_hex_string` with the value that is left. The buffer's pointer is
`p2`, and what is returned. -/
structure NumeralState (V : Type) where
  value : V
  str : ℕ → UInt8
  p1 : ℕ
  strStores : List ℕ
  buffer : TextBuffer
  control : NumeralControl

section Turn

variable {V : Type} (nonzero : V → Bool) (digit : V → UInt8) (next : V → V)

/-- A turn of `while (v)`. -/
def dividingTurn (st : NumeralState V) : NumeralState V :=
  if nonzero st.value then
    { st with
      value := next st.value
      str := Function.update st.str st.p1 (digit st.value)
      p1 := st.p1 + 1
      strStores := st.p1 :: st.strStores }
  else { st with control := .copying }

/-- A turn of `while (p1 != str)`, or the terminator behind the loop. -/
def copyDigitTurn (st : NumeralState V) : NumeralState V :=
  if st.p1 != 0 then
    { st with
      p1 := st.p1 - 1
      buffer := st.buffer.put (char8ToChar16 (st.str (st.p1 - 1))) }
  else { st with buffer := st.buffer.store 0, control := .returned }

/-- A turn of a loop. -/
def numeralTurn (st : NumeralState V) : Option (NumeralState V) :=
  match st.control with
  | .dividing => some (dividingTurn nonzero digit next st)
  | .copying => some (copyDigitTurn st)
  | .returned => none

end Turn

/-- `(char16_t)r.rem + '0'` as a `char8_t`. -/
def decimalDigit8 (v : Int64) : UInt8 := (v % 10).toUInt64.toUInt8 + '0'.toUInt8

/-- `hex[value & 0xf]`. -/
def hexDigit8 (value : UInt64) : UInt8 := (hexDigits.getD (value &&& 0xf).toNat '0').toUInt8

/-- A turn of `value_to_string`. -/
def valueToStringTurn : NumeralState Int64 → Option (NumeralState Int64) :=
  numeralTurn (· != 0) decimalDigit8 (· / 10)

/-- A turn of `value_to_hex_string`. -/
def valueToHexStringTurn : NumeralState UInt64 → Option (NumeralState UInt64) :=
  numeralTurn (· != 0) hexDigit8 (· >>> 4)

section Start

variable {V : Type} (str : ℕ → UInt8) (buffer : TextBuffer)

/-- The text of zero. -/
def numeralZero (value : V) : NumeralState V :=
  ⟨value, str, 0, [], (buffer.put (wide '0')).store 0, .returned⟩

/-- The state in front of the loops. -/
def numeralStart (value : V) : NumeralState V := ⟨value, str, 0, [], buffer, .dividing⟩

/-- `value_to_string` in front of its loops. -/
def valueToStringStart (v : Int64) : NumeralState Int64 :=
  if v == 0 then numeralZero str buffer v
  else if v < 0 then numeralStart str (buffer.put (wide '-')) (-v)
  else numeralStart str buffer v

/-- `value_to_hex_string` in front of its loops. -/
def valueToHexStringStart (value : UInt64) : NumeralState UInt64 :=
  if value == 0 then numeralZero str buffer value else numeralStart str buffer value

end Start

end ZLoader
