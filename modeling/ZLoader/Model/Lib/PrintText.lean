import ZLoader.Model.Efi.Variables

/-! # The texts of the printer's items

The conversions of `efilib/efiprint.c`: each writes a text and its terminator into a buffer of the
caller. They are modelled by the characters in front of the terminator.
-/

namespace ZLoader

/-- The loop of `value_to_string` over the digits, the lowest one first. The quotient and the
remainder of `lldiv` have the sign of the value, which stays negative for the lowest `int64_t`. -/
def valueToStringLoop : ℕ → Int64 → List Char → List Char
  | 0, _, digits => digits
  | turns + 1, value, digits =>
      if value == 0 then digits
      else
        valueToStringLoop turns (value / 10)
          (Char.ofUInt8 ((value % 10).toUInt64.toUInt8 + '0'.toUInt8) :: digits)

/-- `value_to_string`. An `int64_t` has at most nineteen digits. -/
def valueToString (v : Int64) : List Char :=
  if v == 0 then ['0']
  else if v < 0 then '-' :: valueToStringLoop 19 (-v) []
  else valueToStringLoop 19 v []

/-- A zero for every bound of the list, highest first, that the value is below. -/
def leadingZeros (value : ℕ) (bounds : List ℕ) : List Char :=
  (bounds.filter fun bound => decide (value < bound)).map fun _ => '0'

/-- The bounds `0x10 << (4 * i)` for `i` from `count - 1` down, as an `int`: the shift by 28 leaves
nothing of its bits. -/
def nibbleBounds (count : ℕ) : List ℕ :=
  (List.range count).reverse.map fun i => (0x10 <<< (4 * i)) % 2 ^ 32

/-- `struct efi_guid`. -/
structure Guid where
  ms1 : UInt32
  ms2 : UInt16
  ms3 : UInt16
  ms4 : Fin 8 → UInt8

/-- A byte in a GUID's text. -/
def guidByte (value : UInt8) : List Char :=
  leadingZeros value.toNat [0x10] ++ valueToHexString value.toUInt64

/-- `guid_to_string`. -/
def guidToString (guid : Guid) : List Char :=
  leadingZeros guid.ms1.toNat (nibbleBounds 8) ++ valueToHexString guid.ms1.toUInt64 ++ ['-'] ++
  leadingZeros guid.ms2.toNat (nibbleBounds 2) ++ valueToHexString guid.ms2.toUInt64 ++ ['-'] ++
  leadingZeros guid.ms3.toNat (nibbleBounds 2) ++ valueToHexString guid.ms3.toUInt64 ++ ['-'] ++
  guidByte (guid.ms4 0) ++ guidByte (guid.ms4 1) ++ ['-'] ++
  guidByte (guid.ms4 2) ++ guidByte (guid.ms4 3) ++ guidByte (guid.ms4 4) ++
  guidByte (guid.ms4 5) ++ guidByte (guid.ms4 6) ++ guidByte (guid.ms4 7)

/-- The fields of `struct efi_time` that are printed. -/
structure EfiTime where
  year : UInt16
  month : UInt8
  day : UInt8
  hour : UInt8
  minute : UInt8
  second : UInt8

/-- A field of a time with two digits. -/
def timeField (value : UInt8) : List Char :=
  leadingZeros value.toNat [10] ++ valueToString (Int64.ofNat value.toNat)

/-- `time_to_string`. -/
def timeToString (time : EfiTime) : List Char :=
  leadingZeros time.year.toNat [1000, 100, 10] ++ valueToString (Int64.ofNat time.year.toNat) ++
  ['-'] ++ timeField time.month ++ ['-'] ++ timeField time.day ++ ['T'] ++ timeField time.hour ++
  [':'] ++ timeField time.minute ++ [':'] ++ timeField time.second

/-- `error_codes`. -/
def errorCodes : List (EfiStatus × String) :=
  [(efiSuccess, "Success"),
   (efiErr 1, "Load Error"),
   (efiErr 2, "Invalid Parameter"),
   (efiErr 3, "Unsupported"),
   (efiErr 4, "Bad Buffer Size"),
   (efiErr 5, "Buffer Too Small"),
   (efiErr 6, "Not Ready"),
   (efiErr 7, "Device Error"),
   (efiErr 8, "Write Protected"),
   (efiErr 9, "Out of Resources"),
   (efiErr 10, "Volume Corrupt"),
   (efiErr 11, "Volume Full"),
   (efiErr 12, "No Media"),
   (efiErr 13, "Media changed"),
   (efiErr 14, "Not Found"),
   (efiErr 15, "Access Denied"),
   (efiErr 16, "No Response"),
   (efiErr 17, "No mapping"),
   (efiErr 18, "Time out"),
   (efiErr 19, "Not started"),
   (efiErr 20, "Already started"),
   (efiErr 21, "Aborted"),
   (efiErr 22, "ICMP Error"),
   (efiErr 23, "TFTP Error"),
   (efiErr 24, "Protocol Error"),
   (efiErr 25, "Incompatible Version"),
   (efiErr 26, "Security Policy Violation"),
   (efiErr 27, "CRC Error"),
   (efiErr 28, "End of Media"),
   (efiErr 31, "End of File"),
   (efiErr 32, "Invalid Languages"),
   (efiErr 33, "Compromised Data"),
   (1, "Warning Unknown Glyph"),
   (2, "Warning Delete Failure"),
   (3, "Warning Write Failure"),
   (4, "Warning Buffer Too Small")]

/-- `status_to_string`: the description of the first entry with the code, else the code in hex
behind zeros counted against the bounds `0x10 << i`. -/
def statusToString (status : EfiStatus) : List Char :=
  match errorCodes.find? fun entry => entry.1 == status with
  | some entry => entry.2.toList
  | none =>
      leadingZeros status.toNat ((List.range 14).reverse.map fun i => 0x10 <<< i) ++
        valueToHexString status

/-- `_PRINT_ITEM_BUFFER_LEN`. -/
def printItemBufferLen : ℕ := 200

/-- `device_path_to_string`, from the text that the firmware's protocol returns for the path. -/
def devicePathToString (text : List UInt16) : List UInt16 :=
  (text.takeWhile (· != 0)).take printItemBufferLen

/-- A character as a `char16_t`. -/
def wide (c : Char) : UInt16 := c.toNat.toUInt16

end ZLoader
