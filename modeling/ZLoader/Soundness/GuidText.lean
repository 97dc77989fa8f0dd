import Mathlib.Data.Fin.VecNotation
import Mathlib.Data.List.GetD
import ZLoader.Soundness.NumberTexts

/-! # The text of a GUID

The canonical text has hexadecimal fields of 8, 4, 4, 4 and 12 digits, and reading it gives the GUID
back. `guid_to_string` counts the zeros of the two 16-bit fields against two bounds where three are
needed: below `0x1000` a field has three digits.
-/

namespace ZLoader

/-! ## The canonical text -/

/-- The bytes of a GUID's text. -/
def bytesText (bytes : List UInt8) : List Char := bytes.flatMap fun byte => hexField 2 byte.toNat

/-- The canonical text of a GUID. -/
def canonicalGuid (guid : Guid) : List Char :=
  hexField 8 guid.ms1.toNat ++ '-' :: (hexField 4 guid.ms2.toNat ++ '-' ::
    (hexField 4 guid.ms3.toNat ++ '-' :: (bytesText ((List.ofFn guid.ms4).take 2) ++ '-' ::
      bytesText ((List.ofFn guid.ms4).drop 2))))

/-- A number of as many hexadecimal digits, and the text behind it. -/
def takeHex (width : ℕ) (text : List Char) : Option (ℕ × List Char) :=
  if width ≤ text.length then
    (readNumeral id 16 (text.take width)).map fun value => (value, text.drop width)
  else none

/-- The text behind a dash. -/
def takeDash : List Char → Option (List Char)
  | '-' :: rest => some rest
  | _ => none

/-- Some bytes of two digits each, and the text behind them. -/
def takeBytes : ℕ → List Char → Option (List UInt8 × List Char)
  | 0, text => some ([], text)
  | count + 1, text => do
      let (byte, rest) ← takeHex 2 text
      let (bytes, rest) ← takeBytes count rest
      return (UInt8.ofNat byte :: bytes, rest)

/-- Reads a canonical text, and no other. -/
def readGuid (text : List Char) : Option Guid := do
  let (ms1, rest) ← takeHex 8 text
  let (ms2, rest) ← takeHex 4 (← takeDash rest)
  let (ms3, rest) ← takeHex 4 (← takeDash rest)
  let (clock, rest) ← takeBytes 2 (← takeDash rest)
  let (node, rest) ← takeBytes 6 (← takeDash rest)
  if rest.isEmpty then
    return ⟨UInt32.ofNat ms1, UInt16.ofNat ms2, UInt16.ofNat ms3, fun i => (clock ++ node).getD i 0⟩
  else none

theorem distinctDigits_id : DistinctDigits id 16 := by decide

theorem takeHex_append {width n : ℕ} (positive : 0 < width) (bound : n < 16 ^ width)
    (rest : List Char) : takeHex width (hexField width n ++ rest) = some (n, rest) := by
  have length := length_hexField positive bound
  have read := readNumeral_leftpad (by decide) distinctDigits_id width n
  rw [List.map_id] at read
  rw [takeHex, if_pos (by rw [List.length_append]; omega), List.take_left' length,
    List.drop_left' length, hexField, read]
  rfl

theorem takeBytes_append (bytes : List UInt8) (rest : List Char) :
    takeBytes bytes.length (bytesText bytes ++ rest) = some (bytes, rest) := by
  induction bytes with
  | nil => rfl
  | cons byte bytes ih =>
    rw [List.length_cons, takeBytes, bytesText, List.flatMap_cons, List.append_assoc,
      takeHex_append (by decide) byte.toNat_lt]
    simp only [Option.bind_eq_bind, Option.bind_some]
    rw [← bytesText, ih]
    simp

/-- Reading the canonical text gives the GUID back. -/
theorem readGuid_canonicalGuid (guid : Guid) : readGuid (canonicalGuid guid) = some guid := by
  have clock := takeBytes_append ((List.ofFn guid.ms4).take 2)
    ('-' :: bytesText ((List.ofFn guid.ms4).drop 2))
  have node := takeBytes_append ((List.ofFn guid.ms4).drop 2) []
  have bytes : (fun index : Fin 8 => ((List.ofFn guid.ms4).take 2 ++
      (List.ofFn guid.ms4).drop 2).getD index 0) = guid.ms4 := by
    funext index
    rw [List.take_append_drop, List.getD_eq_getElem _ _ (by simp), List.getElem_ofFn]
  rw [show ((List.ofFn guid.ms4).take 2).length = 2 from by simp] at clock
  rw [show ((List.ofFn guid.ms4).drop 2).length = 6 from by simp, List.append_nil] at node
  simp only [readGuid, canonicalGuid, Option.bind_eq_bind, Option.bind_some, takeDash,
    takeHex_append (by decide : 0 < 8) guid.ms1.toNat_lt,
    takeHex_append (by decide : 0 < 4) guid.ms2.toNat_lt,
    takeHex_append (by decide : 0 < 4) guid.ms3.toNat_lt, clock, node, bytes]
  simp

/-! ## What is written -/

theorem nibbleBounds_ms1 :
    nibbleBounds 8 = 0 :: (List.range 7).reverse.map fun i => 16 ^ (i + 1) := by decide

theorem nibbleBounds_ms2 :
    nibbleBounds 2 = (List.range 2).reverse.map fun i => 16 ^ (i + 1) := by decide

theorem guidByte_eq (value : UInt8) : guidByte value = hexField 2 value.toNat :=
  hexField_eq value.toUInt64 1

/-- The text that is written has three digits for a 16-bit field that needs no more. -/
theorem guidToString_eq (guid : Guid) :
    guidToString guid =
      hexField 8 guid.ms1.toNat ++ '-' :: (hexField 3 guid.ms2.toNat ++ '-' ::
        (hexField 3 guid.ms3.toNat ++ '-' :: (bytesText ((List.ofFn guid.ms4).take 2) ++ '-' ::
          bytesText ((List.ofFn guid.ms4).drop 2)))) := by
  have first : leadingZeros guid.ms1.toNat (nibbleBounds 8) ++ valueToHexString guid.ms1.toUInt64 =
      hexField 8 guid.ms1.toNat := by
    rw [nibbleBounds_ms1, leadingZeros_cons, if_neg (Nat.not_lt_zero _), List.nil_append]
    exact hexField_eq guid.ms1.toUInt64 7
  have second : leadingZeros guid.ms2.toNat (nibbleBounds 2) ++ valueToHexString guid.ms2.toUInt64 =
      hexField 3 guid.ms2.toNat := by
    rw [nibbleBounds_ms2]
    exact hexField_eq guid.ms2.toUInt64 2
  have third : leadingZeros guid.ms3.toNat (nibbleBounds 2) ++ valueToHexString guid.ms3.toUInt64 =
      hexField 3 guid.ms3.toNat := by
    rw [nibbleBounds_ms2]
    exact hexField_eq guid.ms3.toUInt64 2
  have clock : bytesText ((List.ofFn guid.ms4).take 2) =
      guidByte (guid.ms4 0) ++ guidByte (guid.ms4 1) := by
    simp [bytesText, guidByte_eq]
  have node : bytesText ((List.ofFn guid.ms4).drop 2) =
      guidByte (guid.ms4 2) ++ guidByte (guid.ms4 3) ++ guidByte (guid.ms4 4) ++
        guidByte (guid.ms4 5) ++ guidByte (guid.ms4 6) ++ guidByte (guid.ms4 7) := by
    simp [bytesText, guidByte_eq]
  delta guidToString
  rw [← first, ← second, ← third, clock, node]
  simp only [List.append_assoc, List.cons_append, List.nil_append]

/-- A field of three digits is one of four where it needs four. -/
theorem hexField_three_iff {n : ℕ} (bound : n < 16 ^ 4) :
    (hexField 3 n).length = 4 ↔ 0x1000 ≤ n := by
  have three := Nat.length_toDigits_le_iff (b := 16) (n := n) (by decide) (by decide : 0 < 3)
  have four := Nat.length_toDigits_le_iff (b := 16) (n := n) (by decide) (by decide : 0 < 4)
  rw [hexField, List.length_leftpad]
  omega

theorem hexField_three_eq {n : ℕ} (large : 0x1000 ≤ n) : hexField 3 n = hexField 4 n := by
  have three := Nat.length_toDigits_le_iff (b := 16) (n := n) (by decide) (by decide : 0 < 3)
  simp only [hexField, List.leftpad]
  rw [Nat.sub_eq_zero_of_le (by omega), Nat.sub_eq_zero_of_le (by omega)]

theorem length_bytesText (bytes : List UInt8) : (bytesText bytes).length = 2 * bytes.length := by
  induction bytes with
  | nil => rfl
  | cons byte bytes ih =>
    rw [bytesText, List.flatMap_cons, List.length_append,
      length_hexField (by decide) byte.toNat_lt, ← bytesText, ih, List.length_cons]
    omega

/-- The fields but for two have a fixed width. -/
theorem length_guidToString (guid : Guid) :
    (guidToString guid).length =
      28 + (hexField 3 guid.ms2.toNat).length + (hexField 3 guid.ms3.toNat).length := by
  have first := length_hexField (by decide : 0 < 8) guid.ms1.toNat_lt
  rw [guidToString_eq]
  simp only [List.length_append, List.length_cons, length_bytesText, List.length_take,
    List.length_drop, List.length_ofFn, first]
  omega

/-- The fields of a text that is as long as the canonical one. -/
theorem length_guidToString_iff (guid : Guid) :
    (guidToString guid).length = 36 ↔ 0x1000 ≤ guid.ms2 ∧ 0x1000 ≤ guid.ms3 := by
  have second := hexField_three_iff guid.ms2.toNat_lt
  have third := hexField_three_iff guid.ms3.toNat_lt
  have short : ∀ n < 16 ^ 4, (hexField 3 n).length ≤ 4 := by
    intro n bound
    rw [hexField, List.length_leftpad]
    exact Nat.max_le.mpr ⟨by decide, (Nat.length_toDigits_le_iff (by decide) (by decide)).mpr bound⟩
  have second_short := short guid.ms2.toNat guid.ms2.toNat_lt
  have third_short := short guid.ms3.toNat guid.ms3.toNat_lt
  rw [length_guidToString, UInt16.le_iff_toNat_le, UInt16.le_iff_toNat_le]
  change _ ↔ 0x1000 ≤ guid.ms2.toNat ∧ 0x1000 ≤ guid.ms3.toNat
  omega

/-! ## When it is the canonical text -/

/-- `guid_to_string` writes the canonical text of 36 characters, which is read back and is the text
of no other GUID. -/
structure WritesCanonicalText (guid : Guid) : Prop where
  length : (guidToString guid).length = 36
  canonical : guidToString guid = canonicalGuid guid
  readBack : readGuid (guidToString guid) = some guid
  distinct : ∀ other, guidToString other = guidToString guid → other = guid

theorem guidToString_canonical {guid : Guid} (length : (guidToString guid).length = 36) :
    guidToString guid = canonicalGuid guid := by
  obtain ⟨second, third⟩ := (length_guidToString_iff guid).mp length
  rw [guidToString_eq, canonicalGuid, hexField_three_eq (UInt16.le_iff_toNat_le.mp second),
    hexField_three_eq (UInt16.le_iff_toNat_le.mp third)]

/-- The text is canonical exactly when no 16-bit field begins with a zero digit. -/
theorem writesCanonicalText_iff (guid : Guid) :
    WritesCanonicalText guid ↔ 0x1000 ≤ guid.ms2 ∧ 0x1000 ≤ guid.ms3 := by
  rw [← length_guidToString_iff]
  refine ⟨fun written => written.length, fun length => ?_⟩
  have canonical := guidToString_canonical length
  have readBack : readGuid (guidToString guid) = some guid := by
    rw [canonical, readGuid_canonicalGuid]
  refine ⟨length, canonical, readBack, fun other same => ?_⟩
  have length' : (guidToString other).length = 36 := by rw [same, length]
  have read : readGuid (guidToString other) = some other := by
    rw [guidToString_canonical length', readGuid_canonicalGuid]
  rw [same, readBack] at read
  exact (Option.some.inj read).symm

/-- The vendor of the loader's variables. -/
def loaderGuid : Guid :=
  ⟨0x4a67b082, 0x0a4c, 0x41cf, ![0xb6, 0xc7, 0x44, 0x0b, 0x29, 0xbb, 0x8c, 0x4f]⟩

/-- Its text is a digit short. -/
theorem not_writesCanonicalText_loader : ¬ WritesCanonicalText loaderGuid := by
  intro written
  have length : (guidToString loaderGuid).length = 35 := by decide
  rw [written.length] at length
  cases length

end ZLoader
