import Mathlib.Tactic.Common
import Mathlib.Data.Nat.Notation

/-! # Encodings of text

A text is a list of Unicode characters. Its UTF-8 form is made of one to four bytes a character, its
UTF-16 form of one unit a character of the basic plane and of a surrogate pair for any other. Text
of the basic plane can be read off its units.
-/

namespace ZLoader

/-- The UTF-8 form. -/
def utf8Bytes (text : List Char) : List UInt8 := text.flatMap String.utf8EncodeChar

/-- The UTF-16 units of a character. -/
def utf16Char (c : Char) : List UInt16 :=
  if c.toNat < 0x10000 then [UInt16.ofNat c.toNat]
  else
    [UInt16.ofNat (0xd800 + (c.toNat - 0x10000) / 0x400),
      UInt16.ofNat (0xdc00 + (c.toNat - 0x10000) % 0x400)]

/-- The UTF-16 form. -/
def utf16Units (text : List Char) : List UInt16 := text.flatMap utf16Char

/-- The text has no character beyond the basic plane. -/
def InBasicPlane (text : List Char) : Prop := ∀ c ∈ text, c.toNat < 0x10000

instance (text : List Char) : Decidable (InBasicPlane text) :=
  inferInstanceAs (Decidable (∀ c ∈ text, _))

/-- The low sixteen bits of every character. -/
def lowUnits (text : List Char) : List UInt16 := text.map fun c => UInt16.ofNat c.toNat

theorem utf8Bytes_cons (c : Char) (rest : List Char) :
    utf8Bytes (c :: rest) = String.utf8EncodeChar c ++ utf8Bytes rest := rfl

theorem utf16Units_cons (c : Char) (rest : List Char) :
    utf16Units (c :: rest) = utf16Char c ++ utf16Units rest := rfl

/-- Every character has a unit. -/
theorem length_le_utf16Units (text : List Char) : text.length ≤ (utf16Units text).length := by
  induction text with
  | nil => exact Nat.le_refl 0
  | cons c rest ih =>
    have one : 1 ≤ (utf16Char c).length := by
      rw [utf16Char]
      split_ifs <;> simp
    rw [utf16Units_cons, List.length_append, List.length_cons]
    omega

/-- The low bits are the UTF-16 form exactly of a text of the basic plane. -/
theorem lowUnits_eq_utf16Units_iff (text : List Char) :
    lowUnits text = utf16Units text ↔ InBasicPlane text := by
  constructor
  · intro same
    have lengths := congrArg List.length same
    rw [lowUnits, List.length_map] at lengths
    clear same
    induction text with
    | nil => simp [InBasicPlane]
    | cons c rest ih =>
      have longer := length_le_utf16Units rest
      rw [utf16Units_cons, utf16Char, List.length_append, List.length_cons] at lengths
      split_ifs at lengths with plane
      · rw [List.length_singleton] at lengths
        exact List.forall_mem_cons.mpr ⟨plane, ih (by omega)⟩
      · rw [List.length_cons, List.length_singleton] at lengths
        omega
  · intro plane
    induction text with
    | nil => rfl
    | cons c rest ih =>
      obtain ⟨first, later⟩ := List.forall_mem_cons.mp plane
      rw [utf16Units_cons, utf16Char, if_pos first, ← ih later]
      rfl

/-- A character of the basic plane from its unit. -/
theorem char_of_low {c : Char} (plane : c.toNat < 0x10000) :
    Char.ofNat (UInt16.ofNat c.toNat).toNat = c := by
  rw [UInt16.toNat_ofNat', Nat.mod_eq_of_lt plane]
  exact Char.ofNat_toNat c

/-- Different texts of the basic plane have different units. -/
theorem lowUnits_inj {first second : List Char} (plane : InBasicPlane first)
    (other : InBasicPlane second) (same : lowUnits first = lowUnits second) : first = second := by
  have decode {text : List Char} (plane : InBasicPlane text) :
      (lowUnits text).map (fun unit => Char.ofNat unit.toNat) = text := by
    rw [lowUnits, List.map_map]
    exact (List.map_congr_left fun c member => char_of_low (plane c member)).trans text.map_id
  rw [← decode plane, same, decode other]

end ZLoader
