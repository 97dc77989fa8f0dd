import Mathlib.Data.List.GetD
import ZLoader.Foundation.ByteList
import ZLoader.Foundation.Unicode
import ZLoader.Model.Lib.String

/-! # The conversion of the embedded command line

`mbtowc` reads the four kinds of UTF-8 sequences right, but keeps the character in sixteen bits, so
`mbstowcs` stores one unit for every character: the low bits of its code point. For text of the
basic plane these are its UTF-16 form.
-/

namespace ZLoader

/-! ## One character -/

/-- Six more bits of a character. -/
theorem shift_or_ofNat (high : ℕ) {low : ℕ} (small : low < 64) :
    (UInt16.ofNat high <<< 6) ||| UInt16.ofNat low = UInt16.ofNat (high * 64 + low) := by
  apply UInt16.toNat_inj.mp
  have shifted : (UInt16.ofNat high <<< 6).toNat = 2 ^ 6 * (high % 2 ^ 10) := by
    rw [UInt16.toNat_shiftLeft, UInt16.toNat_ofNat', Nat.shiftLeft_eq]
    change high % 65536 * 2 ^ 6 % 65536 = _
    omega
  rw [UInt16.toNat_or, shifted, UInt16.toNat_ofNat', UInt16.toNat_ofNat',
    Nat.mod_eq_of_lt (by omega : low < 2 ^ 16), ← Nat.two_pow_add_eq_or_of_lt small]
  omega

/-- A continuation byte carries six bits. -/
theorem continuation_bits {low : ℕ} (small : low < 64) :
    UInt8.ofNat (low + 0x80) &&& 0xc0 = 0x80 ∧
      (UInt8.ofNat (low + 0x80) &&& 0x3f).toUInt16 = UInt16.ofNat low := by
  have all : ∀ low : Fin 64, UInt8.ofNat (low + 0x80) &&& 0xc0 = 0x80 ∧
      (UInt8.ofNat (low + 0x80) &&& 0x3f).toUInt16 = UInt16.ofNat low := by decide
  exact all ⟨low, small⟩

/-- The kinds of sequences: the length, the mark of the first byte and how many values it carries. -/
def sequenceKinds : List (ℕ × ℕ × ℕ) := [(1, 0, 128), (2, 0xc0, 32), (3, 0xe0, 16), (4, 0xf0, 8)]

/-- The first byte tells the length and carries the first bits. -/
theorem lead_bits {length mark limit bits : ℕ} (member : (length, mark, limit) ∈ sequenceKinds)
    (small : bits < limit) :
    mbtowcLength (UInt8.ofNat (bits + mark)) = some length ∧
      mbtowcFirst (UInt8.ofNat (bits + mark)) length = UInt16.ofNat bits := by
  have all : ∀ kind ∈ sequenceKinds, kind.2.2 ≤ 128 ∧ ∀ bits : Fin 128, bits < kind.2.2 →
      mbtowcLength (UInt8.ofNat (bits + kind.2.1)) = some kind.1 ∧
        mbtowcFirst (UInt8.ofNat (bits + kind.2.1)) kind.1 = UInt16.ofNat bits := by
    decide +kernel
  obtain ⟨most, carried⟩ := all _ member
  exact carried ⟨bits, Nat.lt_of_lt_of_le small most⟩ small

section Character

variable {s : ℕ → UInt8}

/-- A continuation byte is shifted in. -/
theorem mbtowcRest_continuation {high low index : ℕ} {rest : List ℕ} (small : low < 64)
    (held : s index = UInt8.ofNat (low + 0x80)) :
    mbtowcRest s (UInt16.ofNat high) (index :: rest) =
      mbtowcRest s (UInt16.ofNat (high * 64 + low)) rest := by
  obtain ⟨mark, bits⟩ := continuation_bits small
  rw [mbtowcRest, held, mark, bits, shift_or_ofNat high small]
  rfl

/-- A sequence whose first byte is known. -/
theorem mbtowc_of_lead {n length mark limit bits : ℕ}
    (member : (length, mark, limit) ∈ sequenceKinds) (small : bits < limit)
    (first : s 0 = UInt8.ofNat (bits + mark)) (fits : length ≤ n) :
    mbtowc s n = (mbtowcRest s (UInt16.ofNat bits) ((List.range length).drop 1)).map
      fun unichar => (unichar, length) := by
  obtain ⟨announced, carried⟩ := lead_bits member small
  rw [← first] at announced carried
  have positive := (mbtowcLength_bounds announced).1
  have some_ : ¬ (n == 0) = true := by
    rw [beq_iff_eq]
    omega
  rw [mbtowc, if_neg some_, announced]
  dsimp only
  rw [if_neg (Nat.not_lt.mpr fits), carried]

/-- `mbtowc` on the UTF-8 form of a character takes all of it and keeps the low sixteen bits. -/
theorem mbtowc_utf8Char (c : Char) {n : ℕ} (fits : (String.utf8EncodeChar c).length ≤ n)
    (held : ∀ index < (String.utf8EncodeChar c).length,
      s index = (String.utf8EncodeChar c).getD index 0) :
    mbtowc s n = some (UInt16.ofNat c.toNat, (String.utf8EncodeChar c).length) := by
  have limit : c.toNat < 0x110000 := by
    rcases c.valid with low | ⟨-, high⟩
    · exact Nat.lt_trans low (by decide)
    · exact high
  have code : c.val.toNat = c.toNat := rfl
  rw [String.utf8EncodeChar] at fits held ⊢
  simp only [code] at fits held ⊢
  split_ifs at fits held ⊢ with one two three
  · have first : s 0 = UInt8.ofNat (c.toNat + 0) := held 0 (by simp)
    have kind : (1, 0, 128) ∈ sequenceKinds := by decide
    rw [mbtowc_of_lead kind (by omega) first fits]
    rfl
  · have first : s 0 = UInt8.ofNat (c.toNat / 64 % 0x20 + 0xc0) := held 0 (by simp)
    have second : s 1 = UInt8.ofNat (c.toNat % 0x40 + 0x80) := held 1 (by simp)
    have kind : (2, 0xc0, 32) ∈ sequenceKinds := by decide
    rw [mbtowc_of_lead kind (by omega) first fits]
    change (mbtowcRest s _ [1]).map _ = _
    rw [mbtowcRest_continuation (by omega) second]
    have whole : c.toNat / 64 % 0x20 * 64 + c.toNat % 0x40 = c.toNat := by omega
    rw [whole]
    rfl
  · have first : s 0 = UInt8.ofNat (c.toNat / 4096 % 0x10 + 0xe0) := held 0 (by simp)
    have second : s 1 = UInt8.ofNat (c.toNat / 64 % 0x40 + 0x80) := held 1 (by simp)
    have third : s 2 = UInt8.ofNat (c.toNat % 0x40 + 0x80) := held 2 (by simp)
    have kind : (3, 0xe0, 16) ∈ sequenceKinds := by decide
    rw [mbtowc_of_lead kind (by omega) first fits]
    change (mbtowcRest s _ [1, 2]).map _ = _
    rw [mbtowcRest_continuation (by omega) second, mbtowcRest_continuation (by omega) third]
    have whole : (c.toNat / 4096 % 0x10 * 64 + c.toNat / 64 % 0x40) * 64 + c.toNat % 0x40 =
        c.toNat := by omega
    rw [whole]
    rfl
  · have first : s 0 = UInt8.ofNat (c.toNat / 262144 % 0x08 + 0xf0) := held 0 (by simp)
    have second : s 1 = UInt8.ofNat (c.toNat / 4096 % 0x40 + 0x80) := held 1 (by simp)
    have third : s 2 = UInt8.ofNat (c.toNat / 64 % 0x40 + 0x80) := held 2 (by simp)
    have fourth : s 3 = UInt8.ofNat (c.toNat % 0x40 + 0x80) := held 3 (by simp)
    have kind : (4, 0xf0, 8) ∈ sequenceKinds := by decide
    rw [mbtowc_of_lead kind (by omega) first fits]
    change (mbtowcRest s _ [1, 2, 3]).map _ = _
    rw [mbtowcRest_continuation (by omega) second, mbtowcRest_continuation (by omega) third,
      mbtowcRest_continuation (by omega) fourth]
    have whole : ((c.toNat / 262144 % 0x08 * 64 + c.toNat / 4096 % 0x40) * 64 +
        c.toNat / 64 % 0x40) * 64 + c.toNat % 0x40 = c.toNat := by omega
    rw [whole]
    rfl

end Character

/-! ## The whole string -/

/-- `mbstowcs` over the UTF-8 form of a text stores one unit a character. -/
theorem mbstowcsLoop_utf8 {src : ℕ → UInt8} {text : List Char} {turns i len : ℕ}
    (ends : len = i + (utf8Bytes text).length) (enough : (utf8Bytes text).length ≤ turns)
    (held : ∀ index < (utf8Bytes text).length, src (i + index) = (utf8Bytes text).getD index 0) :
    mbstowcsLoop src len turns i = lowUnits text := by
  induction text generalizing turns i with
  | nil =>
    have finished : ¬ i < len := by
      rw [ends]
      exact Nat.lt_irrefl i
    cases turns with
    | zero => rfl
    | succ turns => rw [mbstowcsLoop, if_neg finished, lowUnits, List.map_nil]
  | cons c rest ih =>
    rw [utf8Bytes_cons, List.length_append] at ends enough
    have positive : 0 < (String.utf8EncodeChar c).length := by
      rw [String.length_utf8EncodeChar]
      exact c.utf8Size_pos
    obtain ⟨turns, rfl⟩ := Nat.exists_eq_add_of_le' (Nat.le_trans positive
      (Nat.le_trans (Nat.le_add_right _ _) enough))
    have head : mbtowc (fun index => src (i + index)) (len - i) = some _ :=
      mbtowc_utf8Char c (by omega) fun index bound => by
        rw [held index (by rw [utf8Bytes_cons, List.length_append]; omega), utf8Bytes_cons,
          List.getD_append _ _ _ _ bound]
    have tail := @ih turns (i + (String.utf8EncodeChar c).length) (by omega) (by omega)
      fun index bound => by
        rw [Nat.add_assoc, held _ (by rw [utf8Bytes_cons, List.length_append]; omega),
          utf8Bytes_cons, List.getD_append_right _ _ _ _ (Nat.le_add_right _ _),
          Nat.add_sub_cancel_left]
    rw [mbstowcsLoop, if_pos (by omega), head]
    dsimp only
    rw [tail]
    rfl

/-- One more unit at the end of what has been stored. -/
theorem map_range_update (dest : ℕ → UInt16) (strlen : ℕ) (unit : UInt16) :
    (List.range (strlen + 1)).map (Function.update dest strlen unit) =
      (List.range strlen).map dest ++ [unit] := by
  rw [List.range_succ, List.map_append, List.map_singleton, Function.update_self]
  congr 1
  apply List.map_congr_left
  intro index member
  exact Function.update_of_ne (Nat.ne_of_lt (List.mem_range.mp member)) unit dest

/-- What the loop leaves in its destination is what it stored, behind what was there. -/
theorem mbstowcsStoreLoop_eq (src : ℕ → UInt8) (len turns i strlen : ℕ) (dest : ℕ → UInt16) :
    let stored := mbstowcsStoreLoop src len turns i strlen dest
    stored.2 = strlen + (mbstowcsLoop src len turns i).length ∧
      (List.range stored.2).map stored.1 =
        (List.range strlen).map dest ++ mbstowcsLoop src len turns i := by
  induction turns generalizing i strlen dest with
  | zero => exact ⟨rfl, (List.append_nil _).symm⟩
  | succ turns ih =>
    rw [mbstowcsStoreLoop, mbstowcsLoop]
    split_ifs with more
    · cases mbtowc (fun index => src (i + index)) (len - i) with
      | none => exact ih (i + 1) strlen dest
      | some decoded =>
        obtain ⟨unichar, utf8len⟩ := decoded
        obtain ⟨count, units⟩ := ih (i + utf8len) (strlen + 1) (Function.update dest strlen unichar)
        refine ⟨?_, ?_⟩
        · rw [count, List.length_cons]
          omega
        · rw [units, map_range_update, List.append_assoc]
          rfl
    · exact ⟨rfl, (List.append_nil _).symm⟩

/-- `mbstowcs` stores its characters and a terminator and returns their number. -/
theorem mbstowcsStore_eq (dest : ℕ → UInt16) (src : ℕ → UInt8) (len : ℕ) :
    let stored := mbstowcsStore dest src len
    stored.2 = (mbstowcs src len).length ∧
      (List.range (stored.2 + 1)).map stored.1 = mbstowcs src len ++ [0] := by
  obtain ⟨count, units⟩ := mbstowcsStoreLoop_eq src len len 0 0 dest
  refine ⟨count.trans (Nat.zero_add _), ?_⟩
  dsimp only [mbstowcsStore]
  rw [map_range_update, units]
  rfl

/-- On the UTF-8 form of a text these are the low units of its characters. -/
theorem mbstowcs_utf8 (text : List Char) (behind : ByteStore) :
    mbstowcs (ByteStore.ofList (utf8Bytes text) behind) (utf8Bytes text).length = lowUnits text := by
  apply mbstowcsLoop_utf8 (Nat.zero_add _).symm (Nat.le_refl _)
  intro index bound
  rw [Nat.zero_add]
  change (utf8Bytes text).getD index _ = _
  rw [List.getD_eq_getElem _ _ bound, List.getD_eq_getElem _ _ bound]

/-- `mbstowcs` on the UTF-8 form of the text, whatever stands behind it and in the destination,
stores the UTF-16 form and a NUL, and returns the number of units in front of it. -/
def ConvertsText (text : List Char) : Prop :=
  ∀ (dest : ℕ → UInt16) (behind : ByteStore),
    let stored := mbstowcsStore dest (ByteStore.ofList (utf8Bytes text) behind) (utf8Bytes text).length
    stored.2 = (utf16Units text).length ∧
      (List.range (stored.2 + 1)).map stored.1 = utf16Units text ++ [0]

/-- Both command lines are converted to UTF-16, and to different strings unless they are the
same. -/
structure ConvertsUtf8 (first second : List Char) : Prop where
  one : ConvertsText first
  other : ConvertsText second
  distinct : first ≠ second → ∀ behind behind',
    mbstowcs (ByteStore.ofList (utf8Bytes first) behind) (utf8Bytes first).length ≠
      mbstowcs (ByteStore.ofList (utf8Bytes second) behind') (utf8Bytes second).length

/-- A text is converted exactly if it has no character beyond the basic plane. -/
theorem convertsText_iff (text : List Char) : ConvertsText text ↔ InBasicPlane text := by
  rw [← lowUnits_eq_utf16Units_iff]
  constructor
  · intro converts
    obtain ⟨-, units⟩ := converts (fun _ => 0) fun _ => 0
    rw [(mbstowcsStore_eq _ _ _).2, mbstowcs_utf8] at units
    exact List.append_cancel_right units
  · intro same dest behind
    obtain ⟨count, units⟩ := mbstowcsStore_eq dest (ByteStore.ofList (utf8Bytes text) behind)
      (utf8Bytes text).length
    rw [mbstowcs_utf8, same] at count units
    exact ⟨count, units⟩

/-- Two command lines are converted, and told apart, exactly if neither has a character beyond the
basic plane. -/
theorem convertsUtf8_iff (first second : List Char) :
    ConvertsUtf8 first second ↔ InBasicPlane first ∧ InBasicPlane second := by
  constructor
  · intro converts
    exact ⟨(convertsText_iff first).mp converts.one, (convertsText_iff second).mp converts.other⟩
  · rintro ⟨plane, other⟩
    refine ⟨(convertsText_iff first).mpr plane, (convertsText_iff second).mpr other, ?_⟩
    intro differ behind behind' same
    rw [mbstowcs_utf8, mbstowcs_utf8] at same
    exact differ (lowUnits_inj plane other same)

/-- U+10041 and the letter A are converted to the same string. -/
theorem not_convertsUtf8_letter : ¬ ConvertsUtf8 [Char.ofNat 0x10041] ['A'] := by
  intro converts
  apply converts.distinct (by decide) (fun _ => 0) (fun _ => 0)
  decide

end ZLoader
