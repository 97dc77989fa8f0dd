import Mathlib.Data.Nat.Notation
import Mathlib.Data.Int.Notation
import Mathlib.Tactic.Common

/-! # String routines of the runtime library

`strncmp`, `wcslen` and `mbstowcs` of `efilib/string.c` with `mbtowc` of `efilib/string.h`, on the
characters from a pointer on. Narrow characters are `char`, which is signed on both targets; wide
characters are `char16_t`. A loop without a bound of its own gets a number of turns.
-/

namespace ZLoader

/-- `strncmp`: walk while the characters are equal and not NUL and characters remain. -/
def strncmp (a b : ℕ → UInt8) : ℕ → ℤ
  | 0 => 0
  | length + 1 =>
      if a 0 != 0 && a 0 == b 0 then
        strncmp (fun index => a (index + 1)) (fun index => b (index + 1)) length
      else (a 0).toInt8.toInt - (b 0).toInt8.toInt

/-- The characters of a literal followed by its terminator; what is behind it is never read. -/
def cString (literal : List UInt8) : ℕ → UInt8 := fun index => literal.getD index 0

/-- `wcslen`; `none` when the terminator is not among the characters of so many turns. -/
def wcslen (s : ℕ → UInt16) : ℕ → Option ℕ
  | 0 => none
  | turns + 1 =>
      if s 0 == 0 then some 0
      else (wcslen (fun index => s (index + 1)) turns).map fun length => length + 1

/-- The sequence length that the first byte of a character announces. -/
def mbtowcLength (first : UInt8) : Option ℕ :=
  if first < 0x80 then some 1
  else if first &&& 0xe0 == 0xc0 then some 2
  else if first &&& 0xf0 == 0xe0 then some 3
  else if first &&& 0xf8 == 0xf0 then some 4
  else if first &&& 0xfc == 0xf8 then some 5
  else if first &&& 0xfe == 0xfc then some 6
  else none

/-- The bits of the first byte that belong to the character. -/
def mbtowcFirst (first : UInt8) : ℕ → UInt16
  | 1 => first.toUInt16
  | 2 => (first &&& 0x1f).toUInt16
  | 3 => (first &&& 0x0f).toUInt16
  | 4 => (first &&& 0x07).toUInt16
  | 5 => (first &&& 0x03).toUInt16
  | _ => (first &&& 0x01).toUInt16

/-- The continuation bytes, six bits each; the wide character keeps its low sixteen bits. -/
def mbtowcRest (s : ℕ → UInt8) (unichar : UInt16) : List ℕ → Option UInt16
  | [] => some unichar
  | index :: indices =>
      if s index &&& 0xc0 != 0x80 then none
      else mbtowcRest s ((unichar <<< 6) ||| (s index &&& 0x3f).toUInt16) indices

/-- `mbtowc`: the wide character and the number of bytes it takes, or `none` for a negative
result. -/
def mbtowc (s : ℕ → UInt8) (n : ℕ) : Option (UInt16 × ℕ) :=
  if n == 0 then none
  else
    match mbtowcLength (s 0) with
    | none => none
    | some length =>
        if length > n then none
        else
          (mbtowcRest s (mbtowcFirst (s 0) length) ((List.range length).drop 1)).map
            fun unichar => (unichar, length)

/-- The bytes that the loop of `mbtowc` over the continuations examines. -/
def mbtowcRestReads (s : ℕ → UInt8) : List ℕ → List ℕ
  | [] => []
  | index :: indices =>
      index :: if s index &&& 0xc0 != 0x80 then [] else mbtowcRestReads s indices

/-- The bytes that `mbtowc` examines. -/
def mbtowcReads (s : ℕ → UInt8) (n : ℕ) : List ℕ :=
  if n == 0 then []
  else
    0 :: match mbtowcLength (s 0) with
      | none => []
      | some length =>
          if length > n then [] else mbtowcRestReads s ((List.range length).drop 1)

/-- The loop of `mbstowcs` from index `i` on. Every turn advances the index, so as many turns as
there are bytes are enough. -/
def mbstowcsLoop (src : ℕ → UInt8) (len : ℕ) : ℕ → ℕ → List UInt16
  | 0, _ => []
  | turns + 1, i =>
      if i < len then
        match mbtowc (fun index => src (i + index)) (len - i) with
        | none => mbstowcsLoop src len turns (i + 1)
        | some (unichar, utf8len) => unichar :: mbstowcsLoop src len turns (i + utf8len)
      else []

/-- `mbstowcs`: the characters stored in front of the terminator. -/
def mbstowcs (src : ℕ → UInt8) (len : ℕ) : List UInt16 := mbstowcsLoop src len len 0

/-- The same loop with its destination: `strlen` characters have been stored. -/
def mbstowcsStoreLoop (src : ℕ → UInt8) (len : ℕ) :
    ℕ → ℕ → ℕ → (ℕ → UInt16) → (ℕ → UInt16) × ℕ
  | 0, _, strlen, dest => (dest, strlen)
  | turns + 1, i, strlen, dest =>
      if i < len then
        match mbtowc (fun index => src (i + index)) (len - i) with
        | none => mbstowcsStoreLoop src len turns (i + 1) strlen dest
        | some (unichar, utf8len) =>
            mbstowcsStoreLoop src len turns (i + utf8len) (strlen + 1)
              (Function.update dest strlen unichar)
      else (dest, strlen)

/-- `mbstowcs` with its destination: the destination afterwards and the value returned. -/
def mbstowcsStore (dest : ℕ → UInt16) (src : ℕ → UInt8) (len : ℕ) : (ℕ → UInt16) × ℕ :=
  let (dest, strlen) := mbstowcsStoreLoop src len len 0 0 dest
  (Function.update dest strlen 0, strlen)

section Decoder

variable {first second : ℕ → UInt8}

theorem mbtowcRest_congr {unichar : UInt16} {indices : List ℕ}
    (same : ∀ index ∈ indices, first index = second index) :
    mbtowcRest first unichar indices = mbtowcRest second unichar indices := by
  induction indices generalizing unichar with
  | nil => rfl
  | cons index rest ih =>
    have head := same index List.mem_cons_self
    simp only [mbtowcRest, head]
    split_ifs
    · rfl
    · exact ih fun later member => same later (List.mem_cons_of_mem _ member)

theorem mbtowc_congr {n : ℕ} (same : ∀ index < n, first index = second index) :
    mbtowc first n = mbtowc second n := by
  rw [mbtowc, mbtowc]
  split_ifs with empty
  · rfl
  · have positive : 0 < n := Nat.pos_of_ne_zero (by simpa using empty)
    rw [same 0 positive]
    split
    · rfl
    · next length announced =>
      split_ifs with long
      · rfl
      · congr 1
        apply mbtowcRest_congr
        intro index member
        have bound := List.mem_range.mp (List.mem_of_mem_drop member)
        exact same index (Nat.lt_of_lt_of_le bound (Nat.not_lt.mp long))

/-- All bytes of a character behind its first one are continuations. -/
theorem mbtowcRest_continues {s : ℕ → UInt8} {unichar result : UInt16} {indices : List ℕ}
    (decoded : mbtowcRest s unichar indices = some result) :
    ∀ index ∈ indices, s index &&& 0xc0 = 0x80 := by
  induction indices generalizing unichar with
  | nil => simp
  | cons index rest ih =>
    rw [mbtowcRest] at decoded
    split_ifs at decoded with other
    rw [List.forall_mem_cons]
    exact ⟨by simpa using other, ih decoded⟩

/-- A decoded character: its length was announced and fits, and its bytes continue it. -/
theorem mbtowc_eq_some {s : ℕ → UInt8} {n length : ℕ} {unichar : UInt16}
    (decoded : mbtowc s n = some (unichar, length)) :
    mbtowcLength (s 0) = some length ∧ length ≤ n ∧
      mbtowcRest s (mbtowcFirst (s 0) length) ((List.range length).drop 1) = some unichar := by
  rw [mbtowc] at decoded
  split_ifs at decoded
  cases announced : mbtowcLength (s 0) with
  | none =>
    rw [announced] at decoded
    cases decoded
  | some found =>
    simp only [announced] at decoded
    split_ifs at decoded with long
    obtain ⟨result, rest, same⟩ := Option.map_eq_some_iff.mp decoded
    cases same
    exact ⟨rfl, Nat.not_lt.mp long, rest⟩

end Decoder

/-- The length a first byte announces; zero and the continuations announce one and none. -/
theorem mbtowcLength_bounds {first : UInt8} {length : ℕ}
    (announced : mbtowcLength first = some length) : 1 ≤ length ∧ length ≤ 6 := by
  rw [mbtowcLength] at announced
  split_ifs at announced <;> cases announced <;> decide

theorem mbtowcLength_zero : mbtowcLength 0 = some 1 := rfl

theorem mbtowcLength_continuation {byte : UInt8} (continues : byte &&& 0xc0 = 0x80) :
    mbtowcLength byte = none := by
  have all : ∀ bits : BitVec 8, UInt8.ofBitVec bits &&& 0xc0 = 0x80 →
      mbtowcLength (UInt8.ofBitVec bits) = none := by decide +kernel
  exact all byte.toBitVec continues

end ZLoader
