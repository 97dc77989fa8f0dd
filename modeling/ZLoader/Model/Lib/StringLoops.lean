import Mathlib.Data.Int.Order.Basic
import Mathlib.Data.Nat.Notation

/-! # Comparing and searching strings

The loops of `efilib/string.c` and `efilib/string.h` that walk over strings without a bound of their
own, one turn after another. Indices count from the pointers that are passed, and the indices read
are kept backwards. Narrow characters are `char`, which is signed on both targets.
-/

namespace ZLoader

/-! ## Comparisons -/

/-- A comparison: how far both pointers have moved, what is left of `length`, the indices read of
either string, and the value returned. -/
structure CompareState where
  index : ℕ
  length : ℕ
  readsA : List ℕ
  readsB : List ℕ
  result : Option ℤ
deriving DecidableEq, Repr

namespace CompareState

variable (st : CompareState)

/-- `*a`. -/
def readA : CompareState := { st with readsA := st.index :: st.readsA }

/-- `*b`. -/
def readB : CompareState := { st with readsB := st.index :: st.readsB }

/-- `a++` and `b++`. -/
def advance : CompareState := { st with index := st.index + 1 }

def returned (result : ℤ) : CompareState := { st with result := some result }

end CompareState

/-- `*a - *b` of two `char`s. -/
def charDifference (a b : UInt8) : ℤ := a.toInt8.toInt - b.toInt8.toInt

/-- Both pointers at their strings; `length` for `strncmp`. -/
def compareStart (length : ℕ) : CompareState := ⟨0, length, [], [], none⟩

section Compare

variable (a b : ℕ → UInt8)

/-- `strcmp`: where `a` has ended, `b` is read for the difference. -/
def strcmpTurn (st : CompareState) : Option CompareState :=
  match st.result with
  | some _ => none
  | none =>
      let read := st.readA.readB
      some <|
        if a st.index != 0 && a st.index == b st.index then read.advance
        else read.returned (charDifference (a st.index) (b st.index))

/-- `strncmp`: `length` is looked at behind the characters. The comparison inside of the loop repeats
the one in its condition. -/
def strncmpTurn (st : CompareState) : Option CompareState :=
  match st.result with
  | some _ => none
  | none =>
      let read := if a st.index != 0 then st.readA.readB else st.readA
      some <|
        if a st.index != 0 && a st.index == b st.index && st.length != 0 then
          { read.advance with length := st.length - 1 }
        else if st.length == 0 then read.returned 0
        else st.readA.readB.returned (charDifference (a st.index) (b st.index))

end Compare

/-- `wcscmp`: the next characters are read behind a comparison, `b` where `a` goes on. -/
def wcscmpTurn (a b : ℕ → UInt16) (st : CompareState) : Option CompareState :=
  match st.result with
  | some _ => none
  | none =>
      let ret : ℤ := (a st.index).toNat - (b st.index).toNat
      let read := st.readA.readB
      some <|
        if ret != 0 then read.returned ((if 0 < ret then 1 else 0) - (if ret < 0 then 1 else 0))
        else
          let next := read.advance.readA
          if a next.index != 0 then
            if b next.index != 0 then next.readB else next.readB.returned 0
          else next.returned 0

/-! ## Searches -/

/-- `found` is the index returned, or none for `NULL`. -/
inductive SearchControl where
  | searching
  | returned (found : Option ℕ)
deriving DecidableEq, Repr

/-- A search: how far `str` has moved and the indices read. -/
structure SearchState where
  index : ℕ
  reads : List ℕ
  control : SearchControl
deriving DecidableEq, Repr

def searchStart : SearchState := ⟨0, [], .searching⟩

/-- A turn of a search: whether the character at an index is the needle, whether the string goes on
there, and what is returned for the index behind the loop. -/
def searchTurn (isNeedle goesOn : ℕ → Bool) (behind : ℕ → Option ℕ) (st : SearchState) :
    Option SearchState :=
  match st.control with
  | .returned _ => none
  | .searching =>
      let str := st.index
      some <|
        if isNeedle str then ⟨str, str :: st.reads, .returned (some str)⟩
        else
          let reads := (str + 1) :: str :: st.reads
          if goesOn (str + 1) then ⟨str + 1, reads, .searching⟩
          else ⟨str + 1, reads, .returned (behind (str + 1))⟩

section Narrow

variable (str : ℕ → UInt8) (needle : Int32)

/-- `strchr`. The needle is an `int`. -/
def strchrTurn : SearchState → Option SearchState :=
  searchTurn (fun index => (str index).toInt8.toInt32 == needle) (fun index => str index != 0)
    fun _ => none

/-- `strchrnul`, which returns `str - 1`. -/
def strchrnulTurn : SearchState → Option SearchState :=
  searchTurn (fun index => (str index).toInt8.toInt32 == needle) (fun index => str index != 0)
    fun index => some (index - 1)

end Narrow

section Wide

variable (str : ℕ → UInt16) (needle : UInt16)

/-- `wcschr`. -/
def wcschrTurn : SearchState → Option SearchState :=
  searchTurn (fun index => str index == needle) (fun index => str index != 0) fun _ => none

/-- `wcschrnul`, which returns `str - 1`. -/
def wcschrnulTurn : SearchState → Option SearchState :=
  searchTurn (fun index => str index == needle) (fun index => str index != 0)
    fun index => some (index - 1)

end Wide

end ZLoader
