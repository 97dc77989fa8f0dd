import ZLoader.Model.Lib.Print

/-! # Lockdown

`get_dirname` of `lockdown.c` with its loops: the `do` loop of `wcschr`, which `get_dirname` calls
behind every match, and the loop of `wcsncpy`. Indices count the units from `path` and from the
memory that `malloc` returned.
-/

namespace ZLoader

/-- The loop that runs: a turn of `wcschr` at an index, or a turn of `wcsncpy` with the units that
are left to copy and the index it has come to. -/
inductive DirnameControl where
  | searching (str : ℕ)
  | copying (n index : ℕ)
  | returned
  | failed
deriving DecidableEq, Repr

/-- `get_dirname`: `last_pos`, the bytes of the allocation, the memory behind `dir`, and the units of
`path` read and of `dir` stored so far. -/
structure DirnameState where
  control : DirnameControl
  lastPos : ℕ
  allocated : ℕ
  dir : ℕ → UInt16
  reads : List ℕ
  stores : List ℕ

/-- A store into `dir`. -/
def DirnameState.store (st : DirnameState) (index : ℕ) (c : UInt16) : DirnameState :=
  { st with dir := Function.update st.dir index c, stores := index :: st.stores }

/-- The end of the `for` loop: the allocation of `len + 1` bytes. -/
def dirnameAllocate (malloc : ℕ → Bool) (st : DirnameState) : DirnameState :=
  let len := st.lastPos
  if malloc (len + 1) then { st with control := .copying len 0, allocated := len + 1 }
  else { st with control := .failed }

/-- A turn of `wcschr`. A match is the next `last_pos`, and the next call starts behind it. -/
def searchingTurn (path : ℕ → UInt16) (malloc : ℕ → Bool) (st : DirnameState) (str : ℕ) :
    DirnameState :=
  if path str == wide '\\' then
    { st with control := .searching (str + 1), lastPos := str, reads := str :: st.reads }
  else
    let st := { st with reads := (str + 1) :: str :: st.reads }
    if path (str + 1) != 0 then { st with control := .searching (str + 1) }
    else dirnameAllocate malloc st

/-- A turn of `wcsncpy`, and the terminator stored behind its last one. -/
def copyingTurn (path : ℕ → UInt16) (st : DirnameState) (n index : ℕ) : DirnameState :=
  if n = 0 then { st.store index 0 with control := .returned }
  else
    let st := { st with reads := index :: st.reads }
    if path index != 0 then
      { st.store index (path index) with control := .copying (n - 1) (index + 1) }
    else { st.store index 0 with control := .returned }

/-- `get_dirname`, one turn after another. -/
def dirnameTurn (path : ℕ → UInt16) (malloc : ℕ → Bool) (st : DirnameState) :
    Option DirnameState :=
  match st.control with
  | .searching str => some (searchingTurn path malloc st str)
  | .copying n index => some (copyingTurn path st n index)
  | .returned | .failed => none

/-- The first turn of the `for` loop takes `path` for a match. -/
def dirnameStart (dir : ℕ → UInt16) : DirnameState :=
  { control := .searching 1
    lastPos := 0
    allocated := 0
    dir := dir
    reads := []
    stores := [] }

end ZLoader
