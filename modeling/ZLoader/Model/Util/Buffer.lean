import Mathlib.Data.Nat.Notation
import Mathlib.Tactic.SplitIfs
import ZLoader.Model.Efi.Status

/-! # Buffers of `util.h`

`struct simple_buffer` and `struct aligned_buffer` without the bytes they point to: the accessors
`buffer_pos` and `buffer_len` only use the bookkeeping fields, and their assertions end the
program unless the build removes them.
-/

namespace ZLoader

/-- `PAGE_SIZE`. -/
def pageSize : UInt64 := 0x1000

/-- `ALIGN_VALUE(v, a)` on machine words. -/
def alignValue (v a : UInt64) : UInt64 := v + ((a - v) &&& (a - 1))

/-- The release function stored in a buffer. -/
inductive FreeFunction where
  | freeSimpleBuffer
  | freeAlignedBuffer
deriving DecidableEq, Repr

/-- `struct simple_buffer`; `free = none` is the NULL function pointer. -/
structure SimpleBuffer where
  buffer : UInt64
  length : UInt64
  pos : UInt64
  allocated : UInt64
  free : Option FreeFunction
deriving DecidableEq, Repr, Inhabited

/-- `buffer_pos`: the address of the cursor. -/
def bufferPos (build : Build) (buffer : SimpleBuffer) : Outcome UInt64 :=
  build.assert .bufferAccessor (buffer.buffer != 0) <|
    build.assert .bufferAccessor (buffer.pos < buffer.allocated) <| .ok (buffer.buffer + buffer.pos)

/-- `buffer_len`: the number of bytes from the cursor to the end of the data. -/
def bufferLen (build : Build) (buffer : SimpleBuffer) : Outcome UInt64 :=
  build.assert .bufferAccessor (buffer.buffer != 0) <|
    build.assert .bufferAccessor (buffer.pos < buffer.length) <| .ok (buffer.length - buffer.pos)

/-- The cursor accessor returns the cursor or ends the program. -/
theorem bufferPos_cases (build : Build) (buffer : SimpleBuffer) :
    bufferPos build buffer = .ok (buffer.buffer + buffer.pos) ∨
      bufferPos build buffer = .assertionFailed .bufferAccessor := by
  unfold bufferPos Build.assert
  split_ifs <;> simp

/-- The length accessor returns the remaining length or ends the program. -/
theorem bufferLen_cases (build : Build) (buffer : SimpleBuffer) :
    bufferLen build buffer = .ok (buffer.length - buffer.pos) ∨
      bufferLen build buffer = .assertionFailed .bufferAccessor := by
  unfold bufferLen Build.assert
  split_ifs <;> simp

/-- Before the end of the memory the cursor accessor returns. -/
theorem bufferPos_of_lt (build : Build) {buffer : SimpleBuffer} (nonnull : buffer.buffer ≠ 0)
    (room : buffer.pos < buffer.allocated) :
    bufferPos build buffer = .ok (buffer.buffer + buffer.pos) := by
  simp [bufferPos, Build.assert, nonnull, room]

/-- At the end of the memory its assertion fails. -/
theorem bufferPos_of_not_lt {build : Build} (asserts : build.ndebug = false) {buffer : SimpleBuffer}
    (full : ¬ buffer.pos < buffer.allocated) :
    bufferPos build buffer = .assertionFailed .bufferAccessor := by
  simp [bufferPos, Build.assert, full, asserts]

/-- Without assertions it always returns. -/
theorem bufferPos_of_ndebug {build : Build} (quiet : build.ndebug = true) (buffer : SimpleBuffer) :
    bufferPos build buffer = .ok (buffer.buffer + buffer.pos) := by
  simp [bufferPos, Build.assert, quiet]

/-- Before the end of the data the length accessor returns. -/
theorem bufferLen_of_lt (build : Build) {buffer : SimpleBuffer} (nonnull : buffer.buffer ≠ 0)
    (more : buffer.pos < buffer.length) :
    bufferLen build buffer = .ok (buffer.length - buffer.pos) := by
  simp [bufferLen, Build.assert, nonnull, more]

/-- For a NULL buffer or at the end of the data its assertions fail. -/
theorem bufferLen_of_not_lt {build : Build} (asserts : build.ndebug = false) {buffer : SimpleBuffer}
    (nothing : ¬ (buffer.buffer ≠ 0 ∧ buffer.pos < buffer.length)) :
    bufferLen build buffer = .assertionFailed .bufferAccessor := by
  by_cases null : buffer.buffer = 0
  · simp [bufferLen, Build.assert, asserts, null]
  · have finished : ¬ buffer.pos < buffer.length := fun more => nothing ⟨null, more⟩
    simp [bufferLen, Build.assert, asserts, finished]

/-- Without assertions it always returns. -/
theorem bufferLen_of_ndebug {build : Build} (quiet : build.ndebug = true) (buffer : SimpleBuffer) :
    bufferLen build buffer = .ok (buffer.length - buffer.pos) := by
  simp [bufferLen, Build.assert, quiet]

theorem bufferLen_ok {build : Build} {buffer : SimpleBuffer} {length : UInt64}
    (known : bufferLen build buffer = .ok length) : length = buffer.length - buffer.pos := by
  rcases bufferLen_cases build buffer with same | aborted
  · exact Outcome.ok.inj (known.symm.trans same)
  · cases known.symm.trans aborted

/-- `struct aligned_buffer`, as far as the image loader reads it. -/
structure AlignedBuffer where
  buffer : UInt64
  allocated : UInt64
  raw : UInt64
  pages : UInt64
deriving DecidableEq, Repr

/-- `allocate_aligned_buffer_ext` on a zeroed buffer. The firmware's answer to `allocate_pages`
is the address of the pages, or `none` when it reports a failure. -/
def allocateAlignedBufferExt (allocatePages : Option UInt64) (length alignment : UInt64) :
    AlignedBuffer :=
  match allocatePages with
  | none => ⟨0, 0, 0, 0⟩
  | some raw =>
      let buffer := alignValue raw alignment
      { buffer := buffer
        allocated := alignValue (length + alignment) alignment - (buffer - raw)
        raw := raw
        pages := alignValue (length + alignment) alignment / pageSize }

end ZLoader
