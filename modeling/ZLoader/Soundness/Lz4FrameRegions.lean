import ZLoader.Foundation.MemoryRegions
import ZLoader.Model.Lib.Lz4Frame

/-! # The memory of the LZ4 frame decoder

A call of the frame decoder works on its input and output, on the header array of the context and
on the two buffers that the context has allocated. What it has taken from the input and given to
the output is the same whatever it does to the buffers of the context.
-/

namespace ZLoader

/-- The input and the output of a call, and what belongs to the context. -/
inductive Lz4fRegion where
  | src
  | dst
  | header
  | tmpIn
  | tmpOut
deriving DecidableEq, Repr

/-- What belongs to a context; `room` is the size of the buffer `tmpIn`. -/
structure Lz4fBuffers where
  header : ℕ
  tmpIn : ℕ
  room : ℕ
  tmpOutBuffer : ℕ
  maxBufferSize : ℕ
deriving DecidableEq, Repr

namespace Lz4fBuffers

def window (bufs : Lz4fBuffers) (call : Lz4fCall) : Lz4fRegion → Window
  | .src => ⟨call.srcBuffer, call.srcSize⟩
  | .dst => ⟨call.dstBuffer, call.dstSize⟩
  | .header => ⟨bufs.header, 19⟩
  | .tmpIn => ⟨bufs.tmpIn, bufs.room⟩
  | .tmpOut => ⟨bufs.tmpOutBuffer, bufs.maxBufferSize⟩

/-- Either there are no buffers, or both are large enough for some size of blocks. -/
inductive Allocated (bufs : Lz4fBuffers) : Prop where
  | none (room : bufs.room = 0) (size : bufs.maxBufferSize = 0)
  | some (id : ℕ) (four : 4 ≤ id) (eight : id < 8) (room : bufs.room = 2 ^ (8 + 2 * id) + 4)
      (size : bufs.maxBufferSize = 2 ^ (8 + 2 * id) ∨
        bufs.maxBufferSize = 2 ^ (8 + 2 * id) + 131072)
      (low : 65536 ≤ bufs.tmpOutBuffer) (nonnull : bufs.tmpIn ≠ 0)
      (high : bufs.tmpOutBuffer + bufs.maxBufferSize + 2 ^ 33 ≤ 2 ^ 64)
      (highIn : bufs.tmpIn + bufs.room + 2 ^ 33 ≤ 2 ^ 64)

end Lz4fBuffers

/-- The header, and the buffers once they are used. -/
def Lz4fRegion.Readable (tmp : Bool) (r : Lz4fRegion) : Prop :=
  tmp = true ∨ r ≠ .tmpIn ∧ r ≠ .tmpOut

def Lz4fRegion.Writable (tmp : Bool) (r : Lz4fRegion) : Prop := r.Readable tmp ∧ r ≠ .src

/-- The input and the output of a call stand apart from each other and from what belongs to the
context, and none of them at the ends of the address space. There is a gap between the buffer of the
context and an output behind it. Buffers of some size are among `ours`. -/
structure Lz4fCall.Places (call : Lz4fCall) (ours : Lz4fBuffers → Prop) (bufs : Lz4fBuffers) :
    Prop where
  apart : RegionsApart (bufs.window call)
  gap : bufs.maxBufferSize ≠ 0 → call.dstBuffer + call.dstSize ≤ bufs.tmpOutBuffer ∨
    bufs.tmpOutBuffer + bufs.maxBufferSize < call.dstBuffer
  dest : call.dstBuffer = 0 ∧ call.dstSize = 0 ∨ 65536 ≤ call.dstBuffer
  source : call.srcSize ≠ 0 → call.srcBuffer ≠ 0
  highSrc : call.srcEnd + 2 ^ 33 ≤ 2 ^ 64
  highDst : call.dstBuffer + call.dstSize + 2 ^ 33 ≤ 2 ^ 64
  allocated : bufs.Allocated
  owned : bufs.maxBufferSize ≠ 0 → ours bufs

/-- The buffers of the context. -/
structure Lz4fDctx.Owns (dctx : Lz4fDctx) (bufs : Lz4fBuffers) : Prop where
  header : dctx.header = bufs.header
  tmpIn : dctx.tmpIn = bufs.tmpIn
  tmpOutBuffer : dctx.tmpOutBuffer = bufs.tmpOutBuffer
  maxBufferSize : dctx.maxBufferSize = bufs.maxBufferSize

section Regions

variable {call : Lz4fCall} {ours : Lz4fBuffers → Prop} {bufs : Lz4fBuffers}
  {memory : ByteStore} {tmp : Bool}

theorem Lz4fCall.Places.dstEnd (places : call.Places ours bufs) :
    call.dstEnd = call.dstBuffer + call.dstSize := by
  rw [Lz4fCall.dstEnd]
  split_ifs with null
  · rcases places.dest with ⟨_, none_⟩ | low <;> omega
  · rfl

/-- What a call may do. -/
abbrev Lz4fConfined (call : Lz4fCall) (bufs : Lz4fBuffers) (tmp : Bool) (before after : ByteStore)
    (reads writes : List Window) : Prop :=
  Confined (bufs.window call) (Lz4fRegion.Readable tmp) (Lz4fRegion.Writable tmp) before after reads
    writes

/-- The cursors of a call: the bytes that have been taken from the input behind others, and those
that have been given to the output. -/
structure Lz4fState.Runs (call : Lz4fCall) (memory : ByteStore) (before given : List UInt8)
    (tmp : Bool) (bufs : Lz4fBuffers) (input output : List UInt8) (st : Lz4fState) : Prop where
  owns : st.dctx.Owns bufs
  confined : Lz4fConfined call bufs tmp memory st.memory st.reads st.writes
  srcLow : call.srcBuffer ≤ st.srcPtr
  srcHigh : st.srcPtr ≤ call.srcEnd
  dstLow : call.dstBuffer ≤ st.dstPtr
  dstHigh : st.dstPtr ≤ call.dstBuffer + call.dstSize
  input_eq : input = before ++ memory.bytesAt call.srcBuffer (st.srcPtr - call.srcBuffer)
  output_eq : output = given ++ st.memory.bytesAt call.dstBuffer (st.dstPtr - call.dstBuffer)

section Runs

variable {before given input output : List UInt8} {st : Lz4fState}

namespace Lz4fState

/-- The input is what it was. -/
theorem Runs.source (places : call.Places ours bufs)
    (runs : st.Runs call memory before given tmp bufs input output) {p count : ℕ}
    (low : call.srcBuffer ≤ p) (high : p + count ≤ call.srcEnd) :
    st.memory.bytesAt p count = memory.bytesAt p count := by
  apply ByteStore.bytesAt_congr
  intro index inside
  rw [Lz4fCall.srcEnd] at high
  exact runs.confined.kept places.apart (fun writable => writable.2 rfl)
    (show (bufs.window call .src).Contains (p + index) from
      ⟨by dsimp only [Lz4fBuffers.window]; omega, by dsimp only [Lz4fBuffers.window]; omega⟩)

/-- Bytes that are taken from the input. -/
theorem Runs.skip (runs : st.Runs call memory before given tmp bufs input output) (size : ℕ)
    (room : st.srcPtr + size ≤ call.srcEnd) :
    (st.skip size).Runs call memory before given tmp bufs
      (input ++ memory.bytesAt st.srcPtr size) output := by
  have low := runs.srcLow
  refine ⟨runs.owns, runs.confined, ?_, room, runs.dstLow, runs.dstHigh, ?_, runs.output_eq⟩
  · exact Nat.le_trans low (Nat.le_add_right ..)
  · have advance : (st.skip size).srcPtr - call.srcBuffer = st.srcPtr - call.srcBuffer + size :=
      Nat.sub_add_comm low
    rw [runs.input_eq, advance, ByteStore.bytesAt_add, Nat.add_sub_cancel' low, List.append_assoc]

/-- A read that copies nothing. -/
theorem Runs.load (runs : st.Runs call memory before given tmp bufs input output) {p size : ℕ}
    (r : Lz4fRegion) (allowed : r.Readable tmp) (inside : (Window.mk p size).Inside (bufs.window call r)) :
    (st.load p size).Runs call memory before given tmp bufs input output :=
  ⟨runs.owns, runs.confined.load r allowed inside, runs.srcLow, runs.srcHigh, runs.dstLow,
    runs.dstHigh, runs.input_eq, runs.output_eq⟩

/-- Memory that is changed outside of the input and of what has been given to the output. -/
theorem Runs.change (runs : st.Runs call memory before given tmp bufs input output)
    {dctx : Lz4fDctx} {memory' : ByteStore} {reads writes : List Window}
    (owns : dctx.Owns bufs) (confined : Lz4fConfined call bufs tmp memory memory' reads writes)
    (kept : ∀ index, call.dstBuffer ≤ index → index < st.dstPtr →
      memory' index = st.memory index) :
    Lz4fState.Runs call memory before given tmp bufs input output
      { st with dctx := dctx, memory := memory', reads := reads, writes := writes } where
  owns := owns
  confined := confined
  srcLow := runs.srcLow
  srcHigh := runs.srcHigh
  dstLow := runs.dstLow
  dstHigh := runs.dstHigh
  input_eq := runs.input_eq
  output_eq := by
    have low := runs.dstLow
    refine runs.output_eq.trans (congrArg _ (ByteStore.bytesAt_congr fun index inside => ?_))
    exact (kept _ (Nat.le_add_right ..) (by omega)).symm

/-- Bytes that are given to the output. -/
theorem Runs.give (runs : st.Runs call memory before given tmp bufs input output)
    {memory' : ByteStore} {reads writes : List Window} {size : ℕ}
    (room : st.dstPtr + size ≤ call.dstBuffer + call.dstSize)
    (confined : Lz4fConfined call bufs tmp memory memory' reads writes)
    (kept : ∀ index, call.dstBuffer ≤ index → index < st.dstPtr →
      memory' index = st.memory index) :
    Lz4fState.Runs call memory before given tmp bufs input
      (output ++ memory'.bytesAt st.dstPtr size)
      { st with memory := memory', reads := reads, writes := writes, dstPtr := st.dstPtr + size } where
  owns := runs.owns
  confined := confined
  srcLow := runs.srcLow
  srcHigh := runs.srcHigh
  dstLow := Nat.le_trans runs.dstLow (Nat.le_add_right ..)
  dstHigh := room
  input_eq := runs.input_eq
  output_eq := by
    have low := runs.dstLow
    have same : memory'.bytesAt call.dstBuffer (st.dstPtr - call.dstBuffer) =
        st.memory.bytesAt call.dstBuffer (st.dstPtr - call.dstBuffer) :=
      ByteStore.bytesAt_congr fun index inside => kept _ (Nat.le_add_right ..) (by omega)
    dsimp only
    rw [runs.output_eq, Nat.sub_add_comm low, ByteStore.bytesAt_add, same,
      Nat.add_sub_cancel' low, List.append_assoc]

end Lz4fState

/-- Bytes of the input are stored behind what a buffer already holds. -/
def Lz4fState.stored (st : Lz4fState) (buffer size : ℕ) : Lz4fState :=
  { (st.copy (buffer + st.dctx.tmpInSize) st.srcPtr size).skip size with
    dctx.tmpInSize := st.dctx.tmpInSize + size }

/-- What it means that so many bytes of the input have been stored. -/
structure Lz4fState.Stores (call : Lz4fCall) (memory : ByteStore) (buffer wanted : ℕ)
    (r : Lz4fRegion) (bufs : Lz4fBuffers) (size : ℕ) (st : Lz4fState) : Prop where
  le : size ≤ wanted
  all : size = wanted ∨ st.srcPtr + size = call.srcEnd
  result : lz4fStore call st buffer wanted = st.stored buffer size
  bytes : (st.stored buffer size).memory.bytesAt buffer (st.dctx.tmpInSize + size) =
    st.memory.bytesAt buffer st.dctx.tmpInSize ++ memory.bytesAt st.srcPtr size
  kept : ∀ index, ¬ (bufs.window call r).Contains index →
    (st.stored buffer size).memory index = st.memory index

theorem Lz4fState.Runs.store (places : call.Places ours bufs)
    (runs : st.Runs call memory before given tmp bufs input output) (buffer wanted : ℕ)
    (r : Lz4fRegion) (writable : r.Writable tmp) (other : r ≠ .dst)
    (start : (bufs.window call r).start ≤ buffer)
    (limit : buffer + (st.dctx.tmpInSize + wanted) ≤
      (bufs.window call r).start + (bufs.window call r).length) :
    ∃ size, st.Stores call memory buffer wanted r bufs size ∧
      (st.stored buffer size).Runs call memory before given tmp bufs
        (input ++ memory.bytesAt st.srcPtr size) output := by
  have low := runs.srcLow
  have high := runs.srcHigh
  obtain ⟨size, taken⟩ : ∃ size, size = min wanted (call.srcEnd - st.srcPtr) := ⟨_, rfl⟩
  have window : (Window.mk (buffer + st.dctx.tmpInSize) size).Inside (bufs.window call r) :=
    Window.inside_of_le (by dsimp only; omega) (by dsimp only; omega)
  have from_ : (Window.mk st.srcPtr size).Inside (bufs.window call .src) := by
    rw [Lz4fCall.srcEnd] at taken high
    exact Window.inside_of_le low (by dsimp only [Lz4fBuffers.window]; omega)
  have copied := runs.confined.copy .src r (.inr ⟨by decide, by decide⟩) from_ writable window
    st.memory
  have kept : ∀ index, ¬ (bufs.window call r).Contains index →
      (st.stored buffer size).memory index = st.memory index := by
    intro index outside
    apply Patch.apply_copy_outside
    by_contra inside
    exact outside ⟨by omega, by omega⟩
  refine ⟨size, ⟨by omega, by omega, ?_, ?_, kept⟩, ?_⟩
  · rw [lz4fStore, ← taken]
    rfl
  · rw [ByteStore.bytesAt_add]
    congr 1
    · exact ByteStore.bytesAt_copy_of_apart _ _ (by omega)
    · rw [← runs.source places low (show st.srcPtr + size ≤ call.srcEnd by omega)]
      exact ByteStore.bytesAt_apply_copy ..
  · refine (runs.skip size (by omega)).change ⟨runs.owns.header, runs.owns.tmpIn,
      runs.owns.tmpOutBuffer, runs.owns.maxBufferSize⟩ copied fun index first last => ?_
    refine kept index fun contained => places.apart r .dst other index contained ⟨first, ?_⟩
    exact Nat.lt_of_lt_of_le last runs.dstHigh

end Runs

end Regions

end ZLoader
