import ZLoader.Soundness.Lz4FrameBlocks
import ZLoader.Soundness.Lz4FrameFlush
import ZLoader.Soundness.Lz4FrameHeader

/-! # The stages of the LZ4 frame decoder

In every stage the bytes taken so far are a part of a frame, and those given are what its blocks stand
for. A turn through the loop of `LZ4F_decompress` leads to a stage in which this holds again, to the
end of a frame, or to an error that no frame leads to.
-/

namespace ZLoader

/-- What counts of a context behind some blocks. -/
def Lz4fDctx.core (dctx : Lz4fDctx) :
    Lz4fFrameInfo × ℕ × UInt64 × Xxh32State × ℕ × ℕ × ℕ :=
  (dctx.frameInfo, dctx.maxBlockSize, dctx.frameRemainingSize, dctx.xxh, dctx.dict, dctx.dictSize,
    dctx.tmpOut)

/-- The counters behind some content. -/
structure Lz4fDctx.Counts (dctx : Lz4fDctx) (desc : FrameDescriptor) (content : List UInt8) :
    Prop where
  remaining : dctx.frameRemainingSize = if desc.contentSize.getD 0 = 0 then 0
    else desc.contentSize.getD 0 - UInt64.ofNat content.length
  hash : desc.contentChecksum = true → Xxh32Absorbed 0 content dctx.xxh

/-- The buffers have room for the blocks. -/
structure Lz4fBuffers.Covers (bufs : Lz4fBuffers) (desc : FrameDescriptor) : Prop where
  room : desc.blockSize + 4 ≤ bufs.room
  size : desc.blockSize + (if desc.linked then 131072 else 0) ≤ bufs.maxBufferSize

/-- Some blocks have been read, and some content has been given. -/
structure Lz4fBehind (bufs : Lz4fBuffers) (start cursor : ℕ) (memory : ByteStore) (dctx : Lz4fDctx)
    (desc : FrameDescriptor) (blocks : List FrameBlock) (content : List UInt8) : Prop where
  knows : dctx.Knows desc
  fits : FrameBlocksFit desc [] blocks
  covers : bufs.Covers desc
  counts : dctx.Counts desc content
  dict : DictHolds bufs start cursor memory (FrameBlock.history desc.linked content) dctx.dict
    dctx.dictSize
  tmpOut : desc.linked = false → dctx.tmpOut = bufs.tmpOutBuffer

/-- No frame has been begun. -/
structure Lz4fDctx.Ready (dctx : Lz4fDctx) : Prop where
  remaining : dctx.frameRemainingSize = 0
  dictSize : dctx.dictSize = 0

/-- What has been taken and given in each stage; before the blocks the buffers are not used. -/
inductive Lz4fHolds (bufs : Lz4fBuffers) (start cursor : ℕ) (memory : ByteStore)
    (dctx : Lz4fDctx) : Bool → List UInt8 → List UInt8 → Prop where
  | getFrameHeader (stage : dctx.dStage = .getFrameHeader) (ready : dctx.Ready) :
      Lz4fHolds bufs start cursor memory dctx false [] []
  | storeFrameHeader (stage : dctx.dStage = .storeFrameHeader) (ready : dctx.Ready)
      (more : dctx.tmpInSize < dctx.tmpInTarget)
      (target : dctx.tmpInTarget = 7 ∨ 7 ≤ dctx.tmpInSize ∧
        ¬ (0x184D2A50 ≤ memory.readLE bufs.header 4 ∧ memory.readLE bufs.header 4 < 0x184D2A60) ∧
        dctx.tmpInTarget = (lz4fFlags (memory (bufs.header + 4))).frameHeaderSize) :
      Lz4fHolds bufs start cursor memory dctx false (memory.bytesAt bufs.header dctx.tmpInSize) []
  | init {desc : FrameDescriptor} (stage : dctx.dStage = .init) (knows : dctx.Knows desc)
      (remaining : dctx.frameRemainingSize = desc.contentSize.getD 0) (none_ : dctx.dictSize = 0) :
      Lz4fHolds bufs start cursor memory dctx false (desc.bytes contentHash) []
  | getBlockHeader {desc : FrameDescriptor} {blocks : List FrameBlock}
      (stage : dctx.dStage = .getBlockHeader)
      (behind : Lz4fBehind bufs start cursor memory dctx desc blocks (frameOutput desc blocks)) :
      Lz4fHolds bufs start cursor memory dctx true (frameInput contentHash desc blocks)
        (frameOutput desc blocks)
  | storeBlockHeader {desc : FrameDescriptor} {blocks : List FrameBlock}
      (stage : dctx.dStage = .storeBlockHeader)
      (behind : Lz4fBehind bufs start cursor memory dctx desc blocks (frameOutput desc blocks))
      (more : dctx.tmpInSize < 4) :
      Lz4fHolds bufs start cursor memory dctx true
        (frameInput contentHash desc blocks ++ memory.bytesAt bufs.tmpIn dctx.tmpInSize)
        (frameOutput desc blocks)
  | copyDirect {desc : FrameDescriptor} {blocks : List FrameBlock} {part : List UInt8}
      (stage : dctx.dStage = .copyDirect)
      (behind : Lz4fBehind bufs start cursor memory dctx desc blocks (frameOutput desc blocks ++ part))
      (small : dctx.tmpInTarget + part.length ≤ desc.blockSize)
      (check : desc.blockChecksums = true → Xxh32Absorbed 0 part dctx.blockChecksum) :
      Lz4fHolds bufs start cursor memory dctx true
        (frameInput contentHash desc blocks ++
          (leBytes 4 (dctx.tmpInTarget + part.length + 2 ^ 31) ++ part))
        (frameOutput desc blocks ++ part)
  | getBlockChecksum {desc : FrameDescriptor} {blocks : List FrameBlock} {data : List UInt8}
      (stage : dctx.dStage = .getBlockChecksum)
      (behind : Lz4fBehind bufs start cursor memory dctx desc blocks (frameOutput desc blocks ++ data))
      (small : data.length ≤ desc.blockSize) (checked : desc.blockChecksums = true)
      (check : Xxh32Absorbed 0 data dctx.blockChecksum) (more : dctx.tmpInSize < 4) :
      Lz4fHolds bufs start cursor memory dctx true
        (frameInput contentHash desc blocks ++
          (leBytes 4 (data.length + 2 ^ 31) ++ (data ++ memory.bytesAt bufs.header dctx.tmpInSize)))
        (frameOutput desc blocks ++ data)
  | getCBlock {desc : FrameDescriptor} {blocks : List FrameBlock} {size : ℕ}
      (stage : dctx.dStage = .getCBlock)
      (behind : Lz4fBehind bufs start cursor memory dctx desc blocks (frameOutput desc blocks))
      (positive : 0 < size) (small : size ≤ desc.blockSize)
      (target : dctx.tmpInTarget = size + if desc.blockChecksums then 4 else 0) :
      Lz4fHolds bufs start cursor memory dctx true
        (frameInput contentHash desc blocks ++ leBytes 4 size) (frameOutput desc blocks)
  | storeCBlock {desc : FrameDescriptor} {blocks : List FrameBlock} {size : ℕ}
      (stage : dctx.dStage = .storeCBlock)
      (behind : Lz4fBehind bufs start cursor memory dctx desc blocks (frameOutput desc blocks))
      (positive : 0 < size) (small : size ≤ desc.blockSize)
      (target : dctx.tmpInTarget = size + if desc.blockChecksums then 4 else 0)
      (more : dctx.tmpInSize < dctx.tmpInTarget) :
      Lz4fHolds bufs start cursor memory dctx true
        (frameInput contentHash desc blocks ++
          (leBytes 4 size ++ memory.bytesAt bufs.tmpIn dctx.tmpInSize)) (frameOutput desc blocks)
  | flushOut {desc : FrameDescriptor} {blocks : List FrameBlock} {old block : List UInt8}
      (stage : dctx.dStage = .flushOut) (knows : dctx.Knows desc)
      (fits : FrameBlocksFit desc [] blocks) (covers : bufs.Covers desc)
      (all : frameOutput desc blocks = old ++ block)
      (counts : dctx.Counts desc (frameOutput desc blocks))
      (tmpOut : desc.linked = false → dctx.tmpOut = bufs.tmpOutBuffer)
      (size : dctx.tmpOutSize = block.length)
      (flush : FlushHolds bufs start cursor memory desc.linked old block dctx.dict dctx.dictSize
        dctx.tmpOut dctx.tmpOutStart) :
      Lz4fHolds bufs start cursor memory dctx true (frameInput contentHash desc blocks)
        (old ++ block.take dctx.tmpOutStart)
  | getSuffix {desc : FrameDescriptor} {blocks : List FrameBlock} (stage : dctx.dStage = .getSuffix)
      (knows : dctx.Knows desc) (fits : FrameBlocksFit desc [] blocks) (covers : bufs.Covers desc)
      (counts : dctx.Counts desc (frameOutput desc blocks)) :
      Lz4fHolds bufs start cursor memory dctx true
        (frameInput contentHash desc blocks ++ leBytes 4 0) (frameOutput desc blocks)
  | storeSuffix {desc : FrameDescriptor} {blocks : List FrameBlock}
      (stage : dctx.dStage = .storeSuffix) (fits : FrameBlocksFit desc [] blocks)
      (covers : bufs.Covers desc) (remaining : dctx.frameRemainingSize = 0)
      (sized : desc.Sized (frameOutput desc blocks).length) (checked : desc.contentChecksum = true)
      (hash : Xxh32Absorbed 0 (frameOutput desc blocks) dctx.xxh) (more : dctx.tmpInSize < 4) :
      Lz4fHolds bufs start cursor memory dctx true
        (frameInput contentHash desc blocks ++
          (leBytes 4 0 ++ memory.bytesAt bufs.tmpIn dctx.tmpInSize)) (frameOutput desc blocks)
  | getSFrameSize {nibble : ℕ} (stage : dctx.dStage = .getSFrameSize) (low : nibble < 16)
      (ready : dctx.Ready) :
      Lz4fHolds bufs start cursor memory dctx false (leBytes 4 (0x184D2A50 + nibble)) []
  | storeSFrameSize {nibble : ℕ} (stage : dctx.dStage = .storeSFrameSize) (low : nibble < 16)
      (ready : dctx.Ready) (four : 4 ≤ dctx.tmpInSize) (more : dctx.tmpInSize < 8)
      (target : dctx.tmpInTarget = 8) :
      Lz4fHolds bufs start cursor memory dctx false
        (leBytes 4 (0x184D2A50 + nibble) ++ memory.bytesAt (bufs.header + 4) (dctx.tmpInSize - 4)) []
  | skipSkippable {nibble : ℕ} {part : List UInt8} (stage : dctx.dStage = .skipSkippable)
      (low : nibble < 16) (ready : dctx.Ready) (small : dctx.tmpInTarget + part.length < 2 ^ 32) :
      Lz4fHolds bufs start cursor memory dctx false
        (leBytes 4 (0x184D2A50 + nibble) ++ (leBytes 4 (dctx.tmpInTarget + part.length) ++ part)) []

/-- The input that is left, and whether the stage is left without any. -/
def Lz4fState.left (call : Lz4fCall) (st : Lz4fState) : ℕ :=
  2 * (call.srcEnd - st.srcPtr) +
    if st.dctx.dStage = .copyDirect ∨ st.dctx.dStage = .getCBlock ∨ st.dctx.dStage = .flushOut then 1
    else 0

/-- What a turn leads to, with less left than some bound. -/
inductive Lz4fTurnEnds (call : Lz4fCall) (ours : Lz4fBuffers → Prop) (memory : ByteStore)
    (before given : List UInt8) (bound : ℕ) : ℕ → Lz4fTurn → Prop where
  | again {tmp : Bool} {bufs : Lz4fBuffers} {input output : List UInt8} {st : Lz4fState}
      (places : call.Places ours bufs)
      (runs : st.Runs call memory before given tmp bufs input output)
      (holds : Lz4fHolds bufs call.dstBuffer st.dstPtr st.memory st.dctx tmp input output)
      (less : st.left call < bound) : Lz4fTurnEnds call ours memory before given bound bufs.header
        (.again st)
  | stop {tmp : Bool} {bufs : Lz4fBuffers} {input output : List UInt8} {st : Lz4fState} {hint : ℕ}
      (places : call.Places ours bufs)
      (runs : st.Runs call memory before given tmp bufs input output)
      (holds : Lz4fHolds bufs call.dstBuffer st.dstPtr st.memory st.dctx tmp input output)
      (wants : hint ≠ 0 ∧ hint < 2 ^ 33)
      (idle : st.srcPtr = call.srcEnd ∨ st.dstPtr = call.dstEnd) :
      Lz4fTurnEnds call ours memory before given bound bufs.header (.stop st hint)
  | finished {tmp : Bool} {bufs : Lz4fBuffers} {input output : List UInt8} {st : Lz4fState}
      (places : call.Places ours bufs)
      (runs : st.Runs call memory before given tmp bufs input output)
      (stage : st.dctx.dStage = .getFrameHeader) (ready : st.dctx.Ready) (whole : FrameUnit)
      (bytes : input = whole.bytes contentHash) (content : output = whole.content) :
      Lz4fTurnEnds call ours memory before given bound bufs.header (.stop st 0)
  | early {bufs : Lz4fBuffers} {input output : List UInt8} {st : Lz4fState}
      (places : call.Places ours bufs)
      (runs : st.Runs call memory before given false bufs input output)
      (holds : Lz4fHolds bufs call.dstBuffer st.dstPtr st.memory st.dctx false input output)
      (first : input = [] ∧ output = []) (empty : st.srcPtr = call.srcEnd) :
      Lz4fTurnEnds call ours memory before given bound bufs.header (.early st 7)
  | failed {tmp : Bool} {bufs : Lz4fBuffers} {input output : List UInt8} {st : Lz4fState}
      {code : Lz4fErrorCode} (error : lz4fIsError (lz4fErr0r code) = true)
      (places : call.Places ours bufs)
      (runs : st.Runs call memory before given tmp bufs input output)
      (refuses : code = .allocationFailed ∨
        Refuted contentHash (before ++ memory.bytesAt call.srcBuffer call.srcSize)) :
      Lz4fTurnEnds call ours memory before given bound bufs.header (.failed st code)

section Contexts

variable {bufs : Lz4fBuffers} {start cursor cursor' : ℕ} {memory memory' : ByteStore}
  {dctx dctx' : Lz4fDctx} {desc : FrameDescriptor} {blocks : List FrameBlock} {content : List UInt8}

theorem Lz4fDctx.Counts.sized (counts : dctx.Counts desc content) :
    dctx.frameRemainingSize = 0 ↔ desc.Sized content.length := by
  rw [counts.remaining, FrameDescriptor.Sized]
  cases desc.contentSize with
  | none => simp
  | some given =>
    simp only [Option.getD_some, Option.some.injEq, forall_eq']
    split_ifs with zero
    · simp [zero]
    · constructor
      · intro none_ _
        have back := UInt64.sub_add_cancel given (UInt64.ofNat content.length)
        rwa [none_, UInt64.zero_add] at back
      · intro same
        rw [same zero, UInt64.sub_self]

/-- The context is another one that agrees where it counts. -/
theorem Lz4fBehind.context (behind : Lz4fBehind bufs start cursor memory dctx desc blocks content)
    (same : dctx'.core = dctx.core) : Lz4fBehind bufs start cursor memory dctx' desc blocks content := by
  simp only [Lz4fDctx.core, Prod.mk.injEq] at same
  obtain ⟨info, size, remaining, xxh, dict, dictSize, tmpOut⟩ := same
  obtain ⟨⟨a, b, c, d, e⟩, fits, covers, ⟨f, g⟩, holds, place⟩ := behind
  refine ⟨⟨?_, ?_, ?_, ?_, ?_⟩, fits, covers, ⟨?_, ?_⟩, ?_, ?_⟩
  · rwa [info]
  · rwa [info]
  · rwa [info]
  · rwa [info]
  · rwa [size]
  · rwa [remaining]
  · rwa [xxh]
  · rwa [dict, dictSize]
  · rwa [tmpOut]

theorem Lz4fBehind.keep (behind : Lz4fBehind bufs start cursor memory dctx desc blocks content)
    (buffer : ∀ index, bufs.tmpOutBuffer ≤ index → index < bufs.tmpOutBuffer + bufs.maxBufferSize →
      memory' index = memory index)
    (output : ∀ index, start ≤ index → index < cursor → memory' index = memory index) :
    Lz4fBehind bufs start cursor memory' dctx desc blocks content :=
  { behind with dict := behind.dict.congr buffer output }

/-- A block that the content already has. -/
theorem Lz4fBehind.concat (behind : Lz4fBehind bufs start cursor memory dctx desc blocks content)
    (block : FrameBlock) (fits : block.Fits desc (frameOutput desc blocks)) :
    Lz4fBehind bufs start cursor memory dctx desc (blocks ++ [block]) content :=
  { behind with fits := (frameBlocksFit_concat ..).mpr ⟨behind.fits, fits⟩ }

end Contexts

section Turns

variable {call : Lz4fCall} {ours : Lz4fBuffers → Prop} {bufs : Lz4fBuffers}
  {memory : ByteStore} {tmp : Bool}
  {before given input output content : List UInt8} {st : Lz4fState} {desc : FrameDescriptor}
  {blocks : List FrameBlock} {bound : ℕ}

theorem Lz4fState.Runs.context (runs : st.Runs call memory before given tmp bufs input output)
    {dctx : Lz4fDctx} (owns : dctx.Owns bufs) :
    Lz4fState.Runs call memory before given tmp bufs input output { st with dctx := dctx } :=
  ⟨owns, runs.confined, runs.srcLow, runs.srcHigh, runs.dstLow, runs.dstHigh, runs.input_eq,
    runs.output_eq⟩

theorem Lz4fState.left_le (call : Lz4fCall) (st : Lz4fState) :
    st.left call ≤ 2 * (call.srcEnd - st.srcPtr) + 1 := by
  rw [left]
  split_ifs <;> omega

/-- What is refuted by the bytes taken is refuted by all that is offered. -/
theorem Lz4fState.Runs.refuted (runs : st.Runs call memory before given tmp bufs input output)
    (refuted : Refuted contentHash input) :
    Refuted contentHash (before ++ memory.bytesAt call.srcBuffer call.srcSize) := by
  have low := runs.srcLow
  have high := runs.srcHigh
  rw [Lz4fCall.srcEnd] at high
  have split : call.srcSize = st.srcPtr - call.srcBuffer + (call.srcBuffer + call.srcSize - st.srcPtr) := by
    omega
  rw [split, ByteStore.bytesAt_add, ← List.append_assoc, ← runs.input_eq]
  exact refuted.append _

/-- The region of the input, and the buffer `tmpIn` or the header. -/
theorem Lz4fState.Stores.behind (places : call.Places ours bufs)
    (runs : st.Runs call memory before given tmp bufs input output) {buffer wanted size : ℕ}
    {r : Lz4fRegion} (stores : st.Stores call memory buffer wanted r bufs size)
    (other : r ≠ .dst ∧ r ≠ .tmpOut)
    (behind : Lz4fBehind bufs call.dstBuffer st.dstPtr st.memory st.dctx desc blocks content) :
    Lz4fBehind bufs call.dstBuffer st.dstPtr (st.stored buffer size).memory st.dctx desc blocks
      content := by
  have high := runs.dstHigh
  refine behind.keep (fun index first last => stores.kept index fun inside => ?_)
    fun index first last => stores.kept index fun inside => ?_
  · exact places.apart r .tmpOut other.2 index inside ⟨first, last⟩
  · exact places.apart r .dst other.1 index inside ⟨first, Nat.lt_of_lt_of_le last high⟩

/-! ## Block headers -/

section BlockHeader

variable (places : call.Places ours bufs)

include places

theorem lz4fDecodeBlockHeader_ends {selectedIn value : ℕ} {r : Lz4fRegion}
    (inside : (Window.mk selectedIn 4).Inside (bufs.window call r))
    (read : st.memory.readLE selectedIn 4 = value)
    (runs : st.Runs call memory before given true bufs
      (frameInput contentHash desc blocks ++ leBytes 4 value) (frameOutput desc blocks))
    (behind : Lz4fBehind bufs call.dstBuffer st.dstPtr st.memory st.dctx desc blocks
      (frameOutput desc blocks)) (enough : 2 * (call.srcEnd - st.srcPtr) + 1 < bound) :
    Lz4fTurnEnds call ours memory before given bound bufs.header
      (lz4fDecodeBlockHeader call st selectedIn) := by
  have bound_ := read ▸ st.memory.readLE_lt selectedIn 4
  have whole : (st.memory.u32 selectedIn).toNat = value := (u32_toNat ..).trans read
  have low : (st.memory.u32 selectedIn &&& 0x7fffffff).toNat = value % 2 ^ 31 := by
    rw [UInt32.toNat_and, whole]
    exact Nat.and_two_pow_sub_one_eq_mod value 31
  have top : st.memory.u32 selectedIn &&& 0x80000000 ≠ 0 ↔ 2 ^ 31 ≤ value := by
    have upper : (value &&& 2 ^ 31) / 2 ^ 31 = value / 2 ^ 31 := by
      rw [Nat.and_div_two_pow, show (2 : ℕ) ^ 31 / 2 ^ 31 = 2 ^ 1 - 1 from rfl,
        Nat.and_two_pow_sub_one_eq_mod, Nat.mod_eq_of_lt (by omega)]
    have lower : (value &&& 2 ^ 31) % 2 ^ 31 = 0 := by
      rw [Nat.and_mod_two_pow, Nat.mod_self, Nat.and_zero]
    rw [ne_eq, ← UInt32.toNat_inj, UInt32.toNat_and, whole,
      show (0x80000000 : UInt32).toNat = 2 ^ 31 from rfl, show (0 : UInt32).toNat = 0 from rfl]
    omega
  have zero : st.memory.u32 selectedIn = 0 ↔ value = 0 := by
    rw [← UInt32.toNat_inj, whole]
    rfl
  have loaded := runs.load r (.inl rfl) inside
  have owns := runs.owns
  have fits := behind.fits
  have size := behind.knows.maxBlockSize
  have flag := behind.knows.blockChecksumFlag
  have limit := desc.blockSize_le
  rw [lz4fDecodeBlockHeader]
  dsimp only
  rw [low]
  by_cases none_ : value = 0
  · rw [if_pos (zero.mpr none_)]
    rw [none_] at loaded
    exact .again places (loaded.context ⟨owns.1, owns.2, owns.3, owns.4⟩)
      (.getSuffix rfl ⟨behind.knows.1, behind.knows.2, behind.knows.3, behind.knows.4, behind.knows.5⟩
        behind.fits behind.covers ⟨behind.counts.1, behind.counts.2⟩) (Nat.lt_of_le_of_lt (Lz4fState.left_le ..) enough)
  rw [if_neg (none_ ∘ zero.mp)]
  by_cases large : st.dctx.maxBlockSize < value % 2 ^ 31
  · rw [if_pos (show (st.load selectedIn 4).dctx.maxBlockSize < value % 2 ^ 31 from large)]
    exact .failed (by decide) places loaded (.inr (runs.refuted (refuted_largeBlock fits bound_ (size ▸ large))))
  rw [if_neg (show ¬ (st.load selectedIn 4).dctx.maxBlockSize < value % 2 ^ 31 from large)]
  by_cases stored : 2 ^ 31 ≤ value
  · rw [if_pos (top.mpr stored)]
    have input_ : frameInput contentHash desc blocks ++ leBytes 4 value =
        frameInput contentHash desc blocks ++
          (leBytes 4 (value % 2 ^ 31 + ([] : List UInt8).length + 2 ^ 31) ++ []) := by
      rw [List.append_nil, List.length_nil, show value % 2 ^ 31 + 0 + 2 ^ 31 = value by omega]
    have output_ := (List.append_nil (frameOutput desc blocks)).symm
    rw [input_, output_] at loaded
    rw [output_] at behind
    rw [size] at large
    split_ifs with checks
    · exact .again places (loaded.context ⟨owns.1, owns.2, owns.3, owns.4⟩)
        (.copyDirect rfl (behind.context rfl) (Nat.not_lt.mp large)
          fun _ => xxh32Absorbed_reset 0) (Nat.lt_of_le_of_lt (Lz4fState.left_le ..) enough)
    · exact .again places (loaded.context ⟨owns.1, owns.2, owns.3, owns.4⟩)
        (.copyDirect rfl (behind.context rfl) (Nat.not_lt.mp large)
          fun checked => absurd (flag.trans checked) checks) (Nat.lt_of_le_of_lt (Lz4fState.left_le ..) enough)
  · rw [if_neg (stored ∘ top.mp)]
    have small : value % 2 ^ 31 = value := Nat.mod_eq_of_lt (Nat.not_le.mp stored)
    rw [small]
    rw [small, size] at large
    have crc : (if (st.load selectedIn 4).dctx.frameInfo.blockChecksumFlag = true then 4 else 0) =
        if desc.blockChecksums = true then 4 else 0 := by
      rw [show (st.load selectedIn 4).dctx.frameInfo.blockChecksumFlag = desc.blockChecksums from flag]
    obtain ⟨crcSize, same⟩ : ∃ crcSize, crcSize = if desc.blockChecksums = true then 4 else 0 :=
      ⟨_, rfl⟩
    have four : crcSize ≤ 4 := by split_ifs at same <;> omega
    rw [crc, ← same]
    have holds {dctx : Lz4fDctx} (stage : dctx.dStage = .getCBlock) (core : dctx.core = st.dctx.core)
        (target : dctx.tmpInTarget = value + crcSize) :
        Lz4fHolds bufs call.dstBuffer st.dstPtr st.memory dctx true
          (frameInput contentHash desc blocks ++ leBytes 4 value) (frameOutput desc blocks) :=
      .getCBlock stage (behind.context core) (Nat.pos_of_ne_zero none_) (Nat.not_lt.mp large)
        (same ▸ target)
    split_ifs with idle
    · exact .stop places (loaded.context ⟨owns.1, owns.2, owns.3, owns.4⟩) (holds rfl rfl rfl)
        (by omega) idle.symm
    · exact .again places (loaded.context ⟨owns.1, owns.2, owns.3, owns.4⟩) (holds rfl rfl rfl)
        (Nat.lt_of_le_of_lt (Lz4fState.left_le ..) enough)

theorem lz4fStoreBlockHeader_ends
    (runs : st.Runs call memory before given true bufs
      (frameInput contentHash desc blocks ++ st.memory.bytesAt bufs.tmpIn st.dctx.tmpInSize)
      (frameOutput desc blocks)) (stage : st.dctx.dStage = .storeBlockHeader)
    (behind : Lz4fBehind bufs call.dstBuffer st.dstPtr st.memory st.dctx desc blocks
      (frameOutput desc blocks)) (more : st.dctx.tmpInSize < 4)
    (enough : 2 * (call.srcEnd - st.srcPtr) ≤ bound) :
    Lz4fTurnEnds call ours memory before given bound bufs.header
      (lz4fStoreBlockHeader call st) := by
  have room := behind.covers.room
  have high := runs.srcHigh
  obtain ⟨size, stores, stored⟩ := runs.store places bufs.tmpIn
    (4 - st.dctx.tmpInSize) .tmpIn ⟨.inl rfl, by decide⟩ (by decide) (Nat.le_refl _)
    (by dsimp only [Lz4fBuffers.window]; omega)
  have behind_ := stores.behind places runs ⟨by decide, by decide⟩ behind
  rw [List.append_assoc, ← stores.bytes] at stored
  have le := stores.le
  have all := stores.all
  have owned := runs.owns.tmpIn
  have after : (st.stored bufs.tmpIn size).srcPtr = st.srcPtr + size := rfl
  have high' := stored.srcHigh
  rw [lz4fStoreBlockHeader, owned, stores.result]
  by_cases short : st.dctx.tmpInSize + size < 4
  · rw [if_pos (show (st.stored bufs.tmpIn size).dctx.tmpInSize < 4 from short)]
    exact .stop places stored (.storeBlockHeader stage (behind_.context rfl) short)
      ⟨Nat.sub_ne_zero_of_lt short, by omega⟩ (.inl (by omega))
  · rw [if_neg (show ¬ (st.stored bufs.tmpIn size).dctx.tmpInSize < 4 from short),
      show (st.stored bufs.tmpIn size).dctx.tmpIn = bufs.tmpIn from owned]
    have four : st.dctx.tmpInSize + size = 4 := by omega
    rw [four, ← ByteStore.leBytes_readLE] at stored
    refine lz4fDecodeBlockHeader_ends places (r := .tmpIn)
      (Window.inside_of_le (Nat.le_refl _) (by dsimp only [Lz4fBuffers.window]; omega)) rfl stored
      (behind_.context rfl) ?_
    omega

theorem lz4fGetBlockHeader_ends
    (runs : st.Runs call memory before given true bufs (frameInput contentHash desc blocks)
      (frameOutput desc blocks))
    (behind : Lz4fBehind bufs call.dstBuffer st.dstPtr st.memory st.dctx desc blocks
      (frameOutput desc blocks)) (enough : 2 * (call.srcEnd - st.srcPtr) ≤ bound) :
    Lz4fTurnEnds call ours memory before given bound bufs.header (lz4fGetBlockHeader call st) := by
  have low := runs.srcLow
  have owns := runs.owns
  rw [lz4fGetBlockHeader]
  split_ifs with direct
  · have taken := runs.skip 4 (by omega)
    rw [← runs.source places low (by omega), ← ByteStore.leBytes_readLE] at taken
    refine lz4fDecodeBlockHeader_ends places (r := .src) (Window.inside_of_le low ?_) rfl taken
      behind ?_
    · dsimp only [Lz4fBuffers.window]
      rw [Lz4fCall.srcEnd] at direct
      omega
    · change 2 * (call.srcEnd - (st.srcPtr + 4)) + 1 < bound
      omega
  · refine lz4fStoreBlockHeader_ends places ?_ rfl (behind.context rfl) (by dsimp only; omega) enough
    have none_ : Lz4fState.Runs call memory before given true bufs _ _
        { st with dctx := { st.dctx with dStage := .storeBlockHeader, tmpInSize := 0 } } :=
      runs.context ⟨owns.1, owns.2, owns.3, owns.4⟩
    rw [← List.append_nil (frameInput contentHash desc blocks)] at none_
    exact none_

end BlockHeader

end Turns

end ZLoader
