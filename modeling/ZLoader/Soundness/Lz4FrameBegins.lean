import ZLoader.Soundness.Lz4FrameEnds

/-! # The beginning of a frame

A header is decoded where it stands in the input, or collected in the array of the context. Behind it
the context has buffers that are large enough, those of the frame before or new ones.
-/

namespace ZLoader

section Begins

variable {call : Lz4fCall} {ours : Lz4fBuffers → Prop} {bufs : Lz4fBuffers}
  {memory : ByteStore} {tmp : Bool}
  {before given input output data : List UInt8} {st st' : Lz4fState} {desc : FrameDescriptor}
  {bound : ℕ}

/-- What is read of a header stands in one region. -/
theorem Lz4fState.ReadsHeader.runs {src srcSize : ℕ} (reads : st.ReadsHeader src srcSize st')
    (runs : st.Runs call memory before given false bufs input output) (r : Lz4fRegion)
    (readable : r.Readable false) (low : (bufs.window call r).start ≤ src)
    (high : src + srcSize ≤ (bufs.window call r).start + (bufs.window call r).length) :
    st'.Runs call memory before given false bufs input output := by
  have owns := runs.owns
  have confined : Lz4fConfined call bufs false memory st.memory st'.reads st.writes :=
    ⟨fun window member => (reads.reads window member).elim (runs.confined.reads window)
      fun ⟨first, last⟩ => ⟨r, readable, Window.inside_of_le (by omega) (by omega)⟩,
      runs.confined.writes, runs.confined.frame⟩
  rw [reads.same]
  exact runs.change ⟨reads.header.trans owns.1, reads.tmpIn.trans owns.2,
    reads.tmpOutBuffer.trans owns.3, reads.maxBufferSize.trans owns.4⟩ confined fun _ _ _ => rfl

/-- The same memory and cursors. -/
theorem Lz4fState.ReadsHeader.cursors {src srcSize : ℕ} (reads : st.ReadsHeader src srcSize st') :
    st'.memory = st.memory ∧ st'.srcPtr = st.srcPtr ∧ st'.dstPtr = st.dstPtr := by
  rw [reads.same]
  exact ⟨rfl, rfl, rfl⟩

section Header

variable (places : call.Places ours bufs)

include places

theorem lz4fStoreFrameHeader_ends (ready : st.dctx.Ready)
    (stage : st.dctx.dStage = .storeFrameHeader) (more : st.dctx.tmpInSize < st.dctx.tmpInTarget)
    (target : st.dctx.tmpInTarget = 7 ∨ 7 ≤ st.dctx.tmpInSize ∧
      ¬ (0x184D2A50 ≤ st.memory.readLE bufs.header 4 ∧
        st.memory.readLE bufs.header 4 < 0x184D2A60) ∧
      st.dctx.tmpInTarget = (lz4fFlags (st.memory (bufs.header + 4))).frameHeaderSize)
    (runs : st.Runs call memory before given false bufs
      (st.memory.bytesAt bufs.header st.dctx.tmpInSize) [])
    (enough : 2 * (call.srcEnd - st.srcPtr) ≤ bound) :
    Lz4fTurnEnds call ours memory before given bound bufs.header
      (lz4fStoreFrameHeader call st) := by
  have owned := runs.owns.header
  have limits : 7 ≤ st.dctx.tmpInTarget ∧ st.dctx.tmpInTarget ≤ 19 := by
    rcases target with seven | ⟨-, -, size⟩
    · omega
    · rw [size]
      exact Lz4fFlags.frameHeaderSize_bounds _
  obtain ⟨size, stores, stored⟩ := runs.store places bufs.header
    (st.dctx.tmpInTarget - st.dctx.tmpInSize) .header
    ⟨.inr ⟨by decide, by decide⟩, by decide⟩ (by decide) (Nat.le_refl _)
    (by dsimp only [Lz4fBuffers.window]; omega)
  rw [← stores.bytes] at stored
  have le := stores.le
  have all := stores.all
  have after : (st.stored bufs.header size).srcPtr = st.srcPtr + size := rfl
  have high := stored.srcHigh
  have front (index : ℕ) (below : index < bufs.header + st.dctx.tmpInSize) :
      (st.stored bufs.header size).memory index = st.memory index :=
    Patch.apply_copy_outside _ _ (.inl below)
  have target_ : st.dctx.tmpInTarget = 7 ∨ 7 ≤ st.dctx.tmpInSize + size ∧
      ¬ (0x184D2A50 ≤ (st.stored bufs.header size).memory.readLE bufs.header 4 ∧
        (st.stored bufs.header size).memory.readLE bufs.header 4 < 0x184D2A60) ∧
      st.dctx.tmpInTarget =
        (lz4fFlags ((st.stored bufs.header size).memory (bufs.header + 4))).frameHeaderSize := by
    refine target.imp_right ?_
    rintro ⟨seven, plain, same⟩
    refine ⟨by omega, ?_, ?_⟩
    · have magic : (st.stored bufs.header size).memory.readLE bufs.header 4 =
          st.memory.readLE bufs.header 4 :=
        ByteStore.readLE_of_same fun k small => front _ (by omega)
      rwa [magic]
    · rw [front _ (by omega)]
      exact same
  rw [lz4fStoreFrameHeader, owned, stores.result]
  by_cases short : st.dctx.tmpInSize + size < st.dctx.tmpInTarget
  · rw [if_pos (show (st.stored bufs.header size).dctx.tmpInSize <
      (st.stored bufs.header size).dctx.tmpInTarget from short)]
    exact .stop places stored (.storeFrameHeader stage ⟨ready.remaining, ready.dictSize⟩ short target_)
      ⟨Nat.succ_ne_zero _, show st.dctx.tmpInTarget - (st.dctx.tmpInSize + size) + 4 < 2 ^ 33 by omega⟩
      (.inl (by omega))
  rw [if_neg (show ¬ (st.stored bufs.header size).dctx.tmpInSize <
    (st.stored bufs.header size).dctx.tmpInTarget from short)]
  have whole : st.dctx.tmpInSize + size = st.dctx.tmpInTarget := by omega
  have positive : 0 < size := by omega
  rw [whole] at stored
  have header_ : (st.stored bufs.header size).dctx.header = bufs.header := owned
  have window : (bufs.window call .header).start ≤ bufs.header ∧
      bufs.header + st.dctx.tmpInTarget ≤
        (bufs.window call .header).start + (bufs.window call .header).length :=
    ⟨Nat.le_refl _, show bufs.header + st.dctx.tmpInTarget ≤ bufs.header + 19 by omega⟩
  have ends := lz4fDecodeHeader_ends (st.stored bufs.header size) bufs.header st.dctx.tmpInTarget limits.1
    (fun _ _ => header_.symm)
  rw [show (st.stored bufs.header size).dctx.tmpInTarget = st.dctx.tmpInTarget from rfl, header_]
  generalize lz4fDecodeHeader (st.stored bufs.header size) bufs.header st.dctx.tmpInTarget = outcome
    at ends
  have left {st' : Lz4fState} (reads : (st.stored bufs.header size).ReadsHeader bufs.header
      st.dctx.tmpInTarget st') (stage : st'.dctx.dStage = .storeSFrameSize ∨
        st'.dctx.dStage = .storeFrameHeader ∨ st'.dctx.dStage = .init) : st'.left call < bound := by
    rw [Lz4fState.left, reads.cursors.2.1, after,
      if_neg (by rcases stage with same | same | same <;> simp [same])]
    omega
  cases ends with
  | failed error reads refuted =>
    exact .failed error places (reads.runs stored .header (.inr ⟨by decide, by decide⟩) window.1 window.2)
      (.inr (stored.refuted refuted))
  | @stored st' reads nibble low magic remaining stage from_ size_ target' =>
    obtain ⟨memory_, -, -⟩ := reads.cursors
    have seven : st.dctx.tmpInTarget = 7 := target_.resolve_right (by
      rintro ⟨-, plain, -⟩
      exact plain (by omega))
    have input_ : (st.stored bufs.header size).memory.bytesAt bufs.header st.dctx.tmpInTarget =
        leBytes 4 (0x184D2A50 + nibble) ++
          st'.memory.bytesAt (bufs.header + 4) (st'.dctx.tmpInSize - 4) := by
      rw [← magic, memory_, size_, ByteStore.leBytes_readLE, ← ByteStore.bytesAt_add]
      congr 1
      omega
    have moved := reads.runs stored .header (.inr ⟨by decide, by decide⟩) window.1 window.2
    rw [input_] at moved
    exact .again places moved (.storeSFrameSize stage low
      ⟨remaining.trans ready.remaining, reads.dictSize.trans ready.dictSize⟩ (by omega) (by omega)
      target') (left reads (.inl stage))
  | @skippable st' reads nibble low magic remaining stage away =>
    exact absurd header_.symm away
  | @incomplete st' reads remaining stage from_ size_ more_ plain target' =>
    obtain ⟨memory_, -, -⟩ := reads.cursors
    have moved := reads.runs stored .header (.inr ⟨by decide, by decide⟩) window.1 window.2
    rw [← memory_, ← size_] at moved
    rw [← memory_] at plain target'
    exact .again places moved (.storeFrameHeader stage
      ⟨remaining.trans ready.remaining, reads.dictSize.trans ready.dictSize⟩ (by omega)
      (.inr ⟨by omega, plain, target'⟩)) (left reads (.inr (.inl stage)))
  | @whole st' reads desc fits length bytes knows stage remaining =>
    have least := desc.bytes_length contentHash
    have fields := desc.fields_length
    have size_ : (desc.bytes contentHash).length = st.dctx.tmpInTarget := by
      rcases target_ with seven | ⟨-, -, same⟩ <;> omega
    have moved := reads.runs stored .header (.inr ⟨by decide, by decide⟩) window.1 window.2
    rw [← size_, bytes] at moved
    refine .again places moved (.init stage knows ?_ (reads.dictSize.trans ready.dictSize))
      (left reads (.inr (.inr stage)))
    rw [remaining, show (st.stored bufs.header size).dctx.frameRemainingSize = 0 from ready.remaining]
    cases desc.contentSize <;> rfl

theorem lz4fGetFrameHeader_ends (ready : st.dctx.Ready) (stage : st.dctx.dStage = .getFrameHeader)
    (runs : st.Runs call memory before given false bufs [] [])
    (enough : 2 * (call.srcEnd - st.srcPtr) ≤ bound) :
    Lz4fTurnEnds call ours memory before given bound bufs.header (lz4fGetFrameHeader call st) := by
  have owns := runs.owns
  have low := runs.srcLow
  have high := runs.srcHigh
  rw [lz4fGetFrameHeader]
  by_cases direct : 19 ≤ call.srcEnd - st.srcPtr
  · rw [if_pos direct]
    have inside : st.srcPtr + (call.srcEnd - st.srcPtr) ≤ call.srcBuffer + call.srcSize := by
      rw [Lz4fCall.srcEnd] at high ⊢
      omega
    have away : st.srcPtr ≠ st.dctx.header := fun same => by
      refine places.apart .src .header (by decide) st.srcPtr ⟨low, ?_⟩ ⟨?_, ?_⟩
      · rw [Lz4fCall.srcEnd] at direct
        change st.srcPtr < call.srcBuffer + call.srcSize
        omega
      · exact Nat.le_of_eq (owns.header.symm.trans same.symm)
      · change st.srcPtr < bufs.header + 19
        rw [same, owns.header]
        omega
    have most := (lz4fFlags (st.memory (st.srcPtr + 4))).frameHeaderSize_bounds.2
    have ends := lz4fDecodeHeader_ends st st.srcPtr (call.srcEnd - st.srcPtr)
      (by omega) (fun _ => by omega)
    generalize lz4fDecodeHeader st st.srcPtr (call.srcEnd - st.srcPtr) = outcome at ends
    have left {st' : Lz4fState} (reads : st.ReadsHeader st.srcPtr (call.srcEnd - st.srcPtr) st')
        {size : ℕ} (some_ : 0 < size) (stage : st'.dctx.dStage = .getSFrameSize ∨
          st'.dctx.dStage = .init) : (st'.skip size).left call < bound := by
      rw [Lz4fState.left, show (st'.skip size).srcPtr = st'.srcPtr + size from rfl,
        reads.cursors.2.1, show (st'.skip size).dctx = st'.dctx from rfl,
        if_neg (by rcases stage with same | same <;> simp [same])]
      omega
    cases ends with
    | failed error reads refuted =>
      have all := runs.skip (call.srcEnd - st.srcPtr) (by omega)
      rw [List.nil_append, ← runs.source places low (by omega)] at all
      exact .failed error places (reads.runs runs .src (.inr ⟨by decide, by decide⟩) low inside)
        (.inr (all.refuted refuted))
    | stored reads low_ magic remaining stage from_ =>
      exact absurd from_ away
    | @skippable st' reads nibble low_ magic remaining stage _ =>
      obtain ⟨memory_, src_, -⟩ := reads.cursors
      have moved := (reads.runs runs .src (.inr ⟨by decide, by decide⟩) low inside).skip 4
        (by omega)
      rw [src_, ← runs.source places low (by omega), ← ByteStore.leBytes_readLE, magic,
        List.nil_append] at moved
      exact .again places moved (.getSFrameSize stage low_
        ⟨remaining.trans ready.remaining, reads.dictSize.trans ready.dictSize⟩)
        (left reads (by omega) (.inl stage))
    | incomplete reads remaining stage from_ =>
      exact absurd from_ away
    | @whole st' reads desc fits length bytes knows stage remaining =>
      have least := desc.bytes_length contentHash
      obtain ⟨memory_, src_, -⟩ := reads.cursors
      have moved := (reads.runs runs .src (.inr ⟨by decide, by decide⟩) low inside).skip
        (desc.bytes contentHash).length (by omega)
      rw [src_, ← runs.source places low (by omega), bytes, List.nil_append] at moved
      refine .again places moved (.init stage knows ?_ (reads.dictSize.trans ready.dictSize))
        (left reads (by omega) (.inr stage))
      rw [show (st'.skip (desc.bytes contentHash).length).dctx = st'.dctx from rfl, remaining,
        ready.remaining]
      cases desc.contentSize <;> rfl
  · rw [if_neg direct]
    dsimp only
    by_cases empty : call.srcEnd - st.srcPtr = 0
    · rw [if_pos empty]
      exact .early places (runs.context ⟨owns.1, owns.2, owns.3, owns.4⟩)
        (.getFrameHeader stage ⟨ready.remaining, ready.dictSize⟩) ⟨rfl, rfl⟩
        (show st.srcPtr = call.srcEnd by omega)
    · rw [if_neg empty]
      exact lz4fStoreFrameHeader_ends places
        (show Lz4fDctx.Ready { st.dctx with
          tmpInSize := 0, dStage := .storeFrameHeader, tmpInTarget := 7 } from
          ⟨ready.remaining, ready.dictSize⟩) rfl (show 0 < 7 by omega) (.inl rfl)
        (runs.context ⟨owns.1, owns.2, owns.3, owns.4⟩) enough

end Header

/-! ## Buffers -/

/-- What is allocated stands apart from all else. -/
def Lz4fCall.Allocates (call : Lz4fCall) (ours : Lz4fBuffers → Prop) (header : ℕ) : Prop :=
  ∀ (id : ℕ) (linked : Bool), 4 ≤ id → id < 8 → call.alloc (2 ^ (8 + 2 * id) + 4) ≠ 0 →
    call.alloc (2 ^ (8 + 2 * id) + if linked then 131072 else 0) ≠ 0 →
    call.Places ours ⟨header, call.alloc (2 ^ (8 + 2 * id) + 4), 2 ^ (8 + 2 * id) + 4,
      call.alloc (2 ^ (8 + 2 * id) + if linked then 131072 else 0),
      2 ^ (8 + 2 * id) + if linked then 131072 else 0⟩

/-- Buffers of no size do not matter. -/
theorem Lz4fCall.Places.dropped (places : call.Places ours bufs) (tmpIn tmpOutBuffer : ℕ) :
    call.Places ours ⟨bufs.header, tmpIn, 0, tmpOutBuffer, 0⟩ where
  apart := fun a b other index first second => by
    have part (r : Lz4fRegion) (inside : (Lz4fBuffers.window
        ⟨bufs.header, tmpIn, 0, tmpOutBuffer, 0⟩ call r).Contains index) :
        (bufs.window call r).Contains index := by
      cases r with
      | tmpIn => exact absurd inside.2 (Nat.not_lt.mpr inside.1)
      | tmpOut => exact absurd inside.2 (Nat.not_lt.mpr inside.1)
      | src => exact inside
      | dst => exact inside
      | header => exact inside
    exact places.apart a b other index (part a first) (part b second)
  gap := fun some_ => absurd rfl some_
  dest := places.dest
  source := places.source
  highSrc := places.highSrc
  highDst := places.highDst
  allocated := .none rfl rfl
  owned := fun some_ => absurd rfl some_

/-- As long as the buffers have not been used, they can be others. -/
theorem Lz4fState.Runs.buffers (runs : st.Runs call memory before given false bufs input output)
    (other : Lz4fBuffers) (header : other.header = bufs.header) (dctx : Lz4fDctx)
    (owns : dctx.Owns other) (tmp : Bool) (heap : List (Movement ℕ)) :
    Lz4fState.Runs call memory before given tmp other input output
      { st with dctx := dctx, heap := heap } := by
  have same (r : Lz4fRegion) (away : r ≠ .tmpIn ∧ r ≠ .tmpOut) :
      other.window call r = bufs.window call r := by
    cases r with
    | src => rfl
    | dst => rfl
    | header => exact congrArg (Window.mk · 19) header
    | tmpIn => exact absurd rfl away.1
    | tmpOut => exact absurd rfl away.2
  have others {r : Lz4fRegion} (readable : r.Readable false) : r ≠ .tmpIn ∧ r ≠ .tmpOut :=
    readable.resolve_left Bool.false_ne_true
  exact ⟨owns, runs.confined.mono (fun r readable => ⟨.inr (others readable), same r (others readable)⟩)
    (fun r writable => ⟨⟨.inr (others writable.1), writable.2⟩, same r (others writable.1)⟩),
    runs.srcLow, runs.srcHigh, runs.dstLow, runs.dstHigh, runs.input_eq, runs.output_eq⟩

theorem Lz4fState.regrant (st : Lz4fState) (p q : ℕ) :
    ∃ heap, (st.release p).grant q = { st with heap := heap } := by
  rw [release, grant]
  split_ifs <;> exact ⟨_, rfl⟩

/-- What the allocation of the buffers leaves. -/
inductive AllocateEnds (call : Lz4fCall) (st : Lz4fState) (needed : ℕ) :
    Except Lz4fErrorCode Unit × Lz4fState → Prop where
  | failed (tmpIn tmpOutBuffer : ℕ) (heap : List (Movement ℕ)) : AllocateEnds call st needed
      (.error .allocationFailed,
        { st with
          dctx := { st.dctx with maxBufferSize := 0, tmpIn := tmpIn, tmpOutBuffer := tmpOutBuffer }
          heap := heap })
  | done (room : call.alloc (st.dctx.maxBlockSize + 4) ≠ 0) (size : call.alloc needed ≠ 0)
      (heap : List (Movement ℕ)) : AllocateEnds call st needed
      (.ok (),
        { st with
          dctx := { st.dctx with
            maxBufferSize := needed, tmpIn := call.alloc (st.dctx.maxBlockSize + 4)
            tmpOutBuffer := call.alloc needed }
          heap := heap })

theorem lz4fAllocate_ends (st : Lz4fState) (needed : ℕ) :
    AllocateEnds call st needed (lz4fAllocate call st needed) := by
  obtain ⟨heap, first⟩ := st.regrant st.dctx.tmpIn (call.alloc (st.dctx.maxBlockSize + 4))
  obtain ⟨heap', second⟩ := Lz4fState.regrant { st with
    dctx := { st.dctx with
      maxBufferSize := 0, tmpIn := call.alloc (st.dctx.maxBlockSize + 4) }
    heap := heap } st.dctx.tmpOutBuffer (call.alloc needed)
  rw [lz4fAllocate]
  dsimp only
  rw [first]
  by_cases room : call.alloc (st.dctx.maxBlockSize + 4) = 0
  · rw [if_pos room]
    exact .failed ..
  rw [if_neg room, second]
  by_cases size : call.alloc needed = 0
  · rw [if_pos size]
    exact .failed ..
  · rw [if_neg size]
    exact .done room size heap'

theorem FrameDescriptor.blockSize_eq (desc : FrameDescriptor) :
    desc.blockSize = 2 ^ (8 + 2 * desc.blockSizeId) := rfl

/-- Buffers that are large enough in all are large enough for a block. -/
theorem Lz4fBuffers.Allocated.covers (allocated : bufs.Allocated)
    (enough : desc.blockSize + (if desc.linked then 131072 else 0) ≤ bufs.maxBufferSize) :
    bufs.Covers desc := by
  refine ⟨?_, enough⟩
  have least := desc.le_blockSize
  cases allocated with
  | none room size => omega
  | some id four eight room size =>
    have some_ : desc.blockSize ≤ bufs.maxBufferSize := Nat.le_trans (Nat.le_add_right ..) enough
    have le : desc.blockSizeId ≤ id := by
      by_contra more
      have larger : 2 ^ (8 + 2 * (id + 1)) ≤ desc.blockSize :=
        Nat.pow_le_pow_right (by omega) (by omega)
      have base : 2 ^ 16 ≤ 2 ^ (8 + 2 * id) := Nat.pow_le_pow_right (by omega) (by omega)
      rw [show 8 + 2 * (id + 1) = 8 + 2 * id + 2 by omega, Nat.pow_add] at larger
      omega
    rw [room, desc.blockSize_eq]
    exact Nat.add_le_add_right (Nat.pow_le_pow_right (by omega) (by omega)) 4

theorem lz4fInit_begins (places : call.Places ours bufs) (covers : bufs.Covers desc)
    (knows : st.dctx.Knows desc) (remaining : st.dctx.frameRemainingSize = desc.contentSize.getD 0)
    (none_ : st.dctx.dictSize = 0)
    (hash : desc.contentChecksum = true → Xxh32Absorbed 0 [] st.dctx.xxh)
    (runs : st.Runs call memory before given true bufs (desc.bytes contentHash) [])
    (enough : 2 * (call.srcEnd - st.srcPtr) ≤ bound) :
    Lz4fTurnEnds call ours memory before given bound bufs.header
      (lz4fGetBlockHeader call { st.enter .getBlockHeader with
        dctx.tmpInSize := 0
        dctx.tmpInTarget := 0
        dctx.tmpOut := st.dctx.tmpOutBuffer
        dctx.tmpOutStart := 0
        dctx.tmpOutSize := 0 }) := by
  have owns := runs.owns
  have input_ : frameInput contentHash desc [] = desc.bytes contentHash := List.append_nil _
  have output_ : frameOutput desc [] = [] := rfl
  rw [← input_, ← output_] at runs
  refine lz4fGetBlockHeader_ends places
    (runs.context ⟨owns.1, owns.2, owns.3, owns.4⟩)
    ⟨⟨knows.blockMode, knows.blockChecksumFlag, knows.contentChecksumFlag, knows.contentSize,
      knows.maxBlockSize⟩, trivial, covers, ⟨?_, hash⟩, ?_, fun _ => owns.tmpOutBuffer⟩ enough
  · refine remaining.trans ?_
    split_ifs with zero
    · exact zero
    · exact (UInt64.sub_zero _).symm
  · change DictHolds _ _ _ _ (FrameBlock.history desc.linked []) st.dctx.dict st.dctx.dictSize
    rw [none_, FrameBlock.history, ite_self]
    exact dictHolds_nil ..

theorem lz4fInit_ends (places : call.Places ours bufs) (allocates : call.Allocates ours bufs.header)
    (knows : st.dctx.Knows desc) (remaining : st.dctx.frameRemainingSize = desc.contentSize.getD 0)
    (none_ : st.dctx.dictSize = 0)
    (runs : st.Runs call memory before given false bufs (desc.bytes contentHash) [])
    (enough : 2 * (call.srcEnd - st.srcPtr) ≤ bound) :
    Lz4fTurnEnds call ours memory before given bound bufs.header (lz4fInit call st) := by
  have owns := runs.owns
  have size := knows.maxBlockSize
  obtain ⟨xxh, started, hash⟩ : ∃ xxh,
      (if st.dctx.frameInfo.contentChecksumFlag = true then { st with dctx.xxh := xxh32Reset 0 }
        else st) = { st with dctx := { st.dctx with xxh := xxh } } ∧
      (desc.contentChecksum = true → Xxh32Absorbed 0 [] xxh) := by
    split_ifs with checked
    · exact ⟨_, rfl, fun _ => xxh32Absorbed_reset 0⟩
    · exact ⟨_, rfl, fun checks => absurd (knows.contentChecksumFlag.trans checks) checked⟩
  have knows_ {dctx : Lz4fDctx} (info : dctx.frameInfo = st.dctx.frameInfo)
      (block : dctx.maxBlockSize = st.dctx.maxBlockSize) : dctx.Knows desc := by
    refine ⟨?_, ?_, ?_, ?_, ?_⟩
    · rw [info, knows.blockMode]
    · rw [info, knows.blockChecksumFlag]
    · rw [info, knows.contentChecksumFlag]
    · rw [info, knows.contentSize]
    · rw [block, knows.maxBlockSize]
  have needed : (st.dctx.maxBlockSize +
      if st.dctx.frameInfo.blockMode = .linked then 131072 else 0) =
      desc.blockSize + if desc.linked then 131072 else 0 := by
    rw [size, knows.blockMode]
    cases desc.linked <;> rfl
  rw [lz4fInit, started]
  dsimp only
  rw [needed]
  by_cases more : st.dctx.maxBufferSize < desc.blockSize + if desc.linked then 131072 else 0
  · rw [if_pos more]
    have ends : AllocateEnds call { st with dctx := { st.dctx with xxh := xxh } }
        (desc.blockSize + if desc.linked then 131072 else 0) _ := lz4fAllocate_ends _ _
    generalize lz4fAllocate call { st with dctx := { st.dctx with xxh := xxh } }
      (desc.blockSize + if desc.linked then 131072 else 0) = outcome at ends
    cases ends with
    | failed tmpIn tmpOutBuffer heap =>
      obtain ⟨dropped, placed, header, owned⟩ : ∃ dropped : Lz4fBuffers,
          call.Places ours dropped ∧ bufs.header = dropped.header ∧ dropped.tmpIn = tmpIn ∧
            dropped.tmpOutBuffer = tmpOutBuffer ∧ dropped.maxBufferSize = 0 :=
        ⟨_, places.dropped tmpIn tmpOutBuffer, rfl, rfl, rfl, rfl⟩
      rw [header]
      refine .failed (by decide) placed (runs.buffers dropped header.symm _ ?_ false heap) (.inl rfl)
      exact ⟨owns.header.trans header, owned.1.symm, owned.2.1.symm, owned.2.2.symm⟩
    | done room some_ heap =>
      dsimp only at room
      have room_ : st.dctx.maxBlockSize + 4 = 2 ^ (8 + 2 * desc.blockSizeId) + 4 := by
        rw [size, desc.blockSize_eq]
      rw [room_] at room
      rw [desc.blockSize_eq] at some_
      obtain ⟨fresh, placed, header, owned⟩ : ∃ fresh : Lz4fBuffers,
          call.Places ours fresh ∧ bufs.header = fresh.header ∧
            fresh.tmpIn = call.alloc (st.dctx.maxBlockSize + 4) ∧
            fresh.tmpOutBuffer =
              call.alloc (desc.blockSize + if desc.linked then 131072 else 0) ∧
            fresh.maxBufferSize = desc.blockSize + if desc.linked then 131072 else 0 :=
        ⟨_, allocates desc.blockSizeId desc.linked desc.four_le desc.lt_eight room some_, rfl,
          congrArg _ room_.symm, rfl, rfl⟩
      rw [header]
      refine lz4fInit_begins placed (placed.allocated.covers (Nat.le_of_eq owned.2.2.symm))
        (knows_ rfl rfl) remaining none_ hash (runs.buffers fresh header.symm _ ?_ true heap) enough
      exact ⟨owns.header.trans header, owned.1.symm, owned.2.1.symm, owned.2.2.symm⟩
  · rw [if_neg more]
    have covers : bufs.Covers desc :=
      places.allocated.covers (owns.maxBufferSize ▸ Nat.not_lt.mp more)
    refine lz4fInit_begins places covers (knows_ rfl rfl) remaining none_ hash
      (runs.buffers bufs rfl _ ?_ true st.heap) enough
    exact ⟨owns.1, owns.2, owns.3, owns.4⟩

end Begins

end ZLoader
