import ZLoader.Soundness.Lz4FrameTurns

/-! # Packed blocks, turn by turn

A packed block is decoded right into the output, if there is room for the largest block, or else into
the buffer of the context, behind room for the history. It is refused only where no frame can have it.
-/

namespace ZLoader

section Packed

variable {call : Lz4fCall} {ours : Lz4fBuffers → Prop} {bufs : Lz4fBuffers} {memory : ByteStore}
  {before given input output content data : List UInt8} {st : Lz4fState} {desc : FrameDescriptor}
  {blocks : List FrameBlock} {bound : ℕ}

/-- A packed block is there, and its checksum. -/
structure Lz4fState.HasBlock (st : Lz4fState) (call : Lz4fCall) (bufs : Lz4fBuffers)
    (r : Lz4fRegion) (desc : FrameDescriptor) (data : List UInt8) (selectedIn : ℕ) : Prop where
  other : r ≠ .dst ∧ r ≠ .tmpOut
  nonnull : selectedIn ≠ 0
  low : (bufs.window call r).start ≤ selectedIn
  high : selectedIn + data.length ≤ (bufs.window call r).start + (bufs.window call r).length
  limit : selectedIn + data.length + 2 ^ 33 ≤ 2 ^ 64
  bytes : st.memory.bytesAt selectedIn data.length = data
  target : st.dctx.tmpInTarget = data.length
  positive : data.length ≠ 0
  small : data.length ≤ desc.blockSize

/-- The bytes of a frame with a packed block that is there. -/
def packedInput (desc : FrameDescriptor) (blocks : List FrameBlock) (data : List UInt8) :
    List UInt8 :=
  frameInput contentHash desc blocks ++
    (leBytes 4 data.length ++ (data ++ checkBytes contentHash desc.blockChecksums data))

/-- What the block decoder refuses is not a block of a frame. -/
theorem refuted_refused (fits : FrameBlocksFit desc [] blocks) (positive : data.length ≠ 0)
    (small : data.length ≤ desc.blockSize)
    (refused : ∀ block : SequenceBlock, block.EndsWell → data = block.bytes →
      Reaching (FrameBlock.history desc.linked (frameOutput desc blocks)).length block.sequences →
      ¬ block.size ≤ desc.blockSize) : Refuted contentHash (packedInput desc blocks data) :=
  refuted_packed fits positive small fun block fits_ ends same _ _ _ =>
    refused block ends same fits_.2.2 fits_.2.1

/-- What the block decoder accepts is the next block of a frame. -/
theorem packedInput_eq {block : SequenceBlock} (bytes : data = block.bytes) :
    packedInput desc blocks data = frameInput contentHash desc (blocks ++ [.packed block]) := by
  rw [frameInput_concat, FrameBlock.bytes, FrameBlock.header, FrameBlock.payload, ← bytes]
  rfl

section Decode

variable (places : call.Places ours bufs) {r : Lz4fRegion} {selectedIn : ℕ}
  (has : st.HasBlock call bufs r desc data selectedIn)
  (runs : st.Runs call memory before given true bufs (packedInput desc blocks data)
    (frameOutput desc blocks))
  (behind : Lz4fBehind bufs call.dstBuffer st.dstPtr st.memory st.dctx desc blocks
    (frameOutput desc blocks)) (enough : 2 * (call.srcEnd - st.srcPtr) < bound)

include places

theorem Lz4fBuffers.Covers.buffer (covers : bufs.Covers desc) :
    65536 ≤ bufs.tmpOutBuffer ∧ bufs.tmpIn ≠ 0 ∧
      bufs.tmpOutBuffer + bufs.maxBufferSize + 2 ^ 33 ≤ 2 ^ 64 ∧
      bufs.tmpIn + bufs.room + 2 ^ 33 ≤ 2 ^ 64 := by
  have large := covers.large.1
  rcases places.allocated with ⟨-, none_⟩ | ⟨id, -, -, -, -, low, nonnull, high, highIn⟩
  · omega
  · exact ⟨low, nonnull, high, highIn⟩

include has runs behind enough

theorem lz4fDecodeDirect_ends (room : st.dctx.maxBlockSize ≤ call.dstEnd - st.dstPtr) :
    Lz4fTurnEnds call ours memory before given bound bufs.header
      (lz4fDecodeDirect call st selectedIn) := by
  have owns := runs.owns
  have size := behind.knows.maxBlockSize
  have most := desc.blockSize_le
  have least := desc.le_blockSize
  have low := runs.dstLow
  have high := runs.dstHigh
  have dest := places.dest
  have limit := places.highDst
  have large := behind.covers.large.1
  have gap := places.gap (by omega)
  obtain ⟨first, -⟩ := behind.covers.buffer places
  have le := behind.dict.le_length
  rw [places.dstEnd, size] at room
  obtain ⟨result, memory', reads, writes, decodes, decoded⟩ :=
    lz4fDecodeBlock_decodes places runs selectedIn st.dstPtr (r := r)
      (q := .dst) has.other.1 (by decide) has.nonnull ⟨has.low, has.target ▸ has.high⟩
      (has.target ▸ has.positive) ⟨low, by rw [size]; dsimp only [Lz4fBuffers.window]; omega⟩
      (by omega) (by omega) (has.target ▸ has.limit)
      (by rw [has.target]; exact Nat.le_trans has.small (Nat.le_trans most (by omega)))
      (by omega) le behind.dict.all behind.dict.recent (by
        rcases behind.dict.place with none_ | ⟨same, inside⟩ | ⟨starts, ends⟩
        · exact .inl none_
        · by_cases none_ : st.dctx.dictSize = 0
          · exact .inl none_
          · exact .inr (.inr ⟨.tmpOut, by decide, show bufs.tmpOutBuffer ≠ 0 by omega,
              show bufs.tmpOutBuffer ≤ _ by omega,
              show _ ≤ bufs.tmpOutBuffer + bufs.maxBufferSize by omega, by omega⟩)
        · exact .inr (.inl ⟨starts, ends⟩))
  have moved : Lz4fState.Runs call memory before given true bufs (packedInput desc blocks data)
      (frameOutput desc blocks) { st with memory := memory', reads := reads, writes := writes } :=
    runs.change runs.owns decoded.confined fun index _ last => decoded.kept index (.inl last)
  rw [lz4fDecodeDirect, decodes]
  dsimp only
  by_cases negative : result < 0
  · rw [if_pos negative]
    refine .failed (by decide) places moved (.inr (runs.refuted (refuted_refused behind.fits has.positive has.small
      fun block ends same reaching => ?_)))
    rw [← size]
    exact decoded.refused negative block ends (by rw [has.target, has.bytes, same]) reaching
  rw [if_neg negative]
  obtain ⟨block, bytes, reaching, rfl, fits, output_⟩ := decoded.decoded (Int.not_lt.mp negative)
  rw [has.target, has.bytes] at bytes
  rw [size] at fits
  obtain ⟨new, named⟩ : ∃ new, new = block.decode
    (FrameBlock.history desc.linked (frameOutput desc blocks)) := ⟨_, rfl⟩
  have length : block.size = new.length := by rw [named, SequenceBlock.decode_length]
  rw [← named, length] at output_
  have behind_ : Lz4fBehind bufs call.dstBuffer st.dstPtr memory' st.dctx desc blocks
      (frameOutput desc blocks) := by
    refine behind.keep (fun index start stop => decoded.kept index ?_)
      fun index _ last => decoded.kept index (.inl last)
    omega
  obtain ⟨xxh, remaining, dict, dictSize, memory'', reads', writes', counted, given_, holds⟩ :=
    lz4fCountContent_gives places moved behind_ .dst
      (Window.inside_of_le low (show st.dstPtr + new.length ≤ call.dstBuffer + call.dstSize by omega))
      output_ output_ (show st.dstPtr + new.length ≤ _ by omega)
  have packed : (FrameBlock.packed block).Fits desc (frameOutput desc blocks) :=
    ⟨bytes ▸ has.small, fits, reaching⟩
  have content_ : frameOutput desc (blocks ++ [.packed block]) = _ := frameOutput_concat _
  rw [FrameBlock.decode, ← named] at content_
  rw [packedInput_eq bytes, ← content_] at given_
  rw [← content_] at holds
  have owns_ := given_.owns
  rw [length, Int.toNat_natCast]
  simp only [counted]
  refine .again places (given_.context ⟨owns_.1, owns_.2, owns_.3, owns_.4⟩)
    (.getBlockHeader rfl ((holds.concat _ packed).context rfl)) ?_
  rw [Lz4fState.left, if_neg (by simp [Lz4fState.enter])]
  exact enough

omit has enough in
/-- There is room for a block in the buffer, and the history stands in front of it, as far as it is
in the buffer. -/
theorem lz4fPlaceTmpOut_places :
    ∃ dict dictSize tmpOut memory' reads writes,
      lz4fPlaceTmpOut st = st.preserved dict dictSize tmpOut memory' reads writes ∧
      Lz4fMoves call bufs memory st memory' reads writes ∧
      DictHolds bufs call.dstBuffer st.dstPtr memory'
        (FrameBlock.history desc.linked (frameOutput desc blocks)) dict dictSize ∧
      (bufs.tmpOutBuffer ≤ tmpOut ∧
        tmpOut + desc.blockSize ≤ bufs.tmpOutBuffer + bufs.maxBufferSize) ∧
      (desc.linked = false → tmpOut = bufs.tmpOutBuffer) ∧
      (dict = bufs.tmpOutBuffer ∧ dict + dictSize = tmpOut ∨
        (dictSize = 0 ∨ call.dstBuffer ≤ dict ∧ dict + dictSize = st.dstPtr) ∧
          tmpOut = bufs.tmpOutBuffer + min dictSize 65536) := by
  have own := runs.owns.tmpOutBuffer
  have mode := behind.knows.blockMode
  have size := behind.covers.size
  have large := behind.covers.large.1
  have holds := behind.dict
  cases linked : desc.linked with
  | false =>
    rw [linked] at mode holds
    have none_ : st.dctx.dictSize = 0 := Nat.le_zero.mp holds.le_length
    have place := behind.tmpOut linked
    refine ⟨st.dctx.dict, st.dctx.dictSize, st.dctx.tmpOut, st.memory, st.reads, st.writes, ?_,
      runs.moves, holds, ⟨by omega, by omega⟩, fun _ => place, .inr ⟨.inl none_, by omega⟩⟩
    rw [lz4fPlaceTmpOut, if_neg (by rw [mode]; decide)]
    rfl
  | true =>
    rw [linked] at mode holds size
    rw [if_pos rfl] at mode size
    rw [lz4fPlaceTmpOut, if_pos mode]
    by_cases within : st.dctx.dict = st.dctx.tmpOutBuffer
    · rw [if_pos within]
      rw [own] at within
      have fits : st.dctx.dictSize ≤ bufs.maxBufferSize := by
        rcases holds.place with none_ | ⟨-, room⟩ | ⟨starts, ends⟩
        · omega
        · exact room
        · have none_ := places.empty_of_settled (by omega) runs (.inr ⟨starts, ends⟩) (.inl within)
          omega
      by_cases full : 131072 < st.dctx.dictSize
      · have recent := holds.recent
        have le := holds.le_length
        rw [show min st.dctx.dictSize 65536 = 65536 by omega] at recent
        refine ⟨st.dctx.tmpOutBuffer, 65536, st.dctx.tmpOutBuffer + 65536, _, _, _, ?_,
          runs.moves.copy .tmpOut (Window.inside_of_le
            (show bufs.tmpOutBuffer ≤ st.dctx.dict + st.dctx.dictSize - 65536 by omega)
            (show st.dctx.dict + st.dctx.dictSize - 65536 + 65536 ≤
              bufs.tmpOutBuffer + bufs.maxBufferSize by omega))
            (show bufs.tmpOutBuffer ≤ st.dctx.tmpOutBuffer by omega)
            (show st.dctx.tmpOutBuffer + 65536 ≤ _ by omega),
          ⟨.within own (by omega), by omega, by omega, ?_⟩, ⟨by omega, by omega⟩, nofun,
          .inl ⟨own, rfl⟩⟩
        · dsimp only
          rw [if_pos full]
          exact congrArg (fun dict => st.preserved dict _ _ _ _ _) (within.trans own.symm)
        · exact recent.copy st.dctx.tmpOutBuffer
      · refine ⟨st.dctx.dict, st.dctx.dictSize, st.dctx.tmpOutBuffer + st.dctx.dictSize, st.memory,
          st.reads, st.writes, ?_, runs.moves, holds, ⟨by omega, by omega⟩, nofun,
          .inl ⟨within, by omega⟩⟩
        dsimp only
        rw [if_neg full]
        rfl
    · rw [if_neg within]
      refine ⟨st.dctx.dict, st.dctx.dictSize, st.dctx.tmpOutBuffer + min st.dctx.dictSize 65536,
        st.memory, st.reads, st.writes, rfl, runs.moves, holds, ⟨by omega, by omega⟩, nofun,
        .inr ⟨?_, by rw [own]⟩⟩
      rcases holds.place with none_ | ⟨same, -⟩ | ⟨starts, ends⟩
      · exact .inl none_
      · exact absurd (same.trans own.symm) within
      · exact .inr ⟨starts, ends⟩

theorem lz4fDecodeWithin_ends :
    Lz4fTurnEnds call ours memory before given bound bufs.header
      (lz4fDecodeWithin call st selectedIn) := by
  obtain ⟨dict, dictSize, tmpOut, memory', reads, writes, placed, moves, holds, ⟨low, room⟩, unlinked,
    stands⟩ := lz4fPlaceTmpOut_places places runs behind
  have owns := runs.owns
  have knows := behind.knows
  have size := knows.maxBlockSize
  have most := desc.blockSize_le
  have least := desc.le_blockSize
  have below := runs.dstLow
  have limit := runs.dstHigh
  have dest := places.dest
  have large := behind.covers.large.1
  have gap := places.gap (by omega)
  obtain ⟨first, -, last, -⟩ := behind.covers.buffer places
  have moved : Lz4fState.Runs call memory before given true bufs (packedInput desc blocks data)
      (frameOutput desc blocks) (st.preserved dict dictSize tmpOut memory' reads writes) :=
    (runs.change runs.owns moves.confined fun index start stop => moves.kept index fun inside =>
      places.apart .tmpOut .dst (by decide) index inside
        ⟨start, Nat.lt_of_lt_of_le stop limit⟩).context ⟨owns.1, owns.2, owns.3, owns.4⟩
  have bytes_ : memory'.bytesAt selectedIn data.length = data := by
    refine (ByteStore.bytesAt_congr fun index inside => moves.kept _ fun within => ?_).trans has.bytes
    have start := has.low
    have stop := has.high
    exact places.apart r .tmpOut has.other.2 (selectedIn + index) ⟨by omega, by omega⟩ within
  have le := holds.le_length
  have target := has.target
  obtain ⟨result, memory'', reads', writes', decodes, decoded⟩ :=
    lz4fDecodeBlock_decodes places moved selectedIn tmpOut (r := r)
      (q := .tmpOut) has.other.2 (by decide) has.nonnull ⟨has.low, target ▸ has.high⟩
      (target ▸ has.positive)
      ⟨low, show tmpOut + st.dctx.maxBlockSize ≤ bufs.tmpOutBuffer + bufs.maxBufferSize by omega⟩
      (by omega) (show tmpOut + st.dctx.maxBlockSize + 2 ^ 33 ≤ 2 ^ 64 by omega)
      (target ▸ has.limit)
      (show st.dctx.tmpInTarget ≤ 2 ^ 24 by
        rw [target]; exact Nat.le_trans has.small (Nat.le_trans most (by omega)))
      (show 0 < st.dctx.maxBlockSize by omega) holds.le_length holds.all holds.recent (by
        by_cases none_ : dictSize = 0
        · exact .inl none_
        · rcases stands with ⟨same, ends⟩ | ⟨front, place⟩
          · exact .inr (.inl ⟨show bufs.tmpOutBuffer ≤ dict by omega, ends⟩)
          · obtain ⟨starts, ends⟩ := front.resolve_left none_
            exact .inr (.inr ⟨.dst, by decide, show call.dstBuffer ≠ 0 by omega,
              show call.dstBuffer ≤ dict from starts,
              show dict + dictSize ≤ call.dstBuffer + call.dstSize by omega,
              show dict + dictSize ≠ tmpOut by omega⟩))
  rw [lz4fDecodeWithin, placed]
  dsimp only
  rw [show (st.preserved dict dictSize tmpOut memory' reads writes).dctx.tmpOut = tmpOut from rfl,
    decodes]
  dsimp only
  have behind_ : ∀ index, call.dstBuffer ≤ index → index < st.dstPtr →
      memory'' index = memory' index := fun index start stop => decoded.kept index (by
    by_contra within
    exact places.apart .tmpOut .dst (by decide) index
      ⟨show bufs.tmpOutBuffer ≤ index by omega, by
        have inside : index < tmpOut + st.dctx.maxBlockSize := by
          change ¬ (index < tmpOut ∨ tmpOut + st.dctx.maxBlockSize ≤ index) at within
          omega
        exact Nat.lt_of_lt_of_le inside (by rw [size]; exact room)⟩
      ⟨start, Nat.lt_of_lt_of_le stop limit⟩)
  have after := moved.change moved.owns decoded.confined behind_
  by_cases negative : result < 0
  · rw [if_pos negative]
    refine .failed (by decide) places after (.inr (runs.refuted (refuted_refused behind.fits has.positive has.small
      fun block ends same reaching => ?_)))
    rw [← size]
    refine decoded.refused negative block ends ?_ reaching
    change memory'.bytesAt selectedIn st.dctx.tmpInTarget = _
    rw [target, bytes_, same]
  rw [if_neg negative]
  obtain ⟨block, bytes, reaching, rfl, fits, output_⟩ := decoded.decoded (Int.not_lt.mp negative)
  change memory'.bytesAt selectedIn st.dctx.tmpInTarget = _ at bytes
  change block.size ≤ st.dctx.maxBlockSize at fits
  rw [target, bytes_] at bytes
  rw [size] at fits
  obtain ⟨new, named⟩ : ∃ new, new = block.decode
    (FrameBlock.history desc.linked (frameOutput desc blocks)) := ⟨_, rfl⟩
  have length : block.size = new.length := by rw [named, SequenceBlock.decode_length]
  rw [← named, length] at output_
  have packed : (FrameBlock.packed block).Fits desc (frameOutput desc blocks) :=
    ⟨bytes ▸ has.small, fits, reaching⟩
  have content_ : frameOutput desc (blocks ++ [.packed block]) = _ := frameOutput_concat _
  rw [FrameBlock.decode, ← named] at content_
  rw [packedInput_eq bytes] at after
  obtain ⟨xxh, remaining, reads'', counted, loaded, counts⟩ :=
    @lz4fCountContent_counts (frameOutput desc blocks) new { st.preserved dict dictSize tmpOut memory' reads writes with
        memory := memory'', reads := reads', writes := writes' } desc
      ⟨knows.blockMode, knows.blockChecksumFlag, knows.contentChecksumFlag, knows.contentSize,
        knows.maxBlockSize⟩ ⟨behind.counts.remaining, behind.counts.hash⟩ tmpOut output_
  have window : (Window.mk tmpOut new.length).Inside (bufs.window call .tmpOut) :=
    Window.inside_of_le low (show tmpOut + new.length ≤ bufs.tmpOutBuffer + bufs.maxBufferSize by omega)
  have output_0 : frameOutput desc blocks = frameOutput desc blocks ++ new.take 0 := by
    rw [List.take_zero, List.append_nil]
  have flush : FlushHolds bufs call.dstBuffer st.dstPtr memory'' desc.linked
      (frameOutput desc blocks) new dict dictSize tmpOut 0 :=
    { low := low
      high := show tmpOut + new.length ≤ bufs.tmpOutBuffer + bufs.maxBufferSize by omega
      bytes := output_
      le := Nat.zero_le _
      unlinked := fun unlinked_ => by
        rw [FrameBlock.history, if_neg (by rw [unlinked_]; exact Bool.false_ne_true)] at le
        exact Nat.le_zero.mp le
      reserve := fun linked_ => by
        have all := holds.all
        rw [FrameBlock.history, if_pos linked_] at le all
        rcases stands with ⟨same, ends⟩ | ⟨-, place⟩ <;> omega
      history := fun linked_ => by
        rcases stands with ⟨same, ends⟩ | ⟨front, place⟩
        · have recent := holds.recent
          rw [FrameBlock.history, if_pos linked_, ends] at recent
          exact .within same (by omega) ((recent.mono (by omega)).congr fun index _ stop =>
            decoded.kept index (.inl stop))
        · have held := holds.all
          have recent := holds.recent
          rw [FrameBlock.history, if_pos linked_] at held recent le
          refine .kept ?_ front
          rw [← output_0]
          refine ⟨front.elim .empty fun place => .front place.1 place.2, le, held,
            recent.congr fun index start stop => ?_⟩
          exact behind_ index (by omega) (by omega) }
  have loaded_ : Lz4fState.Runs call memory before given true bufs
      (frameInput contentHash desc (blocks ++ [.packed block])) (frameOutput desc blocks)
      { st.preserved dict dictSize tmpOut memory' reads writes with
        memory := memory'', reads := reads'', writes := writes' } := by
    rcases loaded with rfl | rfl
    · exact after
    · exact after.load .tmpOut (.inl rfl) window
  rw [output_0] at loaded_
  rw [length, Int.toNat_natCast]
  refine Eq.mpr (congrArg (fun counted => Lz4fTurnEnds call ours memory before given bound bufs.header
    (lz4fFlushOut call { counted.enter .flushOut with
      dctx.tmpOutSize := new.length
      dctx.tmpOutStart := 0 })) counted) ?_
  have owns_ := moved.owns
  rw [← content_] at counts
  exact lz4fFlushOut_ends places ⟨knows.blockMode, knows.blockChecksumFlag, knows.contentChecksumFlag,
    knows.contentSize, knows.maxBlockSize⟩ behind.covers
    (loaded_.context ⟨owns_.1, owns_.2, owns_.3, owns_.4⟩) rfl
    ((frameBlocksFit_concat ..).mpr ⟨behind.fits, packed⟩) content_
    ⟨counts.remaining, counts.hash⟩ unlinked rfl flush enough

theorem lz4fDecodeData_ends :
    Lz4fTurnEnds call ours memory before given bound bufs.header
      (if st.dctx.maxBlockSize ≤ call.dstEnd - st.dstPtr then lz4fDecodeDirect call st selectedIn
      else lz4fDecodeWithin call st selectedIn) := by
  split_ifs with room
  · exact lz4fDecodeDirect_ends places has runs behind enough room
  · exact lz4fDecodeWithin_ends places has runs behind enough

end Decode

/-! ## Whole blocks -/

section Whole

variable (places : call.Places ours bufs) {size : ℕ} (positive : 0 < size) (small : size ≤ desc.blockSize)
  (target : st.dctx.tmpInTarget = size + if desc.blockChecksums then 4 else 0)

include places positive small target

theorem lz4fDecodeCBlock_ends {r : Lz4fRegion} {selectedIn : ℕ} (other : r ≠ .dst ∧ r ≠ .tmpOut)
    (nonnull : selectedIn ≠ 0) (low : (bufs.window call r).start ≤ selectedIn)
    (high : selectedIn + st.dctx.tmpInTarget ≤
      (bufs.window call r).start + (bufs.window call r).length)
    (limit : selectedIn + st.dctx.tmpInTarget + 2 ^ 33 ≤ 2 ^ 64)
    (runs : st.Runs call memory before given true bufs
      (frameInput contentHash desc blocks ++
        (leBytes 4 size ++ st.memory.bytesAt selectedIn st.dctx.tmpInTarget))
      (frameOutput desc blocks))
    (behind : Lz4fBehind bufs call.dstBuffer st.dstPtr st.memory st.dctx desc blocks
      (frameOutput desc blocks)) (enough : 2 * (call.srcEnd - st.srcPtr) < bound) :
    Lz4fTurnEnds call ours memory before given bound bufs.header
      (lz4fDecodeCBlock call st selectedIn) := by
  have owns := runs.owns
  have flag := behind.knows.blockChecksumFlag
  obtain ⟨data, named⟩ : ∃ data, data = st.memory.bytesAt selectedIn size := ⟨_, rfl⟩
  have length : data.length = size := by rw [named, ByteStore.bytesAt_length]
  rw [lz4fDecodeCBlock]
  dsimp only
  cases checks : desc.blockChecksums with
  | false =>
    rw [checks, if_neg Bool.false_ne_true, Nat.add_zero] at target
    have input_ : frameInput contentHash desc blocks ++
        (leBytes 4 size ++ st.memory.bytesAt selectedIn size) = packedInput desc blocks data := by
      rw [packedInput, checks, checkBytes, if_neg Bool.false_ne_true, List.append_nil, length, named]
    rw [target] at high limit
    rw [target, input_] at runs
    have unchecked : st.dctx.frameInfo.blockChecksumFlag = false := flag.trans checks
    rw [unchecked, if_neg Bool.false_ne_true]
    exact lz4fDecodeData_ends places (r := r) ⟨other, nonnull, low, length ▸ high, length ▸ limit,
      by rw [length, named], target.trans length.symm, by omega, by omega⟩ runs behind enough
  | true =>
    rw [checks, if_pos rfl] at target
    have checked : st.dctx.frameInfo.blockChecksumFlag = true := flag.trans checks
    have size_ : st.dctx.tmpInTarget - 4 = size := by omega
    rw [if_pos checked, size_]
    have bound_ := st.memory.readLE_lt (selectedIn + size) 4
    rw [target] at high limit
    rw [target, ByteStore.bytesAt_add, ← named, ← ByteStore.leBytes_readLE] at runs
    have behind_ : (Window.mk (selectedIn + size) 4).Inside (bufs.window call r) :=
      Window.inside_of_le (by dsimp only; omega) (by dsimp only; omega)
    have inside : (Window.mk selectedIn size).Inside (bufs.window call r) :=
      Window.inside_of_le low (by dsimp only; omega)
    have moved : Lz4fState.Runs call memory before given true bufs _ _
        { (st.load (selectedIn + size) 4).load selectedIn size with
          dctx := { st.dctx with tmpInTarget := size } } :=
      ((runs.load r (.inl rfl) behind_).load r (.inl rfl) inside).context
        ⟨owns.1, owns.2, owns.3, owns.4⟩
    have equal : st.memory.u32 (selectedIn + size) = xxh32 (st.memory.from_ selectedIn) size 0 ↔
        st.memory.readLE (selectedIn + size) 4 = (contentHash data).toNat := by
      rw [xxh32_from, ← named, ← UInt32.toNat_inj, u32_toNat]
    by_cases same : st.memory.u32 (selectedIn + size) = xxh32 (st.memory.from_ selectedIn) size 0
    · rw [show (((st.load (selectedIn + size) 4).load selectedIn size).memory.u32 (selectedIn + size) ==
        xxh32 (((st.load (selectedIn + size) 4).load selectedIn size).memory.from_ selectedIn) size 0) =
          true from beq_iff_eq.mpr same]
      have input_ : frameInput contentHash desc blocks ++ (leBytes 4 size ++
          (data ++ leBytes 4 (st.memory.readLE (selectedIn + size) 4))) =
          packedInput desc blocks data := by
        rw [packedInput, checks, checkBytes, if_pos rfl, length, equal.mp same]
      rw [input_] at moved
      exact lz4fDecodeData_ends places (r := r) ⟨other, nonnull, low, by omega, by omega,
        by rw [length]; exact named.symm, length.symm, by omega, by omega⟩ moved
        (behind.context rfl) enough
    · rw [show (((st.load (selectedIn + size) 4).load selectedIn size).memory.u32 (selectedIn + size) ==
        xxh32 (((st.load (selectedIn + size) 4).load selectedIn size).memory.from_ selectedIn) size 0) =
          false from beq_eq_false_iff_ne.mpr same]
      refine .failed (by decide) places moved (.inr (runs.refuted ?_))
      rw [← length]
      refine refuted_packed behind.fits (by omega) (by omega) fun block _ _ _ rest tail other => ?_
      rw [checkBytes, if_pos checks, length] at other
      exact same (equal.mpr (leBytes_append_injective 4 bound_ (UInt32.toNat_lt _) other).1)

theorem lz4fGetCBlock_ends
    (runs : st.Runs call memory before given true bufs
      (frameInput contentHash desc blocks ++ leBytes 4 size) (frameOutput desc blocks))
    (behind : Lz4fBehind bufs call.dstBuffer st.dstPtr st.memory st.dctx desc blocks
      (frameOutput desc blocks)) (enough : 2 * (call.srcEnd - st.srcPtr) < bound) :
    Lz4fTurnEnds call ours memory before given bound bufs.header (lz4fGetCBlock call st) := by
  have owns := runs.owns
  have low := runs.srcLow
  have high := runs.srcHigh
  have nonnull := places.source
  have limit := places.highSrc
  rw [lz4fGetCBlock]
  split_ifs with short
  · rw [← List.append_nil (leBytes 4 size)] at runs
    refine .again places (runs.context ⟨owns.1, owns.2, owns.3, owns.4⟩)
      (.storeCBlock rfl (behind.context rfl) positive small target ?_) ?_
    · exact target ▸ Nat.add_pos_left positive _
    · rw [Lz4fState.left, if_neg (by simp [Lz4fState.enter])]
      exact enough
  · have taken := runs.skip st.dctx.tmpInTarget (by omega)
    rw [← runs.source places low (by omega), List.append_assoc] at taken
    rw [Lz4fCall.srcEnd] at high short limit
    refine lz4fDecodeCBlock_ends places positive small
      (show (st.skip st.dctx.tmpInTarget).dctx.tmpInTarget = _ from target)
      (r := .src) ⟨by decide, by decide⟩ (by omega) low ?_ ?_ taken behind ?_
    · change st.srcPtr + st.dctx.tmpInTarget ≤ call.srcBuffer + call.srcSize
      omega
    · change st.srcPtr + st.dctx.tmpInTarget + 2 ^ 33 ≤ 2 ^ 64
      omega
    · refine Nat.lt_of_le_of_lt ?_ enough
      change 2 * (call.srcEnd - (st.srcPtr + st.dctx.tmpInTarget)) ≤ _
      omega

theorem lz4fStoreCBlock_ends
    (runs : st.Runs call memory before given true bufs
      (frameInput contentHash desc blocks ++
        (leBytes 4 size ++ st.memory.bytesAt bufs.tmpIn st.dctx.tmpInSize))
      (frameOutput desc blocks)) (stage : st.dctx.dStage = .storeCBlock)
    (behind : Lz4fBehind bufs call.dstBuffer st.dstPtr st.memory st.dctx desc blocks
      (frameOutput desc blocks)) (more : st.dctx.tmpInSize < st.dctx.tmpInTarget)
    (enough : 2 * (call.srcEnd - st.srcPtr) ≤ bound) :
    Lz4fTurnEnds call ours memory before given bound bufs.header (lz4fStoreCBlock call st) := by
  have room := behind.covers.room
  have high := runs.srcHigh
  have owned := runs.owns.tmpIn
  have most := desc.blockSize_le
  obtain ⟨-, nonnull, -, limit⟩ := behind.covers.buffer places
  have four : st.dctx.tmpInTarget ≤ size + 4 := by split_ifs at target <;> omega
  obtain ⟨count, stores, stored⟩ := runs.store places bufs.tmpIn
    (st.dctx.tmpInTarget - st.dctx.tmpInSize) .tmpIn ⟨.inl rfl, by decide⟩ (by decide)
    (Nat.le_refl _) (by dsimp only [Lz4fBuffers.window]; omega)
  have behind_ := stores.behind places runs ⟨by decide, by decide⟩ behind
  rw [List.append_assoc, List.append_assoc, ← stores.bytes] at stored
  have le := stores.le
  have all := stores.all
  have after : (st.stored bufs.tmpIn count).srcPtr = st.srcPtr + count := rfl
  have high' := stored.srcHigh
  rw [lz4fStoreCBlock, owned, stores.result]
  by_cases short : st.dctx.tmpInSize + count < st.dctx.tmpInTarget
  · rw [if_pos (show (st.stored bufs.tmpIn count).dctx.tmpInSize <
      (st.stored bufs.tmpIn count).dctx.tmpInTarget from short)]
    have wants (crc : ℕ) (le : crc ≤ 4) :
        st.dctx.tmpInTarget - (st.dctx.tmpInSize + count) + crc + 4 ≠ 0 ∧
          st.dctx.tmpInTarget - (st.dctx.tmpInSize + count) + crc + 4 < 2 ^ 33 := by omega
    refine .stop places stored (.storeCBlock stage (behind_.context rfl) positive small target short)
      (wants _ ?_) (.inl (by omega))
    split_ifs <;> omega
  · rw [if_neg (show ¬ (st.stored bufs.tmpIn count).dctx.tmpInSize <
      (st.stored bufs.tmpIn count).dctx.tmpInTarget from short),
      show (st.stored bufs.tmpIn count).dctx.tmpIn = bufs.tmpIn from owned]
    have whole : st.dctx.tmpInSize + count = st.dctx.tmpInTarget := by omega
    rw [whole] at stored
    refine lz4fDecodeCBlock_ends places positive small
      (show (st.stored bufs.tmpIn count).dctx.tmpInTarget = _ from target)
      (r := .tmpIn) ⟨by decide, by decide⟩ nonnull (Nat.le_refl _) ?_ ?_ stored
      (behind_.context rfl) ?_
    · change bufs.tmpIn + st.dctx.tmpInTarget ≤ bufs.tmpIn + bufs.room
      omega
    · change bufs.tmpIn + st.dctx.tmpInTarget + 2 ^ 33 ≤ 2 ^ 64
      omega
    · omega

end Whole

end Packed

end ZLoader
