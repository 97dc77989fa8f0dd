import ZLoader.Soundness.Lz4Decoding
import ZLoader.Soundness.Lz4FrameHistory

/-! # Compressed blocks of a frame

The block decoder is called with the history of the context, or with the last 64 KiB of a history of
more than a gigabyte. Wherever the history stands, the block is decoded as the format says behind
all the data that has been decoded before.
-/

namespace ZLoader

section Arguments

variable (fast : Bool) (source dest compressedSize maxOutputSize dictStart dictSize : ℕ)

theorem lz4UsingDict_input :
    (lz4UsingDict fast source dest compressedSize maxOutputSize dictStart dictSize).src = source ∧
      (lz4UsingDict fast source dest compressedSize maxOutputSize dictStart dictSize).srcSize =
        compressedSize := by
  rw [lz4UsingDict]
  dsimp only
  split_ifs <;> exact ⟨rfl, rfl⟩

theorem lz4UsingDict_output :
    (lz4UsingDict fast source dest compressedSize maxOutputSize dictStart dictSize).dst = dest ∧
      (lz4UsingDict fast source dest compressedSize maxOutputSize dictStart dictSize).outputSize =
        maxOutputSize := by
  rw [lz4UsingDict]
  dsimp only
  split_ifs <;> exact ⟨rfl, rfl⟩

end Arguments

/-- The windows that a call with a dictionary may read. -/
theorem DictPlaced.readable {source dest compressedSize maxOutputSize dictStart dictSize : ℕ}
    (placed : DictPlaced source dest compressedSize maxOutputSize dictStart dictSize) (fast : Bool)
    {window : Window}
    (readable : (lz4UsingDict fast source dest compressedSize maxOutputSize dictStart
      dictSize).Readable window) :
    (source ≤ window.start ∧ window.start + window.length ≤ source + compressedSize) ∨
      (dest ≤ window.start ∧ window.start + window.length ≤ dest + maxOutputSize) ∨
      (dictSize ≠ 0 ∧ dictStart + dictSize = dest ∧ dictStart ≤ window.start ∧
        window.start + window.length ≤ dest + maxOutputSize) ∨
      (dictSize ≠ 0 ∧ dictStart + dictSize ≠ dest ∧ dictStart ≤ window.start ∧
        window.start + window.length ≤ dictStart + dictSize) := by
  have low := placed.low
  rw [lz4UsingDict] at readable
  dsimp only at readable
  simp only [Lz4Call.Readable, Lz4Call.historyStart, Lz4Call.iend, Lz4Call.oend] at readable
  split_ifs at readable <;> simp_all <;> omega

section Blocks

variable {call : Lz4fCall} {ours : Lz4fBuffers → Prop} {bufs : Lz4fBuffers} {memory : ByteStore}
  {before given input output data : List UInt8} {st : Lz4fState}

/-- The dictionary that is handed to the block decoder. -/
theorem lz4fDecodeBlock_dict (call : Lz4fCall) (st : Lz4fState) (selectedIn dst : ℕ) :
    ∃ dict dictSize, lz4fDecodeBlock call st selectedIn dst =
        (match lz4DecompressGeneric (lz4UsingDict call.fastDecLoop selectedIn dst
          st.dctx.tmpInTarget st.dctx.maxBlockSize dict dictSize) st.memory with
        | .returned result block =>
            some (result,
              { st with
                memory := block.memory
                reads := block.reads ++ st.reads
                writes := block.writes ++ st.writes })
        | .running _ => none) ∧
      dict + dictSize = st.dctx.dict + st.dctx.dictSize ∧ st.dctx.dict ≤ dict ∧
      (dictSize = st.dctx.dictSize ∨ dictSize = 65536 ∧ 65536 ≤ st.dctx.dictSize) := by
  rw [lz4fDecodeBlock]
  cases cut : (decide (st.dctx.dict ≠ 0) && decide (2 ^ 30 < st.dctx.dictSize)) with
  | false => exact ⟨_, _, rfl, rfl, Nat.le_refl _, .inl rfl⟩
  | true =>
    rw [Bool.and_eq_true, decide_eq_true_iff, decide_eq_true_iff] at cut
    refine ⟨_, _, rfl, ?_, Nat.le_add_right .., .inr ⟨rfl, by omega⟩⟩
    change st.dctx.dict + (st.dctx.dictSize - 65536) + 65536 = _
    omega

/-- What a call of the block decoder leaves, and what it says about its input. -/
structure DecodesBlock (call : Lz4fCall) (bufs : Lz4fBuffers) (memory : ByteStore)
    (data : List UInt8) (selectedIn dst : ℕ) (st : Lz4fState) (result : ℤ) (memory' : ByteStore)
    (reads writes : List Window) : Prop where
  confined : Lz4fConfined call bufs true memory memory' reads writes
  kept : ∀ index, index < dst ∨ dst + st.dctx.maxBlockSize ≤ index → memory' index = st.memory index
  decoded : 0 ≤ result → ∃ block : SequenceBlock,
    st.memory.bytesAt selectedIn st.dctx.tmpInTarget = block.bytes ∧
    Reaching data.length block.sequences ∧ result = block.size ∧
    block.size ≤ st.dctx.maxBlockSize ∧ memory'.bytesAt dst block.size = block.decode data
  refused : result < 0 → ∀ block : SequenceBlock, block.EndsWell →
    st.memory.bytesAt selectedIn st.dctx.tmpInTarget = block.bytes →
    Reaching data.length block.sequences → ¬ block.size ≤ st.dctx.maxBlockSize

theorem lz4fDecodeBlock_decodes (places : call.Places ours bufs)
    (runs : st.Runs call memory before given true bufs input output) {r q : Lz4fRegion}
    (selectedIn dst : ℕ) (other : r ≠ q) (writable : q ≠ .src) (source : selectedIn ≠ 0)
    (from_ : (bufs.window call r).start ≤ selectedIn ∧
      selectedIn + st.dctx.tmpInTarget ≤ (bufs.window call r).start + (bufs.window call r).length)
    (some_ : st.dctx.tmpInTarget ≠ 0)
    (to_ : (bufs.window call q).start ≤ dst ∧
      dst + st.dctx.maxBlockSize ≤ (bufs.window call q).start + (bufs.window call q).length)
    (low : 65536 ≤ dst) (high : dst + st.dctx.maxBlockSize + 2 ^ 33 ≤ 2 ^ 64)
    (highIn : selectedIn + st.dctx.tmpInTarget + 2 ^ 33 ≤ 2 ^ 64)
    (short : st.dctx.tmpInTarget ≤ 2 ^ 24) (positive : 0 < st.dctx.maxBlockSize)
    (le : st.dctx.dictSize ≤ data.length)
    (all : st.dctx.dictSize < 65536 → st.dctx.dictSize = data.length)
    (recent : Recalls st.memory (st.dctx.dict + st.dctx.dictSize) (min st.dctx.dictSize 65536) data)
    (stands : st.dctx.dictSize = 0 ∨
      ((bufs.window call q).start ≤ st.dctx.dict ∧ st.dctx.dict + st.dctx.dictSize = dst) ∨
      (∃ p, p ≠ q ∧ (bufs.window call p).start ≠ 0 ∧ (bufs.window call p).start ≤ st.dctx.dict ∧
        st.dctx.dict + st.dctx.dictSize ≤ (bufs.window call p).start + (bufs.window call p).length ∧
        st.dctx.dict + st.dctx.dictSize ≠ dst)) :
    ∃ result memory' reads writes, lz4fDecodeBlock call st selectedIn dst =
        some (result, { st with memory := memory', reads := reads, writes := writes }) ∧
      DecodesBlock call bufs memory data selectedIn dst st result memory' reads writes := by
  obtain ⟨dict, dictSize, decodes, ends, after, size⟩ := lz4fDecodeBlock_dict call st selectedIn dst
  have regions := places.apart.cases other
  have apart : selectedIn + st.dctx.tmpInTarget ≤ dst ∨ dst + st.dctx.maxBlockSize ≤ selectedIn := by
    clear stands
    omega
  have placed : DictPlaced selectedIn dst st.dctx.tmpInTarget st.dctx.maxBlockSize dict dictSize := by
    refine ⟨source, low, high, highIn, apart, ?_⟩
    rcases stands with none_ | ⟨start, prefix_⟩ | ⟨p, away, nonnull, start, limit, gap⟩
    · exact .inl (by omega)
    · exact .inr (.inl (by omega))
    · have others := places.apart.cases away
      rcases Nat.eq_zero_or_pos dictSize with none_ | some_
      · exact .inl none_
      · exact .inr (.inr ⟨by omega, by omega⟩)
  -- what is read of the history lies in the region of the output or in another one
  have reads_ {window : Window} (readable : (lz4UsingDict call.fastDecLoop selectedIn dst
      st.dctx.tmpInTarget st.dctx.maxBlockSize dict dictSize).Readable window) :
      ∃ r : Lz4fRegion, r.Readable true ∧ window.Inside (bufs.window call r) := by
    rcases placed.readable call.fastDecLoop readable with input_ | output_ |
      ⟨some_, prefix_, first, last⟩ | ⟨some_, behind, first, last⟩
    · exact ⟨r, .inl rfl, Window.inside_of_le (by omega) (by omega)⟩
    · exact ⟨q, .inl rfl, Window.inside_of_le (by omega) (by omega)⟩
    · rcases stands with none_ | ⟨start, -⟩ | ⟨p, away, nonnull, start, limit, gap⟩
      · omega
      · exact ⟨q, .inl rfl, Window.inside_of_le (by omega) (by omega)⟩
      · omega
    · rcases stands with none_ | ⟨start, ends_⟩ | ⟨p, away, nonnull, start, limit, gap⟩
      · omega
      · omega
      · exact ⟨p, .inl rfl, Window.inside_of_le (by omega) (by omega)⟩
  obtain ⟨src, srcSize⟩ := lz4UsingDict_input call.fastDecLoop selectedIn dst st.dctx.tmpInTarget
    st.dctx.maxBlockSize dict dictSize
  obtain ⟨dst_, outputSize⟩ := lz4UsingDict_output call.fastDecLoop selectedIn dst
    st.dctx.tmpInTarget st.dctx.maxBlockSize dict dictSize
  have outcome := lz4DecompressGeneric_ends (placed.placed call.fastDecLoop st.memory)
  generalize lz4UsingDict call.fastDecLoop selectedIn dst st.dctx.tmpInTarget st.dctx.maxBlockSize
    dict dictSize = decoder at decodes reads_ src srcSize dst_ outputSize outcome
  have confined {block : Lz4State} (contained : block.Contained decoder st.memory) :
      Lz4fConfined call bufs true memory block.memory (block.reads ++ st.reads)
        (block.writes ++ st.writes) := by
    have writes (window : Window) (writable_ : decoder.Writable window) :
        window.Inside (bufs.window call q) := by
      rw [Lz4Call.Writable, Lz4Call.oend, dst_, outputSize] at writable_
      exact Window.inside_of_le (by omega) (by omega)
    refine runs.confined.join ⟨fun window member => reads_ (contained.reads window member),
      fun window member => ⟨q, ⟨.inl rfl, writable⟩, writes window (contained.writes window member)⟩,
      fun index outside => contained.frame index ?_⟩
    have away := outside q ⟨.inl rfl, writable⟩
    rw [Lz4Call.oend, dst_, outputSize]
    by_contra within
    exact away ⟨by omega, by omega⟩
  have held : dictSize ≤ data.length ∧ (dictSize < 65536 → dictSize = data.length) ∧
      min dictSize 65536 = min st.dctx.dictSize 65536 := by
    clear stands
    omega
  rw [← ends, ← held.2.2] at recent
  have reaching_ := reaching_iff_of_held held.1 held.2.1
  have history := ByteStore.bytesAt_length st.memory dict dictSize
  have short_ : decoder.Short := srcSize.trans_le short
  generalize lz4DecompressGeneric decoder st.memory = returned at decodes outcome
  cases outcome with
  | @decoded block state contained bytes reaching room output_ =>
    rw [src, srcSize] at bytes
    rw [history] at reaching
    rw [outputSize] at room
    rw [dst_, recent.decode reaching] at output_
    exact ⟨_, _, _, _, decodes,
      { confined := confined contained
        kept := fun index outside => contained.frame index (by
          rwa [Lz4Call.oend, dst_, outputSize])
        decoded := fun _ => ⟨block, bytes short_, (reaching_ _).mp reaching, rfl, room, output_⟩
        refused := fun negative => absurd negative (by omega) }⟩
  | @refused result state contained negative refuses =>
    refine ⟨_, _, _, _, decodes,
      { confined := confined contained
        kept := fun index outside => contained.frame index (by
          rwa [Lz4Call.oend, dst_, outputSize])
        decoded := fun success => absurd success (Int.not_le.mpr negative)
        refused := fun _ block endsWell bytes reaching room => ?_ }⟩
    refine refuses short_ (outputSize ▸ positive) ⟨block, ?_, ?_, ?_, endsWell⟩
    · rw [Lz4Call.ahead, Lz4Call.iend, Nat.add_sub_cancel_left, src, srcSize, bytes]
    · rw [history]
      exact (reaching_ _).mpr reaching
    · rw [outputSize]
      exact Nat.add_le_add_left room _

end Blocks

end ZLoader
