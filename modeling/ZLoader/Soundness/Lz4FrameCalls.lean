import ZLoader.Soundness.Lz4FrameRuns

/-! # Call after call

Between two calls the context and its buffers hold all that the decoder needs, so what has been taken
and given by then does not depend on how a stream is cut into calls.
-/

namespace ZLoader

section Calls

variable {call : Lz4fCall} {ours : Lz4fBuffers → Prop} {bufs : Lz4fBuffers}
  {memory memory' : ByteStore} {tmp : Bool}
  {before given input output content : List UInt8} {st : Lz4fState} {dctx : Lz4fDctx}
  {desc : FrameDescriptor} {blocks : List FrameBlock}

/-! ## Into a call -/

/-- What belongs to the context stays. -/
def Lz4fBuffers.Keep (bufs : Lz4fBuffers) (memory memory' : ByteStore) : Prop :=
  ∀ index, ((Window.mk bufs.header 19).Contains index ∨ (Window.mk bufs.tmpIn bufs.room).Contains index ∨
    (Window.mk bufs.tmpOutBuffer bufs.maxBufferSize).Contains index) → memory' index = memory index

section Keep

variable (keep : bufs.Keep memory memory')

include keep

theorem Lz4fBuffers.Keep.header {start count : ℕ} (low : bufs.header ≤ start)
    (high : start + count ≤ bufs.header + 19) :
    memory'.bytesAt start count = memory.bytesAt start count :=
  ByteStore.bytesAt_congr fun _ _ => keep _ (.inl (Window.contains_mk.mpr (by omega)))

theorem Lz4fBuffers.Keep.tmpIn {count : ℕ} (high : count ≤ bufs.room) :
    memory'.bytesAt bufs.tmpIn count = memory.bytesAt bufs.tmpIn count :=
  ByteStore.bytesAt_congr fun _ _ => keep _ (.inr (.inl (Window.contains_mk.mpr (by omega))))

theorem Lz4fBuffers.Keep.tmpOut {index : ℕ} (low : bufs.tmpOutBuffer ≤ index)
    (high : index < bufs.tmpOutBuffer + bufs.maxBufferSize) : memory' index = memory index :=
  keep _ (.inr (.inr (Window.contains_mk.mpr ⟨low, high⟩)))

theorem Lz4fBehind.enter (start : ℕ)
    (behind : Lz4fBehind bufs 0 0 memory dctx desc blocks content) :
    Lz4fBehind bufs start start memory' dctx desc blocks content :=
  { behind with
    dict := (behind.dict.enter start start).congr (fun _ low high => keep.tmpOut low high)
      fun _ low high => absurd high (Nat.not_lt.mpr low) }

theorem FlushHolds.stay {linked : Bool} {old block : List UInt8}
    {start dict dictSize tmpOut tmpOutStart : ℕ}
    (holds : FlushHolds bufs start start memory linked old block dict dictSize tmpOut tmpOutStart) :
    FlushHolds bufs start start memory' linked old block dict dictSize tmpOut tmpOutStart := by
  have low := holds.low
  have high := holds.high
  refine { holds with bytes := ?_, history := fun linked_ => ?_ }
  · exact (ByteStore.bytesAt_congr fun _ _ => keep.tmpOut (by omega) (by omega)).trans holds.bytes
  · rcases holds.history linked_ with ⟨dictHolds, outside⟩ | ⟨same, size, recent⟩
    · exact .kept (dictHolds.congr (fun _ low high => keep.tmpOut low high)
        fun _ low high => absurd high (Nat.not_lt.mpr low)) outside
    · exact .within same size (recent.congr fun _ _ _ => keep.tmpOut (by omega) (by omega))

/-- A call begins where the one before it ended. -/
theorem Lz4fHolds.enter (start : ℕ) (holds : Lz4fHolds bufs 0 0 memory dctx tmp input output) :
    Lz4fHolds bufs start start memory' dctx tmp input output := by
  cases holds with
  | getFrameHeader stage ready => exact .getFrameHeader stage ready
  | storeFrameHeader stage ready more target =>
    have limits : dctx.tmpInTarget ≤ 19 := by
      rcases target with seven | ⟨-, -, size⟩
      · omega
      · rw [size]
        exact (Lz4fFlags.frameHeaderSize_bounds _).2
    have magic : memory'.readLE bufs.header 4 = memory.readLE bufs.header 4 :=
      ByteStore.readLE_of_same fun k small => keep _ (.inl (Window.contains_mk.mpr (by omega)))
    have flags : memory' (bufs.header + 4) = memory (bufs.header + 4) :=
      keep _ (.inl (Window.contains_mk.mpr (by omega)))
    rw [← keep.header (Nat.le_refl _) (by omega)]
    rw [← magic, ← flags] at target
    exact .storeFrameHeader stage ready more target
  | init stage knows remaining none_ => exact .init stage knows remaining none_
  | getBlockHeader stage behind => exact .getBlockHeader stage (behind.enter keep start)
  | storeBlockHeader stage behind more =>
    have room := behind.covers.room
    rw [← keep.tmpIn (by omega)]
    exact .storeBlockHeader stage (behind.enter keep start) more
  | copyDirect stage behind small check =>
    exact .copyDirect stage (behind.enter keep start) small check
  | getBlockChecksum stage behind small checked check more =>
    rw [← keep.header (Nat.le_refl _) (by omega)]
    exact .getBlockChecksum stage (behind.enter keep start) small checked check more
  | getCBlock stage behind positive small target =>
    exact .getCBlock stage (behind.enter keep start) positive small target
  | storeCBlock stage behind positive small target more =>
    have room := behind.covers.room
    rw [← keep.tmpIn (by split_ifs at target <;> omega)]
    exact .storeCBlock stage (behind.enter keep start) positive small target more
  | flushOut stage knows fits covers all counts tmpOut size flush =>
    exact .flushOut stage knows fits covers all counts tmpOut size
      ((flush.enter start start).stay keep)
  | getSuffix stage knows fits covers counts => exact .getSuffix stage knows fits covers counts
  | storeSuffix stage fits covers remaining sized checked hash more =>
    have room := covers.room
    rw [← keep.tmpIn (by omega)]
    exact .storeSuffix stage fits covers remaining sized checked hash more
  | getSFrameSize stage low ready => exact .getSFrameSize stage low ready
  | storeSFrameSize stage low ready four more target =>
    rw [← keep.header (Nat.le_add_right ..) (by omega)]
    exact .storeSFrameSize stage low ready four more target
  | skipSkippable stage low ready small => exact .skipSkippable stage low ready small

end Keep

/-! ## Out of a call -/

theorem lz4fPreserveHistory_early (early : st.dctx.dStage.ctorIdx < 2 ∨ 10 ≤ st.dctx.dStage.ctorIdx) :
    lz4fPreserveHistory call st = st := by
  rw [lz4fPreserveHistory]
  dsimp only
  refine if_neg ?_
  rintro ⟨_, _, _, _, valid⟩
  rw [Bool.and_eq_true, decide_eq_true_iff, decide_eq_true_iff] at valid
  have suffix : Lz4fStage.getSuffix.ctorIdx = 10 := rfl
  omega

section Preserve

variable (places : call.Places ours bufs) (unstable : call.stableDst = false)
  (runs : st.Runs call memory before given tmp bufs input output)

include places

/-- A move of the history keeps the rest of the context. -/
theorem Lz4fMoves.moved {dict dictSize tmpOut : ℕ} {reads writes : List Window}
    (runs : st.Runs call memory before given true bufs input output)
    (moves : Lz4fMoves call bufs memory st memory' reads writes) :
    Lz4fState.Runs call memory before given true bufs input output
      (st.preserved dict dictSize tmpOut memory' reads writes) := by
  have owns := runs.owns
  exact (runs.change owns moves.confined fun index first last => moves.kept index fun within =>
    places.apart .tmpOut .dst (by decide) index within
      ⟨first, Nat.lt_of_lt_of_le last runs.dstHigh⟩).context ⟨owns.1, owns.2, owns.3, owns.4⟩

theorem Lz4fMoves.outside {reads writes : List Window}
    (moves : Lz4fMoves call bufs memory st memory' reads writes) (r : Lz4fRegion) (other : r ≠ .tmpOut)
    {start count : ℕ} (low : (bufs.window call r).start ≤ start)
    (high : start + count ≤ (bufs.window call r).start + (bufs.window call r).length) :
    memory'.bytesAt start count = st.memory.bytesAt start count :=
  ByteStore.bytesAt_congr fun index inside => moves.kept _ fun within =>
    places.apart r .tmpOut other (start + index) ⟨by omega, by omega⟩ within

include unstable runs

theorem Lz4fBehind.preserve
    (valid : 2 ≤ st.dctx.dStage.ctorIdx ∧ st.dctx.dStage.ctorIdx < 9) (used : tmp = true)
    (behind : Lz4fBehind bufs call.dstBuffer st.dstPtr st.memory st.dctx desc blocks content) :
    ∃ dict dictSize tmpOut memory' reads writes,
      lz4fPreserveHistory call st = st.preserved dict dictSize tmpOut memory' reads writes ∧
      Lz4fMoves call bufs memory st memory' reads writes ∧
      Lz4fBehind bufs 0 0 memory' (st.preserved dict dictSize tmpOut memory' reads writes).dctx desc
        blocks content := by
  subst used
  obtain ⟨dict, dictSize, tmpOut, memory', reads, writes, preserved, holds, place, moves⟩ :=
    behind.dict.preserve places unstable runs behind.knows.blockMode behind.covers.large.1
      (fun flush => by rw [flush] at valid; exact absurd valid.2 (by decide))
      ⟨valid.1, Nat.lt_succ_of_lt valid.2⟩
  have knows := behind.knows
  exact ⟨dict, dictSize, tmpOut, memory', reads, writes, preserved, moves,
    ⟨knows.blockMode, knows.blockChecksumFlag, knows.contentChecksumFlag, knows.contentSize,
      knows.maxBlockSize⟩, behind.fits, behind.covers,
    ⟨behind.counts.remaining, behind.counts.hash⟩, holds,
    fun unlinked => (place unlinked).trans (behind.tmpOut unlinked)⟩

/-- A call that ends leaves all that the next one needs. -/
theorem Lz4fHolds.preserve
    (holds : Lz4fHolds bufs call.dstBuffer st.dstPtr st.memory st.dctx tmp input output) :
    (lz4fPreserveHistory call st).srcPtr = st.srcPtr ∧
      (lz4fPreserveHistory call st).dstPtr = st.dstPtr ∧
      (lz4fPreserveHistory call st).Runs call memory before given tmp bufs input output ∧
      Lz4fHolds bufs 0 0 (lz4fPreserveHistory call st).memory (lz4fPreserveHistory call st).dctx tmp
        input output := by
  have owns := runs.owns
  cases holds with
  | getFrameHeader stage ready =>
    rw [lz4fPreserveHistory_early (by rw [stage]; decide)]
    exact ⟨rfl, rfl, runs, .getFrameHeader stage ready⟩
  | storeFrameHeader stage ready more target =>
    rw [lz4fPreserveHistory_early (by rw [stage]; decide)]
    exact ⟨rfl, rfl, runs, .storeFrameHeader stage ready more target⟩
  | init stage knows remaining none_ =>
    by_cases stays : st.dctx.frameInfo.blockMode = .linked →
        st.dctx.dict = st.dctx.tmpOutBuffer ∨ st.dctx.dict = 0
    · rw [lz4fPreserveHistory_stay stays]
      exact ⟨rfl, rfl, runs.context ⟨owns.1, owns.2, owns.3, owns.4⟩,
        .init stage ⟨knows.1, knows.2, knows.3, knows.4, knows.5⟩ remaining none_⟩
    · obtain ⟨mode, elsewhere⟩ := Classical.not_imp.mp stays
      rw [lz4fPreserveHistory_move mode elsewhere unstable (by rw [stage]; decide)
        (by rw [stage]; decide) (show 0 = min st.dctx.dictSize 65536 by omega)]
      refine ⟨rfl, rfl, (runs.change owns (runs.confined.copy .dst .dst (.inr ⟨by decide, by decide⟩)
        (Window.inside_of_empty _ rfl) ⟨.inr ⟨by decide, by decide⟩, by decide⟩
        (Window.inside_of_empty _ rfl) st.memory) fun index _ _ =>
          Patch.apply_copy_outside _ _ (by omega)).context ⟨owns.1, owns.2, owns.3, owns.4⟩,
        .init stage ⟨knows.1, knows.2, knows.3, knows.4, knows.5⟩ remaining rfl⟩
  | getBlockHeader stage behind =>
    obtain ⟨dict, dictSize, tmpOut, memory', reads, writes, preserved, moves, after⟩ :=
      behind.preserve places unstable runs (by rw [stage]; decide) rfl
    rw [preserved]
    exact ⟨rfl, rfl, moves.moved places runs, .getBlockHeader stage after⟩
  | storeBlockHeader stage behind more =>
    have room := behind.covers.room
    obtain ⟨dict, dictSize, tmpOut, memory', reads, writes, preserved, moves, after⟩ :=
      behind.preserve places unstable runs (by rw [stage]; decide) rfl
    rw [preserved]
    refine ⟨rfl, rfl, moves.moved places runs, ?_⟩
    rw [← moves.outside places .tmpIn (by decide) (Nat.le_refl bufs.tmpIn)
      (show bufs.tmpIn + st.dctx.tmpInSize ≤ bufs.tmpIn + bufs.room by omega)]
    exact .storeBlockHeader stage after more
  | copyDirect stage behind small check =>
    obtain ⟨dict, dictSize, tmpOut, memory', reads, writes, preserved, moves, after⟩ :=
      behind.preserve places unstable runs (by rw [stage]; decide) rfl
    rw [preserved]
    exact ⟨rfl, rfl, moves.moved places runs, .copyDirect stage after small check⟩
  | getBlockChecksum stage behind small checked check more =>
    obtain ⟨dict, dictSize, tmpOut, memory', reads, writes, preserved, moves, after⟩ :=
      behind.preserve places unstable runs (by rw [stage]; decide) rfl
    rw [preserved]
    refine ⟨rfl, rfl, moves.moved places runs, ?_⟩
    rw [← moves.outside places .header (by decide) (Nat.le_refl bufs.header)
      (show bufs.header + st.dctx.tmpInSize ≤ bufs.header + 19 by omega)]
    exact .getBlockChecksum stage after small checked check more
  | getCBlock stage behind positive small target =>
    obtain ⟨dict, dictSize, tmpOut, memory', reads, writes, preserved, moves, after⟩ :=
      behind.preserve places unstable runs (by rw [stage]; decide) rfl
    rw [preserved]
    exact ⟨rfl, rfl, moves.moved places runs, .getCBlock stage after positive small target⟩
  | storeCBlock stage behind positive small target more =>
    have room := behind.covers.room
    have four : st.dctx.tmpInTarget ≤ bufs.room := by split_ifs at target <;> omega
    obtain ⟨dict, dictSize, tmpOut, memory', reads, writes, preserved, moves, after⟩ :=
      behind.preserve places unstable runs (by rw [stage]; decide) rfl
    rw [preserved]
    refine ⟨rfl, rfl, moves.moved places runs, ?_⟩
    rw [← moves.outside places .tmpIn (by decide) (Nat.le_refl bufs.tmpIn)
      (show bufs.tmpIn + st.dctx.tmpInSize ≤ bufs.tmpIn + bufs.room by omega)]
    exact .storeCBlock stage after positive small target more
  | flushOut stage knows fits covers all counts tmpOut size flush =>
    have large := covers.large.1
    obtain ⟨dict, dictSize, memory', reads, writes, preserved, after, moves⟩ :=
      flush.preserve places unstable runs knows.blockMode (by omega) stage size
    rw [preserved]
    exact ⟨rfl, rfl, moves.moved places runs, .flushOut stage
      ⟨knows.1, knows.2, knows.3, knows.4, knows.5⟩ fits covers all ⟨counts.1, counts.2⟩ tmpOut size
      after⟩
  | getSuffix stage knows fits covers counts =>
    rw [lz4fPreserveHistory_early (by rw [stage]; decide)]
    exact ⟨rfl, rfl, runs, .getSuffix stage knows fits covers counts⟩
  | storeSuffix stage fits covers remaining sized checked hash more =>
    rw [lz4fPreserveHistory_early (by rw [stage]; decide)]
    exact ⟨rfl, rfl, runs, .storeSuffix stage fits covers remaining sized checked hash more⟩
  | getSFrameSize stage low ready =>
    rw [lz4fPreserveHistory_early (by rw [stage]; decide)]
    exact ⟨rfl, rfl, runs, .getSFrameSize stage low ready⟩
  | storeSFrameSize stage low ready four more target =>
    rw [lz4fPreserveHistory_early (by rw [stage]; decide)]
    exact ⟨rfl, rfl, runs, .storeSFrameSize stage low ready four more target⟩
  | skipSkippable stage low ready small =>
    rw [lz4fPreserveHistory_early (by rw [stage]; decide)]
    exact ⟨rfl, rfl, runs, .skipSkippable stage low ready small⟩

end Preserve

end Calls

end ZLoader
