import ZLoader.Soundness.Lz4FrameHistory

/-! # Blocks that wait in the buffer of the context

A block that does not fit the output is decoded into the buffer of the context, behind room for the
history, and given to the output part by part. As long as some of it waits, the history may still
stand in the output; it is moved in front of the block when the call ends, as far as the blocks
behind can refer to it.
-/

namespace ZLoader

/-- The history while a block is given away: what has been given with it, outside of the buffer, or
the whole block with room in front of it. -/
inductive FlushHistory (bufs : Lz4fBuffers) (start cursor : ℕ) (memory : ByteStore)
    (old block : List UInt8) (dict dictSize tmpOut tmpOutStart : ℕ) : Prop where
  | kept (holds : DictHolds bufs start cursor memory (old ++ block.take tmpOutStart) dict dictSize)
      (outside : dictSize = 0 ∨ start ≤ dict ∧ dict + dictSize = cursor)
  | within (same : dict = bufs.tmpOutBuffer)
      (size : dictSize = tmpOut - bufs.tmpOutBuffer + tmpOutStart)
      (recent : Recalls memory tmpOut (min (65536 - block.length) (tmpOut - bufs.tmpOutBuffer)) old)

/-- A block waits, and so much of it has been given away. -/
structure FlushHolds (bufs : Lz4fBuffers) (start cursor : ℕ) (memory : ByteStore) (linked : Bool)
    (old block : List UInt8) (dict dictSize tmpOut tmpOutStart : ℕ) : Prop where
  low : bufs.tmpOutBuffer ≤ tmpOut
  high : tmpOut + block.length ≤ bufs.tmpOutBuffer + bufs.maxBufferSize
  bytes : memory.bytesAt tmpOut block.length = block
  le : tmpOutStart ≤ block.length
  unlinked : linked = false → dictSize = 0
  reserve : linked = true → tmpOut - bufs.tmpOutBuffer ≤ old.length ∧
    (tmpOut - bufs.tmpOutBuffer < 65536 → tmpOut - bufs.tmpOutBuffer = old.length)
  history : linked = true →
    FlushHistory bufs start cursor memory old block dict dictSize tmpOut tmpOutStart

section Flush

variable {call : Lz4fCall} {ours : Lz4fBuffers → Prop} {bufs : Lz4fBuffers}
  {memory : ByteStore} {linked : Bool}
  {before given input output old block : List UInt8} {st : Lz4fState} {size : ℕ}

/-- The whole block has been given away. -/
theorem FlushHolds.finish {start cursor dict dictSize tmpOut : ℕ}
    (holds : FlushHolds bufs start cursor memory linked old block dict dictSize tmpOut block.length) :
    DictHolds bufs start cursor memory (FrameBlock.history linked (old ++ block)) dict dictSize := by
  have low := holds.low
  have high := holds.high
  cases linked with
  | false =>
    rw [holds.unlinked rfl]
    exact dictHolds_nil ..
  | true =>
    obtain ⟨le, all⟩ := holds.reserve rfl
    have length := @List.length_append _ old block
    rw [FrameBlock.history, if_pos rfl]
    rcases holds.history rfl with ⟨kept, -⟩ | ⟨same, size, recent⟩
    · rwa [List.take_length] at kept
    · refine ⟨.within same (by omega), by omega, fun small => by omega, ?_⟩
      have recalls := recent.append holds.bytes
      rw [show dict + dictSize = tmpOut + block.length by omega]
      exact recalls.mono (by omega)

section Step

variable (places : call.Places ours bufs) (some_ : bufs.maxBufferSize ≠ 0)
  (runs : st.Runs call memory before given true bufs input
    (old ++ block.take st.dctx.tmpOutStart))
  (holds : FlushHolds bufs call.dstBuffer st.dstPtr st.memory linked old block st.dctx.dict
    st.dctx.dictSize st.dctx.tmpOut st.dctx.tmpOutStart)
  (inside : st.dctx.tmpOutStart + size ≤ block.length)
  (room : st.dstPtr + size ≤ call.dstBuffer + call.dstSize)

include places runs holds inside room

/-- A part of the block is copied to the output. -/
theorem FlushHolds.gives :
    let moved := st.copy st.dstPtr (st.dctx.tmpOut + st.dctx.tmpOutStart) size
    moved.Runs call memory before given true bufs input (old ++ block.take st.dctx.tmpOutStart) ∧
      moved.memory.bytesAt st.dstPtr size = (block.drop st.dctx.tmpOutStart).take size ∧
      ∀ index, (bufs.window call .tmpOut).Contains index →
        moved.memory index = st.memory index := by
  have low := holds.low
  have high := holds.high
  have below := runs.dstLow
  have to_ : (Window.mk st.dstPtr size).Inside (bufs.window call .dst) :=
    Window.inside_of_le below room
  have from_ : (Window.mk (st.dctx.tmpOut + st.dctx.tmpOutStart) size).Inside
      (bufs.window call .tmpOut) :=
    Window.inside_of_le (Nat.le_trans low (Nat.le_add_right ..))
      (by dsimp only [Lz4fBuffers.window]; omega)
  refine ⟨?_, ?_, fun index contained => ?_⟩
  · exact runs.change runs.owns (runs.confined.copy .tmpOut .dst (.inl rfl) from_
      ⟨.inl rfl, by decide⟩ to_ st.memory) fun index first last =>
        Patch.apply_copy_outside _ _ (.inl last)
  · exact (ByteStore.bytesAt_apply_copy ..).trans
      (ByteStore.bytesAt_part _ _ inside holds.bytes)
  · refine Patch.apply_copy_outside _ _ ?_
    by_contra within
    exact places.apart .tmpOut .dst (by decide) index contained
      (to_ index (Window.contains_mk.mpr (by omega)))

include some_

/-- The history is brought up to date behind the part that has been given away. -/
theorem FlushHolds.flush (linked_ : linked = true) :
    let moved := st.copy st.dstPtr (st.dctx.tmpOut + st.dctx.tmpOutStart) size
    ∃ dict dictSize, lz4fUpdateDict moved st.dstPtr size call.dstBuffer true =
        moved.redict dict dictSize moved.memory moved.reads moved.writes ∧
      FlushHolds bufs call.dstBuffer (st.dstPtr + size) moved.memory linked old block dict dictSize
        st.dctx.tmpOut (st.dctx.tmpOutStart + size) := by
  obtain ⟨new, part⟩ : ∃ new, new = (block.drop st.dctx.tmpOutStart).take size := ⟨_, rfl⟩
  obtain rfl : new.length = size := by
    rw [part, List.length_take, List.length_drop]
    omega
  intro moved
  obtain ⟨runs_, bytes, same⟩ := holds.gives places runs inside room
  rw [← part] at bytes
  have low := holds.low
  have high := holds.high
  have below := runs.dstLow
  have gap := places.gap some_
  obtain ⟨le, all⟩ := holds.reserve linked_
  have parts : old ++ block.take (st.dctx.tmpOutStart + new.length) =
      old ++ block.take st.dctx.tmpOutStart ++ new := by
    rw [List.take_add, ← part, List.append_assoc]
  have flushed {dict dictSize : ℕ}
      (history : FlushHistory bufs call.dstBuffer (st.dstPtr + new.length) moved.memory old block
        dict dictSize st.dctx.tmpOut (st.dctx.tmpOutStart + new.length)) :
      FlushHolds bufs call.dstBuffer (st.dstPtr + new.length) moved.memory linked old block dict
        dictSize st.dctx.tmpOut (st.dctx.tmpOutStart + new.length) :=
    { low := low
      high := high
      bytes := (ByteStore.bytesAt_congr fun index within => same _
        (Window.contains_mk.mpr (by omega))).trans holds.bytes
      le := inside
      unlinked := fun unlinked => absurd (linked_.symm.trans unlinked) (by decide)
      reserve := holds.reserve
      history := fun _ => history }
  -- what stands in the output in front of the cursor is the history, or there is none
  have front (dictHolds : DictHolds bufs call.dstBuffer st.dstPtr st.memory
        (old ++ block.take st.dctx.tmpOutStart) st.dctx.dict st.dctx.dictSize)
      (outside : st.dctx.dictSize = 0 ∨ call.dstBuffer ≤ st.dctx.dict ∧
        st.dctx.dict + st.dctx.dictSize = st.dstPtr) :
      ∃ dict dictSize, lz4fUpdateDict moved st.dstPtr new.length call.dstBuffer true =
          moved.redict dict dictSize moved.memory moved.reads moved.writes ∧
        FlushHolds bufs call.dstBuffer (st.dstPtr + new.length) moved.memory linked old block dict
          dictSize st.dctx.tmpOut (st.dctx.tmpOutStart + new.length) := by
    have kept : DictHolds bufs call.dstBuffer st.dstPtr moved.memory
        (old ++ block.take st.dctx.tmpOutStart) st.dctx.dict st.dctx.dictSize :=
      dictHolds.congr (fun index first last => same _ ⟨first, last⟩)
        fun index first last => Patch.apply_copy_outside _ _ (.inl last)
    have prefix_ := DictHolds.front runs_ bytes kept outside
    rw [← parts] at prefix_
    refine ⟨_, _, @lz4fUpdateDict_front moved _ _ _ _ (outside.imp_right And.right),
      flushed (.kept prefix_ (.inr ⟨?_, ?_⟩))⟩
    · change call.dstBuffer ≤ if st.dctx.dictSize = 0 then st.dstPtr else st.dctx.dict
      split_ifs <;> omega
    · change (if st.dctx.dictSize = 0 then st.dstPtr else st.dctx.dict) +
        (st.dctx.dictSize + new.length) = st.dstPtr + new.length
      split_ifs <;> omega
  rcases holds.history linked_ with ⟨dictHolds, outside⟩ | ⟨inBuffer, dictSize, recent⟩
  · exact front dictHolds outside
  by_cases none_ : st.dctx.dictSize = 0
  · -- no history, and nothing has been given away yet
    have start : st.dctx.tmpOutStart = 0 := by omega
    have nothing : old ++ block.take st.dctx.tmpOutStart = [] := by
      rw [start, List.take_zero, List.append_nil]
      exact List.eq_nil_of_length_eq_zero (by omega)
    refine front ?_ (.inl none_)
    rw [nothing, none_]
    exact dictHolds_nil ..
  have apart : st.dctx.dict + st.dctx.dictSize ≠ st.dstPtr := by omega
  by_cases enough : 65536 ≤ st.dstPtr - call.dstBuffer + new.length
  · have large := dictHolds_large runs_ bytes enough
    rw [← parts] at large
    refine ⟨_, _, @lz4fUpdateDict_large moved _ _ _ _ none_ apart enough,
      flushed (.kept large (.inr ⟨Nat.le_refl _, ?_⟩))⟩
    omega
  · refine ⟨_, _, @lz4fUpdateDict_within moved _ _ _ none_ apart enough
      (inBuffer.trans runs.owns.tmpOutBuffer.symm), flushed (.within inBuffer ?_ ?_)⟩
    · change st.dctx.dictSize + new.length = _
      omega
    · exact recent.congr fun index first last => same _ (Window.contains_mk.mpr (by omega))

end Step

/-! ## The end of a call -/

/-- What `LZ4F_decompress` saves in front of its end. -/
def Lz4fState.preserved (st : Lz4fState) (dict dictSize tmpOut : ℕ) (memory : ByteStore)
    (reads writes : List Window) : Lz4fState :=
  { st.redict dict dictSize memory reads writes with
    dctx.dict := dict
    dctx.dictSize := dictSize
    dctx.tmpOut := tmpOut }

theorem lz4fPreserveHistory_stay
    (stays : st.dctx.frameInfo.blockMode = .linked → st.dctx.dict = st.dctx.tmpOutBuffer ∨
      st.dctx.dict = 0) :
    lz4fPreserveHistory call st = st.preserved st.dctx.dict st.dctx.dictSize st.dctx.tmpOut st.memory
      st.reads st.writes := by
  rw [lz4fPreserveHistory]
  dsimp only
  rw [if_neg fun ⟨mode, elsewhere, some_, _⟩ => (stays mode).elim elsewhere some_]
  rfl

section Move

variable (mode : st.dctx.frameInfo.blockMode = .linked)
  (elsewhere : ¬ (st.dctx.dict = st.dctx.tmpOutBuffer ∨ st.dctx.dict = 0))
  (unstable : call.stableDst = false)

include mode elsewhere unstable

theorem lz4fPreserveHistory_move (stage : st.dctx.dStage ≠ .flushOut)
    (valid : 2 ≤ st.dctx.dStage.ctorIdx ∧ st.dctx.dStage.ctorIdx < 10) {keep : ℕ}
    (kept : keep = min st.dctx.dictSize 65536) :
    let moved := st.copy st.dctx.tmpOutBuffer (st.dctx.dict + st.dctx.dictSize - keep) keep
    lz4fPreserveHistory call st = st.preserved st.dctx.tmpOutBuffer keep (st.dctx.tmpOutBuffer + keep)
      moved.memory moved.reads moved.writes := by
  subst kept
  rw [not_or] at elsewhere
  rw [lz4fPreserveHistory]
  dsimp only
  rw [if_pos ⟨mode, elsewhere.1, elsewhere.2, unstable, Bool.and_eq_true_iff.mpr
    ⟨decide_eq_true valid.1, decide_eq_true valid.2⟩⟩, if_neg stage]
  rfl

theorem lz4fPreserveHistory_flush (stage : st.dctx.dStage = .flushOut) {keep : ℕ}
    (kept : keep = min (65536 - st.dctx.tmpOutSize) (st.dctx.tmpOut - st.dctx.tmpOutBuffer)) :
    let moved := st.copy (st.dctx.tmpOutBuffer + (st.dctx.tmpOut - st.dctx.tmpOutBuffer) - keep)
      (st.dctx.dict + st.dctx.dictSize - st.dctx.tmpOutStart - keep) keep
    lz4fPreserveHistory call st = st.preserved st.dctx.tmpOutBuffer
      (st.dctx.tmpOut - st.dctx.tmpOutBuffer + st.dctx.tmpOutStart) st.dctx.tmpOut moved.memory
      moved.reads moved.writes := by
  have same : min (if 65536 < st.dctx.tmpOutSize then 0 else 65536 - st.dctx.tmpOutSize)
      (st.dctx.tmpOut - st.dctx.tmpOutBuffer) = keep := by
    split_ifs <;> omega
  rw [not_or] at elsewhere
  rw [lz4fPreserveHistory]
  dsimp only
  rw [if_pos ⟨mode, elsewhere.1, elsewhere.2, unstable, by rw [stage]; rfl⟩, if_pos stage, same]
  rfl

end Move

/-- What stands in the output does not start at the buffer. -/
theorem Lz4fCall.Places.empty_of_settled (places : call.Places ours bufs)
    (some_ : bufs.maxBufferSize ≠ 0)
    (runs : st.Runs call memory before given true bufs input output) {dict dictSize : ℕ}
    (outside : dictSize = 0 ∨ call.dstBuffer ≤ dict ∧ dict + dictSize = st.dstPtr)
    (settled : dict = bufs.tmpOutBuffer ∨ dict = 0) : dictSize = 0 := by
  have low := runs.dstLow
  have high := runs.dstHigh
  have gap := places.gap some_
  have dest := places.dest
  omega

/-- Between two calls the history does not stand in the output. -/
theorem DictHolds.settle (places : call.Places ours bufs) (some_ : bufs.maxBufferSize ≠ 0)
    (runs : st.Runs call memory before given true bufs input output) {data : List UInt8}
    {dict dictSize : ℕ}
    (holds : DictHolds bufs call.dstBuffer st.dstPtr st.memory data dict dictSize)
    (settled : dict = bufs.tmpOutBuffer ∨ dict = 0) :
    DictHolds bufs 0 0 st.memory data dict dictSize where
  place := by
    rcases holds.place with none_ | ⟨same, room⟩ | ⟨starts, ends⟩
    · exact .empty none_
    · exact .within same room
    · exact .empty (places.empty_of_settled some_ runs (.inr ⟨starts, ends⟩) settled)
  le_length := holds.le_length
  all := holds.all
  recent := holds.recent

theorem FlushHolds.enter {dict dictSize tmpOut tmpOutStart : ℕ}
    (holds : FlushHolds bufs 0 0 memory linked old block dict dictSize tmpOut tmpOutStart)
    (start cursor : ℕ) :
    FlushHolds bufs start cursor memory linked old block dict dictSize tmpOut tmpOutStart :=
  { holds with
    history := fun linked_ => by
      rcases holds.history linked_ with ⟨dictHolds, outside⟩ | ⟨same, size, recent⟩
      · exact .kept (dictHolds.enter start cursor) (.inl (by omega))
      · exact .within same size recent }

section Preserve

variable (places : call.Places ours bufs) (unstable : call.stableDst = false)
  (runs : st.Runs call memory before given true bufs input output)
  (mode : st.dctx.frameInfo.blockMode = if linked then .linked else .independent)

include places unstable runs mode

/-- Behind a block the last bytes of the history are moved to the buffer. -/
theorem DictHolds.preserve (large : 65536 ≤ bufs.maxBufferSize)
    (stage : st.dctx.dStage ≠ .flushOut)
    (valid : 2 ≤ st.dctx.dStage.ctorIdx ∧ st.dctx.dStage.ctorIdx < 10) {data : List UInt8}
    (holds : DictHolds bufs call.dstBuffer st.dstPtr st.memory (FrameBlock.history linked data)
      st.dctx.dict st.dctx.dictSize) :
    ∃ dict dictSize tmpOut memory' reads writes,
      lz4fPreserveHistory call st = st.preserved dict dictSize tmpOut memory' reads writes ∧
      DictHolds bufs 0 0 memory' (FrameBlock.history linked data) dict dictSize ∧
      (linked = false → tmpOut = st.dctx.tmpOut) ∧
      Lz4fMoves call bufs memory st memory' reads writes := by
  have own := runs.owns.tmpOutBuffer
  cases linked with
  | false =>
    have none_ : st.dctx.dictSize = 0 := Nat.le_zero.mp holds.le_length
    refine ⟨_, _, _, _, _, _, lz4fPreserveHistory_stay fun linked_ => ?_, ?_, fun _ => rfl, runs.moves⟩
    · rw [mode] at linked_
      cases linked_
    · rw [none_]
      exact dictHolds_nil ..
  | true =>
    by_cases settled : st.dctx.dict = st.dctx.tmpOutBuffer ∨ st.dctx.dict = 0
    · exact ⟨_, _, _, _, _, _, lz4fPreserveHistory_stay fun _ => settled,
        holds.settle places (by omega) runs (own ▸ settled), nofun, runs.moves⟩
    · obtain ⟨keep, kept⟩ : ∃ keep, keep = min st.dctx.dictSize 65536 := ⟨_, rfl⟩
      have preserved := @lz4fPreserveHistory_move call st mode settled unstable stage valid keep kept
      dsimp only at preserved
      have all := holds.all
      have le := holds.le_length
      have high := runs.dstHigh
      have recent := holds.recent
      rw [← kept] at recent
      have from_ : (Window.mk (st.dctx.dict + st.dctx.dictSize - keep) keep).Inside
          (bufs.window call .dst) := by
        rcases holds.place with none_ | ⟨same, room⟩ | ⟨starts, ends⟩
        · exact Window.inside_of_empty _ (show keep = 0 by omega)
        · exact absurd (.inl (same.trans own.symm)) settled
        · exact Window.inside_of_le (by dsimp only [Lz4fBuffers.window]; omega)
            (by dsimp only [Lz4fBuffers.window]; omega)
      rw [own] at preserved
      refine ⟨_, _, _, _, _, _, preserved, ⟨.within rfl (by omega), by omega, fun small => by omega,
        ?_⟩, nofun, runs.moves.copy .dst from_ (Nat.le_refl _) (by omega)⟩
      exact (recent.copy bufs.tmpOutBuffer).mono (Nat.min_le_left ..)

/-- While a block waits they are moved in front of it. -/
theorem FlushHolds.preserve (some_ : bufs.maxBufferSize ≠ 0) (stage : st.dctx.dStage = .flushOut)
    (tmpOutSize : st.dctx.tmpOutSize = block.length)
    (holds : FlushHolds bufs call.dstBuffer st.dstPtr st.memory linked old block st.dctx.dict
      st.dctx.dictSize st.dctx.tmpOut st.dctx.tmpOutStart) :
    ∃ dict dictSize memory' reads writes,
      lz4fPreserveHistory call st =
        st.preserved dict dictSize st.dctx.tmpOut memory' reads writes ∧
      FlushHolds bufs 0 0 memory' linked old block dict dictSize st.dctx.tmpOut
        st.dctx.tmpOutStart ∧
      Lz4fMoves call bufs memory st memory' reads writes := by
  have own := runs.owns.tmpOutBuffer
  cases linked with
  | false =>
    refine ⟨_, _, _, _, _, lz4fPreserveHistory_stay fun linked_ => ?_,
      { holds with history := nofun }, runs.moves⟩
    rw [mode] at linked_
    cases linked_
  | true =>
    rcases holds.history rfl with ⟨dictHolds, outside⟩ | ⟨same, size, recent⟩
    · by_cases settled : st.dctx.dict = st.dctx.tmpOutBuffer ∨ st.dctx.dict = 0
      · have empty := places.empty_of_settled some_ runs outside (own ▸ settled)
        exact ⟨_, _, _, _, _, lz4fPreserveHistory_stay fun _ => settled,
          { holds with
            history := fun _ =>
              .kept (dictHolds.settle places some_ runs (own ▸ settled)) (.inl empty) }, runs.moves⟩
      · obtain ⟨keep, kept⟩ : ∃ keep, keep =
          min (65536 - st.dctx.tmpOutSize) (st.dctx.tmpOut - st.dctx.tmpOutBuffer) := ⟨_, rfl⟩
        have preserved := @lz4fPreserveHistory_flush call st mode settled unstable stage keep kept
        dsimp only at preserved
        rw [own] at preserved kept
        have low := holds.low
        have high := holds.high
        have start := holds.le
        have below := runs.dstLow
        have limit := runs.dstHigh
        obtain ⟨reserved, whole⟩ := holds.reserve rfl
        have le := dictHolds.le_length
        have all := dictHolds.all
        have length : (old ++ block.take st.dctx.tmpOutStart).length =
            old.length + st.dctx.tmpOutStart := by
          rw [List.length_append, List.length_take, Nat.min_eq_left start]
        have taken : (block.take st.dctx.tmpOutStart).length = st.dctx.tmpOutStart := by
          rw [List.length_take, Nat.min_eq_left start]
        have enough : keep = 0 ∨ keep + st.dctx.tmpOutStart ≤ min st.dctx.dictSize 65536 := by omega
        have from_ : (Window.mk (st.dctx.dict + st.dctx.dictSize - st.dctx.tmpOutStart - keep)
            keep).Inside (bufs.window call .dst) := by
          rcases Nat.eq_zero_or_pos keep with none_ | positive
          · exact Window.inside_of_empty _ none_
          · exact Window.inside_of_le (by dsimp only [Lz4fBuffers.window]; omega)
              (by dsimp only [Lz4fBuffers.window]; omega)
        have recent : Recalls st.memory (st.dctx.dict + st.dctx.dictSize - st.dctx.tmpOutStart) keep
            old := by
          rcases enough with none_ | enough
          · rw [none_]
            exact recalls_zero ..
          · rw [← taken] at enough ⊢
            exact (dictHolds.recent.mono enough).before
        have address : bufs.tmpOutBuffer + (st.dctx.tmpOut - bufs.tmpOutBuffer) - keep + keep =
            st.dctx.tmpOut := by omega
        have moved := recent.copy
          (bufs.tmpOutBuffer + (st.dctx.tmpOut - bufs.tmpOutBuffer) - keep)
        rw [address] at moved
        rw [tmpOutSize] at kept
        refine ⟨_, _, _, _, _, preserved,
          { low := low
            high := high
            bytes := (ByteStore.bytesAt_copy_of_apart _ _ (.inr (Nat.le_of_eq address))).trans
              holds.bytes
            le := start
            unlinked := nofun
            reserve := holds.reserve
            history := fun _ => .within rfl rfl (kept ▸ moved) },
          runs.moves.copy .dst from_ (by omega) (by omega)⟩
    · exact ⟨_, _, _, _, _, lz4fPreserveHistory_stay fun _ => .inl (same.trans own.symm),
        { holds with history := fun _ => .within same size recent }, runs.moves⟩

end Preserve

end Flush

end ZLoader
