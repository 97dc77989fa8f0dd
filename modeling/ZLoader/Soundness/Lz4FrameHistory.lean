import ZLoader.Foundation.Lz4FrameFormat
import ZLoader.Foundation.RecentBytes
import ZLoader.Soundness.Lz4FrameRegions

/-! # The history of linked blocks

A linked block refers to the last 64 KiB of what has been decoded. They stand in the output of the
current call, or in the buffer of the context, where they are saved before the call ends. Wherever
they are moved to, and as long as part of a block has still to be given to the output, a block
decodes behind them as it does behind all of the data.
-/

namespace ZLoader

/-- Where the history stands: nowhere, in the buffer of the context, or in the output in front of the
cursor. -/
inductive DictPlace (bufs : Lz4fBuffers) (start cursor dict dictSize : ℕ) : Prop where
  | empty (none_ : dictSize = 0)
  | within (same : dict = bufs.tmpOutBuffer) (room : dictSize ≤ bufs.maxBufferSize)
  | front (starts : start ≤ dict) (ends : dict + dictSize = cursor)

/-- The history holds all of the data or at least the end of it. -/
structure DictHolds (bufs : Lz4fBuffers) (start cursor : ℕ) (memory : ByteStore)
    (data : List UInt8) (dict dictSize : ℕ) : Prop where
  place : DictPlace bufs start cursor dict dictSize
  le_length : dictSize ≤ data.length
  all : dictSize < 65536 → dictSize = data.length
  recent : Recalls memory (dict + dictSize) (min dictSize 65536) data

section Dict

variable {bufs : Lz4fBuffers} {start cursor dict dictSize : ℕ} {memory memory' : ByteStore}
  {data : List UInt8}

theorem dictHolds_nil (bufs : Lz4fBuffers) (start cursor : ℕ) (memory : ByteStore) (dict : ℕ) :
    DictHolds bufs start cursor memory [] dict 0 where
  place := .empty rfl
  le_length := Nat.le_refl _
  all := fun _ => rfl
  recent := recalls_zero ..

theorem DictHolds.congr (holds : DictHolds bufs start cursor memory data dict dictSize)
    (buffer : ∀ index, bufs.tmpOutBuffer ≤ index → index < bufs.tmpOutBuffer + bufs.maxBufferSize →
      memory' index = memory index)
    (output : ∀ index, start ≤ index → index < cursor → memory' index = memory index) :
    DictHolds bufs start cursor memory' data dict dictSize where
  place := holds.place
  le_length := holds.le_length
  all := holds.all
  recent := holds.recent.congr fun index low high => by
    rcases holds.place with none_ | ⟨same, room⟩ | ⟨starts, ends⟩
    · omega
    · exact buffer index (by omega) (by omega)
    · exact output index (by omega) (by omega)

/-- Between two calls only the buffer of the context counts. -/
theorem DictHolds.enter (holds : DictHolds bufs 0 0 memory data dict dictSize) (start cursor : ℕ) :
    DictHolds bufs start cursor memory data dict dictSize where
  place := by
    rcases holds.place with none_ | ⟨same, room⟩ | ⟨-, ends⟩
    · exact .empty none_
    · exact .within same room
    · exact .empty (by omega)
  le_length := holds.le_length
  all := holds.all
  recent := holds.recent

/-- A block reaches no further back than the end of the data that is held, if this is all of it or at
least 64 KiB. -/
theorem reaching_iff_of_held (le : dictSize ≤ data.length)
    (all : dictSize < 65536 → dictSize = data.length) (sequences : List MatchSequence) :
    Reaching dictSize sequences ↔ Reaching data.length sequences := by
  rcases Nat.lt_or_ge dictSize 65536 with small | large
  · rw [all small]
  · exact iff_of_true (reaching_of_large _ (by omega)) (reaching_of_large _ (by omega))

/-- A block decodes behind the end of the data as it does behind the data. -/
theorem Recalls.decode (recent : Recalls memory (dict + dictSize) (min dictSize 65536) data)
    {block : SequenceBlock} (reaching : Reaching dictSize block.sequences) :
    block.decode (memory.bytesAt dict dictSize) = block.decode data := by
  obtain ⟨size, least⟩ : ∃ size, size = min dictSize 65536 := ⟨_, rfl⟩
  have le := recent.le_length
  have bytes := recent.bytesAt
  rw [← least] at bytes
  have split : memory.bytesAt dict dictSize =
      memory.bytesAt dict (dictSize - size) ++ data.drop (data.length - size) := by
    rw [← bytes, show dict + dictSize - size = dict + (dictSize - size) by omega,
      ← ByteStore.bytesAt_add, Nat.sub_add_cancel (by omega)]
  have length : (data.drop (data.length - size)).length = size := by
    rw [List.length_drop]
    omega
  have reaches : Reaching (data.drop (data.length - size)).length block.sequences := by
    rw [length]
    rcases Nat.lt_or_ge dictSize 65536 with small | large
    · rwa [least, Nat.min_eq_left (Nat.le_of_lt small)]
    · exact reaching_of_large _ (by omega)
  rw [split, SequenceBlock.decode_append _ reaches]
  conv_rhs => rw [← List.take_append_drop (data.length - size) data]
  rw [SequenceBlock.decode_append _ reaches]

end Dict

/-- The history has been moved. -/
def Lz4fState.redict (st : Lz4fState) (dict dictSize : ℕ) (memory : ByteStore)
    (reads writes : List Window) : Lz4fState :=
  { st with
    dctx.dict := dict
    dctx.dictSize := dictSize
    memory := memory
    reads := reads
    writes := writes }

/-- A move of the history changes nothing but the buffer of the context. -/
structure Lz4fMoves (call : Lz4fCall) (bufs : Lz4fBuffers) (memory : ByteStore) (st : Lz4fState)
    (memory' : ByteStore) (reads writes : List Window) : Prop where
  confined : Lz4fConfined call bufs true memory memory' reads writes
  kept : ∀ index, ¬ (bufs.window call .tmpOut).Contains index → memory' index = st.memory index

section Update

variable {st : Lz4fState} {dstPtr dstSize dstBufferStart : ℕ} {withinTmp : Bool}

/-- The history ends where the new data starts, or there is none. -/
theorem lz4fUpdateDict_front
    (ends : st.dctx.dictSize = 0 ∨ st.dctx.dict + st.dctx.dictSize = dstPtr) :
    lz4fUpdateDict st dstPtr dstSize dstBufferStart withinTmp =
      st.redict (if st.dctx.dictSize = 0 then dstPtr else st.dctx.dict)
        (st.dctx.dictSize + dstSize) st.memory st.reads st.writes := by
  rw [lz4fUpdateDict]
  split
  next none_ =>
    dsimp only
    rw [if_pos (by rw [none_, Nat.add_zero])]
    rfl
  next some_ =>
    dsimp only
    rw [if_pos (ends.resolve_left some_)]
    rfl

section Behind

variable (some_ : st.dctx.dictSize ≠ 0) (apart : st.dctx.dict + st.dctx.dictSize ≠ dstPtr)

include some_ apart

theorem lz4fUpdateDict_large (large : 65536 ≤ dstPtr - dstBufferStart + dstSize) :
    lz4fUpdateDict st dstPtr dstSize dstBufferStart withinTmp =
      st.redict dstBufferStart (dstPtr - dstBufferStart + dstSize) st.memory st.reads st.writes := by
  rw [lz4fUpdateDict, if_neg some_]
  dsimp only
  rw [if_neg apart, if_pos large]
  rfl

variable (small : ¬ 65536 ≤ dstPtr - dstBufferStart + dstSize)
  (same : st.dctx.dict = st.dctx.tmpOutBuffer)

include small same

theorem lz4fUpdateDict_within :
    lz4fUpdateDict st dstPtr dstSize dstBufferStart true =
      st.redict st.dctx.dict (st.dctx.dictSize + dstSize) st.memory st.reads st.writes := by
  rw [lz4fUpdateDict, if_neg some_]
  dsimp only
  rw [if_neg apart, if_neg small, if_pos (by simpa using same)]
  rfl

theorem lz4fUpdateDict_append (room : st.dctx.dictSize + dstSize ≤ st.dctx.maxBufferSize) :
    let moved := st.copy (st.dctx.tmpOutBuffer + st.dctx.dictSize) dstPtr dstSize
    lz4fUpdateDict st dstPtr dstSize dstBufferStart false =
      st.redict st.dctx.dict (st.dctx.dictSize + dstSize) moved.memory moved.reads moved.writes := by
  rw [lz4fUpdateDict, if_neg some_]
  dsimp only
  rw [if_neg apart, if_neg small, Bool.false_and, if_neg Bool.false_ne_true, if_pos same, if_neg (Nat.not_lt.mpr room)]
  rfl

theorem lz4fUpdateDict_shift (full : st.dctx.maxBufferSize < st.dctx.dictSize + dstSize) :
    let keep := 65536 - dstSize
    let moved := (st.copy st.dctx.tmpOutBuffer (st.dctx.dict + st.dctx.dictSize - keep) keep).copy
      (st.dctx.tmpOutBuffer + keep) dstPtr dstSize
    lz4fUpdateDict st dstPtr dstSize dstBufferStart false =
      st.redict st.dctx.dict (keep + dstSize) moved.memory moved.reads moved.writes := by
  rw [lz4fUpdateDict, if_neg some_]
  dsimp only
  rw [if_neg apart, if_neg small, Bool.false_and, if_neg Bool.false_ne_true, if_pos same, if_pos full]
  rfl

end Behind

end Update

section Moves

variable {call : Lz4fCall} {ours : Lz4fBuffers → Prop} {bufs : Lz4fBuffers} {memory : ByteStore}
  {before given input output new : List UInt8} {st : Lz4fState}

theorem Lz4fState.Runs.moves (runs : st.Runs call memory before given true bufs input output) :
    Lz4fMoves call bufs memory st st.memory st.reads st.writes := ⟨runs.confined, fun _ _ => rfl⟩

/-- A copy into the buffer of the context. -/
theorem Lz4fMoves.copy {memory' : ByteStore} {reads writes : List Window} {d s size : ℕ}
    (moves : Lz4fMoves call bufs memory st memory' reads writes) (r : Lz4fRegion)
    (from_ : (Window.mk s size).Inside (bufs.window call r)) (first : bufs.tmpOutBuffer ≤ d)
    (last : d + size ≤ bufs.tmpOutBuffer + bufs.maxBufferSize) :
    Lz4fMoves call bufs memory st ((Patch.copy d size memory' s).apply memory')
      (⟨s, size⟩ :: reads) (⟨d, size⟩ :: writes) where
  confined := moves.confined.copy r .tmpOut (.inl rfl) from_ ⟨.inl rfl, by decide⟩
    (Window.inside_of_le first last) memory'
  kept := fun index outside => by
    rw [Patch.apply_copy_outside _ _ ?_]
    · exact moves.kept index outside
    · by_contra inside
      exact outside (Window.contains_mk.mpr (by omega))

/-- The output of the call, with new data behind it. -/
theorem Lz4fState.Runs.recalls (runs : st.Runs call memory before given true bufs input output)
    (bytes : st.memory.bytesAt st.dstPtr new.length = new) :
    Recalls st.memory (st.dstPtr + new.length) (st.dstPtr - call.dstBuffer + new.length)
      (output ++ new) := by
  have low := runs.dstLow
  have recalls := @recalls_of_bytesAt st.memory (output ++ new) call.dstBuffer
    (st.dstPtr - call.dstBuffer + new.length) given (by
      rw [ByteStore.bytesAt_add, Nat.add_sub_cancel' low, bytes, runs.output_eq, List.append_assoc])
  rwa [← Nat.add_assoc, Nat.add_sub_cancel' low] at recalls

section Data

variable (places : call.Places ours bufs) (large : 196608 ≤ bufs.maxBufferSize)
  (runs : st.Runs call memory before given true bufs input output)
  (bytes : st.memory.bytesAt st.dstPtr new.length = new)
  (room : st.dstPtr + new.length ≤ call.dstBuffer + call.dstSize)

include runs bytes

theorem DictHolds.front
    (holds : DictHolds bufs call.dstBuffer st.dstPtr st.memory output st.dctx.dict st.dctx.dictSize)
    (ends : st.dctx.dictSize = 0 ∨
      call.dstBuffer ≤ st.dctx.dict ∧ st.dctx.dict + st.dctx.dictSize = st.dstPtr) :
    DictHolds bufs call.dstBuffer (st.dstPtr + new.length) st.memory (output ++ new)
      (if st.dctx.dictSize = 0 then st.dstPtr else st.dctx.dict)
      (st.dctx.dictSize + new.length) := by
  have low := runs.dstLow
  have recalls := runs.recalls bytes
  have le := holds.le_length
  have all := holds.all
  have length := @List.length_append _ output new
  have address : (if st.dctx.dictSize = 0 then st.dstPtr else st.dctx.dict) +
      (st.dctx.dictSize + new.length) = st.dstPtr + new.length := by
    split_ifs <;> omega
  refine ⟨.front ?_ address, by omega, fun small => by omega, ?_⟩
  · split_ifs <;> omega
  · rw [address]
    refine recalls.mono ?_
    rcases ends with none_ | ⟨starts, ends⟩ <;> omega

theorem dictHolds_large (enough : 65536 ≤ st.dstPtr - call.dstBuffer + new.length) :
    DictHolds bufs call.dstBuffer (st.dstPtr + new.length) st.memory (output ++ new)
      call.dstBuffer (st.dstPtr - call.dstBuffer + new.length) := by
  have low := runs.dstLow
  have recalls := runs.recalls bytes
  have address : call.dstBuffer + (st.dstPtr - call.dstBuffer + new.length) =
      st.dstPtr + new.length := by omega
  refine ⟨.front (Nat.le_refl _) address, recalls.le_length, fun small => by omega, ?_⟩
  rw [address]
  exact recalls.mono (Nat.min_le_left ..)

include places large room

/-- The history is brought up to date behind data that has been given to the output. -/
theorem Lz4fState.Runs.updateDict
    (holds : DictHolds bufs call.dstBuffer st.dstPtr st.memory output st.dctx.dict st.dctx.dictSize) :
    ∃ dict dictSize memory' reads writes,
      lz4fUpdateDict st st.dstPtr new.length call.dstBuffer false =
        st.redict dict dictSize memory' reads writes ∧
      DictHolds bufs call.dstBuffer (st.dstPtr + new.length) memory' (output ++ new) dict dictSize ∧
      Lz4fMoves call bufs memory st memory' reads writes := by
  have low := runs.dstLow
  have gap := places.gap (by omega)
  have le := holds.le_length
  have all := holds.all
  by_cases ends : st.dctx.dictSize = 0 ∨
      call.dstBuffer ≤ st.dctx.dict ∧ st.dctx.dict + st.dctx.dictSize = st.dstPtr
  · exact ⟨_, _, _, _, _, lz4fUpdateDict_front (ends.imp_right And.right),
      holds.front runs bytes ends, runs.moves⟩
  rw [not_or] at ends
  obtain ⟨same, fits⟩ : st.dctx.dict = bufs.tmpOutBuffer ∧
      st.dctx.dictSize ≤ bufs.maxBufferSize := by
    rcases holds.place with none_ | ⟨same, fits⟩ | ⟨starts, behind⟩
    · exact absurd none_ ends.1
    · exact ⟨same, fits⟩
    · exact absurd ⟨starts, behind⟩ ends.2
  have own := runs.owns.tmpOutBuffer
  have max_ := runs.owns.maxBufferSize
  have apart : st.dctx.dict + st.dctx.dictSize ≠ st.dstPtr := by omega
  by_cases enough : 65536 ≤ st.dstPtr - call.dstBuffer + new.length
  · exact ⟨_, _, _, _, _, lz4fUpdateDict_large ends.1 apart enough,
      dictHolds_large runs bytes enough, runs.moves⟩
  have inside : (Window.mk st.dstPtr new.length).Inside (bufs.window call .dst) :=
    Window.inside_of_le low room
  have length := @List.length_append _ output new
  rcases Nat.lt_or_ge st.dctx.maxBufferSize (st.dctx.dictSize + new.length) with full | fits_
  · -- the last bytes of the history move to the front
    obtain ⟨keep, kept⟩ : ∃ keep, keep = 65536 - new.length := ⟨_, rfl⟩
    have updated := lz4fUpdateDict_shift ends.1 apart enough (same.trans own.symm) full
    dsimp only at updated
    rw [← kept, own] at updated
    have from_ : (Window.mk (st.dctx.dict + st.dctx.dictSize - keep) keep).Inside
        (bufs.window call .tmpOut) :=
      Window.inside_of_le (by dsimp only [Lz4fBuffers.window]; omega)
        (by dsimp only [Lz4fBuffers.window]; omega)
    have moves := (runs.moves.copy .tmpOut from_ (Nat.le_refl _) (by omega)).copy .dst inside
      (d := bufs.tmpOutBuffer + keep) (by omega) (by omega)
    have moved := (holds.recent.mono (show keep ≤ _ by omega)).copy bufs.tmpOutBuffer
    refine ⟨_, _, _, _, _, updated, ⟨.within same (by omega), by omega, fun small => by omega, ?_⟩,
      moves⟩
    have behind : bufs.tmpOutBuffer + keep + new.length = st.dctx.dict + (keep + new.length) := by
      rw [same, Nat.add_assoc]
    have recalls := moved.extend ((ByteStore.bytesAt_copy_of_apart _ _ (by omega)).trans bytes)
    rw [behind] at recalls
    exact recalls.mono (Nat.min_le_left ..)
  · -- the new data is put behind the history
    have updated := lz4fUpdateDict_append ends.1 apart enough (same.trans own.symm) fits_
    dsimp only at updated
    have moves := runs.moves.copy .dst inside (d := bufs.tmpOutBuffer + st.dctx.dictSize) (by omega)
      (by omega)
    rw [own] at updated
    refine ⟨_, _, _, _, _, updated, ⟨.within same (by omega), by omega, fun small => by omega, ?_⟩,
      moves⟩
    have recalls := holds.recent.extend bytes
    rw [same] at recalls ⊢
    rw [← Nat.add_assoc]
    exact recalls.mono (by omega)

end Data

end Moves

end ZLoader
