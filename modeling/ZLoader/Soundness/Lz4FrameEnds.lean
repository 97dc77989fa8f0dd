import ZLoader.Soundness.Lz4FramePacked

/-! # The ends of a frame, and what is skipped

Behind the last block stands the hash of the content. Data to be skipped is taken and nothing else.
-/

namespace ZLoader

section Ends

variable {call : Lz4fCall} {ours : Lz4fBuffers → Prop} {bufs : Lz4fBuffers}
  {memory : ByteStore} {tmp : Bool}
  {before given input output data : List UInt8} {st : Lz4fState} {desc : FrameDescriptor}
  {blocks : List FrameBlock} {bound : ℕ}

/-! ## The end of a frame -/

section Suffix

variable (places : call.Places ours bufs) (fits : FrameBlocksFit desc [] blocks)
  (remaining : st.dctx.frameRemainingSize = 0) (sized : desc.Sized (frameOutput desc blocks).length)

include places fits remaining sized

/-- A frame is complete. -/
theorem lz4fFrame_finished
    (runs : st.Runs call memory before given true bufs
      (frameInput contentHash desc blocks ++
        (leBytes 4 0 ++ checkBytes contentHash desc.contentChecksum (frameOutput desc blocks)))
      (frameOutput desc blocks)) :
    Lz4fTurnEnds call ours memory before given bound bufs.header
      (.stop { st with dctx := lz4fResetDecompressionContext st.dctx } 0) := by
  have owns := runs.owns
  refine .finished places (runs.context ⟨owns.1, owns.2, owns.3, owns.4⟩) rfl ⟨remaining, rfl⟩
    (.frame ⟨desc, blocks, fits, sized⟩) ?_ rfl
  rw [FrameUnit.bytes, Frame.bytes, Frame.suffix, frameInput, List.append_assoc]
  rfl

variable (checked : desc.contentChecksum = true)
  (hash : Xxh32Absorbed 0 (frameOutput desc blocks) st.dctx.xxh)

include checked hash

theorem lz4fCheckSuffix_ends {selectedIn value : ℕ} {r : Lz4fRegion}
    (inside : (Window.mk selectedIn 4).Inside (bufs.window call r))
    (read : st.memory.readLE selectedIn 4 = value)
    (runs : st.Runs call memory before given true bufs
      (frameInput contentHash desc blocks ++ (leBytes 4 0 ++ leBytes 4 value))
      (frameOutput desc blocks)) :
    Lz4fTurnEnds call ours memory before given bound bufs.header
      (lz4fCheckSuffix st selectedIn) := by
  have limit := read ▸ st.memory.readLE_lt selectedIn 4
  have loaded := runs.load r (.inl rfl) inside
  have equal : st.memory.u32 selectedIn = xxh32Digest st.dctx.xxh ↔
      value = (contentHash (frameOutput desc blocks)).toNat := by
    rw [hash.digest_eq, ← UInt32.toNat_inj, u32_toNat, read]
  rw [lz4fCheckSuffix]
  by_cases same : st.memory.u32 selectedIn = xxh32Digest st.dctx.xxh
  · rw [if_neg (not_not.mpr (show st.memory.u32 selectedIn =
      xxh32Digest (st.load selectedIn 4).dctx.xxh from same))]
    refine lz4fFrame_finished places fits remaining sized ?_
    rw [checkBytes, if_pos checked, ← equal.mp same]
    exact loaded
  · rw [if_pos (show st.memory.u32 selectedIn ≠
      xxh32Digest (st.load selectedIn 4).dctx.xxh from same)]
    refine .failed (by decide) places loaded (.inr (runs.refuted (refuted_end fits fun _ rest tail behind => ?_)))
    rw [checkBytes, if_pos checked] at behind
    exact same (equal.mpr (leBytes_append_injective 4 limit (UInt32.toNat_lt _) behind).1)

theorem lz4fStoreSuffix_ends (covers : bufs.Covers desc) (stage : st.dctx.dStage = .storeSuffix)
    (more : st.dctx.tmpInSize < 4)
    (runs : st.Runs call memory before given true bufs
      (frameInput contentHash desc blocks ++
        (leBytes 4 0 ++ st.memory.bytesAt bufs.tmpIn st.dctx.tmpInSize))
      (frameOutput desc blocks)) :
    Lz4fTurnEnds call ours memory before given bound bufs.header (lz4fStoreSuffix call st) := by
  have room := covers.room
  have owned := runs.owns.tmpIn
  obtain ⟨size, stores, stored⟩ := runs.store places bufs.tmpIn
    (4 - st.dctx.tmpInSize) .tmpIn ⟨.inl rfl, by decide⟩ (by decide) (Nat.le_refl _)
    (by dsimp only [Lz4fBuffers.window]; omega)
  rw [List.append_assoc, List.append_assoc, ← stores.bytes] at stored
  have le := stores.le
  have all := stores.all
  have after : (st.stored bufs.tmpIn size).srcPtr = st.srcPtr + size := rfl
  rw [lz4fStoreSuffix, owned, stores.result]
  by_cases short : st.dctx.tmpInSize + size < 4
  · rw [if_pos (show (st.stored bufs.tmpIn size).dctx.tmpInSize < 4 from short)]
    exact .stop places stored (.storeSuffix stage fits covers remaining sized checked hash short)
      ⟨Nat.sub_ne_zero_of_lt short, by omega⟩ (.inl (by omega))
  · rw [if_neg (show ¬ (st.stored bufs.tmpIn size).dctx.tmpInSize < 4 from short),
      show (st.stored bufs.tmpIn size).dctx.tmpIn = bufs.tmpIn from owned]
    have four : st.dctx.tmpInSize + size = 4 := by omega
    rw [four, ← ByteStore.leBytes_readLE] at stored
    exact lz4fCheckSuffix_ends places fits
      (show (st.stored bufs.tmpIn size).dctx.frameRemainingSize = 0 from remaining) sized checked hash
      (r := .tmpIn)
      (Window.inside_of_le (Nat.le_refl _) (by dsimp only [Lz4fBuffers.window]; omega)) rfl stored

end Suffix

theorem lz4fGetSuffix_ends (places : call.Places ours bufs)
    (runs : st.Runs call memory before given true bufs
      (frameInput contentHash desc blocks ++ leBytes 4 0) (frameOutput desc blocks))
    (knows : st.dctx.Knows desc) (fits : FrameBlocksFit desc [] blocks) (covers : bufs.Covers desc)
    (counts : st.dctx.Counts desc (frameOutput desc blocks)) :
    Lz4fTurnEnds call ours memory before given bound bufs.header (lz4fGetSuffix call st) := by
  have low := runs.srcLow
  have owns := runs.owns
  have flag := knows.contentChecksumFlag
  rw [lz4fGetSuffix]
  by_cases remaining : st.dctx.frameRemainingSize = 0
  · rw [if_neg (not_not.mpr remaining)]
    have sized := counts.sized.mp remaining
    cases checked : desc.contentChecksum with
    | false =>
      rw [if_pos (by rw [flag, checked]; rfl)]
      refine lz4fFrame_finished places fits remaining sized ?_
      rwa [checkBytes, if_neg (by rw [checked]; exact Bool.false_ne_true), List.append_nil]
    | true =>
      have hash := counts.hash checked
      rw [if_neg (by rw [flag, checked]; decide)]
      split_ifs with short
      · rw [← List.append_nil (leBytes 4 0)] at runs
        exact lz4fStoreSuffix_ends places fits remaining sized checked hash covers rfl
          (show 0 < 4 by omega) (runs.context ⟨owns.1, owns.2, owns.3, owns.4⟩)
      · have taken := runs.skip 4 (by omega)
        rw [← runs.source places low (by omega), ← ByteStore.leBytes_readLE,
          List.append_assoc] at taken
        refine lz4fCheckSuffix_ends places fits
          (show (st.skip 4).dctx.frameRemainingSize = 0 from remaining) sized checked hash (r := .src)
          (Window.inside_of_le low ?_) rfl taken
        dsimp only [Lz4fBuffers.window]
        rw [Lz4fCall.srcEnd] at short
        omega
  · rw [if_pos remaining]
    refine .failed (by decide) places runs (.inr (runs.refuted ?_))
    rw [← List.append_nil (leBytes 4 0)]
    exact refuted_end fits fun sized => absurd (counts.sized.mpr sized) remaining

/-! ## What is skipped -/

section Skippable

variable {nibble : ℕ} (places : call.Places ours bufs) (low : nibble < 16) (ready : st.dctx.Ready)

include places low ready

theorem lz4fSkipSkippable_ends {part : List UInt8} (stage : st.dctx.dStage = .skipSkippable)
    (small : st.dctx.tmpInTarget + part.length < 2 ^ 32)
    (runs : st.Runs call memory before given false bufs
      (leBytes 4 (0x184D2A50 + nibble) ++
        (leBytes 4 (st.dctx.tmpInTarget + part.length) ++ part)) []) :
    Lz4fTurnEnds call ours memory before given bound bufs.header (lz4fSkipSkippable call st) := by
  have owns := runs.owns
  have high := runs.srcHigh
  obtain ⟨size, taken⟩ : ∃ size, size = min st.dctx.tmpInTarget (call.srcEnd - st.srcPtr) := ⟨_, rfl⟩
  have after := runs.skip size (by omega)
  obtain ⟨new, named⟩ : ∃ new, new = memory.bytesAt st.srcPtr size := ⟨_, rfl⟩
  have length : new.length = size := by rw [named, ByteStore.bytesAt_length]
  have sum : st.dctx.tmpInTarget + part.length =
      st.dctx.tmpInTarget - size + (part ++ new).length := by
    rw [List.length_append]
    omega
  rw [← named, List.append_assoc, List.append_assoc, sum] at after
  rw [sum] at small
  rw [lz4fSkipSkippable, ← taken]
  dsimp only
  by_cases whole : st.dctx.tmpInTarget - size = 0
  · rw [if_neg (not_not.mpr whole)]
    rw [whole, Nat.zero_add] at after small
    exact .finished places (after.context ⟨owns.1, owns.2, owns.3, owns.4⟩) rfl ⟨ready.remaining, rfl⟩
      (.skippable nibble (part ++ new) low small) rfl rfl
  · rw [if_pos whole]
    exact .stop places (after.context ⟨owns.1, owns.2, owns.3, owns.4⟩)
      (.skipSkippable stage low ⟨ready.remaining, ready.dictSize⟩ small)
      ⟨whole, show st.dctx.tmpInTarget - size < 2 ^ 33 by omega⟩
      (.inl (show st.srcPtr + size = call.srcEnd by omega))

theorem lz4fDecodeSFrameSize_ends {selectedIn value : ℕ} {r : Lz4fRegion}
    (readable : r.Readable false)
    (inside : (Window.mk selectedIn 4).Inside (bufs.window call r))
    (read : st.memory.readLE selectedIn 4 = value)
    (runs : st.Runs call memory before given false bufs
      (leBytes 4 (0x184D2A50 + nibble) ++ leBytes 4 value) [])
    (enough : 2 * (call.srcEnd - st.srcPtr) < bound) :
    Lz4fTurnEnds call ours memory before given bound bufs.header
      (lz4fDecodeSFrameSize st selectedIn) := by
  have owns := runs.owns
  have limit := read ▸ st.memory.readLE_lt selectedIn 4
  have loaded := runs.load r readable inside
  have number : (st.memory.u32 selectedIn).toNat = value := (u32_toNat ..).trans read
  rw [lz4fDecodeSFrameSize]
  dsimp only
  rw [number]
  have input_ : leBytes 4 (0x184D2A50 + nibble) ++ leBytes 4 value =
      leBytes 4 (0x184D2A50 + nibble) ++ (leBytes 4 (value + ([] : List UInt8).length) ++ []) := by
    rw [List.append_nil]
    rfl
  rw [input_] at loaded
  refine .again places (loaded.context ⟨owns.1, owns.2, owns.3, owns.4⟩)
    (.skipSkippable rfl low ⟨ready.remaining, ready.dictSize⟩ (show value + 0 < 2 ^ 32 by omega)) ?_
  rw [Lz4fState.left, if_neg (by simp [Lz4fState.enter])]
  exact enough

theorem lz4fStoreSFrameSize_ends (stage : st.dctx.dStage = .storeSFrameSize)
    (four : 4 ≤ st.dctx.tmpInSize) (more : st.dctx.tmpInSize < 8) (target : st.dctx.tmpInTarget = 8)
    (runs : st.Runs call memory before given false bufs
      (leBytes 4 (0x184D2A50 + nibble) ++
        st.memory.bytesAt (bufs.header + 4) (st.dctx.tmpInSize - 4)) [])
    (enough : 2 * (call.srcEnd - st.srcPtr) ≤ bound) :
    Lz4fTurnEnds call ours memory before given bound bufs.header (lz4fStoreSFrameSize call st) := by
  have owned := runs.owns.header
  obtain ⟨size, stores, stored⟩ := runs.store places bufs.header
    (st.dctx.tmpInTarget - st.dctx.tmpInSize) .header
    ⟨.inr ⟨by decide, by decide⟩, by decide⟩ (by decide) (Nat.le_refl _)
    (by dsimp only [Lz4fBuffers.window]; omega)
  have bytes := stores.bytes
  rw [show st.dctx.tmpInSize + size = 4 + (st.dctx.tmpInSize - 4 + size) by omega,
    ByteStore.bytesAt_add,
    show st.memory.bytesAt bufs.header st.dctx.tmpInSize = st.memory.bytesAt bufs.header 4 ++
      st.memory.bytesAt (bufs.header + 4) (st.dctx.tmpInSize - 4) by
        rw [← ByteStore.bytesAt_add, Nat.add_sub_cancel' four], List.append_assoc] at bytes
  obtain ⟨-, rest⟩ := List.append_inj bytes
    (by rw [ByteStore.bytesAt_length, ByteStore.bytesAt_length])
  rw [List.append_assoc, ← rest] at stored
  have le := stores.le
  have all := stores.all
  have after : (st.stored bufs.header size).srcPtr = st.srcPtr + size := rfl
  have high := stored.srcHigh
  rw [lz4fStoreSFrameSize, owned, stores.result]
  by_cases short : st.dctx.tmpInSize + size < st.dctx.tmpInTarget
  · rw [if_pos (show (st.stored bufs.header size).dctx.tmpInSize <
      (st.stored bufs.header size).dctx.tmpInTarget from short)]
    rw [show st.dctx.tmpInSize - 4 + size = st.dctx.tmpInSize + size - 4 by omega] at stored
    exact .stop places stored (.storeSFrameSize stage low ⟨ready.remaining, ready.dictSize⟩
      (show 4 ≤ st.dctx.tmpInSize + size by omega) (show st.dctx.tmpInSize + size < 8 by omega) target)
      ⟨Nat.sub_ne_zero_of_lt short,
        show st.dctx.tmpInTarget - (st.dctx.tmpInSize + size) < 2 ^ 33 by omega⟩ (.inl (by omega))
  · rw [if_neg (show ¬ (st.stored bufs.header size).dctx.tmpInSize <
      (st.stored bufs.header size).dctx.tmpInTarget from short),
      show (st.stored bufs.header size).dctx.header = bufs.header from owned]
    rw [show st.dctx.tmpInSize - 4 + size = 4 by omega, ← ByteStore.leBytes_readLE] at stored
    refine lz4fDecodeSFrameSize_ends places low
      (show (st.stored bufs.header size).dctx.Ready from ⟨ready.remaining, ready.dictSize⟩) (r := .header)
      (.inr ⟨by decide, by decide⟩) (Window.inside_of_le (show bufs.header ≤ bufs.header + 4 by omega)
        (show bufs.header + 4 + 4 ≤ bufs.header + 19 by omega)) rfl stored ?_
    omega

theorem lz4fGetSFrameSize_ends
    (runs : st.Runs call memory before given false bufs (leBytes 4 (0x184D2A50 + nibble)) [])
    (enough : 2 * (call.srcEnd - st.srcPtr) ≤ bound) :
    Lz4fTurnEnds call ours memory before given bound bufs.header (lz4fGetSFrameSize call st) := by
  have owns := runs.owns
  have first := runs.srcLow
  rw [lz4fGetSFrameSize]
  split_ifs with direct
  · have taken := runs.skip 4 (by omega)
    rw [← runs.source places first (by omega), ← ByteStore.leBytes_readLE] at taken
    refine lz4fDecodeSFrameSize_ends places low (show (st.skip 4).dctx.Ready from ready) (r := .src)
      (.inr ⟨by decide, by decide⟩)
      (Window.inside_of_le first ?_) rfl taken ?_
    · dsimp only [Lz4fBuffers.window]
      rw [Lz4fCall.srcEnd] at direct
      omega
    · change 2 * (call.srcEnd - (st.srcPtr + 4)) < bound
      omega
  · rw [← List.append_nil (leBytes 4 (0x184D2A50 + nibble))] at runs
    exact lz4fStoreSFrameSize_ends places low ⟨ready.remaining, ready.dictSize⟩ rfl (Nat.le_refl 4)
      (show 4 < 8 by omega) rfl (runs.context ⟨owns.1, owns.2, owns.3, owns.4⟩) enough

end Skippable

end Ends

end ZLoader
