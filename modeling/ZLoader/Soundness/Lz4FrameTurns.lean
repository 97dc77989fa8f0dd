import ZLoader.Soundness.Lz4FrameStages

/-! # The blocks of a frame, turn by turn

Stored blocks are copied part by part, packed ones are decoded when all their bytes are there. What is
given to the output, at once or later, is what the block stands for; with checksums the block has the
one that is given.
-/

namespace ZLoader

section Turns

variable {call : Lz4fCall} {ours : Lz4fBuffers → Prop} {bufs : Lz4fBuffers}
  {memory : ByteStore} {tmp : Bool}
  {before given input output content data : List UInt8} {st : Lz4fState} {desc : FrameDescriptor}
  {blocks : List FrameBlock} {bound : ℕ}

/-! ## Content -/

/-- The checksum and the size of the content with more behind it. -/
theorem lz4fCountContent_counts (knows : st.dctx.Knows desc) (counts : st.dctx.Counts desc content)
    {p : ℕ} (bytes : st.memory.bytesAt p data.length = data) :
    ∃ xxh remaining reads, lz4fCountContent st p data.length =
        { st with dctx := { st.dctx with xxh := xxh, frameRemainingSize := remaining }, reads := reads } ∧
      (reads = st.reads ∨ reads = ⟨p, data.length⟩ :: st.reads) ∧
      Lz4fDctx.Counts { st.dctx with xxh := xxh, frameRemainingSize := remaining } desc
        (content ++ data) := by
  have flag := knows.contentChecksumFlag
  have size := knows.contentSize
  have from_ : (st.memory.from_ p).bytesAt 0 data.length = data :=
    (ByteStore.bytesAt_congr fun index _ => by rw [ByteStore.from_, Nat.zero_add]).trans bytes
  have less : desc.contentSize.getD 0 - UInt64.ofNat content.length - UInt64.ofNat data.length =
      desc.contentSize.getD 0 - UInt64.ofNat (content ++ data).length := by
    rw [List.length_append, UInt64.ofNat_add]
    grind
  have counted : lz4fCountContent st p data.length = { st with
      dctx := { st.dctx with
        xxh := if st.dctx.frameInfo.contentChecksumFlag = true then
          xxh32Update st.dctx.xxh (st.memory.from_ p) data.length else st.dctx.xxh
        frameRemainingSize := if st.dctx.frameInfo.contentSize = 0 then st.dctx.frameRemainingSize
          else st.dctx.frameRemainingSize - UInt64.ofNat data.length }
      reads := if st.dctx.frameInfo.contentChecksumFlag = true then ⟨p, data.length⟩ :: st.reads
        else st.reads } := by
    by_cases checked : st.dctx.frameInfo.contentChecksumFlag = true <;>
      by_cases sized : st.dctx.frameInfo.contentSize = 0 <;>
      simp [lz4fCountContent, Lz4fState.load, checked, sized]
  refine ⟨_, _, _, counted, ?_, ⟨?_, fun checks => ?_⟩⟩
  · split_ifs
    · exact .inr rfl
    · exact .inl rfl
  · dsimp only
    rw [size, counts.remaining]
    split_ifs with none_
    · rfl
    · exact less
  · dsimp only
    rw [if_pos (flag.trans checks)]
    have absorbed := (counts.hash checks).update (st.memory.from_ p) data.length
    rwa [from_] at absorbed

theorem Lz4fBuffers.Covers.large (covers : bufs.Covers desc) :
    65536 ≤ bufs.maxBufferSize ∧ (desc.linked = true → 196608 ≤ bufs.maxBufferSize) := by
  have size := covers.size
  have least := desc.le_blockSize
  refine ⟨by omega, fun linked => ?_⟩
  rw [if_pos linked] at size
  omega

/-- Content that has been put behind the output is given. -/
theorem lz4fUpdateDict_gives (places : call.Places ours bufs)
    (runs : st.Runs call memory before given true bufs input output) (knows : st.dctx.Knows desc)
    (covers : bufs.Covers desc)
    (holds : DictHolds bufs call.dstBuffer st.dstPtr st.memory (FrameBlock.history desc.linked output)
      st.dctx.dict st.dctx.dictSize)
    (bytes : st.memory.bytesAt st.dstPtr data.length = data)
    (room : st.dstPtr + data.length ≤ call.dstBuffer + call.dstSize) :
    ∃ dict dictSize memory' reads writes,
      (if st.dctx.frameInfo.blockMode = .linked then
        lz4fUpdateDict st st.dstPtr data.length call.dstBuffer false else st) =
        st.redict dict dictSize memory' reads writes ∧
      Lz4fState.Runs call memory before given true bufs input (output ++ data)
        { st.redict dict dictSize memory' reads writes with dstPtr := st.dstPtr + data.length } ∧
      DictHolds bufs call.dstBuffer (st.dstPtr + data.length) memory'
        (FrameBlock.history desc.linked (output ++ data)) dict dictSize := by
  have mode := knows.blockMode
  have owns := runs.owns
  cases linked : desc.linked with
  | false =>
    rw [linked] at holds mode
    have none_ : st.dctx.dictSize = 0 := Nat.le_zero.mp holds.le_length
    refine ⟨st.dctx.dict, st.dctx.dictSize, st.memory, st.reads, st.writes, ?_, ?_, ?_⟩
    · rw [if_neg (by rw [mode]; decide)]
      rfl
    · have moved := runs.give room runs.confined fun _ _ _ => rfl
      rw [bytes] at moved
      exact moved.context ⟨owns.1, owns.2, owns.3, owns.4⟩
    · rw [none_]
      exact dictHolds_nil ..
  | true =>
    rw [linked] at holds mode
    obtain ⟨dict, dictSize, memory', reads, writes, updated, moved, moves⟩ :=
      Lz4fState.Runs.updateDict places (covers.large.2 linked) runs bytes room holds
    refine ⟨dict, dictSize, memory', reads, writes, ?_, ?_, moved⟩
    · rw [if_pos rfl] at mode
      rw [if_pos mode, updated]
    · have low := runs.dstLow
      have outside (index : ℕ) (first : call.dstBuffer ≤ index)
          (last : index < st.dstPtr + data.length) : memory' index = st.memory index :=
        moves.kept index fun within => places.apart .tmpOut .dst (by decide) index within
          ⟨first, Nat.lt_of_lt_of_le last room⟩
      have given_ := runs.give room moves.confined fun index first last =>
        outside index first (Nat.lt_of_lt_of_le last (Nat.le_add_right ..))
      have same : memory'.bytesAt st.dstPtr data.length = data :=
        (ByteStore.bytesAt_congr fun index inside => outside _ (by omega) (by omega)).trans bytes
      rw [same] at given_
      exact given_.context ⟨owns.1, owns.2, owns.3, owns.4⟩

/-- What the decoder does with content that stands behind the output. -/
theorem lz4fCountContent_gives (places : call.Places ours bufs)
    (runs : st.Runs call memory before given true bufs input output)
    (behind : Lz4fBehind bufs call.dstBuffer st.dstPtr st.memory st.dctx desc blocks output) {p : ℕ}
    (r : Lz4fRegion) (inside : (Window.mk p data.length).Inside (bufs.window call r))
    (source : st.memory.bytesAt p data.length = data)
    (bytes : st.memory.bytesAt st.dstPtr data.length = data)
    (room : st.dstPtr + data.length ≤ call.dstBuffer + call.dstSize) :
    ∃ xxh remaining dict dictSize memory' reads writes,
      (if (lz4fCountContent st p data.length).dctx.frameInfo.blockMode = .linked then
        lz4fUpdateDict (lz4fCountContent st p data.length)
          (lz4fCountContent st p data.length).dstPtr data.length call.dstBuffer false
        else lz4fCountContent st p data.length) =
        { st with
          dctx := { st.dctx with
            xxh := xxh, frameRemainingSize := remaining, dict := dict, dictSize := dictSize }
          memory := memory', reads := reads, writes := writes } ∧
      Lz4fState.Runs call memory before given true bufs input (output ++ data)
        { st with
          dctx := { st.dctx with
            xxh := xxh, frameRemainingSize := remaining, dict := dict, dictSize := dictSize }
          memory := memory', reads := reads, writes := writes, dstPtr := st.dstPtr + data.length } ∧
      Lz4fBehind bufs call.dstBuffer (st.dstPtr + data.length) memory'
        { st.dctx with
          xxh := xxh, frameRemainingSize := remaining, dict := dict, dictSize := dictSize }
        desc blocks (output ++ data) := by
  have owns := runs.owns
  have knows := behind.knows
  obtain ⟨xxh, remaining, reads, counted, loaded, counts⟩ :=
    lz4fCountContent_counts knows behind.counts source
  have runs_ : Lz4fState.Runs call memory before given true bufs input output
      { st with
        dctx := { st.dctx with xxh := xxh, frameRemainingSize := remaining }, reads := reads } := by
    rcases loaded with rfl | rfl
    · exact runs.context ⟨owns.1, owns.2, owns.3, owns.4⟩
    · exact (runs.load r (.inl rfl) inside).context ⟨owns.1, owns.2, owns.3, owns.4⟩
  obtain ⟨dict, dictSize, memory', reads', writes', updated, moved, holds⟩ :=
    lz4fUpdateDict_gives places runs_
      ⟨knows.blockMode, knows.blockChecksumFlag, knows.contentChecksumFlag, knows.contentSize,
        knows.maxBlockSize⟩ behind.covers behind.dict bytes room
  refine ⟨xxh, remaining, dict, dictSize, memory', reads', writes', ?_, moved, ?_⟩
  · rw [counted]
    exact updated
  · exact ⟨⟨knows.blockMode, knows.blockChecksumFlag, knows.contentChecksumFlag, knows.contentSize,
      knows.maxBlockSize⟩, behind.fits, behind.covers, ⟨counts.remaining, counts.hash⟩, holds,
      behind.tmpOut⟩

/-! ## Stored blocks -/

section Stored

variable {part : List UInt8} {size : ℕ} (places : call.Places ours bufs)

include places

/-- A part of a stored block is copied to the output. -/
theorem lz4fCopyStored_gives (runs : st.Runs call memory before given true bufs input output)
    (behind : Lz4fBehind bufs call.dstBuffer st.dstPtr st.memory st.dctx desc blocks output)
    (check : desc.blockChecksums = true → Xxh32Absorbed 0 part st.dctx.blockChecksum)
    (taken : st.srcPtr + size ≤ call.srcEnd)
    (room : st.dstPtr + size ≤ call.dstBuffer + call.dstSize)
    (null : st.dstPtr = 0 → size = 0) :
    ∃ blockChecksum xxh remaining dict dictSize memory' reads writes,
      (if st.dstPtr = 0 then st else lz4fCopyStored call st size) =
        { st with
          dctx := { st.dctx with
            blockChecksum := blockChecksum, xxh := xxh, frameRemainingSize := remaining
            dict := dict, dictSize := dictSize }
          memory := memory', reads := reads, writes := writes } ∧
      Lz4fState.Runs call memory before given true bufs (input ++ memory.bytesAt st.srcPtr size)
        (output ++ memory.bytesAt st.srcPtr size)
        { st with
          dctx := { st.dctx with
            blockChecksum := blockChecksum, xxh := xxh, frameRemainingSize := remaining
            dict := dict, dictSize := dictSize }
          memory := memory', reads := reads, writes := writes
          srcPtr := st.srcPtr + size, dstPtr := st.dstPtr + size } ∧
      Lz4fBehind bufs call.dstBuffer (st.dstPtr + size) memory'
        { st.dctx with
          blockChecksum := blockChecksum, xxh := xxh, frameRemainingSize := remaining
          dict := dict, dictSize := dictSize }
        desc blocks (output ++ memory.bytesAt st.srcPtr size) ∧
      (desc.blockChecksums = true →
        Xxh32Absorbed 0 (part ++ memory.bytesAt st.srcPtr size) blockChecksum) := by
  by_cases none_ : st.dstPtr = 0
  · obtain rfl := null none_
    have nothing : memory.bytesAt st.srcPtr 0 = [] := rfl
    have stays := runs.skip 0 taken
    rw [if_pos none_]
    rw [nothing, List.append_nil] at stays ⊢
    rw [List.append_nil, List.append_nil]
    exact ⟨_, _, _, _, _, _, _, _, rfl, stays, behind, check⟩
  rw [if_neg none_]
  have low := runs.srcLow
  have below := runs.dstLow
  have owns := runs.owns
  have flag := behind.knows.blockChecksumFlag
  obtain ⟨data, named⟩ : ∃ data, data = memory.bytesAt st.srcPtr size := ⟨_, rfl⟩
  have length : data.length = size := by rw [named, ByteStore.bytesAt_length]
  have from_ : (Window.mk st.srcPtr size).Inside (bufs.window call .src) :=
    Window.inside_of_le low (by rw [Lz4fCall.srcEnd] at taken; dsimp only [Lz4fBuffers.window]; omega)
  have to_ : (Window.mk st.dstPtr size).Inside (bufs.window call .dst) :=
    Window.inside_of_le below room
  have copied : (st.copy st.dstPtr st.srcPtr size).Runs call memory before given true bufs input
      output :=
    runs.change owns (runs.confined.copy .src .dst (.inl rfl) from_ ⟨.inl rfl, by decide⟩ to_
      st.memory) fun index first last => Patch.apply_copy_outside _ _ (.inl last)
  have source : (st.copy st.dstPtr st.srcPtr size).memory.bytesAt st.srcPtr size = data :=
    (copied.source places low taken).trans named.symm
  have bytes : (st.copy st.dstPtr st.srcPtr size).memory.bytesAt st.dstPtr size = data :=
    (ByteStore.bytesAt_apply_copy ..).trans ((runs.source places low taken).trans named.symm)
  have behind_ : Lz4fBehind bufs call.dstBuffer st.dstPtr (st.copy st.dstPtr st.srcPtr size).memory
      st.dctx desc blocks output := by
    refine behind.keep (fun index first last => Patch.apply_copy_outside _ _ ?_)
      fun index first last => Patch.apply_copy_outside _ _ (.inl last)
    by_contra within
    exact places.apart .tmpOut .dst (by decide) index ⟨first, last⟩
      (to_ index (Window.contains_mk.mpr (by omega)))
  obtain ⟨blockChecksum, reads, checked, loaded, absorbed⟩ : ∃ blockChecksum reads,
      (if (st.copy st.dstPtr st.srcPtr size).dctx.frameInfo.blockChecksumFlag = true then
        { (st.copy st.dstPtr st.srcPtr size).load (st.copy st.dstPtr st.srcPtr size).srcPtr size with
          dctx.blockChecksum := xxh32Update (st.copy st.dstPtr st.srcPtr size).dctx.blockChecksum
            ((st.copy st.dstPtr st.srcPtr size).memory.from_
              (st.copy st.dstPtr st.srcPtr size).srcPtr) size }
        else st.copy st.dstPtr st.srcPtr size) =
          { st.copy st.dstPtr st.srcPtr size with
            dctx := { st.dctx with blockChecksum := blockChecksum }, reads := reads } ∧
      Lz4fState.Runs call memory before given true bufs input output
        { st.copy st.dstPtr st.srcPtr size with
          dctx := { st.dctx with blockChecksum := blockChecksum }, reads := reads } ∧
      (desc.blockChecksums = true → Xxh32Absorbed 0 (part ++ data) blockChecksum) := by
    split_ifs with checks
    · refine ⟨_, _, rfl, (copied.load .src (.inl rfl) from_).context
        ⟨owns.1, owns.2, owns.3, owns.4⟩, fun sums => ?_⟩
      have whole := (check sums).update
        ((st.copy st.dstPtr st.srcPtr size).memory.from_ st.srcPtr) size
      have same : ((st.copy st.dstPtr st.srcPtr size).memory.from_ st.srcPtr).bytesAt 0 size = data :=
        (ByteStore.bytesAt_congr fun index _ => by rw [ByteStore.from_, Nat.zero_add]).trans source
      rwa [same] at whole
    · exact ⟨_, _, rfl, copied.context ⟨owns.1, owns.2, owns.3, owns.4⟩,
        fun sums => absurd (flag.trans sums) checks⟩
  subst length
  obtain ⟨xxh, remaining, dict, dictSize, memory', reads', writes', counted, moved, holds⟩ :=
    lz4fCountContent_gives places loaded (behind_.context rfl) .src from_ source bytes room
  rw [← named]
  refine ⟨blockChecksum, xxh, remaining, dict, dictSize, memory', reads', writes', ?_, ?_, holds,
    absorbed⟩
  · rw [lz4fCopyStored]
    dsimp only
    rw [checked]
    exact counted
  · exact Eq.mpr (congrArg (fun new => Lz4fState.Runs call memory before given true bufs (input ++ new)
      (output ++ data) _) named) (moved.skip data.length taken)

theorem lz4fCopyDirect_ends
    (runs : st.Runs call memory before given true bufs
      (frameInput contentHash desc blocks ++
        (leBytes 4 (st.dctx.tmpInTarget + part.length + 2 ^ 31) ++ part))
      (frameOutput desc blocks ++ part)) (stage : st.dctx.dStage = .copyDirect)
    (behind : Lz4fBehind bufs call.dstBuffer st.dstPtr st.memory st.dctx desc blocks
      (frameOutput desc blocks ++ part))
    (small : st.dctx.tmpInTarget + part.length ≤ desc.blockSize)
    (check : desc.blockChecksums = true → Xxh32Absorbed 0 part st.dctx.blockChecksum)
    (enough : 2 * (call.srcEnd - st.srcPtr) < bound) :
    Lz4fTurnEnds call ours memory before given bound bufs.header (lz4fCopyDirect call st) := by
  have high := runs.srcHigh
  have limit := runs.dstHigh
  have low := runs.dstLow
  have dest := places.dest
  have least := desc.blockSize_le
  have flag := behind.knows.blockChecksumFlag
  obtain ⟨size, taken⟩ : ∃ size, size = if st.dstPtr = 0 then 0
      else min st.dctx.tmpInTarget (min (call.srcEnd - st.srcPtr) (call.dstEnd - st.dstPtr)) :=
    ⟨_, rfl⟩
  rw [lz4fCopyDirect, ← taken]
  dsimp only
  rw [places.dstEnd] at taken
  have le : size ≤ st.dctx.tmpInTarget ∧ st.srcPtr + size ≤ call.srcEnd ∧
      st.dstPtr + size ≤ call.dstBuffer + call.dstSize ∧ (st.dstPtr = 0 → size = 0) ∧
      (size = st.dctx.tmpInTarget ∨ st.srcPtr + size = call.srcEnd ∨
        st.dstPtr + size = call.dstBuffer + call.dstSize) := by
    split_ifs at taken with none_ <;> omega
  obtain ⟨blockChecksum, xxh, remaining, dict, dictSize, memory', reads, writes, copied, moved, after,
    absorbed⟩ := lz4fCopyStored_gives places runs behind check le.2.1 le.2.2.1 le.2.2.2.1
  obtain ⟨new, named⟩ : ∃ new, new = memory.bytesAt st.srcPtr size := ⟨_, rfl⟩
  obtain rfl : new.length = size := by rw [named, ByteStore.bytesAt_length]
  rw [copied]
  rw [← named] at moved after absorbed
  have owns := moved.owns
  have sum : st.dctx.tmpInTarget + part.length =
      st.dctx.tmpInTarget - new.length + (part ++ new).length := by
    rw [List.length_append]
    omega
  simp only [List.append_assoc] at moved after
  rw [sum] at moved small
  have left (st' : Lz4fState) (cursor : st'.srcPtr = st.srcPtr + new.length)
      (stage' : st'.dctx.dStage = .getBlockChecksum ∨ st'.dctx.dStage = .getBlockHeader) :
      st'.left call < bound := by
    rw [Lz4fState.left, cursor, if_neg (by rcases stage' with same | same <;> simp [same])]
    omega
  have wants (crc : ℕ) (le : crc ≤ 4) : st.dctx.tmpInTarget - new.length + crc + 4 ≠ 0 ∧
      st.dctx.tmpInTarget - new.length + crc + 4 < 2 ^ 33 := by omega
  have idle (part_ : new.length ≠ st.dctx.tmpInTarget) : st.srcPtr + new.length = call.srcEnd ∨
      st.dstPtr + new.length = call.dstEnd := by
    rw [places.dstEnd]
    exact le.2.2.2.2.resolve_left part_
  split_ifs with whole checks
  · rw [show st.dctx.tmpInTarget = new.length from whole.symm, Nat.sub_self, Nat.zero_add] at moved small
    refine .again places (moved.context ⟨owns.1, owns.2, owns.3, owns.4⟩) ?_
      (left _ rfl (.inl rfl))
    have holds := @Lz4fHolds.getBlockChecksum bufs call.dstBuffer (st.dstPtr + new.length) memory' { st.dctx with
      blockChecksum := blockChecksum, xxh := xxh, frameRemainingSize := remaining
      dict := dict, dictSize := dictSize, dStage := .getBlockChecksum, tmpInSize := 0 } desc blocks (part ++ new) rfl
      (after.context rfl) small (flag.symm.trans checks) (absorbed (flag.symm.trans checks))
      (show 0 < 4 by omega)
    rw [show memory'.bytesAt bufs.header 0 = [] from rfl, List.append_nil] at holds
    exact holds
  · rw [show st.dctx.tmpInTarget = new.length from whole.symm, Nat.sub_self, Nat.zero_add] at moved small
    have unchecked : desc.blockChecksums = false :=
      Bool.eq_false_iff.mpr fun sums => checks (flag.trans sums)
    have input_ : frameInput contentHash desc (blocks ++ [.stored (part ++ new)]) = _ :=
      frameInput_concat _
    have output_ : frameOutput desc (blocks ++ [.stored (part ++ new)]) = _ :=
      frameOutput_concat _
    rw [FrameBlock.bytes, unchecked, checkBytes, if_neg Bool.false_ne_true, List.append_nil] at input_
    rw [FrameBlock.decode] at output_
    rw [FrameBlock.header, FrameBlock.payload] at input_
    rw [← input_, ← output_] at moved
    rw [← output_] at after
    refine .again places (moved.context ⟨owns.1, owns.2, owns.3, owns.4⟩)
      (.getBlockHeader rfl ((after.concat (.stored (part ++ new)) small).context rfl)) (left _ rfl (.inr rfl))
  · exact .stop places (moved.context ⟨owns.1, owns.2, owns.3, owns.4⟩)
      (.copyDirect stage (after.context rfl) small absorbed) (wants 4 (Nat.le_refl _)) (idle whole)
  · exact .stop places (moved.context ⟨owns.1, owns.2, owns.3, owns.4⟩)
      (.copyDirect stage (after.context rfl) small absorbed) (wants 0 (by omega)) (idle whole)

end Stored

section Check

variable (places : call.Places ours bufs) (small : data.length ≤ desc.blockSize)
  (checked : desc.blockChecksums = true)

include places small checked

theorem lz4fCheckStored_ends {crcSrc value : ℕ} {r : Lz4fRegion}
    (inside : (Window.mk crcSrc 4).Inside (bufs.window call r))
    (read : st.memory.readLE crcSrc 4 = value)
    (runs : st.Runs call memory before given true bufs
      (frameInput contentHash desc blocks ++
        (leBytes 4 (data.length + 2 ^ 31) ++ (data ++ leBytes 4 value)))
      (frameOutput desc blocks ++ data))
    (behind : Lz4fBehind bufs call.dstBuffer st.dstPtr st.memory st.dctx desc blocks
      (frameOutput desc blocks ++ data))
    (check : Xxh32Absorbed 0 data st.dctx.blockChecksum)
    (enough : 2 * (call.srcEnd - st.srcPtr) < bound) :
    Lz4fTurnEnds call ours memory before given bound bufs.header (lz4fCheckStored st crcSrc) := by
  have owns := runs.owns
  have limit := read ▸ st.memory.readLE_lt crcSrc 4
  have loaded := runs.load r (.inl rfl) inside
  have equal : st.memory.u32 crcSrc = xxh32Digest st.dctx.blockChecksum ↔
      value = (contentHash data).toNat := by
    rw [check.digest_eq, ← UInt32.toNat_inj, u32_toNat, read]
  rw [lz4fCheckStored]
  by_cases other : st.memory.u32 crcSrc = xxh32Digest st.dctx.blockChecksum
  · rw [if_neg (not_not.mpr (show st.memory.u32 crcSrc =
      xxh32Digest (st.load crcSrc 4).dctx.blockChecksum from other))]
    have input_ : frameInput contentHash desc (blocks ++ [.stored data]) = _ :=
      frameInput_concat _
    have output_ : frameOutput desc (blocks ++ [.stored data]) = _ := frameOutput_concat _
    rw [FrameBlock.decode] at output_
    rw [FrameBlock.bytes, checkBytes, if_pos checked, FrameBlock.header, FrameBlock.payload,
      ← equal.mp other] at input_
    rw [← input_, ← output_] at loaded
    rw [← output_] at behind
    refine .again places (loaded.context ⟨owns.1, owns.2, owns.3, owns.4⟩) (.getBlockHeader rfl
      ((behind.concat (.stored data) small).context rfl)) ?_
    rw [Lz4fState.left, if_neg (by simp [Lz4fState.enter])]
    exact enough
  · rw [if_pos (show st.memory.u32 crcSrc ≠
      xxh32Digest (st.load crcSrc 4).dctx.blockChecksum from other)]
    exact .failed (by decide) places loaded (.inr (runs.refuted (refuted_storedCheck behind.fits small checked
      limit (other ∘ equal.mpr))))

theorem lz4fGetBlockChecksum_ends
    (runs : st.Runs call memory before given true bufs
      (frameInput contentHash desc blocks ++ (leBytes 4 (data.length + 2 ^ 31) ++
        (data ++ st.memory.bytesAt bufs.header st.dctx.tmpInSize)))
      (frameOutput desc blocks ++ data)) (stage : st.dctx.dStage = .getBlockChecksum)
    (behind : Lz4fBehind bufs call.dstBuffer st.dstPtr st.memory st.dctx desc blocks
      (frameOutput desc blocks ++ data))
    (check : Xxh32Absorbed 0 data st.dctx.blockChecksum) (more : st.dctx.tmpInSize < 4)
    (enough : 2 * (call.srcEnd - st.srcPtr) ≤ bound) :
    Lz4fTurnEnds call ours memory before given bound bufs.header
      (lz4fGetBlockChecksum call st) := by
  have low := runs.srcLow
  have high := runs.srcHigh
  have owned := runs.owns.header
  rw [lz4fGetBlockChecksum]
  split_ifs with direct
  · obtain ⟨four, none_⟩ := direct
    have taken := runs.skip 4 (by omega)
    rw [none_, show st.memory.bytesAt bufs.header 0 = [] from rfl, List.append_nil,
      ← runs.source places low (by omega), ← ByteStore.leBytes_readLE] at taken
    simp only [List.append_assoc] at taken
    refine lz4fCheckStored_ends places small checked (r := .src) (Window.inside_of_le low ?_) rfl
      taken behind check ?_
    · dsimp only [Lz4fBuffers.window]
      rw [Lz4fCall.srcEnd] at four
      omega
    · change 2 * (call.srcEnd - (st.srcPtr + 4)) < bound
      omega
  · obtain ⟨size, stores, stored⟩ := runs.store places bufs.header
      (4 - st.dctx.tmpInSize) .header ⟨.inl rfl, by decide⟩ (by decide) (Nat.le_refl _)
      (by dsimp only [Lz4fBuffers.window]; omega)
    have behind_ := stores.behind places runs ⟨by decide, by decide⟩ behind
    simp only [List.append_assoc] at stored
    rw [← stores.bytes] at stored
    have le := stores.le
    have all := stores.all
    have after : (st.stored bufs.header size).srcPtr = st.srcPtr + size := rfl
    have high' := stored.srcHigh
    dsimp only
    rw [owned, stores.result]
    by_cases short : st.dctx.tmpInSize + size < 4
    · rw [if_pos (show (st.stored bufs.header size).dctx.tmpInSize < 4 from short)]
      exact .stop places stored (.getBlockChecksum stage (behind_.context rfl) small checked check
        short) ⟨Nat.one_ne_zero, by omega⟩ (.inl (by omega))
    · rw [if_neg (show ¬ (st.stored bufs.header size).dctx.tmpInSize < 4 from short),
        show (st.stored bufs.header size).dctx.header = bufs.header from owned]
      have four : st.dctx.tmpInSize + size = 4 := by omega
      rw [four, ← ByteStore.leBytes_readLE] at stored
      refine lz4fCheckStored_ends places small checked (r := .header)
        (Window.inside_of_le (Nat.le_refl _) (by dsimp only [Lz4fBuffers.window]; omega)) rfl stored
        (behind_.context rfl) check ?_
      omega

end Check

/-! ## Blocks that are given away -/

section Flush

variable {old block : List UInt8} (places : call.Places ours bufs) (knows : st.dctx.Knows desc)
  (covers : bufs.Covers desc)

include places knows covers

/-- A part of the block that waits is given to the output. -/
theorem lz4fFlushOut_gives
    (runs : st.Runs call memory before given true bufs input (old ++ block.take st.dctx.tmpOutStart))
    (size : st.dctx.tmpOutSize = block.length)
    (flush : FlushHolds bufs call.dstBuffer st.dstPtr st.memory desc.linked old block st.dctx.dict
      st.dctx.dictSize st.dctx.tmpOut st.dctx.tmpOutStart) :
    ∃ count dict dictSize memory' reads writes, lz4fFlushOut call st =
        (if st.dctx.tmpOutStart + count = st.dctx.tmpOutSize then
          .again ({ st with
            dctx := { st.dctx with
              dict := dict, dictSize := dictSize, tmpOutStart := st.dctx.tmpOutStart + count }
            memory := memory', reads := reads, writes := writes
            dstPtr := st.dstPtr + count }.enter .getBlockHeader)
        else .stop { st with
          dctx := { st.dctx with
            dict := dict, dictSize := dictSize, tmpOutStart := st.dctx.tmpOutStart + count }
          memory := memory', reads := reads, writes := writes, dstPtr := st.dstPtr + count } 4) ∧
      Lz4fState.Runs call memory before given true bufs input
        (old ++ block.take (st.dctx.tmpOutStart + count))
        { st with
          dctx := { st.dctx with
            dict := dict, dictSize := dictSize, tmpOutStart := st.dctx.tmpOutStart + count }
          memory := memory', reads := reads, writes := writes, dstPtr := st.dstPtr + count } ∧
      FlushHolds bufs call.dstBuffer (st.dstPtr + count) memory' desc.linked old block dict dictSize
        st.dctx.tmpOut (st.dctx.tmpOutStart + count) ∧
      (st.dctx.tmpOutStart + count = block.length ∨ st.dstPtr + count = call.dstEnd) := by
  have owns := runs.owns
  have low := runs.dstLow
  have high := runs.dstHigh
  have dest := places.dest
  have le := flush.le
  have mode := knows.blockMode
  by_cases none_ : st.dstPtr = 0
  · refine ⟨0, st.dctx.dict, st.dctx.dictSize, st.memory, st.reads, st.writes, ?_, runs, flush,
      .inr ?_⟩
    · rw [lz4fFlushOut, if_neg (not_not.mpr none_)]
      rfl
    · rw [places.dstEnd]
      omega
  obtain ⟨count, copied⟩ : ∃ count, count =
      min (st.dctx.tmpOutSize - st.dctx.tmpOutStart) (call.dstEnd - st.dstPtr) := ⟨_, rfl⟩
  have limits : st.dctx.tmpOutStart + count ≤ block.length ∧
      st.dstPtr + count ≤ call.dstBuffer + call.dstSize ∧
      (st.dctx.tmpOutStart + count = block.length ∨ st.dstPtr + count = call.dstEnd) := by
    rw [places.dstEnd] at copied ⊢
    omega
  obtain ⟨inside, room, idle⟩ := limits
  have some_ : bufs.maxBufferSize ≠ 0 := by
    have large := covers.large.1
    omega
  obtain ⟨moved, bytes, same⟩ := flush.gives places runs inside room
  have parts : old ++ block.take (st.dctx.tmpOutStart + count) =
      old ++ block.take st.dctx.tmpOutStart ++ (block.drop st.dctx.tmpOutStart).take count := by
    rw [List.take_add, List.append_assoc]
  have given_ := moved.give room moved.confined fun _ _ _ => rfl
  rw [show (st.copy st.dstPtr (st.dctx.tmpOut + st.dctx.tmpOutStart) count).dstPtr = st.dstPtr
    from rfl, bytes, ← parts] at given_
  cases linked : desc.linked with
  | false =>
    rw [linked] at mode flush
    refine ⟨count, st.dctx.dict, st.dctx.dictSize, _, _, _, ?_,
      given_.context ⟨owns.1, owns.2, owns.3, owns.4⟩, ?_, idle⟩
    · rw [lz4fFlushOut, if_pos none_, ← copied]
      have unlinked : ¬ (st.copy st.dstPtr (st.dctx.tmpOut + st.dctx.tmpOutStart)
          count).dctx.frameInfo.blockMode = .linked := fun linked_ =>
        absurd (mode.symm.trans linked_) (by decide)
      simp only [if_neg unlinked]
      rfl
    · exact
        { low := flush.low
          high := flush.high
          bytes := (ByteStore.bytesAt_congr fun index within => same _ (by
            have start := flush.low
            have limit := flush.high
            exact Window.contains_mk.mpr (by omega))).trans flush.bytes
          le := inside
          unlinked := flush.unlinked
          reserve := nofun
          history := nofun }
  | true =>
    rw [linked] at mode flush
    rw [if_pos rfl] at mode
    obtain ⟨dict, dictSize, updated, holds⟩ := flush.flush places some_ runs inside room rfl
    refine ⟨count, dict, dictSize, _, _, _, ?_, given_.context ⟨owns.1, owns.2, owns.3, owns.4⟩,
      holds, idle⟩
    rw [lz4fFlushOut, if_pos none_, ← copied]
    simp only [if_pos (show (st.copy st.dstPtr (st.dctx.tmpOut + st.dctx.tmpOutStart)
      count).dctx.frameInfo.blockMode = .linked from mode),
      show (st.copy st.dstPtr (st.dctx.tmpOut + st.dctx.tmpOutStart) count).dstPtr = st.dstPtr
        from rfl, updated]
    rfl

theorem lz4fFlushOut_ends
    (runs : st.Runs call memory before given true bufs (frameInput contentHash desc blocks)
      (old ++ block.take st.dctx.tmpOutStart)) (stage : st.dctx.dStage = .flushOut)
    (fits : FrameBlocksFit desc [] blocks) (all : frameOutput desc blocks = old ++ block)
    (counts : st.dctx.Counts desc (frameOutput desc blocks))
    (tmpOut : desc.linked = false → st.dctx.tmpOut = bufs.tmpOutBuffer)
    (size : st.dctx.tmpOutSize = block.length)
    (flush : FlushHolds bufs call.dstBuffer st.dstPtr st.memory desc.linked old block st.dctx.dict
      st.dctx.dictSize st.dctx.tmpOut st.dctx.tmpOutStart)
    (enough : 2 * (call.srcEnd - st.srcPtr) < bound) :
    Lz4fTurnEnds call ours memory before given bound bufs.header (lz4fFlushOut call st) := by
  obtain ⟨count, dict, dictSize, memory', reads, writes, ends, moved, holds, idle⟩ :=
    lz4fFlushOut_gives places knows covers runs size flush
  have owns := moved.owns
  have knows_ {dctx : Lz4fDctx} (info : dctx.frameInfo = st.dctx.frameInfo)
      (block : dctx.maxBlockSize = st.dctx.maxBlockSize) : dctx.Knows desc := by
    refine ⟨?_, ?_, ?_, ?_, ?_⟩
    · rw [info, knows.blockMode]
    · rw [info, knows.blockChecksumFlag]
    · rw [info, knows.contentChecksumFlag]
    · rw [info, knows.contentSize]
    · rw [block, knows.maxBlockSize]
  rw [ends, size]
  split_ifs with whole
  · rw [whole, List.take_length, ← all] at moved
    rw [whole] at holds
    have finish := holds.finish
    rw [← all] at finish
    refine .again places (moved.context ⟨owns.1, owns.2, owns.3, owns.4⟩) (.getBlockHeader rfl
      ⟨knows_ rfl rfl, fits, covers, ⟨counts.remaining, counts.hash⟩, finish, tmpOut⟩) ?_
    rw [Lz4fState.left, if_neg (by simp [Lz4fState.enter])]
    exact enough
  · exact .stop places moved (.flushOut stage (knows_ rfl rfl) fits covers all
      ⟨counts.remaining, counts.hash⟩ tmpOut size holds) ⟨by omega, by omega⟩
      (.inr (idle.resolve_left whole))

end Flush

end Turns

end ZLoader
