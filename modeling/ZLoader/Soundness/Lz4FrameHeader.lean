import ZLoader.Foundation.Lz4FramePositions
import ZLoader.Soundness.Lz4FrameRegions
import ZLoader.Soundness.StreamedHash

/-! # The header of a frame

`LZ4F_decodeHeader` takes what stands at some address for the header of a frame, for the start of one,
or for that of data to be skipped. What it takes for a header are the bytes of one descriptor; when it
refuses, no frame begins there.
-/

namespace ZLoader

/-- `xxh32` of a list of bytes. -/
def contentHash (data : List UInt8) : UInt32 :=
  xxh32 (ByteStore.ofList data fun _ => 0) data.length 0

theorem Xxh32Absorbed.digest_eq {data : List UInt8} {state : Xxh32State}
    (absorbed : Xxh32Absorbed 0 data state) : xxh32Digest state = contentHash data :=
  absorbed.digest _

theorem xxh32_from (memory : ByteStore) (p count : ℕ) :
    xxh32 (memory.from_ p) count 0 = contentHash (memory.bytesAt p count) := by
  have absorbed := (xxh32Absorbed_reset 0).update (memory.from_ p) count
  have bytes : (memory.from_ p).bytesAt 0 count = memory.bytesAt p count :=
    ByteStore.bytesAt_congr fun index _ => by rw [ByteStore.from_, Nat.zero_add]
  rw [List.nil_append, bytes] at absorbed
  have whole := absorbed.digest ((memory.from_ p).from_ count)
  rw [← bytes, ByteStore.ofList_bytesAt, bytes, ByteStore.bytesAt_length] at whole
  rw [← whole, absorbed.digest_eq]

/-! ## Flags -/

theorem lz4fFlags_frameFlags (linked blockChecksums sized checked named : Bool) :
    lz4fFlags (frameFlags linked blockChecksums sized checked named) =
      ⟨1, blockChecksums, if linked then .linked else .independent, sized, checked, false, named⟩ := by
  obtain ⟨value, byte, version, bit5, bit4, bit3, bit2, bit1, bit0⟩ :=
    frameFlags_bits linked blockChecksums sized checked named
  rw [lz4fFlags, byte, version, bit5, bit4, bit3, bit2, bit1, bit0]
  cases linked <;> rfl

/-- The header's size that the flags give. -/
theorem frameHeaderSize_fields (desc : FrameDescriptor) (blockMode : Lz4fBlockMode) (version : ℕ)
    (blockChecksumFlag contentChecksumFlag reserved : Bool) :
    (Lz4fFlags.mk version blockChecksumFlag blockMode desc.contentSize.isSome contentChecksumFlag
      reserved desc.dictId.isSome).frameHeaderSize = 5 + desc.fields.length := by
  rw [Lz4fFlags.frameHeaderSize, desc.fields_length]
  dsimp only
  omega

theorem Lz4fFlags.frameHeaderSize_bounds (flags : Lz4fFlags) :
    7 ≤ flags.frameHeaderSize ∧ flags.frameHeaderSize ≤ 19 := by
  rw [frameHeaderSize]
  split_ifs <;> omega

/-! ## Headers in memory -/

section Stands

variable {memory : ByteStore} {src : ℕ}

theorem u32_toNat (memory : ByteStore) (p : ℕ) : (memory.u32 p).toNat = memory.readLE p 4 := by
  rw [ByteStore.u32, UInt32.toNat_ofNat_of_lt' (memory.readLE_lt p 4)]

theorem u64_toNat (memory : ByteStore) (p : ℕ) : (memory.u64 p).toNat = memory.readLE p 8 := by
  rw [ByteStore.u64, UInt64.toNat_ofNat_of_lt' (memory.readLE_lt p 8)]

/-- Where the bytes of a descriptor stand. -/
theorem FrameDescriptor.stands_iff (desc : FrameDescriptor) :
    memory.bytesAt src (5 + desc.fields.length) = desc.bytes contentHash ↔
      memory.readLE src 4 = 0x184D2204 ∧
      memory.bytesAt (src + 4) desc.fields.length = desc.fields ∧
      memory (src + (4 + desc.fields.length)) =
        UInt8.ofNat ((contentHash desc.fields).toNat / 256) := by
  have lengths := ByteStore.bytesAt_length memory (src + 4) desc.fields.length
  rw [show 5 + desc.fields.length = 4 + (desc.fields.length + 1) by omega, ByteStore.bytesAt_add,
    ByteStore.bytesAt_add, ← ByteStore.leBytes_readLE, FrameDescriptor.bytes, ← Nat.add_assoc]
  constructor
  · intro same
    obtain ⟨magic, behind⟩ := leBytes_append_injective 4 (memory.readLE_lt src 4) (by omega) same
    obtain ⟨fields, last⟩ := List.append_inj behind lengths
    exact ⟨magic, fields, List.singleton_inj.mp last⟩
  · rintro ⟨magic, fields, last⟩
    rw [magic, fields, ← last]
    rfl

/-- What a header begins with. -/
theorem FrameDescriptor.begins {desc : FrameDescriptor} {k : ℕ} (enough : 7 ≤ k)
    {rest tail : List UInt8}
    (same : memory.bytesAt src k ++ rest = desc.bytes contentHash ++ tail) :
    memory.readLE src 4 = 0x184D2204 ∧
      memory (src + 4) = frameFlags desc.linked desc.blockChecksums desc.contentSize.isSome
        desc.contentChecksum desc.dictId.isSome ∧
      (5 + desc.fields.length ≤ k →
        memory.bytesAt src (5 + desc.fields.length) = desc.bytes contentHash) := by
  refine ⟨?_, ?_, fun fits => ?_⟩
  · rw [show k = 4 + (k - 4) by omega, ByteStore.bytesAt_add, ← ByteStore.leBytes_readLE, bytes,
      List.append_assoc, List.append_assoc] at same
    exact (leBytes_append_injective 4 (memory.readLE_lt src 4) (by omega) same).1
  · rw [show k = 4 + (k - 5 + 1) by omega, ByteStore.bytesAt_add, ← ByteStore.leBytes_readLE, bytes,
      List.append_assoc, List.append_assoc, ByteStore.bytesAt_succ] at same
    obtain ⟨-, behind⟩ := leBytes_append_injective 4 (memory.readLE_lt src 4) (by omega) same
    exact (List.cons.inj behind).1
  · rw [show k = 5 + desc.fields.length + (k - (5 + desc.fields.length)) by omega,
      ByteStore.bytesAt_add, List.append_assoc] at same
    exact (List.append_inj same (by rw [ByteStore.bytesAt_length, bytes_length])).1

/-- What stands behind the flags of a descriptor. -/
theorem FrameDescriptor.blockSizeByte {desc : FrameDescriptor}
    (fields : memory.bytesAt (src + 4) desc.fields.length = desc.fields) :
    memory (src + 5) = UInt8.ofNat (desc.blockSizeId * 16) := by
  obtain ⟨count, length⟩ : ∃ count, desc.fields.length = count + 1 + 1 :=
    ⟨desc.fields.length - 2, by rw [desc.fields_length]; omega⟩
  rw [length, ByteStore.bytesAt_succ, ByteStore.bytesAt_succ] at fields
  exact (List.cons.inj (List.cons.inj fields).2).1

/-- A descriptor that a header in memory stands for. -/
def lz4fDescriptor (memory : ByteStore) (src : ℕ) (four : 4 ≤ (memory (src + 5)).toNat / 16 % 8) :
    FrameDescriptor :=
  let flags := lz4fFlags (memory (src + 4))
  { linked := !(memory (src + 4)).toNat.testBit 5
    blockChecksums := flags.blockChecksumFlag
    contentSize := if flags.contentSizeFlag then some (memory.u64 (src + 6)) else none
    contentChecksum := flags.contentChecksumFlag
    dictId := if flags.dictIDFlag then some (memory.u32 (src + flags.frameHeaderSize - 5)) else none
    blockSizeId := (memory (src + 5)).toNat / 16 % 8
    four_le := four
    lt_eight := Nat.mod_lt _ (by omega) }

theorem isSome_ite (b : Bool) {α : Type} (x : α) : (if b then some x else none).isSome = b := by
  cases b <;> rfl

section Descriptor

variable (four : 4 ≤ (memory (src + 5)).toNat / 16 % 8)

theorem lz4fDescriptor_size : 5 + (lz4fDescriptor memory src four).fields.length =
    (lz4fFlags (memory (src + 4))).frameHeaderSize := by
  rw [FrameDescriptor.fields_length, Lz4fFlags.frameHeaderSize]
  simp only [lz4fDescriptor, isSome_ite]
  omega

theorem lz4fDescriptor_fields (version : (lz4fFlags (memory (src + 4))).version = 1)
    (reserved : (lz4fFlags (memory (src + 4))).reserved = false)
    (high : (memory (src + 5)).toNat.testBit 7 = false) (nibble : (memory (src + 5)).toNat % 16 = 0) :
    memory.bytesAt (src + 4) (lz4fDescriptor memory src four).fields.length =
      (lz4fDescriptor memory src four).fields := by
  have size := (memory (src + 5)).toNat_lt
  have small : (memory (src + 5)).toNat / 128 % 2 = 0 := by
    simpa [Nat.testBit_eq_decide_div_mod_eq] using high
  have sizeByte : UInt8.ofNat ((memory (src + 5)).toNat / 16 % 8 * 16) = memory (src + 5) := by
    apply UInt8.toNat_inj.mp
    rw [UInt8.toNat_ofNat']
    omega
  obtain ⟨flags, bits⟩ : ∃ flags, flags = lz4fFlags (memory (src + 4)) := ⟨_, rfl⟩
  have flagByte : frameFlags (!(memory (src + 4)).toNat.testBit 5) flags.blockChecksumFlag
      flags.contentSizeFlag flags.contentChecksumFlag flags.dictIDFlag = memory (src + 4) := by
    rw [bits]
    exact frameFlags_eq version reserved
  have front (count : ℕ) : memory.bytesAt (src + 4) (2 + count) =
      memory (src + 4) :: memory (src + 5) :: memory.bytesAt (src + 6) count := by
    rw [Nat.add_comm 2, ByteStore.bytesAt_succ, ByteStore.bytesAt_succ]
  have fieldsBytes : memory.bytesAt (src + 6)
      ((if flags.contentSizeFlag then 8 else 0) + if flags.dictIDFlag then 4 else 0) =
      (if flags.contentSizeFlag then some (memory.u64 (src + 6)) else none).elim []
        (fun size => leBytes 8 size.toNat) ++
      (if flags.dictIDFlag then some (memory.u32 (src + flags.frameHeaderSize - 5)) else none).elim
        [] (fun id => leBytes 4 id.toNat) := by
    rw [ByteStore.bytesAt_add, Lz4fFlags.frameHeaderSize]
    congr 1
    · cases flags.contentSizeFlag with
      | false => rfl
      | true => exact ((congrArg _ (u64_toNat ..)).trans (ByteStore.leBytes_readLE ..)).symm
    · cases flags.dictIDFlag with
      | false => rfl
      | true =>
        refine ((congrArg _ (u32_toNat ..)).trans ((ByteStore.leBytes_readLE ..).trans ?_)).symm
        congr 1
        simp only [if_true]
        omega
  rw [FrameDescriptor.fields_length, FrameDescriptor.fields]
  simp only [lz4fDescriptor, isSome_ite, FrameDescriptor.sizeBytes, FrameDescriptor.idBytes, ← bits]
  rw [Nat.add_assoc, front, fieldsBytes, flagByte, sizeByte]

end Descriptor

theorem lz4fHeaderChecksum_eq (memory : ByteStore) (p count : ℕ) :
    lz4fHeaderChecksum memory p count =
      UInt8.ofNat ((contentHash (memory.bytesAt p count)).toNat / 256) := by
  rw [lz4fHeaderChecksum, xxh32_from]
  apply UInt8.toNat_inj.mp
  rw [UInt32.toNat_toUInt8, UInt32.toNat_shiftRight, UInt8.toNat_ofNat',
    show UInt32.toNat 8 % 32 = 8 from rfl, Nat.shiftRight_eq_div_pow]

/-- The upper bits of a magic number tell what is to be skipped. -/
theorem skippable_iff (memory : ByteStore) (src : ℕ) :
    memory.u32 src &&& 0xfffffff0 = 0x184d2a50 ↔
      0x184D2A50 ≤ memory.readLE src 4 ∧ memory.readLE src 4 < 0x184D2A60 := by
  have bound := memory.readLE_lt src 4
  have masked : (memory.u32 src &&& 0xfffffff0).toNat = memory.readLE src 4 / 16 * 16 := by
    rw [UInt32.toNat_and, u32_toNat, show (0xfffffff0 : UInt32).toNat = 0xfffffff0 from rfl]
    have upper : (memory.readLE src 4 &&& 0xfffffff0) / 2 ^ 4 = memory.readLE src 4 / 2 ^ 4 := by
      rw [Nat.and_div_two_pow, show (0xfffffff0 : ℕ) / 2 ^ 4 = 2 ^ 28 - 1 from rfl,
        Nat.and_two_pow_sub_one_eq_mod, Nat.mod_eq_of_lt (by omega)]
    have lower : (memory.readLE src 4 &&& 0xfffffff0) % 2 ^ 4 = 0 := by
      rw [Nat.and_mod_two_pow, show (0xfffffff0 : ℕ) % 2 ^ 4 = 0 from rfl, Nat.and_zero]
    omega
  rw [← UInt32.toNat_inj, masked, show (0x184d2a50 : UInt32).toNat = 0x184D2A50 from rfl]
  omega

/-- The checks that the start of a frame passes. -/
theorem checks_of_begins {k : ℕ} (enough : 7 ≤ k) {whole : FrameUnit} {rest tail : List UInt8}
    (plain : memory.u32 src &&& 0xfffffff0 ≠ 0x184d2a50)
    (same : memory.bytesAt src k ++ rest = whole.bytes contentHash ++ tail) :
    let flags := lz4fFlags (memory (src + 4))
    memory.u32 src = 0x184d2204 ∧ flags.reserved = false ∧ flags.version = 1 ∧
      (flags.frameHeaderSize ≤ k → (memory (src + 5)).toNat.testBit 7 = false ∧
        ¬ (memory (src + 5)).toNat / 16 % 8 < 4 ∧ (memory (src + 5)).toNat % 16 = 0 ∧
        lz4fHeaderChecksum memory (src + 4) (flags.frameHeaderSize - 5) =
          memory (src + flags.frameHeaderSize - 1)) := by
  cases whole with
  | skippable nibble data low small =>
    rw [FrameUnit.bytes, show k = 4 + (k - 4) by omega, ByteStore.bytesAt_add,
      ← ByteStore.leBytes_readLE, List.append_assoc, List.append_assoc] at same
    obtain ⟨magic, -⟩ :=
      leBytes_append_injective 4 (memory.readLE_lt src 4) (by omega) same
    exact absurd ((skippable_iff memory src).mpr (by omega)) plain
  | frame frame =>
    rw [FrameUnit.bytes, Frame.bytes, List.append_assoc] at same
    obtain ⟨magic, byte, whole⟩ := FrameDescriptor.begins enough same
    intro flags
    have bits : flags = _ := (congrArg lz4fFlags byte).trans (lz4fFlags_frameFlags ..)
    have size : flags.frameHeaderSize = 5 + frame.desc.fields.length := by
      rw [bits]
      exact frameHeaderSize_fields ..
    refine ⟨?_, by rw [bits], by rw [bits], fun fits => ?_⟩
    · apply UInt32.toNat_inj.mp
      rw [u32_toNat, magic]
      rfl
    · obtain ⟨-, fields, last⟩ := frame.desc.stands_iff.mp (whole (size ▸ fits))
      have four := frame.desc.four_le
      have eight := frame.desc.lt_eight
      have sizeByte : (memory (src + 5)).toNat = frame.desc.blockSizeId * 16 := by
        rw [FrameDescriptor.blockSizeByte fields, UInt8.toNat_ofNat']
        omega
      refine ⟨?_, by omega, by omega, ?_⟩
      · rw [sizeByte, Nat.testBit_eq_decide_div_mod_eq]
        exact decide_eq_false (by omega)
      · rw [lz4fHeaderChecksum_eq, size, Nat.add_sub_cancel_left, fields, ← last]
        congr 1
        omega

end Stands

/-! ## Decoding -/

/-- What the context knows about the frame. -/
structure Lz4fDctx.Knows (dctx : Lz4fDctx) (desc : FrameDescriptor) : Prop where
  blockMode : dctx.frameInfo.blockMode = if desc.linked then .linked else .independent
  blockChecksumFlag : dctx.frameInfo.blockChecksumFlag = desc.blockChecksums
  contentChecksumFlag : dctx.frameInfo.contentChecksumFlag = desc.contentChecksum
  contentSize : dctx.frameInfo.contentSize = desc.contentSize.getD 0
  maxBlockSize : dctx.maxBlockSize = desc.blockSize

/-- Only the header is read, and the context changes where the header says so. -/
structure Lz4fState.ReadsHeader (st : Lz4fState) (src srcSize : ℕ) (st' : Lz4fState) : Prop where
  same : st' = { st with dctx := st'.dctx, reads := st'.reads }
  reads : ∀ window ∈ st'.reads, window ∈ st.reads ∨
    src ≤ window.start ∧ window.start + window.length ≤ src + srcSize
  header : st'.dctx.header = st.dctx.header
  tmpIn : st'.dctx.tmpIn = st.dctx.tmpIn
  tmpOutBuffer : st'.dctx.tmpOutBuffer = st.dctx.tmpOutBuffer
  maxBufferSize : st'.dctx.maxBufferSize = st.dctx.maxBufferSize
  dict : st'.dctx.dict = st.dctx.dict
  dictSize : st'.dctx.dictSize = st.dctx.dictSize

/-- How the decoding of a header ends. -/
inductive HeaderEnds (st : Lz4fState) (src srcSize : ℕ) :
    Except Lz4fErrorCode ℕ × Lz4fState → Prop where
  | failed {code : Lz4fErrorCode} {st' : Lz4fState}
      (error : lz4fIsError (lz4fErr0r code) = true) (reads : st.ReadsHeader src srcSize st')
      (refuted : Refuted contentHash (st.memory.bytesAt src srcSize)) :
      HeaderEnds st src srcSize (.error code, st')
  | stored {st' : Lz4fState} (reads : st.ReadsHeader src srcSize st') {nibble : ℕ}
      (low : nibble < 16) (magic : st.memory.readLE src 4 = 0x184D2A50 + nibble)
      (remaining : st'.dctx.frameRemainingSize = st.dctx.frameRemainingSize)
      (stage : st'.dctx.dStage = .storeSFrameSize) (from_ : src = st.dctx.header)
      (size : st'.dctx.tmpInSize = srcSize) (target : st'.dctx.tmpInTarget = 8) :
      HeaderEnds st src srcSize (.ok srcSize, st')
  | skippable {st' : Lz4fState} (reads : st.ReadsHeader src srcSize st') {nibble : ℕ}
      (low : nibble < 16) (magic : st.memory.readLE src 4 = 0x184D2A50 + nibble)
      (remaining : st'.dctx.frameRemainingSize = st.dctx.frameRemainingSize)
      (stage : st'.dctx.dStage = .getSFrameSize) (away : src ≠ st.dctx.header) :
      HeaderEnds st src srcSize (.ok 4, st')
  | incomplete {st' : Lz4fState} (reads : st.ReadsHeader src srcSize st')
      (remaining : st'.dctx.frameRemainingSize = st.dctx.frameRemainingSize)
      (stage : st'.dctx.dStage = .storeFrameHeader) (from_ : src = st.dctx.header)
      (size : st'.dctx.tmpInSize = srcSize) (more : srcSize < st'.dctx.tmpInTarget)
      (plain : ¬ (0x184D2A50 ≤ st.memory.readLE src 4 ∧ st.memory.readLE src 4 < 0x184D2A60))
      (target : st'.dctx.tmpInTarget = (lz4fFlags (st.memory (src + 4))).frameHeaderSize) :
      HeaderEnds st src srcSize (.ok srcSize, st')
  | whole {st' : Lz4fState} (reads : st.ReadsHeader src srcSize st') {desc : FrameDescriptor}
      (fits : (desc.bytes contentHash).length ≤ srcSize)
      (size : (desc.bytes contentHash).length = (lz4fFlags (st.memory (src + 4))).frameHeaderSize)
      (bytes : st.memory.bytesAt src (desc.bytes contentHash).length = desc.bytes contentHash)
      (knows : st'.dctx.Knows desc) (stage : st'.dctx.dStage = .init)
      (remaining : st'.dctx.frameRemainingSize =
        if desc.contentSize.isSome then desc.contentSize.getD 0 else st.dctx.frameRemainingSize) :
      HeaderEnds st src srcSize (.ok (desc.bytes contentHash).length, st')

theorem lz4fGetBlockSize_eq {id : ℕ} (four : 4 ≤ id) (eight : id < 8) :
    (lz4fGetBlockSize id).toNat = 2 ^ (8 + 2 * id) := by
  obtain rfl | rfl | rfl | rfl : id = 4 ∨ id = 5 ∨ id = 6 ∨ id = 7 := by omega
  all_goals decide

namespace Lz4fState.ReadsHeader

variable {st st' : Lz4fState} {src srcSize : ℕ}

theorem refl (st : Lz4fState) (src srcSize : ℕ) : st.ReadsHeader src srcSize st :=
  ⟨rfl, fun _ member => .inl member, rfl, rfl, rfl, rfl, rfl, rfl⟩

theorem load (reads : st.ReadsHeader src srcSize st') (p size : ℕ) (low : src ≤ p)
    (high : p + size ≤ src + srcSize) : st.ReadsHeader src srcSize (st'.load p size) where
  same := by rw [reads.same]; rfl
  reads := List.forall_mem_cons.mpr ⟨.inr ⟨low, high⟩, reads.reads⟩
  header := reads.header
  tmpIn := reads.tmpIn
  tmpOutBuffer := reads.tmpOutBuffer
  maxBufferSize := reads.maxBufferSize
  dict := reads.dict
  dictSize := reads.dictSize

/-- The context changes, and what does not belong to the header stays. -/
theorem change (reads : st.ReadsHeader src srcSize st') {dctx : Lz4fDctx}
    (header : dctx.header = st'.dctx.header) (tmpIn : dctx.tmpIn = st'.dctx.tmpIn)
    (tmpOutBuffer : dctx.tmpOutBuffer = st'.dctx.tmpOutBuffer)
    (maxBufferSize : dctx.maxBufferSize = st'.dctx.maxBufferSize)
    (dict : dctx.dict = st'.dctx.dict) (dictSize : dctx.dictSize = st'.dctx.dictSize) :
    st.ReadsHeader src srcSize { st' with dctx := dctx } where
  same := by rw [reads.same]
  reads := reads.reads
  header := header.trans reads.header
  tmpIn := tmpIn.trans reads.tmpIn
  tmpOutBuffer := tmpOutBuffer.trans reads.tmpOutBuffer
  maxBufferSize := maxBufferSize.trans reads.maxBufferSize
  dict := dict.trans reads.dict
  dictSize := dictSize.trans reads.dictSize

end Lz4fState.ReadsHeader

section Decode

variable {st start : Lz4fState} {src srcSize : ℕ}

/-- What is saved is what the descriptor says. -/
theorem lz4fSaveHeader_whole (reads : start.ReadsHeader src srcSize st)
    (four : 4 ≤ (start.memory (src + 5)).toNat / 16 % 8)
    (fits : (lz4fFlags (start.memory (src + 4))).frameHeaderSize ≤ srcSize) :
    let st' := lz4fSaveHeader st src (lz4fFlags (start.memory (src + 4)))
      ((start.memory (src + 5)).toNat / 16 % 8)
    let desc := lz4fDescriptor start.memory src four
    start.ReadsHeader src srcSize st' ∧ st'.dctx.dStage = .init ∧
      (st.dctx.frameInfo.contentSize = 0 → st'.dctx.Knows desc) ∧
      st'.dctx.frameRemainingSize =
        if desc.contentSize.isSome then desc.contentSize.getD 0 else st.dctx.frameRemainingSize := by
  have size := lz4fGetBlockSize_eq four (Nat.mod_lt _ (by omega))
  have seven := (lz4fFlags (start.memory (src + 4))).frameHeaderSize_bounds.1
  have same : st.memory = start.memory := by rw [reads.same]
  have mode : (lz4fFlags (start.memory (src + 4))).blockMode =
      if (lz4fDescriptor start.memory src four).linked then .linked else .independent := by
    change (if (start.memory (src + 4)).toNat.testBit 5 then _ else _) =
      if (!(start.memory (src + 4)).toNat.testBit 5) = true then _ else _
    cases (start.memory (src + 4)).toNat.testBit 5 <;> rfl
  have width : (lz4fFlags (start.memory (src + 4))).contentSizeFlag = true →
      15 ≤ (lz4fFlags (start.memory (src + 4))).frameHeaderSize := fun sized => by
    rw [Lz4fFlags.frameHeaderSize, if_pos sized]
    omega
  have idWidth : (lz4fFlags (start.memory (src + 4))).dictIDFlag = true →
      11 ≤ (lz4fFlags (start.memory (src + 4))).frameHeaderSize := fun named => by
    rw [Lz4fFlags.frameHeaderSize, if_pos named]
    omega
  have content : (lz4fDescriptor start.memory src four).contentSize =
      if (lz4fFlags (start.memory (src + 4))).contentSizeFlag then
        some (start.memory.u64 (src + 6)) else none := rfl
  intro st' desc
  have known (zero : st.dctx.frameInfo.contentSize = 0) : st'.dctx.Knows desc := by
    refine ⟨?_, ?_, ?_, ?_, ?_⟩
    all_goals simp only [st', lz4fSaveHeader]
    · rw [← mode]
      split_ifs <;> rfl
    · split_ifs <;> rfl
    · split_ifs <;> rfl
    · change _ = (lz4fDescriptor start.memory src four).contentSize.getD 0
      rw [content, ← same]
      split_ifs <;> first | rfl | exact zero
    · change _ = 2 ^ (8 + 2 * ((start.memory (src + 5)).toNat / 16 % 8))
      rw [← size]
      split_ifs <;> rfl
  refine ⟨?_, rfl, known, ?_⟩
  · simp only [st', lz4fSaveHeader]
    split_ifs with named sized sized
    · exact (((reads.change rfl rfl rfl rfl rfl rfl).load _ _ (by omega)
        (by have := width sized; omega)).load _ _ (by omega) (by omega)).change rfl rfl rfl rfl rfl rfl
    · exact ((reads.change rfl rfl rfl rfl rfl rfl).load _ _ (by have := idWidth named; omega)
        (by omega)).change rfl rfl rfl rfl rfl rfl
    · exact ((reads.change rfl rfl rfl rfl rfl rfl).load _ _ (by omega)
        (by have := width sized; omega)).change rfl rfl rfl rfl rfl rfl
    · exact reads.change rfl rfl rfl rfl rfl rfl
  · simp only [st', desc, lz4fSaveHeader]
    rw [content, isSome_ite, ← same]
    split_ifs <;> rfl

section Checks

variable (seven : 7 ≤ srcSize) (plain : start.memory.u32 src &&& 0xfffffff0 ≠ 0x184d2a50)
  (reads : start.ReadsHeader src srcSize st) (zero : st.dctx.frameInfo.contentSize = 0)
  (remaining : st.dctx.frameRemainingSize = start.dctx.frameRemainingSize)

include seven plain reads zero remaining

theorem lz4fDecodeDescriptor_ends (magic : start.memory.u32 src = 0x184d2204)
    (reserved : (lz4fFlags (start.memory (src + 4))).reserved = false)
    (version : (lz4fFlags (start.memory (src + 4))).version = 1)
    (fits : (lz4fFlags (start.memory (src + 4))).frameHeaderSize ≤ srcSize) :
    HeaderEnds start src srcSize
      (lz4fDecodeDescriptor st src (lz4fFlags (start.memory (src + 4)))) := by
  have same : st.memory = start.memory := by rw [reads.same]
  have size := (lz4fFlags (start.memory (src + 4))).frameHeaderSize_bounds.1
  have sized := reads.load (src + 5) 1 (by omega) (by omega)
  have refuses {code : Lz4fErrorCode} {st' : Lz4fState}
      (error : lz4fIsError (lz4fErr0r code) = true) (reads : start.ReadsHeader src srcSize st')
      (fails : ¬ ((start.memory (src + 5)).toNat.testBit 7 = false ∧
        ¬ (start.memory (src + 5)).toNat / 16 % 8 < 4 ∧ (start.memory (src + 5)).toNat % 16 = 0 ∧
        lz4fHeaderChecksum start.memory (src + 4)
          ((lz4fFlags (start.memory (src + 4))).frameHeaderSize - 5) =
          start.memory (src + (lz4fFlags (start.memory (src + 4))).frameHeaderSize - 1))) :
      HeaderEnds start src srcSize (.error code, st') :=
    .failed error reads fun whole _ rest tail begins =>
      fails ((checks_of_begins seven plain begins).2.2.2 fits)
  rw [lz4fDecodeDescriptor]
  dsimp only
  rw [same]
  by_cases high : (start.memory (src + 5)).toNat.testBit 7 = true
  · rw [if_pos high]
    exact refuses (by decide) sized fun checks => by simp [high] at checks
  rw [if_neg high]
  by_cases small : (start.memory (src + 5)).toNat / 16 % 8 < 4
  · rw [if_pos small]
    exact refuses (by decide) sized fun checks => checks.2.1 small
  rw [if_neg small]
  by_cases nibble : (start.memory (src + 5)).toNat % 16 ≠ 0
  · rw [if_pos nibble]
    exact refuses (by decide) sized fun checks => nibble checks.2.2.1
  rw [if_neg nibble]
  have checked := (sized.load (src + 4)
    ((lz4fFlags (start.memory (src + 4))).frameHeaderSize - 5) (by omega) (by omega)).load
      (src + (lz4fFlags (start.memory (src + 4))).frameHeaderSize - 1) 1 (by omega)
      (by omega)
  by_cases other : lz4fHeaderChecksum start.memory (src + 4)
      ((lz4fFlags (start.memory (src + 4))).frameHeaderSize - 5) ≠
      start.memory (src + (lz4fFlags (start.memory (src + 4))).frameHeaderSize - 1)
  · rw [if_pos other]
    exact refuses (by decide) checked fun checks => other checks.2.2.2
  rw [if_neg other]
  have four := Nat.not_lt.mp small
  have length : 5 + (lz4fDescriptor start.memory src four).fields.length = _ :=
    lz4fDescriptor_size four
  obtain ⟨saved, stage, knows, counts⟩ := lz4fSaveHeader_whole checked four fits
  have fields := lz4fDescriptor_fields four version reserved (by simpa using high)
    (Decidable.not_not.mp nibble)
  have stands := (@FrameDescriptor.stands_iff start.memory src
    (lz4fDescriptor start.memory src four)).mpr ⟨?_, fields, ?_⟩
  · have total : ((lz4fDescriptor start.memory src four).bytes contentHash).length =
        (lz4fFlags (start.memory (src + 4))).frameHeaderSize := by
      rw [FrameDescriptor.bytes_length, length]
    have whole := HeaderEnds.whole saved (Nat.le_trans (Nat.le_of_eq total) fits) total
      (by rw [FrameDescriptor.bytes_length]; exact stands) (knows zero) stage
      (counts.trans (if_congr Iff.rfl rfl remaining))
    rwa [total] at whole
  · have number := congrArg UInt32.toNat magic
    rwa [u32_toNat] at number
  · have hc := Decidable.not_not.mp other
    rw [lz4fHeaderChecksum_eq, ← length, Nat.add_sub_cancel_left, fields] at hc
    rw [hc]
    congr 1
    omega

theorem lz4fDecodeFlags_ends
    (held : srcSize < (lz4fFlags (start.memory (src + 4))).frameHeaderSize → src = start.dctx.header) :
    HeaderEnds start src srcSize (lz4fDecodeFlags st src srcSize) := by
  have same : st.memory = start.memory := by rw [reads.same]
  have bounds := (lz4fFlags (start.memory (src + 4))).frameHeaderSize_bounds
  have loaded := reads.load src 4 (Nat.le_refl _) (by omega)
  have flagged := loaded.load (src + 4) 1 (by omega) (by omega)
  rw [lz4fDecodeFlags, same]
  by_cases other : start.memory.u32 src ≠ 0x184d2204
  · rw [if_pos other]
    exact .failed (by decide) loaded fun whole _ rest tail begins =>
      other (checks_of_begins seven plain begins).1
  rw [if_neg other]
  dsimp only
  by_cases reserved : (lz4fFlags (start.memory (src + 4))).reserved = true
  · rw [if_pos reserved]
    refine .failed (by decide) flagged fun whole _ rest tail begins => ?_
    have clear_ := (checks_of_begins seven plain begins).2.1
    rw [reserved] at clear_
    cases clear_
  rw [if_neg reserved]
  by_cases version : (lz4fFlags (start.memory (src + 4))).version ≠ 1
  · rw [if_pos version]
    exact .failed (by decide) flagged fun whole _ rest tail begins =>
      version (checks_of_begins seven plain begins).2.2.1
  rw [if_neg version]
  by_cases short : srcSize < (lz4fFlags (start.memory (src + 4))).frameHeaderSize
  · have from_ := held short
    rw [if_pos short, if_neg fun away => away (from_.trans reads.header.symm)]
    exact .incomplete (flagged.change rfl rfl rfl rfl rfl rfl) remaining rfl from_ rfl short
      (plain ∘ (skippable_iff ..).mpr) rfl
  · rw [if_neg short]
    exact lz4fDecodeDescriptor_ends seven plain flagged zero remaining (Decidable.not_not.mp other)
      (by simpa using reserved) (Decidable.not_not.mp version) (Nat.not_lt.mp short)

end Checks

theorem lz4fDecodeHeader_ends (st : Lz4fState) (src srcSize : ℕ) (seven : 7 ≤ srcSize)
    (held : st.memory.u32 src &&& 0xfffffff0 ≠ 0x184d2a50 →
      srcSize < (lz4fFlags (st.memory (src + 4))).frameHeaderSize → src = st.dctx.header) :
    HeaderEnds st src srcSize (lz4fDecodeHeader st src srcSize) := by
  rw [lz4fDecodeHeader, if_neg (Nat.not_lt.mpr seven)]
  by_cases skip : st.memory.u32 src &&& 0xfffffff0 = 0x184d2a50
  · rw [if_pos skip]
    dsimp only
    obtain ⟨low, high⟩ := (skippable_iff st.memory src).mp skip
    obtain ⟨nibble, magic⟩ := Nat.exists_eq_add_of_le low
    have loaded := (Lz4fState.ReadsHeader.refl st src srcSize).load src 4
      (Nat.le_refl _) (by omega)
    by_cases inHeader : src = st.dctx.header
    · rw [if_pos (show src = (st.load src 4).dctx.header from inHeader)]
      exact .stored (loaded.change rfl rfl rfl rfl rfl rfl) (by omega) magic rfl rfl inHeader rfl rfl
    · rw [if_neg (show ¬ src = (st.load src 4).dctx.header from inHeader)]
      exact .skippable (loaded.change rfl rfl rfl rfl rfl rfl) (by omega) magic rfl rfl inHeader
  · rw [if_neg skip]
    have started : st.ReadsHeader src srcSize { st.load src 4 with dctx.frameInfo := .zero } :=
      ((Lz4fState.ReadsHeader.refl st src srcSize).load src 4 (Nat.le_refl _)
        (by omega)).change rfl rfl rfl rfl rfl rfl
    exact lz4fDecodeFlags_ends seven skip started rfl rfl (held skip)

end Decode

end ZLoader
