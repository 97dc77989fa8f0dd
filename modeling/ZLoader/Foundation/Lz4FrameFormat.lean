import ZLoader.Foundation.Lz4Format

/-! # The LZ4 frame format

A frame is a descriptor, blocks that are packed or stored, and an end mark. A block can refer to the
data in front of it, and hashes can stand behind the blocks and the content. There are frames to be
skipped as well. The bytes in front of anything else are those of one frame only; the hash is a
parameter.
-/

namespace ZLoader

/-! ## Descriptors -/

/-- The first byte of a descriptor. -/
def frameFlags (linked blockChecksums sized checked named : Bool) : UInt8 :=
  UInt8.ofNat (64 + (bif linked then 0 else 32) + (bif blockChecksums then 16 else 0) +
    (bif sized then 8 else 0) + (bif checked then 4 else 0) + bif named then 1 else 0)

/-- What the header of a frame says about it. -/
structure FrameDescriptor where
  linked : Bool
  blockChecksums : Bool
  contentSize : Option UInt64
  contentChecksum : Bool
  dictId : Option UInt32
  blockSizeId : ℕ
  four_le : 4 ≤ blockSizeId
  lt_eight : blockSizeId < 8
deriving Repr

namespace FrameDescriptor

variable (desc : FrameDescriptor)

/-- The number of bytes that a block has at most. -/
def blockSize : ℕ := 2 ^ (8 + 2 * desc.blockSizeId)

def sizeBytes : List UInt8 := desc.contentSize.elim [] fun size => leBytes 8 size.toNat

def idBytes : List UInt8 := desc.dictId.elim [] fun id => leBytes 4 id.toNat

def fields : List UInt8 :=
  frameFlags desc.linked desc.blockChecksums desc.contentSize.isSome desc.contentChecksum
    desc.dictId.isSome :: UInt8.ofNat (desc.blockSizeId * 16) :: (desc.sizeBytes ++ desc.idBytes)

/-- The content has the size that the header gives; a size of zero stands for none. -/
def Sized (size : ℕ) : Prop :=
  ∀ given, desc.contentSize = some given → given ≠ 0 → UInt64.ofNat size = given

end FrameDescriptor

section Hash

variable (hash : List UInt8 → UInt32)

/-- The magic number of a frame, its descriptor, and a byte of the hash of the descriptor. -/
def FrameDescriptor.bytes (desc : FrameDescriptor) : List UInt8 :=
  leBytes 4 0x184D2204 ++ (desc.fields ++ [UInt8.ofNat ((hash desc.fields).toNat / 256)])

/-- The hash of some data, if there is one. -/
def checkBytes (checked : Bool) (data : List UInt8) : List UInt8 :=
  if checked then leBytes 4 (hash data).toNat else []

/-! ## Blocks and frames -/

inductive FrameBlock where
  | stored (data : List UInt8)
  | packed (block : SequenceBlock)
deriving DecidableEq, Repr

namespace FrameBlock

def payload : FrameBlock → List UInt8
  | stored data => data
  | packed block => block.bytes

def header : FrameBlock → ℕ
  | stored data => data.length + 2 ^ 31
  | packed block => block.bytes.length

def bytes (checked : Bool) (block : FrameBlock) : List UInt8 :=
  leBytes 4 block.header ++ (block.payload ++ checkBytes hash checked block.payload)

/-- What a packed block can refer to. -/
def history (linked : Bool) (data : List UInt8) : List UInt8 := if linked then data else []

/-- What the block stands for behind some data. -/
def decode (linked : Bool) (data : List UInt8) : FrameBlock → List UInt8
  | stored content => content
  | packed block => block.decode (history linked data)

/-- A block that can stand behind some data. -/
def Fits (desc : FrameDescriptor) (data : List UInt8) : FrameBlock → Prop
  | stored content => content.length ≤ desc.blockSize
  | packed block => block.bytes.length ≤ desc.blockSize ∧ block.size ≤ desc.blockSize ∧
      Reaching (history desc.linked data).length block.sequences

/-- A packed block that keeps the rules for its end. -/
def EndsWell : FrameBlock → Prop
  | stored _ => True
  | packed block => block.EndsWell

end FrameBlock

/-- The bytes of some blocks. -/
def blocksBytes (checked : Bool) (blocks : List FrameBlock) : List UInt8 :=
  blocks.flatMap (FrameBlock.bytes hash checked)

/-- The data with some blocks behind it. -/
def blocksContent (linked : Bool) (data : List UInt8) (blocks : List FrameBlock) : List UInt8 :=
  blocks.foldl (fun data block => data ++ block.decode linked data) data

/-- Each block can stand behind what the blocks in front of it stand for. -/
def FrameBlocksFit (desc : FrameDescriptor) : List UInt8 → List FrameBlock → Prop
  | _, [] => True
  | data, block :: rest =>
      block.Fits desc data ∧ FrameBlocksFit desc (data ++ block.decode desc.linked data) rest

/-- A descriptor with blocks that keep to it. -/
structure Frame where
  desc : FrameDescriptor
  blocks : List FrameBlock
  fits : FrameBlocksFit desc [] blocks
  sized : desc.Sized (blocksContent desc.linked [] blocks).length

namespace Frame

variable (frame : Frame)

def content : List UInt8 := blocksContent frame.desc.linked [] frame.blocks

/-- The end mark, and the hash of the content. -/
def suffix : List UInt8 :=
  leBytes 4 0 ++ checkBytes hash frame.desc.contentChecksum frame.content

def bytes : List UInt8 :=
  frame.desc.bytes hash ++
    (blocksBytes hash frame.desc.blockChecksums frame.blocks ++ frame.suffix hash)

/-- All the blocks keep the rules for their end. -/
def EndsWell : Prop := ∀ block ∈ frame.blocks, block.EndsWell

end Frame

/-- What a stream consists of: frames, and data to be skipped. -/
inductive FrameUnit where
  | frame (whole : Frame)
  | skippable (nibble : ℕ) (data : List UInt8) (low : nibble < 16) (small : data.length < 2 ^ 32)

namespace FrameUnit

def bytes : FrameUnit → List UInt8
  | frame whole => whole.bytes hash
  | skippable nibble data _ _ => leBytes 4 (0x184D2A50 + nibble) ++ (leBytes 4 data.length ++ data)

def content : FrameUnit → List UInt8
  | frame whole => whole.content
  | skippable .. => []

def EndsWell : FrameUnit → Prop
  | frame whole => whole.EndsWell
  | skippable .. => True

end FrameUnit

end Hash

/-! ## Lengths -/

section Lengths

variable (desc : FrameDescriptor) (hash : List UInt8 → UInt32)

@[simp] theorem FrameDescriptor.fields_length :
    desc.fields.length = 2 + (if desc.contentSize.isSome then 8 else 0) +
      if desc.dictId.isSome then 4 else 0 := by
  obtain ⟨linked, blockChecksums, contentSize, contentChecksum, dictId, blockSizeId, -, -⟩ := desc
  cases contentSize <;> cases dictId <;> simp [fields, sizeBytes, idBytes]

@[simp] theorem FrameDescriptor.bytes_length :
    (desc.bytes hash).length = 5 + desc.fields.length := by
  rw [bytes, List.length_append, leBytes_length, List.length_append, List.length_singleton]
  omega

theorem FrameDescriptor.blockSize_le : desc.blockSize ≤ 2 ^ 22 :=
  Nat.pow_le_pow_right (by omega) (by have bound := desc.lt_eight; omega)

theorem FrameDescriptor.le_blockSize : 2 ^ 16 ≤ desc.blockSize :=
  Nat.pow_le_pow_right (by omega) (by have bound := desc.four_le; omega)

theorem SequenceBlock.bytes_pos (block : SequenceBlock) : 0 < block.bytes.length := by
  rw [bytes, lastBytes, List.length_append, List.length_append, List.length_cons]
  omega

theorem FrameBlock.payload_length_le {desc : FrameDescriptor} {data : List UInt8}
    {block : FrameBlock} (fits : block.Fits desc data) :
    block.payload.length ≤ desc.blockSize := by
  cases block with
  | stored content => exact fits
  | packed block => exact fits.1

theorem FrameBlock.header_pos {block : FrameBlock} : 0 < block.header := by
  cases block with
  | stored content => exact Nat.add_pos_right _ (by omega)
  | packed block => exact block.bytes_pos

theorem FrameBlock.header_lt {desc : FrameDescriptor} {data : List UInt8} {block : FrameBlock}
    (fits : block.Fits desc data) : block.header < 256 ^ 4 := by
  have length := payload_length_le fits
  have bound := desc.blockSize_le
  cases block with
  | stored content =>
    rw [payload] at length
    rw [header]
    omega
  | packed block =>
    rw [payload] at length
    rw [header]
    omega

end Lengths

/-! ## Block after block -/

section Blocks

variable (hash : List UInt8 → UInt32) (checked linked : Bool) (data : List UInt8)
  (blocks : List FrameBlock) (block : FrameBlock)

theorem blocksBytes_cons : blocksBytes hash checked (block :: blocks) =
    block.bytes hash checked ++ blocksBytes hash checked blocks := List.flatMap_cons ..

theorem blocksBytes_concat : blocksBytes hash checked (blocks ++ [block]) =
    blocksBytes hash checked blocks ++ block.bytes hash checked := by
  simp [blocksBytes]

theorem blocksContent_concat : blocksContent linked data (blocks ++ [block]) =
    blocksContent linked data blocks ++ block.decode linked (blocksContent linked data blocks) := by
  rw [blocksContent, List.foldl_append]
  rfl

theorem frameBlocksFit_append (desc : FrameDescriptor) (more : List FrameBlock) :
    FrameBlocksFit desc data (blocks ++ more) ↔ FrameBlocksFit desc data blocks ∧
      FrameBlocksFit desc (blocksContent desc.linked data blocks) more := by
  induction blocks generalizing data with
  | nil => exact (and_iff_right trivial).symm
  | cons block rest ih => rw [List.cons_append, FrameBlocksFit, FrameBlocksFit, ih, and_assoc]; rfl

theorem frameBlocksFit_concat (desc : FrameDescriptor) :
    FrameBlocksFit desc data (blocks ++ [block]) ↔ FrameBlocksFit desc data blocks ∧
      block.Fits desc (blocksContent desc.linked data blocks) := by
  rw [frameBlocksFit_append, FrameBlocksFit, FrameBlocksFit, and_true]

end Blocks

/-! ## The bytes determine the frame -/

section Bytes

theorem leBytes_append_injective (width : ℕ) {value other : ℕ} {rest tail : List UInt8}
    (bound : value < 256 ^ width) (bound' : other < 256 ^ width)
    (same : leBytes width value ++ rest = leBytes width other ++ tail) :
    value = other ∧ rest = tail := by
  obtain ⟨bytes, rests⟩ := List.append_inj same (by rw [leBytes_length, leBytes_length])
  exact ⟨leBytes_injective bound bound' bytes, rests⟩

/-- What the bits of the first byte say. -/
theorem frameFlags_bits (linked blockChecksums sized checked named : Bool) :
    ∃ value, (frameFlags linked blockChecksums sized checked named).toNat = value ∧
      value / 64 = 1 ∧ value.testBit 5 = !linked ∧ value.testBit 4 = blockChecksums ∧
      value.testBit 3 = sized ∧ value.testBit 2 = checked ∧ value.testBit 1 = false ∧
      value.testBit 0 = named := by
  refine ⟨_, rfl, ?_⟩
  revert linked blockChecksums sized checked named
  decide

set_option maxRecDepth 4000 in
/-- A byte with these bits. -/
theorem frameFlags_eq {byte : UInt8} (version : byte.toNat / 64 = 1)
    (reserved : byte.toNat.testBit 1 = false) :
    frameFlags (!byte.toNat.testBit 5) (byte.toNat.testBit 4) (byte.toNat.testBit 3)
      (byte.toNat.testBit 2) (byte.toNat.testBit 0) = byte := by
  have all : ∀ value < 256, value / 64 = 1 → value.testBit 1 = false →
      (frameFlags (!value.testBit 5) (value.testBit 4) (value.testBit 3) (value.testBit 2)
        (value.testBit 0)).toNat = value := by decide
  exact UInt8.toNat_inj.mp (all _ byte.toNat_lt version reserved)

variable {hash : List UInt8 → UInt32}

theorem FrameDescriptor.fields_injective {desc other : FrameDescriptor} {rest tail : List UInt8}
    (same : desc.fields ++ rest = other.fields ++ tail) : desc = other ∧ rest = tail := by
  obtain ⟨linked, blockChecksums, contentSize, contentChecksum, dictId, blockSizeId, four, eight⟩ :=
    desc
  obtain ⟨linked', blockChecksums', contentSize', contentChecksum', dictId', blockSizeId', four',
    eight'⟩ := other
  rw [fields, fields, List.cons_append, List.cons_append, List.cons_append, List.cons_append] at same
  obtain ⟨flags, same⟩ := List.cons.inj same
  obtain ⟨size, same⟩ := List.cons.inj same
  dsimp only at flags size
  obtain ⟨value, byte, -, bit5, bit4, bit3, bit2, -, bit0⟩ := frameFlags_bits linked blockChecksums
    contentSize.isSome contentChecksum dictId.isSome
  obtain ⟨value', byte', -, bit5', bit4', bit3', bit2', -, bit0'⟩ := frameFlags_bits linked'
    blockChecksums' contentSize'.isSome contentChecksum' dictId'.isSome
  obtain rfl : value = value' := byte.symm.trans ((congrArg UInt8.toNat flags).trans byte')
  obtain rfl := Bool.not_inj (bit5.symm.trans bit5')
  obtain rfl := bit4.symm.trans bit4'
  obtain rfl := bit2.symm.trans bit2'
  have sizes := congrArg UInt8.toNat size
  rw [UInt8.toNat_ofNat', UInt8.toNat_ofNat', Nat.mod_eq_of_lt (by omega),
    Nat.mod_eq_of_lt (by omega)] at sizes
  obtain rfl : blockSizeId = blockSizeId' := by omega
  have sized := bit3.symm.trans bit3'
  have named := bit0.symm.trans bit0'
  dsimp only [sizeBytes, idBytes] at same
  rw [List.append_assoc, List.append_assoc] at same
  obtain ⟨rfl, behind⟩ : contentSize = contentSize' ∧ dictId.elim [] (leBytes 4 ·.toNat) ++ rest =
      dictId'.elim [] (leBytes 4 ·.toNat) ++ tail := by
    cases contentSize with
    | none =>
      obtain rfl := Option.isNone_iff_eq_none.mp (Option.isSome_eq_false_iff.mp sized.symm)
      exact ⟨rfl, same⟩
    | some given =>
      obtain ⟨given', rfl⟩ := Option.isSome_iff_exists.mp sized.symm
      obtain ⟨values, rests⟩ := leBytes_append_injective 8 given.toNat_lt given'.toNat_lt same
      exact ⟨congrArg some (UInt64.toNat_inj.mp values), rests⟩
  obtain ⟨rfl, rests⟩ : dictId = dictId' ∧ rest = tail := by
    cases dictId with
    | none =>
      obtain rfl := Option.isNone_iff_eq_none.mp (Option.isSome_eq_false_iff.mp named.symm)
      exact ⟨rfl, behind⟩
    | some id =>
      obtain ⟨id', rfl⟩ := Option.isSome_iff_exists.mp named.symm
      obtain ⟨values, rests⟩ := leBytes_append_injective 4 id.toNat_lt id'.toNat_lt behind
      exact ⟨congrArg some (UInt32.toNat_inj.mp values), rests⟩
  exact ⟨rfl, rests⟩

theorem FrameDescriptor.bytes_injective {desc other : FrameDescriptor} {rest tail : List UInt8}
    (same : desc.bytes hash ++ rest = other.bytes hash ++ tail) : desc = other ∧ rest = tail := by
  simp only [bytes, List.append_assoc, List.append_cancel_left_eq] at same
  obtain ⟨rfl, rests⟩ := fields_injective same
  exact ⟨rfl, List.append_cancel_left rests⟩

theorem FrameBlock.bytes_injective {desc : FrameDescriptor} {data data' : List UInt8}
    {block other : FrameBlock} {rest tail : List UInt8} (fits : block.Fits desc data)
    (fits' : other.Fits desc data')
    (same : block.bytes hash desc.blockChecksums ++ rest =
      other.bytes hash desc.blockChecksums ++ tail) : block = other ∧ rest = tail := by
  have bound := desc.blockSize_le
  have length := payload_length_le fits
  have length' := payload_length_le fits'
  simp only [bytes, List.append_assoc] at same
  obtain ⟨headers, same⟩ := leBytes_append_injective 4 (header_lt fits) (header_lt fits') same
  cases block with
  | stored content =>
    cases other with
    | stored content' =>
      dsimp only [payload] at same
      obtain ⟨rfl, same⟩ := List.append_inj same (Nat.add_right_cancel headers)
      exact ⟨rfl, List.append_cancel_left same⟩
    | packed block =>
      rw [payload] at length'
      rw [header, header] at headers
      omega
  | packed block =>
    cases other with
    | stored content =>
      rw [payload] at length
      rw [header, header] at headers
      omega
    | packed block' =>
      dsimp only [payload] at same
      obtain ⟨payloads, same⟩ := List.append_inj same headers
      obtain rfl := SequenceBlock.bytes_injective payloads
      exact ⟨rfl, List.append_cancel_left same⟩

theorem FrameBlock.bytes_ne_end {desc : FrameDescriptor} {data : List UInt8} {block : FrameBlock}
    (fits : block.Fits desc data) (checked : Bool) (rest tail : List UInt8) :
    block.bytes hash checked ++ rest ≠ leBytes 4 0 ++ tail := by
  intro same
  rw [bytes, List.append_assoc] at same
  obtain ⟨zero, -⟩ := leBytes_append_injective 4 (header_lt fits) (by omega) same
  exact absurd zero (Nat.ne_of_gt header_pos)

/-- What follows the blocks that a stream begins with: the end of its frame, or another block. -/
theorem Frame.follows {frame : Frame} {blocks : List FrameBlock} {rest tail : List UInt8}
    (fits : FrameBlocksFit frame.desc [] blocks)
    (same : blocksBytes hash frame.desc.blockChecksums blocks ++ rest =
      blocksBytes hash frame.desc.blockChecksums frame.blocks ++ (frame.suffix hash ++ tail)) :
    (frame.blocks = blocks ∧ rest = frame.suffix hash ++ tail) ∨
      ∃ block more, frame.blocks = blocks ++ block :: more ∧
        rest = block.bytes hash frame.desc.blockChecksums ++
          (blocksBytes hash frame.desc.blockChecksums more ++ (frame.suffix hash ++ tail)) := by
  have general : ∀ (all blocks : List FrameBlock) (data : List UInt8),
      FrameBlocksFit frame.desc data all → FrameBlocksFit frame.desc data blocks →
      blocksBytes hash frame.desc.blockChecksums blocks ++ rest =
        blocksBytes hash frame.desc.blockChecksums all ++ (frame.suffix hash ++ tail) →
      (all = blocks ∧ rest = frame.suffix hash ++ tail) ∨
        ∃ block more, all = blocks ++ block :: more ∧
          rest = block.bytes hash frame.desc.blockChecksums ++
            (blocksBytes hash frame.desc.blockChecksums more ++ (frame.suffix hash ++ tail)) := by
    intro all
    induction all with
    | nil =>
      intro blocks data _ fits same
      cases blocks with
      | nil => exact .inl ⟨rfl, same⟩
      | cons block others =>
        rw [blocksBytes_cons, List.append_assoc, suffix, List.append_assoc] at same
        exact (FrameBlock.bytes_ne_end fits.1 _ _ _ same).elim
    | cons first others ih =>
      intro blocks data fitsAll fits same
      cases blocks with
      | nil =>
        rw [blocksBytes_cons, List.append_assoc] at same
        exact .inr ⟨first, others, rfl, same⟩
      | cons block more =>
        simp only [blocksBytes_cons, List.append_assoc] at same
        obtain ⟨rfl, behind⟩ := FrameBlock.bytes_injective fits.1 fitsAll.1 same
        obtain ⟨rfl, rests⟩ | ⟨next, later, rfl, rests⟩ := ih more _ fitsAll.2 fits.2 behind
        · exact .inl ⟨rfl, rests⟩
        · exact .inr ⟨next, later, rfl, rests⟩
  exact general frame.blocks blocks [] frame.fits fits same

end Bytes

end ZLoader
