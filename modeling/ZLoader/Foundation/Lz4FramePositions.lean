import ZLoader.Foundation.Lz4FrameFormat

/-! # Positions in an LZ4 frame

What can follow the bytes that have been read of a stream, and when nothing can: a stream is refuted
when it does not begin with a frame or a part of one whose blocks keep the rules for their end.
-/

namespace ZLoader

section Positions

variable (hash : List UInt8 → UInt32)

/-- The bytes of a frame up to its next block. -/
def frameInput (desc : FrameDescriptor) (blocks : List FrameBlock) : List UInt8 :=
  desc.bytes hash ++ blocksBytes hash desc.blockChecksums blocks

/-- What the blocks so far stand for. -/
def frameOutput (desc : FrameDescriptor) (blocks : List FrameBlock) : List UInt8 :=
  blocksContent desc.linked [] blocks

/-- No frame, and nothing to be skipped, begins a stream with these bytes in front. -/
def Refuted (input : List UInt8) : Prop :=
  ∀ whole : FrameUnit, whole.EndsWell → ∀ rest tail, input ++ rest ≠ whole.bytes hash ++ tail

variable {hash} {desc : FrameDescriptor} {blocks : List FrameBlock} {input more : List UInt8}

theorem Refuted.append (refuted : Refuted hash input) (more : List UInt8) :
    Refuted hash (input ++ more) := fun whole ends rest tail same =>
  refuted whole ends (more ++ rest) tail (by rw [← same, List.append_assoc])

theorem frameInput_concat (block : FrameBlock) : frameInput hash desc (blocks ++ [block]) =
    frameInput hash desc blocks ++ block.bytes hash desc.blockChecksums := by
  rw [frameInput, blocksBytes_concat, frameInput, List.append_assoc]

theorem frameOutput_concat (block : FrameBlock) : frameOutput desc (blocks ++ [block]) =
    frameOutput desc blocks ++ block.decode desc.linked (frameOutput desc blocks) :=
  blocksContent_concat ..

/-- What follows the blocks that have been read. -/
theorem frameInput_follows (fits : FrameBlocksFit desc [] blocks) {whole : FrameUnit}
    {rest tail : List UInt8}
    (same : frameInput hash desc blocks ++ rest = whole.bytes hash ++ tail) :
    ∃ frame : Frame, whole = .frame frame ∧ frame.desc = desc ∧
      ((frame.blocks = blocks ∧ rest = frame.suffix hash ++ tail) ∨
        ∃ block others, frame.blocks = blocks ++ block :: others ∧
          rest = block.bytes hash desc.blockChecksums ++
            (blocksBytes hash desc.blockChecksums others ++ (frame.suffix hash ++ tail))) := by
  cases whole with
  | skippable nibble data low small =>
    rw [frameInput, FrameDescriptor.bytes, FrameUnit.bytes] at same
    simp only [List.append_assoc] at same
    obtain ⟨magic, -⟩ := leBytes_append_injective 4 (by omega) (by omega) same
    omega
  | frame frame =>
    rw [frameInput, FrameUnit.bytes, Frame.bytes] at same
    simp only [List.append_assoc] at same
    obtain ⟨rfl, behind⟩ := FrameDescriptor.bytes_injective same
    exact ⟨frame, rfl, rfl, Frame.follows fits behind⟩

theorem FrameBlock.header_mod (block : FrameBlock) {data : List UInt8} (fits : block.Fits desc data) :
    block.header % 2 ^ 31 = block.payload.length := by
  have length := payload_length_le fits
  have bound := desc.blockSize_le
  cases block with
  | stored content =>
    rw [payload] at length ⊢
    rw [header, Nat.add_mod_right, Nat.mod_eq_of_lt (by omega)]
  | packed block =>
    rw [payload] at length ⊢
    rw [header, Nat.mod_eq_of_lt (by omega)]

section Blocks

variable (fits : FrameBlocksFit desc [] blocks)

include fits

/-- A block header that is followed by what does not belong to it. -/
theorem refuted_block {value : ℕ} (some_ : value ≠ 0) (bound : value < 256 ^ 4)
    (absent : ∀ block : FrameBlock, block.Fits desc (frameOutput desc blocks) → block.EndsWell →
      block.header = value → ∀ rest tail, more ++ rest ≠
        block.payload ++ (checkBytes hash desc.blockChecksums block.payload ++ tail)) :
    Refuted hash (frameInput hash desc blocks ++ (leBytes 4 value ++ more)) := by
  intro whole ends rest tail same
  rw [List.append_assoc] at same
  obtain ⟨frame, rfl, named, ⟨-, behind⟩ | ⟨block, others, all, behind⟩⟩ :=
    frameInput_follows fits same
  · rw [Frame.suffix, List.append_assoc, List.append_assoc] at behind
    exact some_ (leBytes_append_injective 4 bound (by omega) behind).1
  · have fits_ := frame.fits
    rw [all, named, frameBlocksFit_append] at fits_
    have member : block ∈ frame.blocks := by
      rw [all]
      exact List.mem_append_right _ (List.mem_cons_self ..)
    have ends_ : block.EndsWell := ends block member
    rw [FrameBlock.bytes, List.append_assoc, List.append_assoc, List.append_assoc] at behind
    obtain ⟨header, behind⟩ :=
      leBytes_append_injective 4 bound (FrameBlock.header_lt fits_.2.1) behind
    exact absent block fits_.2.1 ends_ header.symm _ _ behind

theorem refuted_largeBlock {value : ℕ} (bound : value < 256 ^ 4)
    (large : desc.blockSize < value % 2 ^ 31) :
    Refuted hash (frameInput hash desc blocks ++ leBytes 4 value) := by
  rw [← List.append_nil (leBytes 4 value)]
  refine refuted_block fits (by rintro rfl; omega) bound fun block fits_ _ header => ?_
  have length := FrameBlock.payload_length_le fits_
  rw [← header, block.header_mod fits_] at large
  omega

theorem refuted_storedCheck {data : List UInt8} {crc : ℕ} (small : data.length ≤ desc.blockSize)
    (checked : desc.blockChecksums = true) (bound : crc < 256 ^ 4) (other : crc ≠ (hash data).toNat) :
    Refuted hash (frameInput hash desc blocks ++
      (leBytes 4 (data.length + 2 ^ 31) ++ (data ++ leBytes 4 crc))) := by
  have limit := desc.blockSize_le
  refine refuted_block fits (by omega) (by omega) fun block fits_ _ header rest tail same => ?_
  cases block with
  | stored content =>
    rw [FrameBlock.payload, List.append_assoc] at same
    obtain ⟨rfl, behind⟩ := List.append_inj same (Nat.add_right_cancel header).symm
    rw [checkBytes, if_pos checked] at behind
    exact other (leBytes_append_injective 4 bound (UInt32.toNat_lt _) behind).1
  | packed block =>
    have length := FrameBlock.payload_length_le fits_
    rw [FrameBlock.payload] at length
    rw [FrameBlock.header] at header
    omega

/-- A packed block with these bytes does not stand here. -/
theorem refuted_packed {data : List UInt8} (positive : data.length ≠ 0)
    (small : data.length ≤ desc.blockSize)
    (absent : ∀ block : SequenceBlock, (FrameBlock.packed block).Fits desc (frameOutput desc blocks) →
      block.EndsWell → data = block.bytes → ∀ rest tail, more ++ rest ≠
        checkBytes hash desc.blockChecksums data ++ tail) :
    Refuted hash (frameInput hash desc blocks ++ (leBytes 4 data.length ++ (data ++ more))) := by
  have limit := desc.blockSize_le
  refine refuted_block fits positive (by omega) fun block fits_ ends header rest tail same => ?_
  cases block with
  | stored content =>
    rw [FrameBlock.header] at header
    omega
  | packed block =>
    rw [FrameBlock.payload, List.append_assoc] at same
    obtain ⟨rfl, behind⟩ := List.append_inj same header.symm
    exact absent block fits_ ends rfl _ _ behind

/-- An end mark that is followed by what does not belong to it. -/
theorem refuted_end (absent : desc.Sized (frameOutput desc blocks).length → ∀ rest tail,
      more ++ rest ≠ checkBytes hash desc.contentChecksum (frameOutput desc blocks) ++ tail) :
    Refuted hash (frameInput hash desc blocks ++ (leBytes 4 0 ++ more)) := by
  intro whole ends rest tail same
  rw [List.append_assoc] at same
  obtain ⟨frame, rfl, named, ⟨all, behind⟩ | ⟨block, others, all, behind⟩⟩ :=
    frameInput_follows fits same
  · have sized := frame.sized
    rw [Frame.suffix, Frame.content, named, all, List.append_assoc, List.append_assoc] at behind
    rw [named, all] at sized
    exact absent sized _ _ (List.append_cancel_left behind)
  · have fits_ := frame.fits
    rw [all, named, frameBlocksFit_append] at fits_
    rw [List.append_assoc] at behind
    exact FrameBlock.bytes_ne_end fits_.2.1 _ _ _ behind.symm

end Blocks

end Positions

end ZLoader
