import ZLoader.Soundness.HandleImage

/-! # The section table of an accepted image

`read_headers` compares quotients of differences that wrap when the section table starts behind the
end of what it is compared with. An accepted image has its table inside its headers exactly when the
table starts there.
-/

namespace ZLoader

/-- A signature that is found stands at the offset that the DOS header gives. -/
theorem peHeader_signed {build : Build} {buffer : SimpleBuffer} {file : ByteStore}
    {peOffset : UInt64} (found : (peHeader build buffer file).1 = .ok peOffset)
    (nonzero : peOffset ≠ 0) :
    file.u16 0 = mzDosSignature ∧ peOffset = (file.u32 dosPeOffsetLocation).toUInt64 ∧
      file.u32 (file.u32 dosPeOffsetLocation).toNat = peHeaderSignature := by
  unfold peHeader at found
  split at found
  · split_ifs at found with unsigned
    · exact absurd (Outcome.ok.inj found).symm nonzero
    · split at found
      · dsimp only at found
        split_ifs at found with short truncated signature
        · exact absurd (Outcome.ok.inj found).symm nonzero
        · exact absurd (Outcome.ok.inj found).symm nonzero
        · exact ⟨by simpa using unsigned, (Outcome.ok.inj found).symm, by simpa using signature⟩
        · exact absurd (Outcome.ok.inj found).symm nonzero
      · contradiction
      · contradiction
  · contradiction
  · contradiction

/-- Offset of the section table, computed without wrapping. -/
def tableStart (file : ByteStore) (pe : ℕ) : ℕ :=
  pe + sizeofPeCoffHeader + (PeImageHeaders.sizeOfOptionalHeader file pe).toNat

/-- The section table lies inside the headers, and the headers inside the image. -/
structure HeadersNested (file : ByteStore) (ctx : PeLoaderCtx) : Prop where
  table : tableStart file ctx.pe + sizeofPeSectionHeader * ctx.numberOfSections.toNat ≤
    ctx.sizeOfHeaders.toNat
  headers : ctx.sizeOfHeaders.toNat ≤ ctx.sizeOfImage.toNat

/-- The section table starts inside the headers. -/
def TableStartsInHeaders (file : ByteStore) : Prop :=
  let pe := (file.u32 dosPeOffsetLocation).toNat
  tableStart file pe ≤ (PeImageHeaders.sizeOfHeaders file pe).toNat

/-- Where the table starts inside of headers of a 32-bit size, its offset is stored uncut. -/
theorem sectionHeaderOffset_toNat {file : ByteStore} {peOffset : UInt32}
    (inside : tableStart file peOffset.toNat < 2 ^ 32) :
    (sectionHeaderOffset file peOffset.toUInt64).toNat = tableStart file peOffset.toNat := by
  have word := peOffset.toNat_lt
  have half := (PeImageHeaders.sizeOfOptionalHeader file peOffset.toNat).toNat_lt
  have coff : (24 : UInt64).toNat = sizeofPeCoffHeader := rfl
  have size : sizeofPeCoffHeader = 24 := rfl
  unfold tableStart at inside ⊢
  rw [sectionHeaderOffset, UInt64.toNat_toUInt32, UInt64.toNat_add, UInt64.toNat_add,
    UInt32.toNat_toUInt64, UInt16.toNat_toUInt64, coff]
  rw [size] at inside ⊢
  omega

/-- The check on the headers, where its difference does not wrap. -/
theorem checkHeaders_table {file : ByteStore} {base peOffset : UInt64} {ctx : PeLoaderCtx}
    (accepted : checkHeaders file base peOffset = .ok ctx)
    (inside : (sectionHeaderOffset file peOffset).toNat ≤ ctx.sizeOfHeaders.toNat) :
    (sectionHeaderOffset file peOffset).toNat +
      sizeofPeSectionHeader * ctx.numberOfSections.toNat ≤ ctx.sizeOfHeaders.toNat := by
  rw [checkHeaders] at accepted
  split_ifs at accepted with oddAlignment imageTable headerTable headerSize
  obtain rfl := Outcome.ok.inj accepted
  have headers := (loaderCtx file base peOffset).sizeOfHeaders.toNat_lt
  have size : sizeofPeSectionHeader = 40 := rfl
  have divisor : (40 : UInt64).toNat = 40 := rfl
  rw [UInt64.not_lt, UInt64.le_iff_toNat_le, UInt64.toNat_div, UInt64.toNat_sub,
    UInt16.toNat_toUInt64, UInt32.toNat_toUInt64, divisor] at headerTable
  rw [size]
  omega

/-- An accepted image has its section table inside its headers and these inside the image exactly
when the table starts inside the headers. -/
theorem headersNested_iff {build : Build} {buffer : SimpleBuffer} {file : ByteStore}
    {ctx : PeLoaderCtx} (accepted : (readHeaders build buffer file).1 = .ok ctx) :
    HeadersNested file ctx ↔ TableStartsInHeaders file := by
  obtain ⟨peOffset, found, nonzero, checked⟩ := readHeaders_ok accepted
  obtain ⟨-, rfl, -⟩ := peHeader_signed found nonzero
  obtain ⟨sizes, limit⟩ := readHeaders_sizes accepted
  obtain ⟨same, -⟩ := checkHeaders_ok checked
  have pe : ctx.pe = (file.u32 dosPeOffsetLocation).toNat := by
    rw [same]
    exact UInt32.toNat_toUInt64 _
  have headers : ctx.sizeOfHeaders.toNat =
      (PeImageHeaders.sizeOfHeaders file (file.u32 dosPeOffsetLocation).toNat).toNat := by
    rw [same]
    exact UInt32.toNat_toUInt64 _
  constructor
  · intro nested
    have table := nested.table
    rw [pe, headers] at table
    exact Nat.le_trans (Nat.le_add_right _ _) table
  · intro starts
    have inside : tableStart file (file.u32 dosPeOffsetLocation).toNat ≤ ctx.sizeOfHeaders.toNat := by
      rw [headers]
      exact starts
    have uncut := sectionHeaderOffset_toNat (Nat.lt_of_le_of_lt inside (by omega))
    have table := checkHeaders_table checked (by rw [uncut]; exact inside)
    rw [uncut] at table
    exact ⟨by rw [pe]; exact table, sizes⟩

/-- An image of one section with headers of the given size. -/
def shortHeadersImage (sizeOfHeaders : ℕ) : ByteStore :=
  smallImage 1 0x2000 sizeOfHeaders 16 (sectionFields 0 0x1000 0x1000 0x200 0x200 0x60000020)

/-- Headers that end in front of the section table are accepted. -/
theorem not_headersNested_shortHeaders :
    ∃ ctx, (readHeaders defaultBuild (smallBuffer 0x400) (shortHeadersImage 0x100)).1 = .ok ctx ∧
      ¬ HeadersNested (shortHeadersImage 0x100) ctx := by
  refine ⟨loaderCtx (shortHeadersImage 0x100) 0x100000 0x40, by decide +kernel, fun nested => ?_⟩
  exact absurd nested.table (by decide +kernel)

/-- So are headers that reach behind it. -/
theorem headersNested_wholeHeaders :
    ∃ ctx, (readHeaders defaultBuild (smallBuffer 0x400) (shortHeadersImage 0x200)).1 = .ok ctx ∧
      HeadersNested (shortHeadersImage 0x200) ctx := by
  have accepted : (readHeaders defaultBuild (smallBuffer 0x400) (shortHeadersImage 0x200)).1 =
      .ok (loaderCtx (shortHeadersImage 0x200) 0x100000 0x40) := by decide +kernel
  have starts : TableStartsInHeaders (shortHeadersImage 0x200) := by
    unfold TableStartsInHeaders
    decide +kernel
  exact ⟨_, accepted, (headersNested_iff accepted).mpr starts⟩

end ZLoader
