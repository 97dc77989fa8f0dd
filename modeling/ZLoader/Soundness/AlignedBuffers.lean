import ZLoader.Foundation.Alignment
import ZLoader.Model.Util.Buffer

/-! # The room in an aligned buffer

`allocate_aligned_buffer_ext` asks for the length with one alignment more, rounded up to the
alignment, but divides by the page size without rounding up again. The buffer fits its pages exactly
when the sum is a whole number of pages.
-/

namespace ZLoader

/-- `ALIGN_VALUE` on machine words. -/
theorem alignValue_toNat (v a : UInt64) (positive : 0 < a.toNat) :
    (alignValue v a).toNat = (v.toNat + maskPadding 64 a.toNat v.toNat) % 2 ^ 64 := by
  have word := a.toNat_lt
  have value := v.toNat_lt
  have one : (1 : UInt64).toNat = 1 := rfl
  have below : (a - 1).toNat = a.toNat - 1 := by
    rw [UInt64.toNat_sub, one]
    omega
  have distance : (a - v).toNat = (a.toNat + (2 ^ 64 - v.toNat)) % 2 ^ 64 := by
    rw [UInt64.toNat_sub]
    congr 1
    omega
  rw [alignValue, UInt64.toNat_add, UInt64.toNat_and, below, distance]
  rfl

/-- `ALIGN_VALUE` with a power of two. -/
theorem alignValue_of_pow {alignment : UInt64} {t : ℕ} (power : alignment.toNat = 2 ^ t)
    (v : UInt64) :
    (alignValue v alignment).toNat = roundUp alignment.toNat v.toNat % 2 ^ 64 := by
  have word := alignment.toNat_lt
  have positive : 0 < 2 ^ t := Nat.two_pow_pos t
  have bound : t ≤ 64 := by
    rw [power] at word
    exact ((Nat.pow_lt_pow_iff_right (by decide)).mp word).le
  rw [alignValue_toNat _ _ (power ▸ positive), power, add_maskPadding_of_pow bound v.toNat_lt]

/-- The buffer is aligned and lies, with the length and with the reported size, in its pages. -/
structure BufferFits (length alignment : UInt64) (buffer : AlignedBuffer) : Prop where
  aligned : alignment.toNat ∣ buffer.buffer.toNat
  above : buffer.raw.toNat ≤ buffer.buffer.toNat
  data : buffer.buffer.toNat + length.toNat ≤
    buffer.raw.toNat + buffer.pages.toNat * pageSize.toNat
  reported : buffer.buffer.toNat + buffer.allocated.toNat ≤
    buffer.raw.toNat + buffer.pages.toNat * pageSize.toNat

/-- The size that is asked for, as a number. -/
def alignedTotal (length alignment : UInt64) : ℕ :=
  roundUp alignment.toNat length.toNat + alignment.toNat

/-- The size does not wrap and is a whole number of pages. -/
def WholePages (length alignment : UInt64) : Prop :=
  alignedTotal length alignment < 2 ^ 64 ∧ pageSize.toNat ∣ alignedTotal length alignment

section Fits

variable {length alignment raw : UInt64} {t : ℕ}

/-- With an alignment of a page or more the size is always a whole number of pages. -/
theorem wholePages_iff (power : alignment.toNat = 2 ^ t) (page : pageSize ≤ alignment) :
    WholePages length alignment ↔ alignedTotal length alignment < 2 ^ 64 := by
  have size : pageSize.toNat = 2 ^ 12 := rfl
  rw [UInt64.le_iff_toNat_le, size, power] at page
  have exponent : 12 ≤ t := (Nat.pow_le_pow_iff_right (by decide)).mp page
  have pages : pageSize.toNat ∣ alignment.toNat := by
    rw [size, power]
    exact Nat.pow_dvd_pow 2 exponent
  have total : pageSize.toNat ∣ alignedTotal length alignment :=
    Nat.dvd_add (Nat.dvd_trans pages (dvd_roundUp _ _)) pages
  exact and_iff_left total

/-- The size that the code computes. -/
theorem alignValue_add (power : alignment.toNat = 2 ^ t) :
    (alignValue (length + alignment) alignment).toNat =
      alignedTotal length alignment % 2 ^ 64 := by
  have word := alignment.toNat_lt
  have size := length.toNat_lt
  have positive : 0 < alignment.toNat := by
    rw [power]
    exact Nat.two_pow_pos t
  have divides : alignment.toNat ∣ 2 ^ 64 := by
    rw [power] at word ⊢
    exact Nat.pow_dvd_pow 2 ((Nat.pow_lt_pow_iff_right (by decide)).mp word).le
  have total : roundUp alignment.toNat (length.toNat + alignment.toNat) =
      alignedTotal length alignment := by
    rw [Nat.add_comm, roundUp_add positive (dvd_refl _), Nat.add_comm]
    rfl
  rw [alignValue_of_pow power, UInt64.toNat_add, ← total]
  rcases Nat.lt_or_ge (length.toNat + alignment.toNat) (2 ^ 64) with small | wraps
  · rw [Nat.mod_eq_of_lt small]
  · obtain ⟨rest, sum⟩ := Nat.exists_eq_add_of_le wraps
    have cut : (length.toNat + alignment.toNat) % 2 ^ 64 = rest := by
      rw [sum, Nat.add_mod_left]
      exact Nat.mod_eq_of_lt (by omega)
    rw [cut, sum, roundUp_add positive divides, Nat.add_mod_left]

/-- What is reported is the size that is asked for without the distance to the aligned start. -/
theorem allocated_toNat (power : alignment.toNat = 2 ^ t)
    (above : raw.toNat ≤ (alignValue raw alignment).toNat)
    (room : (alignValue raw alignment).toNat - raw.toNat ≤ alignedTotal length alignment % 2 ^ 64) :
    (allocateAlignedBufferExt (some raw) length alignment).allocated.toNat =
      alignedTotal length alignment % 2 ^ 64 - ((alignValue raw alignment).toNat - raw.toNat) := by
  have distance : (alignValue raw alignment - raw).toNat =
      (alignValue raw alignment).toNat - raw.toNat :=
    UInt64.toNat_sub_of_le _ _ (UInt64.le_iff_toNat_le.mpr above)
  have computed := @alignValue_add length alignment t power
  rw [allocateAlignedBufferExt, UInt64.toNat_sub_of_le, computed, distance]
  rw [UInt64.le_iff_toNat_le, computed, distance]
  exact room

/-- The pages that are asked for; what is left of the division is dropped. -/
theorem pages_toNat (power : alignment.toNat = 2 ^ t) :
    (allocateAlignedBufferExt (some raw) length alignment).pages.toNat =
      alignedTotal length alignment % 2 ^ 64 / 4096 := by
  rw [allocateAlignedBufferExt, UInt64.toNat_div, alignValue_add power]
  rfl

/-- A power of two that is an alignment is at most half of the address space. -/
theorem alignment_le_half (power : alignment.toNat = 2 ^ t) :
    0 < alignment.toNat ∧ alignment.toNat + alignment.toNat ≤ 2 ^ 64 := by
  have word := alignment.toNat_lt
  rw [power] at word ⊢
  refine ⟨Nat.two_pow_pos t, ?_⟩
  rw [← Nat.two_mul, ← Nat.pow_succ']
  exact Nat.pow_le_pow_right (by decide) ((Nat.pow_lt_pow_iff_right (by decide)).mp word)

/-- A buffer that fits has been asked for without wrapping, in whole pages. -/
theorem BufferFits.wholePages (power : alignment.toNat = 2 ^ t)
    (fits : BufferFits length alignment (allocateAlignedBufferExt (some raw) length alignment)) :
    WholePages length alignment := by
  have size : pageSize.toNat = 4096 := rfl
  obtain ⟨positive, half⟩ := alignment_le_half power
  have near := roundUp_lt positive length.toNat
  have behind := le_roundUp positive length.toNat
  have rawWord := raw.toNat_lt
  have rawNear := roundUp_lt positive raw.toNat
  have placed := alignValue_of_pow power raw
  have total : alignedTotal length alignment =
      roundUp alignment.toNat length.toNat + alignment.toNat := rfl
  have above : raw.toNat ≤ (alignValue raw alignment).toNat := fits.above
  have data : (alignValue raw alignment).toNat + length.toNat ≤ raw.toNat + _ := fits.data
  have reported : (alignValue raw alignment).toNat + _ ≤ raw.toNat + _ := fits.reported
  rw [pages_toNat power, size] at data reported
  have small : alignedTotal length alignment < 2 ^ 64 := by
    by_contra wraps
    omega
  have uncut : alignedTotal length alignment % 2 ^ 64 = alignedTotal length alignment :=
    Nat.mod_eq_of_lt small
  rw [allocated_toNat power above (by rw [uncut, placed]; omega), uncut] at reported
  refine ⟨small, ?_⟩
  rw [size]
  apply Nat.dvd_of_mod_eq_zero
  omega

/-- A size of whole pages that does not wrap leaves room for the buffer, on pages inside of the
address space. -/
theorem WholePages.bufferFits (power : alignment.toNat = 2 ^ t)
    (granted : raw.toNat +
      (allocateAlignedBufferExt (some raw) length alignment).pages.toNat * pageSize.toNat ≤ 2 ^ 64)
    (wholePages : WholePages length alignment) :
    BufferFits length alignment (allocateAlignedBufferExt (some raw) length alignment) := by
  have size : pageSize.toNat = 4096 := rfl
  obtain ⟨positive, half⟩ := alignment_le_half power
  have behind := le_roundUp positive length.toNat
  have rawBehind := le_roundUp positive raw.toNat
  have rawNear := roundUp_lt positive raw.toNat
  have total : alignedTotal length alignment =
      roundUp alignment.toNat length.toNat + alignment.toNat := rfl
  obtain ⟨small, whole⟩ := wholePages
  have uncut : alignedTotal length alignment % 2 ^ 64 = alignedTotal length alignment :=
    Nat.mod_eq_of_lt small
  have pages : (allocateAlignedBufferExt (some raw) length alignment).pages.toNat *
      pageSize.toNat = alignedTotal length alignment := by
    rw [pages_toNat power, uncut]
    exact Nat.div_mul_cancel whole
  rw [pages] at granted
  -- the aligned start lies inside of the pages, so it did not wrap
  have aligned : (alignValue raw alignment).toNat = roundUp alignment.toNat raw.toNat := by
    rw [alignValue_of_pow power]
    exact Nat.mod_eq_of_lt (by omega)
  have buffer : (allocateAlignedBufferExt (some raw) length alignment).buffer.toNat =
      roundUp alignment.toNat raw.toNat := aligned
  have start : (allocateAlignedBufferExt (some raw) length alignment).raw = raw := rfl
  have allocated := @allocated_toNat length alignment raw t power (by omega) (by
    rw [uncut, aligned]
    omega)
  rw [uncut, aligned] at allocated
  refine ⟨?_, ?_, ?_, ?_⟩
  · rw [buffer]
    exact dvd_roundUp _ _
  · rw [buffer, start]
    exact rawBehind
  · rw [buffer, start, pages]
    omega
  · rw [buffer, start, allocated, pages]
    omega

/-- On pages inside of the address space a buffer with a power of two as alignment fits its pages
exactly when the size that is asked for does not wrap and is a whole number of pages. -/
theorem bufferFits_iff (power : alignment.toNat = 2 ^ t)
    (granted : raw.toNat +
      (allocateAlignedBufferExt (some raw) length alignment).pages.toNat * pageSize.toNat ≤ 2 ^ 64) :
    BufferFits length alignment (allocateAlignedBufferExt (some raw) length alignment) ↔
      WholePages length alignment :=
  ⟨fun fits => fits.wholePages power, fun whole => whole.bufferFits power granted⟩

end Fits

/-- An image of little more than a page with sections at multiples of `0x200` gets one page. -/
theorem not_bufferFits_halfPage :
    ¬ BufferFits 0x1100 0x200 (allocateAlignedBufferExt (some 0x800000) 0x1100 0x200) := by
  intro fits
  exact absurd fits.data (by decide)

/-- With sections at multiples of a page it gets three. -/
theorem bufferFits_wholePages :
    BufferFits 0x1100 0x1000 (allocateAlignedBufferExt (some 0x800000) 0x1100 0x1000) := by
  have power : (0x1000 : UInt64).toNat = 2 ^ 12 := rfl
  have whole : WholePages 0x1100 0x1000 := by
    unfold WholePages
    decide
  exact (bufferFits_iff power (by decide)).mpr whole

end ZLoader
