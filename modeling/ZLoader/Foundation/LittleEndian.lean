import ZLoader.Foundation.ByteStore

/-! # Little-endian fields of a byte store

Fields are read and written byte by byte, least significant byte first, at any offset: the
structures of the file format are packed, so no alignment is assumed. Numbers are naturals and a
write keeps the low bytes only, which makes in-place addition at a width the addition modulo
`256 ^ width`.
-/

namespace ZLoader

namespace ByteStore

/-- The little-endian number in `width` bytes from `offset` on. -/
def readLE (store : ByteStore) : ℕ → ℕ → ℕ
  | _, 0 => 0
  | offset, width + 1 => (store offset).toNat + 256 * store.readLE (offset + 1) width

/-- Replace `width` bytes from `offset` on by the low bytes of `value`. -/
def writeLE (store : ByteStore) (offset width value : ℕ) : ByteStore := fun at_ =>
  if (Window.mk offset width).Contains at_ then
    UInt8.ofNat (value / 256 ^ (at_ - offset)) else store at_

/-- The fixed-width fields of packed C structures. -/
def u16 (store : ByteStore) (offset : ℕ) : UInt16 := UInt16.ofNat (store.readLE offset 2)
def u32 (store : ByteStore) (offset : ℕ) : UInt32 := UInt32.ofNat (store.readLE offset 4)
def u64 (store : ByteStore) (offset : ℕ) : UInt64 := UInt64.ofNat (store.readLE offset 8)

/-- Add to the field in place, at the width of the field. -/
def addLE (store : ByteStore) (offset width amount : ℕ) : ByteStore :=
  store.writeLE offset width (store.readLE offset width + amount)

/-- A store of zeros with fields, given as offset, width and value, written in order. -/
def ofFields (fields : List (ℕ × ℕ × ℕ)) : ByteStore :=
  fields.foldl (fun store (offset, width, value) => store.writeLE offset width value) fun _ => 0

theorem readLE_lt (store : ByteStore) (offset width : ℕ) :
    store.readLE offset width < 256 ^ width := by
  induction width generalizing offset with
  | zero => simp [readLE]
  | succ width ih =>
    have low := (store offset).toNat_lt
    have high := ih (offset + 1)
    simp only [readLE, Nat.pow_succ]
    omega

/-- The digits of the number are the bytes of the field. -/
theorem readLE_digit (store : ByteStore) (offset : ℕ) {width index : ℕ} (bound : index < width) :
    store.readLE offset width / 256 ^ index % 256 = (store (offset + index)).toNat := by
  induction width generalizing offset index with
  | zero => omega
  | succ width ih =>
    have low := (store offset).toNat_lt
    cases index with
    | zero => simp only [readLE, Nat.pow_zero, Nat.div_one, Nat.add_zero]; omega
    | succ index =>
      have shift : store.readLE offset (width + 1) / 256 = store.readLE (offset + 1) width := by
        simp only [readLE]; omega
      rw [Nat.pow_succ', ← Nat.div_div_eq_div_mul, shift, ih (offset + 1) (by omega)]
      congr 2
      omega

/-- A number is read the same where its bytes are kept. -/
theorem Keeps.readLE {region : ℕ → Prop} {before after : ByteStore}
    (keeps : Keeps region before after) {offset width : ℕ}
    (inside : ∀ at_, offset ≤ at_ → at_ < offset + width → region at_) :
    after.readLE offset width = before.readLE offset width := by
  induction width generalizing offset with
  | zero => rfl
  | succ width ih =>
    have head := keeps offset (inside offset (Nat.le_refl _) (by omega))
    rw [ByteStore.readLE, ByteStore.readLE, head, ih]
    intro at_ lower upper
    exact inside at_ (by omega) (by omega)

theorem Keeps.u16 {region : ℕ → Prop} {before after : ByteStore}
    (keeps : Keeps region before after) {offset : ℕ}
    (inside : ∀ at_, offset ≤ at_ → at_ < offset + 2 → region at_) :
    after.u16 offset = before.u16 offset := by
  rw [ByteStore.u16, keeps.readLE inside, ByteStore.u16]

theorem Keeps.u32 {region : ℕ → Prop} {before after : ByteStore}
    (keeps : Keeps region before after) {offset : ℕ}
    (inside : ∀ at_, offset ≤ at_ → at_ < offset + 4 → region at_) :
    after.u32 offset = before.u32 offset := by
  rw [ByteStore.u32, keeps.readLE inside, ByteStore.u32]

section Same

variable {first second : ByteStore} {i j : ℕ}

/-- A number is read the same where the same bytes stand. -/
theorem readLE_of_same {width : ℕ} (same : ∀ k < width, first (i + k) = second (j + k)) :
    first.readLE i width = second.readLE j width := by
  induction width generalizing i j with
  | zero => rfl
  | succ width ih =>
    have head : first i = second j := same 0 (Nat.succ_pos width)
    rw [readLE, readLE, head, ih fun k inside => ?_]
    have later := same (k + 1) (Nat.succ_lt_succ inside)
    rwa [Nat.add_comm k, ← Nat.add_assoc, ← Nat.add_assoc] at later

theorem u16_of_same (same : ∀ k < 2, first (i + k) = second (j + k)) :
    first.u16 i = second.u16 j := by rw [ByteStore.u16, readLE_of_same same, ByteStore.u16]

theorem u32_of_same (same : ∀ k < 4, first (i + k) = second (j + k)) :
    first.u32 i = second.u32 j := by rw [ByteStore.u32, readLE_of_same same, ByteStore.u32]

theorem u64_of_same (same : ∀ k < 8, first (i + k) = second (j + k)) :
    first.u64 i = second.u64 j := by rw [ByteStore.u64, readLE_of_same same, ByteStore.u64]

end Same

theorem writeLE_outside (store : ByteStore) {offset width : ℕ} (value : ℕ) {at_ : ℕ}
    (outside : ¬ (Window.mk offset width).Contains at_) :
    store.writeLE offset width value at_ = store at_ := if_neg outside

theorem writeLE_inside (store : ByteStore) {offset width index : ℕ} (value : ℕ)
    (bound : index < width) :
    store.writeLE offset width value (offset + index) = UInt8.ofNat (value / 256 ^ index) := by
  rw [writeLE, if_pos ⟨by simp, by simpa using bound⟩]
  simp

/-- Reading a written field gives the value back, cut to the width. -/
theorem readLE_writeLE (store : ByteStore) (offset width value : ℕ) :
    (store.writeLE offset width value).readLE offset width = value % 256 ^ width := by
  have general : ∀ (count skip value : ℕ) (current : ByteStore),
      (∀ index < count, current (offset + skip + index) = UInt8.ofNat (value / 256 ^ index)) →
        current.readLE (offset + skip) count = value % 256 ^ count := by
    intro count
    induction count with
    | zero => intro skip value current _; simp [readLE, Nat.mod_one]
    | succ count ih =>
      intro skip value current bytes
      have head := bytes 0 (by omega)
      have tail : current.readLE (offset + (skip + 1)) count = value / 256 % 256 ^ count := by
        apply ih
        intro index bound
        have byte := bytes (index + 1) (by omega)
        rw [Nat.pow_succ', ← Nat.div_div_eq_div_mul] at byte
        rwa [show offset + (skip + 1) + index = offset + skip + (index + 1) by omega]
      simp only [Nat.add_zero, Nat.pow_zero, Nat.div_one] at head
      rw [readLE, head, show offset + skip + 1 = offset + (skip + 1) by omega, tail,
        Nat.pow_succ', Nat.mod_mul, UInt8.toNat_ofNat']
  simpa only [Nat.add_zero] using general width 0 value _ (fun index bound => by
    simpa only [Nat.add_zero] using store.writeLE_inside value bound)

/-- Writing back what the field holds changes nothing. -/
theorem writeLE_readLE (store : ByteStore) (offset width value : ℕ)
    (same : value % 256 ^ width = store.readLE offset width) :
    store.writeLE offset width value = store := by
  funext at_
  by_cases inside : (Window.mk offset width).Contains at_
  · obtain ⟨lower, upper⟩ : offset ≤ at_ ∧ at_ < offset + width := inside
    obtain ⟨index, rfl⟩ : ∃ index, at_ = offset + index := ⟨at_ - offset, by omega⟩
    have bound : index < width := by simpa using upper
    rw [writeLE_inside _ _ bound]
    apply UInt8.toNat_inj.mp
    rw [UInt8.toNat_ofNat', ← store.readLE_digit offset bound, ← same]
    have split : 256 ^ width = 256 ^ index * (256 * 256 ^ (width - index - 1)) := by
      rw [← Nat.pow_succ', ← Nat.pow_add]
      congr 1
      omega
    rw [split, Nat.mod_mul_right_div_self, Nat.mod_mul_right_mod]
  · exact writeLE_outside store value inside

/-- A written field keeps what is outside of it. -/
theorem keeps_writeLE {region : ℕ → Prop} (store : ByteStore) {offset width : ℕ} (value : ℕ)
    (outside : ∀ at_, region at_ → at_ < offset ∨ offset + width ≤ at_) :
    Keeps region store (store.writeLE offset width value) := by
  intro at_ inside
  apply writeLE_outside
  rintro ⟨lower, upper⟩
  have apart := outside at_ inside
  dsimp only at lower upper
  omega

/-- A write through a field that is as before keeps a region exactly when it would keep it alone and
what has happened already keeps it. -/
theorem keeps_writeLE_iff {region : ℕ → Prop} {before store : ByteStore} {offset width value : ℕ}
    (untouched : Keeps (Window.mk offset width).Contains before store) :
    Keeps region before (store.writeLE offset width value) ↔
      Keeps region before store ∧ Keeps region before (before.writeLE offset width value) := by
  rw [Keeps, Keeps, Keeps, ← forall₂_and]
  apply forall₂_congr
  intro at_ _
  by_cases inside : (Window.mk offset width).Contains at_
  · rw [writeLE, writeLE, if_pos inside, if_pos inside]
    exact ⟨fun same => ⟨untouched at_ inside, same⟩, fun same => same.2⟩
  · rw [writeLE_outside _ _ inside, writeLE_outside _ _ inside]
    exact ⟨fun same => ⟨same, rfl⟩, fun same => same.1⟩

/-- Inside of a region the value of a field decides whether a write keeps it. -/
theorem keeps_writeLE_self_iff {region : ℕ → Prop} (store : ByteStore) {offset width value : ℕ}
    (inside : ∀ at_, offset ≤ at_ → at_ < offset + width → region at_) :
    Keeps region store (store.writeLE offset width value) ↔
      value % 256 ^ width = store.readLE offset width := by
  constructor
  · intro keeps
    rw [← keeps.readLE inside, readLE_writeLE]
  · intro same
    rw [store.writeLE_readLE offset width value same]
    exact .refl _ _

/-- The bytes of a field that is zero. -/
theorem byte_eq_zero {store : ByteStore} {offset width index : ℕ} (bound : index < width)
    (zero : store.readLE offset width = 0) : store (offset + index) = 0 := by
  apply UInt8.toNat_inj.mp
  rw [← store.readLE_digit offset bound, zero, Nat.zero_div]
  rfl

theorem keeps_addLE {region : ℕ → Prop} (store : ByteStore) {offset width : ℕ} (amount : ℕ)
    (outside : ∀ at_, region at_ → at_ < offset ∨ offset + width ≤ at_) :
    Keeps region store (store.addLE offset width amount) :=
  keeps_writeLE store _ outside

/-- In-place addition is the addition of the words of the field. -/
theorem u16_addLE (store : ByteStore) (offset amount : ℕ) :
    (store.addLE offset 2 amount).u16 offset = store.u16 offset + UInt16.ofNat amount := by
  apply UInt16.toNat_inj.mp
  simp [u16, addLE, readLE_writeLE, UInt16.toNat_add]

theorem u32_addLE (store : ByteStore) (offset amount : ℕ) :
    (store.addLE offset 4 amount).u32 offset = store.u32 offset + UInt32.ofNat amount := by
  apply UInt32.toNat_inj.mp
  simp [u32, addLE, readLE_writeLE, UInt32.toNat_add]

/-- A word that is written is read back. -/
theorem u16_writeLE (store : ByteStore) (offset : ℕ) (value : UInt16) :
    (store.writeLE offset 2 value.toNat).u16 offset = value := by
  apply UInt16.toNat_inj.mp
  simp [u16, readLE_writeLE]

theorem u32_writeLE (store : ByteStore) (offset : ℕ) (value : UInt32) :
    (store.writeLE offset 4 value.toNat).u32 offset = value := by
  apply UInt32.toNat_inj.mp
  simp [u32, readLE_writeLE]

/-- In-place addition is the identity exactly when the amount vanishes at the width. -/
theorem addLE_eq_self_iff (store : ByteStore) (offset width amount : ℕ) :
    store.addLE offset width amount = store ↔ amount % 256 ^ width = 0 := by
  have small := store.readLE_lt offset width
  constructor
  · intro same
    have field := congrArg (fun current => current.readLE offset width) same
    simp only [addLE, readLE_writeLE] at field
    generalize store.readLE offset width = old at field small
    generalize 256 ^ width = modulus at field small ⊢
    have cancel : (old + amount) % modulus = old % modulus := by
      rw [field, Nat.mod_eq_of_lt small]
    simpa only [Nat.add_sub_cancel_left] using Nat.sub_mod_eq_zero_of_mod_eq cancel
  · intro vanish
    apply writeLE_readLE
    rw [Nat.add_mod, vanish, Nat.add_zero, Nat.mod_mod, Nat.mod_eq_of_lt small]

end ByteStore

end ZLoader
