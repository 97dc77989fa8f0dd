import ZLoader.Foundation.ByteCopy
import ZLoader.Model.Lib.Memory

/-! # Moving memory

`memmove` copies directly only where one range ends in front of the other, and otherwise through a
temporary that is apart from both. Either way the destination holds afterwards what the source held
before.
-/

namespace ZLoader

/-! ## What is claimed -/

/-- A range of memory. The pointer behind it is a pointer too, and above those into it. -/
structure MemoryRange (size : UInt64) where
  address : UInt64
  ends : address.toNat + size.toNat < 2 ^ 64

def MemoryRange.window {size : UInt64} (range : MemoryRange size) : Window :=
  ⟨range.address.toNat, size.toNat⟩

/-- The memory that is not in a window. -/
def Outside (window : Window) (offset : ℕ) : Prop := ¬ window.Contains offset

section Claim

variable {size : UInt64} (dst src tmp : MemoryRange size)

/-- The allocation of the temporary succeeds, it is apart from both ranges, and the services leave
what is outside of it. -/
structure Temporary (pool : PoolServices) (memory : ByteStore) : Prop where
  allocated : (malloc pool memory size).1 = tmp.address
  nonNull : tmp.address ≠ 0
  apartDst : tmp.window.Disjoint dst.window
  apartSrc : tmp.window.Disjoint src.window
  allocatePool : ByteStore.Keeps (Outside tmp.window) memory (malloc pool memory size).2
  freePool : ∀ memory,
    ByteStore.Keeps (Outside tmp.window) memory (pool.freePool memory tmp.address)

/-- The destination holds what the source held, and everything else but the temporary is kept. -/
structure Moved (before after : ByteStore) : Prop where
  destination : ∀ index < size.toNat,
    after (dst.address.toNat + index) = before (src.address.toNat + index)
  elsewhere : ByteStore.Keeps
    (fun offset => Outside dst.window offset ∧ Outside tmp.window offset) before after

end Claim

/-! ## The byte loop -/

theorem toNat_next {pointer : UInt64} (room : pointer.toNat + 1 < 2 ^ 64) :
    (pointer + 1).toNat = pointer.toNat + 1 := by
  rw [UInt64.toNat_add]
  exact Nat.mod_eq_of_lt room

theorem memcpyLoop_eq {count : ℕ} {d s : UInt64} (memory : ByteStore)
    (endD : d.toNat + count < 2 ^ 64) (endS : s.toNat + count < 2 ^ 64) :
    memcpyLoop count d s memory = forwardCopy count d.toNat s.toNat memory := by
  induction count generalizing d s memory with
  | zero => rfl
  | succ count ih =>
    have next : (d + 1).toNat = d.toNat + 1 := toNat_next (by omega)
    have next' : (s + 1).toNat = s.toNat + 1 := toNat_next (by omega)
    rw [memcpyLoop, ih _ (by omega) (by omega), next, next', forwardCopy]

section Ranges

variable {size : UInt64} {dst src tmp : MemoryRange size}

/-- No byte of the source is written before it is read. -/
def Forward (dst src : MemoryRange size) : Prop :=
  dst.address.toNat ≤ src.address.toNat ∨ src.address.toNat + size.toNat ≤ dst.address.toNat

theorem forward_of_disjoint (disjoint : dst.window.Disjoint src.window) : Forward dst src := by
  have apart := (Window.disjoint_iff _ _).mp disjoint
  simp only [MemoryRange.window] at apart
  rw [Forward]
  omega

theorem MemoryRange.contains (range : MemoryRange size) {index : ℕ} (inside : index < size.toNat) :
    range.window.Contains (range.address.toNat + index) :=
  ⟨Nat.le_add_right .., Nat.add_lt_add_left inside _⟩

theorem memcpy_eq (memory : ByteStore) (forward : Forward dst src) :
    (memcpy memory dst.address src.address size).2 =
      (Patch.copy dst.address.toNat size.toNat memory src.address.toNat).apply memory := by
  rw [memcpy, memcpyLoop_eq memory dst.ends src.ends]
  exact forwardCopy_eq memory forward

theorem memcpy_destination (memory : ByteStore) (forward : Forward dst src) {index : ℕ}
    (inside : index < size.toNat) :
    (memcpy memory dst.address src.address size).2 (dst.address.toNat + index) =
      memory (src.address.toNat + index) := by
  rw [memcpy_eq memory forward]
  exact Patch.apply_copy memory memory inside

theorem memcpy_keeps (memory : ByteStore) (forward : Forward dst src) :
    ByteStore.Keeps (Outside dst.window) memory
      (memcpy memory dst.address src.address size).2 := by
  rw [memcpy_eq memory forward]
  exact ByteStore.keeps_apply _ _ fun _ outside => outside

/-! ## The two ways -/

/-- The end of a range, as a pointer. -/
theorem end_lt_iff (range other : MemoryRange size) :
    range.address + size < other.address ↔
      range.address.toNat + size.toNat < other.address.toNat := by
  rw [UInt64.lt_iff_toNat_lt, UInt64.toNat_add, Nat.mod_eq_of_lt range.ends]

/-- The comparison of the pointers lets no other ranges be copied directly. -/
theorem forward_of_ends
    (apart : dst.address + size < src.address ∨ src.address + size < dst.address) :
    Forward dst src := by
  rw [end_lt_iff, end_lt_iff] at apart
  rw [Forward]
  omega

theorem moved_directly (memory : ByteStore) (forward : Forward dst src) :
    Moved dst src tmp memory (memcpy memory dst.address src.address size).2 where
  destination := fun _ inside => memcpy_destination memory forward inside
  elsewhere := (memcpy_keeps memory forward).mono fun _ outside => outside.1

/-- Through the temporary, which the source is copied to before the destination is written. -/
theorem moved_through {pool : PoolServices} {memory : ByteStore}
    (temporary : Temporary dst src tmp pool memory) :
    Moved dst src tmp memory (pool.freePool
      (memcpy (memcpy (malloc pool memory size).2 tmp.address src.address size).2 dst.address
        tmp.address size).2 tmp.address) := by
  have first : Forward tmp src := forward_of_disjoint temporary.apartSrc
  have second : Forward dst tmp := forward_of_disjoint temporary.apartDst.symm
  generalize allocated : (malloc pool memory size).2 = memory₁
  generalize copied : (memcpy memory₁ tmp.address src.address size).2 = memory₂
  generalize moved : (memcpy memory₂ dst.address tmp.address size).2 = memory₃
  have allocatePool := temporary.allocatePool
  rw [allocated] at allocatePool
  have toTmp : ByteStore.Keeps (Outside tmp.window) memory₁ memory₂ :=
    copied ▸ memcpy_keeps memory₁ first
  have toDst : ByteStore.Keeps (Outside dst.window) memory₂ memory₃ :=
    moved ▸ memcpy_keeps memory₂ second
  constructor
  · intro index inside
    have outsideTmp : Outside tmp.window (dst.address.toNat + index) :=
      temporary.apartDst.symm _ (dst.contains inside)
    have outsideTmp' : Outside tmp.window (src.address.toNat + index) :=
      temporary.apartSrc.symm _ (src.contains inside)
    calc
      pool.freePool memory₃ tmp.address (dst.address.toNat + index)
      _ = memory₃ (dst.address.toNat + index) := temporary.freePool memory₃ _ outsideTmp
      _ = memory₂ (tmp.address.toNat + index) := moved ▸ memcpy_destination memory₂ second inside
      _ = memory₁ (src.address.toNat + index) := copied ▸ memcpy_destination memory₁ first inside
      _ = memory (src.address.toNat + index) := allocatePool _ outsideTmp'
  · have keeps : ByteStore.Keeps (fun offset => Outside dst.window offset ∧ Outside tmp.window offset)
        memory memory₂ := (allocatePool.trans toTmp).mono fun _ outside => outside.2
    exact (keeps.trans (toDst.mono fun _ outside => outside.1)).trans
      ((temporary.freePool memory₃).mono fun _ outside => outside.2)

end Ranges

/-- `memmove` moves the bytes of the source, however the ranges lie. -/
theorem memmove_moves (debug : Bool) {pool : PoolServices} {memory : ByteStore} {size : UInt64}
    {dst src tmp : MemoryRange size} (temporary : Temporary dst src tmp pool memory) :
    ∃ after, memmove debug pool memory dst.address src.address size = .ok (dst.address, after) ∧
      Moved dst src tmp memory after := by
  rw [memmove]
  split_ifs with apart
  · have ends : dst.address + size < src.address ∨ src.address + size < dst.address := by
      simpa using apart
    exact ⟨_, rfl, moved_directly memory (forward_of_ends ends)⟩
  · have moved := moved_through temporary
    have allocated := temporary.allocated
    have passes : ¬ (debug && tmp.address == 0) = true := by simp [temporary.nonNull]
    generalize malloc pool memory size = result at moved allocated ⊢
    obtain ⟨address, memory₁⟩ := result
    obtain rfl : address = tmp.address := allocated
    exact ⟨_, if_neg passes, moved⟩

section Witness

/-- Every byte is the low byte of its address. -/
def countingMemory : ByteStore := fun offset => offset.toUInt8

/-- Every allocation is at `0x200`. -/
def fixedPool : PoolServices :=
  { allocatePool := fun memory _ => (efiSuccess, 0x200, memory)
    freePool := fun memory _ => memory }

/-- Two bytes up, the ranges overlapping in two. -/
theorem memmove_moves_overlapping :
    ∃ after, memmove false fixedPool countingMemory 0x102 0x100 4 = .ok (0x102, after) ∧
      Moved ⟨0x102, by decide⟩ ⟨0x100, by decide⟩ (⟨0x200, by decide⟩ : MemoryRange 4)
        countingMemory after := by
  have temporary : Temporary ⟨0x102, by decide⟩ ⟨0x100, by decide⟩
      (⟨0x200, by decide⟩ : MemoryRange 4) fixedPool countingMemory :=
    { allocated := rfl
      nonNull := by decide
      apartDst := by decide
      apartSrc := by decide
      allocatePool := .refl _ _
      freePool := fun _ => .refl _ _ }
  have moves := memmove_moves false temporary
  exact moves

end Witness

end ZLoader
