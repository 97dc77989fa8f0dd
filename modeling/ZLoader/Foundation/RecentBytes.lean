import ZLoader.Foundation.ByteList

/-! # The end of some data in memory

A program that refers back to its data keeps the end of it in memory, in front of some address. The
end can be moved, and it grows with the data.
-/

namespace ZLoader

/-- So many of the last bytes of some data stand in front of an address. -/
structure Recalls (memory : ByteStore) (p size : ℕ) (data : List UInt8) : Prop where
  le_length : size ≤ data.length
  le_address : size ≤ p
  stands : ∀ back, 0 < back → back ≤ size →
    memory (p - back) = data.getD (data.length - back) 0

section Recalls

variable {memory memory' : ByteStore} {p size : ℕ} {data new : List UInt8}

theorem recalls_zero (memory : ByteStore) (p : ℕ) (data : List UInt8) : Recalls memory p 0 data :=
  ⟨Nat.zero_le _, Nat.zero_le _, fun back positive none_ => by omega⟩

theorem Recalls.mono {less : ℕ} (recalls : Recalls memory p size data) (le : less ≤ size) :
    Recalls memory p less data :=
  ⟨Nat.le_trans le recalls.le_length, Nat.le_trans le recalls.le_address,
    fun back positive inside => recalls.stands back positive (Nat.le_trans inside le)⟩

theorem Recalls.congr (recalls : Recalls memory p size data)
    (same : ∀ index, p - size ≤ index → index < p → memory' index = memory index) :
    Recalls memory' p size data := by
  have address := recalls.le_address
  refine ⟨recalls.le_length, address, fun back positive inside => ?_⟩
  rw [same _ (by omega) (by omega), recalls.stands back positive inside]

/-- The end of some data that is read from memory. -/
theorem recalls_of_bytesAt {start count : ℕ} {front : List UInt8}
    (bytes : data = front ++ memory.bytesAt start count) :
    Recalls memory (start + count) count data := by
  have length := ByteStore.bytesAt_length memory start count
  refine ⟨?_, Nat.le_add_left .., fun back positive inside => ?_⟩
  · rw [bytes, List.length_append]
    omega
  · have index : data.length - back = front.length + (count - back) := by
      rw [bytes, List.length_append]
      omega
    rw [index, bytes, List.getD_eq_getElem?_getD, List.getElem?_append_right (Nat.le_add_right ..),
      Nat.add_sub_cancel_left, ← List.getD_eq_getElem?_getD, ByteStore.bytesAt_getD _ _ (by omega)]
    congr 1
    omega

/-- The end of the data, as a list. -/
theorem Recalls.bytesAt (recalls : Recalls memory p size data) :
    memory.bytesAt (p - size) size = data.drop (data.length - size) := by
  have length := recalls.le_length
  have address := recalls.le_address
  apply List.ext_getElem
  · rw [ByteStore.bytesAt_length, List.length_drop]
    omega
  · intro index inside inside'
    rw [ByteStore.bytesAt_length] at inside
    have stands := recalls.stands (size - index) (by omega) (Nat.sub_le ..)
    rw [show p - (size - index) = p - size + index by omega,
      show data.length - (size - index) = data.length - size + index by omega,
      List.getD_eq_getElem?_getD, List.getElem?_eq_getElem (by omega), Option.getD_some] at stands
    rw [List.getElem_drop, ← stands]
    simp [ByteStore.bytesAt]

/-- The end of the data is moved. -/
theorem Recalls.copy (recalls : Recalls memory p size data) (d : ℕ) :
    Recalls ((Patch.copy d size memory (p - size)).apply memory) (d + size) size data := by
  have address := recalls.le_address
  refine ⟨recalls.le_length, Nat.le_add_left .., fun back positive inside => ?_⟩
  rw [← recalls.stands back positive inside, show d + size - back = d + (size - back) by omega,
    Patch.apply_copy _ _ (by omega)]
  congr 1
  omega

/-- Data behind the data. -/
theorem Recalls.append (recalls : Recalls memory p size data)
    (bytes : memory.bytesAt p new.length = new) :
    Recalls memory (p + new.length) (size + new.length) (data ++ new) := by
  have length := recalls.le_length
  have address := recalls.le_address
  have behind : Recalls memory (p + new.length) new.length (data ++ new) :=
    @recalls_of_bytesAt memory _ p _ data (by rw [bytes])
  refine ⟨?_, by omega, fun back positive inside => ?_⟩
  · rw [List.length_append]
    omega
  · rcases Nat.lt_or_ge new.length back with old | recent
    · have stands := recalls.stands (back - new.length) (by omega) (by omega)
      rw [show p + new.length - back = p - (back - new.length) by omega, stands,
        List.length_append, List.getD_eq_getElem?_getD, List.getD_eq_getElem?_getD,
        List.getElem?_append_left (by omega)]
      congr 2
      omega
    · exact behind.stands back positive recent

/-- Data from elsewhere is put behind the data. -/
theorem Recalls.extend (recalls : Recalls memory p size data) {s : ℕ}
    (bytes : memory.bytesAt s new.length = new) :
    Recalls ((Patch.copy p new.length memory s).apply memory) (p + new.length) (size + new.length)
      (data ++ new) :=
  (recalls.congr fun _ _ last => Patch.apply_copy_outside _ _ (.inl last)).append
    ((ByteStore.bytesAt_apply_copy ..).trans bytes)

/-- The data in front of the last bytes. -/
theorem Recalls.before (recalls : Recalls memory p (size + new.length) (data ++ new)) :
    Recalls memory (p - new.length) size data := by
  have length := recalls.le_length
  have address := recalls.le_address
  rw [List.length_append] at length
  refine ⟨by omega, by omega, fun back positive inside => ?_⟩
  have stands := recalls.stands (back + new.length) (by omega) (by omega)
  rw [show p - new.length - back = p - (back + new.length) by omega, stands, List.length_append,
    List.getD_eq_getElem?_getD, List.getD_eq_getElem?_getD, List.getElem?_append_left (by omega)]
  congr 2
  omega

end Recalls

end ZLoader
