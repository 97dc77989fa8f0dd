import ZLoader.Foundation.LittleEndian

/-! # Byte lists in a store

A list of bytes that stands at the start of a store, with other memory behind it. Reading at a
distance is reading in the part of the list that lies there, so a concatenation is taken apart one
part after the other.
-/

namespace ZLoader

/-- The low bytes of a number, least significant byte first. -/
def leBytes : ℕ → ℕ → List UInt8
  | 0, _ => []
  | width + 1, value => UInt8.ofNat value :: leBytes width (value / 256)

@[simp] theorem leBytes_length (width value : ℕ) : (leBytes width value).length = width := by
  induction width generalizing value with
  | zero => rfl
  | succ width ih => rw [leBytes, List.length_cons, ih]

/-- The entries of a table: the first one, and the others from the next offset on. -/
theorem map_range_stride {α : Type} (entry : ℕ → α) (size start count : ℕ) :
    (List.range (count + 1)).map (fun index => entry (start + size * index)) =
      entry start :: (List.range count).map fun index => entry (start + size + size * index) := by
  rw [List.range_succ_eq_map, List.map_cons, List.map_map]
  congr 1
  apply List.map_congr_left
  intro index _
  simp only [Function.comp_apply, Nat.succ_eq_add_one, Nat.mul_add_one]
  congr 1
  omega

namespace ByteStore

/-- The bytes of a list, and then other memory. -/
def ofList (bytes : List UInt8) (behind : ByteStore) : ByteStore := fun index =>
  bytes.getD index (behind (index - bytes.length))

/-- The bytes from an offset on. -/
def bytesAt (store : ByteStore) (offset length : ℕ) : List UInt8 :=
  (List.range length).map fun index => store (offset + index)

/-- Memory seen from an offset on. -/
def from_ (store : ByteStore) (offset : ℕ) : ByteStore := fun index => store (offset + index)

@[simp] theorem ofList_nil (behind : ByteStore) : ofList [] behind = behind := rfl

/-- What is copied can be read where it was copied to. -/
theorem bytesAt_apply_copy (store source : ByteStore) (start length origin : ℕ) :
    ((Patch.copy start length source origin).apply store).bytesAt start length =
      source.bytesAt origin length := by
  apply List.map_congr_left
  intro index member
  exact Patch.apply_copy store source (List.mem_range.mp member)

section BytesAt

variable (store : ByteStore) (offset : ℕ)

theorem bytesAt_length (length : ℕ) : (store.bytesAt offset length).length = length := by
  rw [bytesAt, List.length_map, List.length_range]

theorem bytesAt_getD {length index : ℕ} (inside : index < length) (other : UInt8) :
    (store.bytesAt offset length).getD index other = store (offset + index) := by
  rw [bytesAt, List.getD_eq_getElem?_getD, List.getElem?_map, List.getElem?_range inside]
  rfl

theorem bytesAt_add (first second : ℕ) :
    store.bytesAt offset (first + second) =
      store.bytesAt offset first ++ store.bytesAt (offset + first) second := by
  rw [bytesAt, List.range_add, List.map_append, List.map_map, bytesAt, bytesAt]
  congr 1
  apply List.map_congr_left
  intro index _
  rw [Function.comp_apply, Nat.add_assoc]

theorem bytesAt_succ (length : ℕ) :
    store.bytesAt offset (length + 1) = store offset :: store.bytesAt (offset + 1) length := by
  rw [Nat.add_comm, bytesAt_add]
  rfl

/-- A part of some bytes. -/
theorem bytesAt_part {bytes : List UInt8} {skip count : ℕ} (inside : skip + count ≤ bytes.length)
    (stands : store.bytesAt offset bytes.length = bytes) :
    store.bytesAt (offset + skip) count = (bytes.drop skip).take count := by
  obtain ⟨rest, length⟩ := Nat.exists_eq_add_of_le inside
  rw [length, bytesAt_add, bytesAt_add] at stands
  rw [← stands, List.append_assoc, List.drop_left' (bytesAt_length ..),
    List.take_left' (bytesAt_length ..)]

theorem bytesAt_congr {first second : ByteStore} {i j length : ℕ}
    (same : ∀ k < length, first (i + k) = second (j + k)) :
    first.bytesAt i length = second.bytesAt j length :=
  List.map_congr_left fun k member => same k (List.mem_range.mp member)

end BytesAt

/-- The bytes of a number. -/
theorem leBytes_readLE (store : ByteStore) (offset width : ℕ) :
    leBytes width (store.readLE offset width) = store.bytesAt offset width := by
  induction width generalizing offset with
  | zero => rfl
  | succ width ih =>
    have low := (store offset).toNat_lt
    rw [bytesAt_succ, ← ih, readLE, leBytes]
    congr 1
    · apply UInt8.toNat_inj.mp
      rw [UInt8.toNat_ofNat']
      omega
    · congr 1
      omega

theorem ofList_of_lt (bytes : List UInt8) (behind : ByteStore) {index : ℕ}
    (inside : index < bytes.length) : ofList bytes behind index = bytes.getD index 0 := by
  rw [ofList, List.getD_eq_getElem?_getD, List.getD_eq_getElem?_getD,
    List.getElem?_eq_getElem inside]
  rfl

/-- Memory is its first bytes with the other memory behind them. -/
theorem ofList_bytesAt (store : ByteStore) (length : ℕ) :
    ofList (store.bytesAt 0 length) (store.from_ length) = store := by
  funext index
  rw [ofList, List.getD_eq_getElem?_getD, bytesAt, List.getElem?_map, List.length_map,
    List.length_range]
  rcases Nat.lt_or_ge index length with inside | outside
  · rw [List.getElem?_range inside, Option.map_some, Option.getD_some, Nat.zero_add]
  · rw [List.getElem?_eq_none (by simpa using outside), Option.map_none, Option.getD_none, from_,
      Nat.add_sub_cancel' outside]

/-- Past the first part stands the rest. -/
theorem ofList_append_from (first rest : List UInt8) (behind : ByteStore) :
    (ofList (first ++ rest) behind).from_ first.length = ofList rest behind := by
  funext index
  simp only [from_, ofList, List.getD_eq_getElem?_getD, List.length_append]
  rw [List.getElem?_append_right (Nat.le_add_right _ _), Nat.add_sub_cancel_left,
    Nat.add_sub_add_left]

theorem readLE_from (store : ByteStore) (skip offset width : ℕ) :
    (store.from_ skip).readLE offset width = store.readLE (skip + offset) width := by
  induction width generalizing offset with
  | zero => rfl
  | succ width ih =>
    simp only [readLE, ih]
    rfl

section Congr

variable {first second : ByteStore} {skip offset count : ℕ}
  (same : ∀ index < count, first (skip + index) = second index)

include same

/-- A number is read the same where the bytes are the same. -/
theorem readLE_congr {width : ℕ} (inside : offset + width ≤ count) :
    first.readLE (skip + offset) width = second.readLE offset width := by
  have keeps : Keeps (· < count) second (first.from_ skip) := same
  rw [← readLE_from]
  apply keeps.readLE
  intro at_ _ upper
  omega

theorem u32_congr (inside : offset + 4 ≤ count) : first.u32 (skip + offset) = second.u32 offset := by
  rw [u32, readLE_congr same inside, u32]

/-- Adding to a field gives the same bytes where the bytes were the same. -/
theorem addLE_congr {width amount index : ℕ} (inside : offset + width ≤ count)
    (bound : index < count) :
    first.addLE (skip + offset) width amount (skip + index) =
      second.addLE offset width amount index := by
  have window : (Window.mk (skip + offset) width).Contains (skip + index) ↔
      (Window.mk offset width).Contains index := by
    rw [Window.contains_mk, Window.contains_mk]
    omega
  rw [addLE, addLE, writeLE, writeLE, readLE_congr same inside, same index bound,
    Nat.add_sub_add_left]
  simp only [window]

end Congr

/-- The bytes of a number at the start of a store are that number. -/
theorem readLE_ofList_leBytes (width value : ℕ) (rest : List UInt8) (behind : ByteStore) :
    (ofList (leBytes width value ++ rest) behind).readLE 0 width = value % 256 ^ width := by
  induction width generalizing value with
  | zero => simp [readLE, Nat.mod_one]
  | succ width ih =>
    have tail := ih (value / 256)
    rw [← ofList_append_from [UInt8.ofNat value], readLE_from] at tail
    have head : ofList (leBytes (width + 1) value ++ rest) behind 0 = UInt8.ofNat value := rfl
    rw [readLE, head, Nat.pow_succ', Nat.mod_mul, UInt8.toNat_ofNat', ← tail]
    rfl

/-- A number that stands in a list of bytes is read at the length of what is in front of it. -/
theorem readLE_ofList (before : List UInt8) {offset : ℕ} (stands : before.length = offset)
    (width value : ℕ) (rest : List UInt8) (behind : ByteStore) :
    (ofList (before ++ (leBytes width value ++ rest)) behind).readLE offset width =
      value % 256 ^ width := by
  have start := readLE_from (ofList (before ++ (leBytes width value ++ rest)) behind)
    before.length 0 width
  rw [ofList_append_from, readLE_ofList_leBytes, Nat.add_zero, stands] at start
  exact start.symm

/-- A part of the list is read back from where it stands. -/
theorem bytesAt_ofList (before part after : List UInt8) (behind : ByteStore) :
    (ofList (before ++ part ++ after) behind).bytesAt before.length part.length = part := by
  apply List.ext_getElem (by simp [bytesAt])
  intro index _ bound
  have stands := congrFun (ofList_append_from before (part ++ after) behind) index
  simp only [bytesAt, List.getElem_map, List.getElem_range, List.append_assoc]
  apply stands.trans
  rw [ofList, List.getD_eq_getElem?_getD, List.getElem?_append_left bound,
    List.getElem?_eq_getElem bound, Option.getD_some]

end ByteStore

end ZLoader
