import ZLoader.Soundness.Lz4History

/-! # The lengths of an LZ4 block

The bytes of a length are read one by one up to a few bytes in front of the end of the input. What
has been read is known exactly for inputs of at most 16 MiB; in longer ones the sum can wrap around.
-/

namespace ZLoader

namespace Lz4Call

variable (call : Lz4Call) (memory : ByteStore)

/-- The sum of the bytes of a length fits its 32 bits. -/
def Short : Prop := call.srcSize ≤ 2 ^ 24

/-- What is left of the input. -/
def ahead (ip : ℕ) : List UInt8 := memory.bytesAt ip (call.iend - ip)

variable {call memory}

variable (call memory) in
theorem ahead_length (ip : ℕ) : (call.ahead memory ip).length = call.iend - ip :=
  ByteStore.bytesAt_length ..

variable (call memory) in
theorem ahead_eq {ip next : ℕ} (behind : ip ≤ next) (inside : next ≤ call.iend) :
    call.ahead memory ip = memory.bytesAt ip (next - ip) ++ call.ahead memory next := by
  rw [ahead, ahead, show call.iend - ip = next - ip + (call.iend - next) by omega,
    ByteStore.bytesAt_add, Nat.add_sub_cancel' behind]

end Lz4Call

section Lengths

variable {call : Lz4Call} {memory : ByteStore} {st : Lz4State}

theorem Lz4State.Contained.next (contained : st.Contained call memory) (low : call.src ≤ st.ip)
    (inside : st.ip < call.iend) : st.next.2.Contained call memory :=
  have loaded := contained.load st.ip 1 (.inl ⟨low, inside⟩)
  ⟨loaded.reads, loaded.writes, loaded.frame⟩

/-- The bytes of a length as the loop reads them: some of 255, and the one that ends it, or at which
there was not enough input left. -/
structure LengthRead (iend slack : ℕ) (st : Lz4State) (length : UInt32)
    (read : VariableLengthError × UInt32 × Lz4State) (count : ℕ) (last : UInt8) : Prop where
  memory : read.2.2.memory = st.memory
  op : read.2.2.op = st.op
  ip : read.2.2.ip = st.ip + count + 1
  ones : ∀ index < count, st.memory (st.ip + index) = 255
  byte : st.memory (st.ip + count) = last
  value : read.2.1 = length + UInt32.ofNat (255 * count + last.toNat)
  inside : 0 < count → st.ip + count + slack < iend
  ended : (read.1 = .ok ∧ last ≠ 255 ∧ read.2.2.ip + slack < iend) ∨
    (read.1 = .loopError ∧ iend ≤ read.2.2.ip + slack)

theorem readVariableLengthLoop_read {st : Lz4State} (contained : st.Contained call memory)
    (low : call.src ≤ st.ip) (inside : st.ip < call.iend) (slack : ℕ) (length : UInt32) :
    (readVariableLengthLoop call.iend slack st length).2.2.Contained call memory ∧
      ∃ count last, LengthRead call.iend slack st length
        (readVariableLengthLoop call.iend slack st length) count last := by
  have once := contained.next low inside
  have value : length + (st.memory st.ip).toUInt32 =
      length + UInt32.ofNat (255 * 0 + (st.memory st.ip).toNat) := by
    rw [Nat.mul_zero, Nat.zero_add, UInt32.ofNat_uInt8ToNat]
  rw [readVariableLengthLoop]
  split_ifs with short more
  · exact ⟨once, 0, st.memory st.ip, rfl, rfl, rfl, fun _ before => absurd before (Nat.not_lt_zero _),
      rfl, value, fun positive => absurd positive (Nat.lt_irrefl 0), .inr ⟨rfl, short⟩⟩
  · have next : st.next.2.ip = st.ip + 1 := rfl
    have ones : st.memory st.ip = 255 := more
    obtain ⟨contained', count, last, read⟩ := readVariableLengthLoop_read once (by omega) (by omega)
      slack (length + st.next.1.toUInt32)
    refine ⟨contained', count + 1, last, read.memory, read.op, ?_, ?_, ?_, ?_, ?_, read.ended⟩
    · rw [read.ip, next]
      omega
    · intro index before
      rcases index with _ | index
      · exact ones
      · rw [← read.ones index (by omega), next, Nat.add_assoc, Nat.add_comm 1]
        rfl
    · rw [← read.byte, next, Nat.add_assoc, Nat.add_comm 1]
      rfl
    · rw [read.value, show st.next.1 = 255 from more, UInt32.add_assoc]
      congr 1
      rw [show 255 * (count + 1) + last.toNat = 255 + (255 * count + last.toNat) by omega,
        UInt32.ofNat_add 255]
      rfl
    · intro _
      rcases Nat.eq_zero_or_pos count with rfl | positive
      · omega
      · have later := read.inside positive
        omega
  · exact ⟨once, 0, st.memory st.ip, rfl, rfl, rfl, fun _ before => absurd before (Nat.not_lt_zero _),
      rfl, value, fun positive => absurd positive (Nat.lt_irrefl 0),
      .inl ⟨rfl, more, Nat.not_le.mp short⟩⟩
termination_by call.iend - st.ip
decreasing_by
  change call.iend - (st.ip + 1) < call.iend - st.ip
  omega

theorem replicate_eq_lengthBytes (count : ℕ) {last : UInt8} (ends : last ≠ 255) :
    List.replicate count 255 ++ [last] = lengthBytes (15 + (255 * count + last.toNat)) := by
  have bound := last.toNat_lt
  have below : last.toNat < 255 := by
    refine Nat.lt_of_le_of_ne (by omega) fun same => ends ?_
    rw [← UInt8.ofNat_toNat (x := last), same]
    rfl
  rw [lengthBytes, if_neg (by omega), Nat.add_sub_cancel_left,
    show (255 * count + last.toNat) / 255 = count by omega,
    show (255 * count + last.toNat) % 255 = last.toNat by omega, UInt8.ofNat_toNat]

/-- A prefix of a length without its last byte. -/
theorem length_lt_of_replicate {count length : ℕ} {rest tail : List UInt8}
    (same : List.replicate count 255 ++ rest = lengthBytes length ++ tail) (long : 15 ≤ length) :
    tail.length < rest.length := by
  rw [lengthBytes, if_neg (Nat.not_lt.mpr long), List.append_assoc, List.singleton_append] at same
  have lengths := congrArg List.length same
  simp only [List.length_append, List.length_replicate, List.length_cons] at lengths
  by_contra few
  have more : (length - 15) / 255 < count := by omega
  have byte := congrArg (fun bytes : List UInt8 => bytes[(length - 15) / 255]?) same
  rw [List.getElem?_append_left (by rw [List.length_replicate]; exact more),
    List.getElem?_replicate_of_lt more, List.getElem?_append_right (by rw [List.length_replicate]),
    List.length_replicate, Nat.sub_self, List.getElem?_cons_zero] at byte
  exact ofNat_mod_ne _ (Option.some.inj byte).symm

/-- What is known of a length that has been read. -/
structure LengthKnown (call : Lz4Call) (memory : ByteStore) (slack ip : ℕ)
    (error : VariableLengthError) (more : UInt32) (next : ℕ) : Prop where
  after : ip < next
  inside : next ≤ call.iend
  ended : (error = .ok ∧ next + slack < call.iend) ∨
    (error = .loopError ∧ call.iend ≤ next + slack)
  exact_ : call.Short →
    memory.bytesAt ip (next - ip) = lengthBytes (15 + more.toNat) ∨
      (call.iend ≤ next + slack ∧ 255 ≤ more.toNat ∧
        memory.bytesAt ip (next - ip) = List.replicate (next - ip) 255)

/-- The length that is there is the one that has been read. -/
theorem LengthKnown.unique {slack ip next length : ℕ} {error : VariableLengthError} {more : UInt32}
    {tail : List UInt8} (known : LengthKnown call memory slack ip error more next)
    (short : call.Short) (long : 15 ≤ length) (enough : slack ≤ tail.length)
    (bytes : call.ahead memory ip = lengthBytes length ++ tail) :
    length = 15 + more.toNat ∧ call.ahead memory next = tail := by
  rw [Lz4Call.ahead_eq _ _ (Nat.le_of_lt known.after) known.inside] at bytes
  rcases known.exact_ short with read | ⟨close, -, ones⟩
  · rw [read] at bytes
    obtain ⟨lengths, tails⟩ := lengthBytes_injective (by omega) bytes
    exact ⟨lengths.symm, tails⟩
  · rw [ones] at bytes
    have less := length_lt_of_replicate bytes long
    rw [Lz4Call.ahead_length] at less
    omega

/-- A length is read from the input, and nothing is written. -/
theorem readVariableLengthLoop_known (apart : call.iend ≤ call.dst ∨ call.oend ≤ call.src)
    (contained : st.Contained call memory) (low : call.src ≤ st.ip) (inside : st.ip < call.iend)
    (slack : ℕ) :
    ∃ error more st', readVariableLengthLoop call.iend slack st 0 = (error, more, st') ∧
      st'.Contained call memory ∧ st'.memory = st.memory ∧ st'.op = st.op ∧
      LengthKnown call memory slack st.ip error more st'.ip := by
  obtain ⟨contained', count, last, read⟩ :=
    readVariableLengthLoop_read contained low inside slack 0
  obtain ⟨⟨error, more, st'⟩, same⟩ : ∃ result, result =
    readVariableLengthLoop call.iend slack st 0 := ⟨_, rfl⟩
  rw [← same] at read contained'
  have ip := read.ip
  dsimp only at ip
  have far : st.ip + count < call.iend := by
    rcases Nat.eq_zero_or_pos count with rfl | positive
    · exact inside
    · have later := read.inside positive
      omega
  have bytes : memory.bytesAt st.ip (count + 1) = List.replicate count 255 ++ [last] := by
    have input (index : ℕ) (le : index ≤ count) :
        memory (st.ip + index) = st.memory (st.ip + index) :=
      (contained.frame _ (by omega)).symm
    rw [ByteStore.bytesAt_add]
    congr 1
    · refine List.eq_replicate_iff.mpr ⟨ByteStore.bytesAt_length .., fun byte member => ?_⟩
      obtain ⟨index, below, rfl⟩ := List.mem_map.mp member
      rw [List.mem_range] at below
      rw [input index (Nat.le_of_lt below), read.ones index below]
    · rw [ByteStore.bytesAt_succ, input count (Nat.le_refl _), read.byte]
      rfl
  refine ⟨error, more, st', same.symm, contained', read.memory, read.op, ⟨by omega, by omega, ?_, ?_⟩⟩
  · exact read.ended.imp (fun ok => ⟨ok.1, ok.2.2⟩) id
  · intro short
    have bound := last.toNat_lt
    have size : call.iend - call.src ≤ 2 ^ 24 := by
      rw [Lz4Call.iend, Nat.add_sub_cancel_left]
      exact short
    have value : more.toNat = 255 * count + last.toNat := by
      rw [show more = _ from read.value, UInt32.zero_add, UInt32.toNat_ofNat',
        Nat.mod_eq_of_lt (by omega)]
    rw [ip, show st.ip + count + 1 - st.ip = count + 1 by omega, bytes, value]
    by_cases ends : last = 255
    · refine .inr ⟨?_, ?_, ?_⟩
      · rcases read.ended with ⟨-, other, -⟩ | ⟨-, close⟩
        · exact absurd ends other
        · exact ip ▸ close
      · rw [ends, show (255 : UInt8).toNat = 255 from rfl]
        omega
      · rw [ends, List.replicate_succ']
    · exact .inl (replicate_eq_lengthBytes count ends)

end Lengths

end ZLoader
