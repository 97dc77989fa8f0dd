import ZLoader.Model.Lib.XxHash

/-! # A hash does not see where its input is cut

Whatever the chunks are that `xxh32_update` and `xxh64_update` get, the digest is the hash of all
their bytes in one call. The lanes agree by `StripeHash.absorbed_stream`; what is behind the stripes
is read from the buffer of the state in one case and from the input in the other.
-/

namespace ZLoader

section Finish

variable {first second : ByteStore} {i j rest : ℕ}
  (same : ∀ k < rest, first (i + k) = second (j + k))

include same

theorem xxh32Finish_same (h32 : UInt32) :
    xxh32Finish first (i + rest) h32 i = xxh32Finish second (j + rest) h32 j := by
  obtain ⟨words, used, inside, left, right⟩ := xxh32Words.absorbWhile_same same h32
  obtain ⟨left_, rfl⟩ := Nat.exists_eq_add_of_le inside
  have behind : ∀ k < left_, first (i + used + k) = second (j + used + k) := fun k bound => by
    rw [Nat.add_assoc, Nat.add_assoc]
    exact same _ (by omega)
  obtain ⟨bytes, _, _, first_, second_⟩ := xxh32Bytes.absorbWhile_same behind words
  rw [Nat.add_assoc] at first_ second_
  rw [xxh32Finish, xxh32Finish, left, right]
  dsimp only
  rw [first_, second_]

theorem xxh64HalfWord_same (h64 : UInt64) :
    ∃ h64', ∃ count ≤ rest, xxh64HalfWord first (i + rest) h64 i = (h64', i + count) ∧
      xxh64HalfWord second (j + rest) h64 j = (h64', j + count) := by
  rw [xxh64HalfWord, xxh64HalfWord]
  rcases Nat.lt_or_ge rest 4 with short | enough
  · rw [if_neg (by omega), if_neg (by omega)]
    exact ⟨_, 0, Nat.zero_le _, rfl, rfl⟩
  · rw [if_pos (by omega), if_pos (by omega),
      ByteStore.u32_of_same fun k inside => same k (by omega)]
    exact ⟨_, 4, enough, rfl, rfl⟩

theorem xxh64Finish_same (h64 : UInt64) :
    xxh64Finish first (i + rest) h64 i = xxh64Finish second (j + rest) h64 j := by
  obtain ⟨words, used, inside, left, right⟩ := xxh64Words.absorbWhile_same same h64
  obtain ⟨rest, rfl⟩ := Nat.exists_eq_add_of_le inside
  have behind : ∀ k < rest, first (i + used + k) = second (j + used + k) := fun k bound => by
    rw [Nat.add_assoc, Nat.add_assoc]
    exact same _ (by omega)
  obtain ⟨half, more, inside_, left_, right_⟩ := xxh64HalfWord_same behind words
  obtain ⟨rest, rfl⟩ := Nat.exists_eq_add_of_le inside_
  have behind_ : ∀ k < rest, first (i + used + more + k) = second (j + used + more + k) :=
    fun k bound => by
      rw [Nat.add_assoc _ more, Nat.add_assoc _ more]
      exact behind _ (by omega)
  obtain ⟨bytes, _, _, first_, second_⟩ := xxh64Bytes.absorbWhile_same behind_ half
  rw [Nat.add_assoc _ more, Nat.add_assoc _ used] at first_ second_
  rw [Nat.add_assoc _ used] at left_ right_
  rw [xxh64Finish, xxh64Finish, left, right]
  dsimp only
  rw [left_, right_]
  dsimp only
  rw [first_, second_]

end Finish

/-! ## XXH32 -/

/-- `xxh32_update` on every chunk. -/
def xxh32Stream (state : Xxh32State) (chunks : List (ByteStore × ℕ)) : Xxh32State :=
  chunks.foldl (fun state chunk => xxh32Update state chunk.1 chunk.2) state

/-- The counters after so many bytes: the total wraps around, the flag does not. -/
structure Xxh32Counts (n : ℕ) (state : Xxh32State) : Prop where
  total : state.totalLen32 = UInt32.ofNat n
  large : state.largeLen = decide (16 ≤ n)

theorem Xxh32Counts.update {n : ℕ} {state : Xxh32State} (counts : Xxh32Counts n state)
    (input : ByteStore) (len : ℕ) : Xxh32Counts (n + len) (xxh32Update state input len) where
  total := by rw [xxh32Update, counts.total, UInt32.ofNat_add]
  large := by
    have total : (UInt32.ofNat n + UInt32.ofNat len).toNat = (n + len) % 2 ^ 32 := by
      rw [← UInt32.ofNat_add, UInt32.toNat_ofNat']
    simp only [xxh32Update, counts.total, counts.large, UInt32.le_iff_toNat_le, total]
    rcases Nat.lt_or_ge (n + len) 16 with small | large
    · -- nothing has wrapped around yet
      rw [Nat.mod_eq_of_lt (by omega)]
      simp [show ¬16 ≤ n by omega, show ¬16 ≤ len by omega, show ¬16 ≤ n + len by omega]
    · by_cases old : 16 ≤ n
      · simp [old, large]
      · by_cases new : 16 ≤ len
        · simp [new, large]
        · rw [Nat.mod_eq_of_lt (by omega)]
          simp [old, new, large]

/-- Some bytes have been taken into a state. -/
structure Xxh32Absorbed (seed : UInt32) (bytes : List UInt8) (state : Xxh32State) : Prop where
  counts : Xxh32Counts bytes.length state
  absorbed : xxh32Stripes.Absorbed (xxh32Seeded seed) (ByteStore.ofList bytes fun _ => 0)
    bytes.length state.stripes

theorem xxh32Absorbed_reset (seed : UInt32) : Xxh32Absorbed seed [] (xxh32Reset seed) :=
  ⟨⟨rfl, rfl⟩, StripeHash.absorbed_start ..⟩

theorem Xxh32Absorbed.update {seed : UInt32} {bytes : List UInt8} {state : Xxh32State}
    (absorbed : Xxh32Absorbed seed bytes state) (input : ByteStore) (len : ℕ) :
    Xxh32Absorbed seed (bytes ++ input.bytesAt 0 len) (xxh32Update state input len) := by
  have counts := absorbed.counts.update input len
  have stripes := absorbed.absorbed.append input len
  rw [← ByteStore.bytesAt_length input 0 len, ← List.length_append] at counts stripes
  rw [ByteStore.bytesAt_length] at counts stripes
  exact ⟨counts, stripes⟩

theorem Xxh32Absorbed.stream {seed : UInt32} {bytes : List UInt8} {state : Xxh32State}
    (absorbed : Xxh32Absorbed seed bytes state) (chunks : List (ByteStore × ℕ)) :
    Xxh32Absorbed seed (bytes ++ chunkBytes chunks) (xxh32Stream state chunks) := by
  induction chunks generalizing bytes state with
  | nil => rwa [chunkBytes, List.flatMap_nil, List.append_nil]
  | cons chunk rest ih =>
    have later := ih (absorbed.update chunk.1 chunk.2)
    rwa [List.append_assoc] at later

/-- One call takes all the stripes, and finishes behind them. -/
theorem xxh32_eq (input : ByteStore) (len : ℕ) (seed : UInt32) :
    xxh32 input len seed =
      xxh32Finish input len
        ((if 16 ≤ len then xxh32Merge (xxh32Stripes.absorbAll input (len / 16) 0 (xxh32Seeded seed))
          else seed + prime32_5) + UInt32.ofNat len) (len / 16 * 16) := by
  rw [xxh32]
  split_ifs with large
  · have lanes := xxh32Stripes.absorbLoop_eq input (p := 0)
      (Nat.le_trans (Nat.le_of_eq (Nat.zero_add _)) large) (xxh32Seeded seed)
    rw [Nat.sub_zero, Nat.zero_add, xxh32Stripes_size] at lanes
    rw [lanes]
  · rw [Nat.div_eq_of_lt (Nat.not_le.mp large), Nat.zero_mul]

/-- The digest is the hash of the bytes taken in. -/
theorem Xxh32Absorbed.digest {seed : UInt32} {bytes : List UInt8} {state : Xxh32State}
    (taken : Xxh32Absorbed seed bytes state) (behind : ByteStore) :
    xxh32Digest state = xxh32 (ByteStore.ofList bytes behind) bytes.length seed := by
  have counts := taken.counts
  have absorbed := taken.absorbed.congr (ByteStore.ofList bytes behind) fun k inside => by
    rw [ByteStore.ofList_of_lt _ behind inside, ByteStore.ofList_of_lt _ _ inside]
  have short : state.largeLen = false → state.stripes.lanes = xxh32Seeded seed := fun short => by
    rw [counts.large, decide_eq_false_iff_not] at short
    rw [absorbed.lanes, xxh32Stripes_size, Nat.div_eq_of_lt (Nat.not_le.mp short),
      StripeHash.absorbAll]
  rw [xxh32Digest, absorbed.memsize, xxh32_eq]
  have finish := xxh32Finish_same absorbed.behind
  rw [Nat.zero_add, Nat.div_add_mod'] at finish
  rw [finish, counts.total]
  congr 2
  cases large : state.largeLen with
  | true =>
    rw [counts.large, decide_eq_true_eq] at large
    rw [if_pos rfl, if_pos large, absorbed.lanes]
    rfl
  | false =>
    have lanes := short large
    rw [counts.large, decide_eq_false_iff_not] at large
    rw [if_neg Bool.false_ne_true, if_neg large, lanes, xxh32Seeded, UInt32.add_zero]

/-- The digest of a stream is the hash of its bytes, however they were cut. -/
theorem xxh32Digest_stream (seed : UInt32) (chunks : List (ByteStore × ℕ)) (behind : ByteStore) :
    xxh32Digest (xxh32Stream (xxh32Reset seed) chunks) =
      xxh32 (ByteStore.ofList (chunkBytes chunks) behind) (chunkBytes chunks).length seed :=
  ((xxh32Absorbed_reset seed).stream chunks).digest behind

/-! ## XXH64 -/

/-- `xxh64_update` on every chunk. -/
def xxh64Stream (state : Xxh64State) (chunks : List (ByteStore × ℕ)) : Xxh64State :=
  chunks.foldl (fun state chunk => xxh64Update state chunk.1 chunk.2) state

/-- Some bytes have been taken into a state. -/
structure Xxh64Absorbed (seed : UInt64) (bytes : List UInt8) (state : Xxh64State) : Prop where
  total : state.totalLen = UInt64.ofNat bytes.length
  absorbed : xxh64Stripes.Absorbed (xxh64Seeded seed) (ByteStore.ofList bytes fun _ => 0)
    bytes.length state.stripes

theorem xxh64Absorbed_reset (seed : UInt64) : Xxh64Absorbed seed [] (xxh64Reset seed) :=
  ⟨rfl, StripeHash.absorbed_start ..⟩

theorem Xxh64Absorbed.update {seed : UInt64} {bytes : List UInt8} {state : Xxh64State}
    (absorbed : Xxh64Absorbed seed bytes state) (input : ByteStore) (len : ℕ) :
    Xxh64Absorbed seed (bytes ++ input.bytesAt 0 len) (xxh64Update state input len) := by
  have length : (bytes ++ input.bytesAt 0 len).length = bytes.length + len := by
    rw [List.length_append, ByteStore.bytesAt_length]
  refine ⟨?_, ?_⟩
  · rw [xxh64Update, absorbed.total, length, UInt64.ofNat_add]
  · rw [length]
    exact absorbed.absorbed.append input len

theorem Xxh64Absorbed.stream {seed : UInt64} {bytes : List UInt8} {state : Xxh64State}
    (absorbed : Xxh64Absorbed seed bytes state) (chunks : List (ByteStore × ℕ)) :
    Xxh64Absorbed seed (bytes ++ chunkBytes chunks) (xxh64Stream state chunks) := by
  induction chunks generalizing bytes state with
  | nil => rwa [chunkBytes, List.flatMap_nil, List.append_nil]
  | cons chunk rest ih =>
    have later := ih (absorbed.update chunk.1 chunk.2)
    rwa [List.append_assoc] at later

/-- One call takes all the stripes, and finishes behind them. -/
theorem xxh64_eq (input : ByteStore) (len : ℕ) (seed : UInt64) :
    xxh64 input len seed =
      xxh64Finish input len
        ((if 32 ≤ len then xxh64Merge (xxh64Stripes.absorbAll input (len / 32) 0 (xxh64Seeded seed))
          else seed + prime64_5) + UInt64.ofNat len) (len / 32 * 32) := by
  rw [xxh64]
  split_ifs with large
  · have lanes := xxh64Stripes.absorbLoop_eq input (p := 0)
      (Nat.le_trans (Nat.le_of_eq (Nat.zero_add _)) large) (xxh64Seeded seed)
    rw [Nat.sub_zero, Nat.zero_add, xxh64Stripes_size] at lanes
    rw [lanes]
  · rw [Nat.div_eq_of_lt (Nat.not_le.mp large), Nat.zero_mul]

/-- The digest is the hash of the bytes taken in, as long as their number fits the total. -/
theorem Xxh64Absorbed.digest {seed : UInt64} {bytes : List UInt8} {state : Xxh64State}
    (taken : Xxh64Absorbed seed bytes state) (behind : ByteStore) (fits : bytes.length < 2 ^ 64) :
    xxh64Digest state = xxh64 (ByteStore.ofList bytes behind) bytes.length seed := by
  have total := taken.total
  have large : 32 ≤ state.totalLen ↔ 32 ≤ bytes.length := by
    rw [total, UInt64.le_iff_toNat_le, UInt64.toNat_ofNat_of_lt' fits]
    rfl
  have absorbed := taken.absorbed.congr (ByteStore.ofList bytes behind) fun k inside => by
    rw [ByteStore.ofList_of_lt _ behind inside, ByteStore.ofList_of_lt _ _ inside]
  rw [xxh64Digest, absorbed.memsize, xxh64_eq]
  have finish := xxh64Finish_same absorbed.behind
  rw [Nat.zero_add, Nat.div_add_mod'] at finish
  rw [finish, total, ← total]
  congr 2
  split_ifs with many enough enough
  · rw [absorbed.lanes]
    rfl
  · exact absurd (large.mp many) enough
  · exact absurd (large.mpr enough) many
  · rw [absorbed.lanes, xxh64Stripes_size, Nat.div_eq_of_lt (Nat.not_le.mp enough),
      StripeHash.absorbAll, xxh64Seeded, UInt64.add_zero]

/-- The digest of a stream is the hash of its bytes, however they were cut, as long as their number
fits the total. -/
theorem xxh64Digest_stream (seed : UInt64) (chunks : List (ByteStore × ℕ)) (behind : ByteStore)
    (fits : (chunkBytes chunks).length < 2 ^ 64) :
    xxh64Digest (xxh64Stream (xxh64Reset seed) chunks) =
      xxh64 (ByteStore.ofList (chunkBytes chunks) behind) (chunkBytes chunks).length seed :=
  ((xxh64Absorbed_reset seed).stream chunks).digest behind fits

theorem xxh64Digest_stream_cut :
    xxh64Digest (xxh64Stream (xxh64Reset 7) [(fun _ => 1, 30), (fun _ => 2, 0), (fun _ => 3, 40)]) =
      xxh64 (ByteStore.ofList (chunkBytes [(fun _ => 1, 30), (fun _ => 2, 0), (fun _ => 3, 40)])
        fun _ => 0) 70 7 :=
  xxh64Digest_stream 7 [(fun _ => 1, 30), (fun _ => 2, 0), (fun _ => 3, 40)] (fun _ => 0)
    (by decide)

/-- `buffer_xxh64` is the hash of what has not been read of the buffer. -/
theorem bufferXxh64_eq (build : Build) (memory : ByteStore) {buffer : SimpleBuffer}
    (nonnull : buffer.buffer ≠ 0) (room : buffer.pos < buffer.allocated)
    (more : buffer.pos < buffer.length) (lies : buffer.buffer + buffer.pos ≠ 0) :
    bufferXxh64 build memory buffer =
      .ok (xxh64 (memory.from_ (buffer.buffer + buffer.pos).toNat)
        (buffer.length - buffer.pos).toNat 0) := by
  obtain ⟨input, cursor⟩ : ∃ input, input = memory.from_ (buffer.buffer + buffer.pos).toNat :=
    ⟨_, rfl⟩
  obtain ⟨len, rest⟩ : ∃ len, len = (buffer.length - buffer.pos).toNat := ⟨_, rfl⟩
  have length := ByteStore.bytesAt_length input 0 len
  have taken := (xxh64Absorbed_reset 0).update input len
  rw [List.nil_append] at taken
  have digest := taken.digest (input.from_ len) (by
    rw [length, rest]
    exact UInt64.toNat_lt _)
  rw [length, ByteStore.ofList_bytesAt] at digest
  rw [bufferXxh64, bufferPos_of_lt build nonnull room, bufferLen_of_lt build nonnull more,
    if_neg (by simpa using nonnull), Outcome.bind, Outcome.bind, if_neg (by simpa using lies),
    ← cursor, ← rest, ← digest, cursor]
  rfl

end ZLoader
