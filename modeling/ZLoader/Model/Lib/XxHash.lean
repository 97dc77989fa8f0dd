import ZLoader.Foundation.Stripes
import ZLoader.Model.Util.Buffer

/-! # xxHash

`xxh32` and `xxh64` of `lib/xxhash.c`, in one call and in a stream, and `buffer_xxh64` (`util.c`).
What is done to a state does not depend on its width, and stands in `StripeHash`; the words are read
in the byte order of the targets, which is little-endian.
-/

namespace ZLoader

/-! ## XXH32 -/

def prime32_1 : UInt32 := 2654435761
def prime32_2 : UInt32 := 2246822519
def prime32_3 : UInt32 := 3266489917
def prime32_4 : UInt32 := 668265263
def prime32_5 : UInt32 := 374761393

/-- `xxh_rotl32`. -/
def xxhRotl32 (x r : UInt32) : UInt32 := (x <<< r) ||| (x >>> (32 - r))

def xxh32Round (seed input : UInt32) : UInt32 := xxhRotl32 (seed + input * prime32_2) 13 * prime32_1

/-- `v1` to `v4`. -/
structure Xxh32Lanes where
  v1 : UInt32
  v2 : UInt32
  v3 : UInt32
  v4 : UInt32
deriving DecidableEq, Repr

def xxh32Seeded (seed : UInt32) : Xxh32Lanes :=
  ⟨seed + prime32_1 + prime32_2, seed + prime32_2, seed + 0, seed - prime32_1⟩

/-- The body of the loops over four words. -/
def xxh32Absorb (lanes : Xxh32Lanes) (store : ByteStore) (p : ℕ) : Xxh32Lanes :=
  ⟨xxh32Round lanes.v1 (store.u32 p), xxh32Round lanes.v2 (store.u32 (p + 4)),
    xxh32Round lanes.v3 (store.u32 (p + 8)), xxh32Round lanes.v4 (store.u32 (p + 12))⟩

theorem xxh32Absorb_congr (lanes : Xxh32Lanes) (first second : ByteStore) (i j : ℕ)
    (same : ∀ k < 16, first (i + k) = second (j + k)) :
    xxh32Absorb lanes first i = xxh32Absorb lanes second j := by
  have word (skip : ℕ) (inside : skip + 4 ≤ 16) :
      first.u32 (i + skip) = second.u32 (j + skip) := by
    apply ByteStore.u32_of_same
    intro k before
    rw [Nat.add_assoc, Nat.add_assoc]
    exact same _ (by omega)
  rw [xxh32Absorb, show first.u32 i = second.u32 j from word 0 (by omega), word 4 (by omega),
    word 8 (by omega), word 12 (by omega), xxh32Absorb]

def xxh32Stripes : StripeHash Xxh32Lanes where
  size := 16
  positive := Nat.succ_pos 15
  absorb := xxh32Absorb
  absorb_congr := xxh32Absorb_congr

@[simp] theorem xxh32Stripes_size : xxh32Stripes.size = 16 := rfl

def xxh32Merge (lanes : Xxh32Lanes) : UInt32 :=
  xxhRotl32 lanes.v1 1 + xxhRotl32 lanes.v2 7 + xxhRotl32 lanes.v3 12 + xxhRotl32 lanes.v4 18

/-- The loop over the words behind the stripes. -/
def xxh32Words : StripeHash UInt32 where
  size := 4
  positive := Nat.succ_pos 3
  absorb h32 store p := xxhRotl32 (h32 + store.u32 p * prime32_3) 17 * prime32_4
  absorb_congr _ _ _ _ _ same := by rw [ByteStore.u32_of_same same]

/-- The loop over the bytes behind the words. -/
def xxh32Bytes : StripeHash UInt32 where
  size := 1
  positive := Nat.succ_pos 0
  absorb h32 store p := xxhRotl32 (h32 + (store p).toUInt32 * prime32_5) 11 * prime32_1
  absorb_congr _ _ _ i j same := by
    rw [← Nat.add_zero i, ← Nat.add_zero j, same 0 Nat.one_pos]

def xxh32Avalanche (h32 : UInt32) : UInt32 :=
  let h32 := (h32 ^^^ (h32 >>> 15)) * prime32_2
  let h32 := (h32 ^^^ (h32 >>> 13)) * prime32_3
  h32 ^^^ (h32 >>> 16)

/-- The end of `xxh32`, which `xxh32_digest` repeats. -/
def xxh32Finish (store : ByteStore) (bEnd : ℕ) (h32 : UInt32) (p : ℕ) : UInt32 :=
  let (h32, p) := xxh32Words.absorbWhile store bEnd h32 p
  let (h32, _) := xxh32Bytes.absorbWhile store bEnd h32 p
  xxh32Avalanche h32

def xxh32 (input : ByteStore) (len : ℕ) (seed : UInt32) : UInt32 :=
  let (h32, p) :=
    if 16 ≤ len then
      let (lanes, p) := xxh32Stripes.absorbLoop input (len - 16) (xxh32Seeded seed) 0
      (xxh32Merge lanes, p)
    else (seed + prime32_5, 0)
  xxh32Finish input len (h32 + UInt32.ofNat len) p

/-- `struct xxh32_state`; `mem32` and `memsize` are those of the stripes. -/
structure Xxh32State where
  totalLen32 : UInt32
  largeLen : Bool
  stripes : StripeState Xxh32Lanes

def xxh32Reset (seed : UInt32) : Xxh32State := ⟨0, false, ⟨xxh32Seeded seed, fun _ => 0, 0⟩⟩

/-- `xxh32_update` of an input that is not NULL. -/
def xxh32Update (state : Xxh32State) (input : ByteStore) (len : ℕ) : Xxh32State :=
  let totalLen32 := state.totalLen32 + UInt32.ofNat len
  { totalLen32 := totalLen32
    largeLen := state.largeLen || (decide (16 ≤ len) || decide (16 ≤ totalLen32))
    stripes := xxh32Stripes.update input len state.stripes }

def xxh32Digest (state : Xxh32State) : UInt32 :=
  let h32 :=
    if state.largeLen then xxh32Merge state.stripes.lanes else state.stripes.lanes.v3 + prime32_5
  xxh32Finish state.stripes.mem state.stripes.memsize (h32 + state.totalLen32) 0

/-! ## XXH64 -/

def prime64_1 : UInt64 := 11400714785074694791
def prime64_2 : UInt64 := 14029467366897019727
def prime64_3 : UInt64 := 1609587929392839161
def prime64_4 : UInt64 := 9650029242287828579
def prime64_5 : UInt64 := 2870177450012600261

/-- `xxh_rotl64`. -/
def xxhRotl64 (x r : UInt64) : UInt64 := (x <<< r) ||| (x >>> (64 - r))

def xxh64Round (acc input : UInt64) : UInt64 := xxhRotl64 (acc + input * prime64_2) 31 * prime64_1

def xxh64MergeRound (acc val : UInt64) : UInt64 :=
  (acc ^^^ xxh64Round 0 val) * prime64_1 + prime64_4

/-- `v1` to `v4`. -/
structure Xxh64Lanes where
  v1 : UInt64
  v2 : UInt64
  v3 : UInt64
  v4 : UInt64
deriving DecidableEq, Repr

def xxh64Seeded (seed : UInt64) : Xxh64Lanes :=
  ⟨seed + prime64_1 + prime64_2, seed + prime64_2, seed + 0, seed - prime64_1⟩

/-- The body of the loops over four words. -/
def xxh64Absorb (lanes : Xxh64Lanes) (store : ByteStore) (p : ℕ) : Xxh64Lanes :=
  ⟨xxh64Round lanes.v1 (store.u64 p), xxh64Round lanes.v2 (store.u64 (p + 8)),
    xxh64Round lanes.v3 (store.u64 (p + 16)), xxh64Round lanes.v4 (store.u64 (p + 24))⟩

theorem xxh64Absorb_congr (lanes : Xxh64Lanes) (first second : ByteStore) (i j : ℕ)
    (same : ∀ k < 32, first (i + k) = second (j + k)) :
    xxh64Absorb lanes first i = xxh64Absorb lanes second j := by
  have word (skip : ℕ) (inside : skip + 8 ≤ 32) :
      first.u64 (i + skip) = second.u64 (j + skip) := by
    apply ByteStore.u64_of_same
    intro k before
    rw [Nat.add_assoc, Nat.add_assoc]
    exact same _ (by omega)
  rw [xxh64Absorb, show first.u64 i = second.u64 j from word 0 (by omega), word 8 (by omega),
    word 16 (by omega), word 24 (by omega), xxh64Absorb]

def xxh64Stripes : StripeHash Xxh64Lanes where
  size := 32
  positive := Nat.succ_pos 31
  absorb := xxh64Absorb
  absorb_congr := xxh64Absorb_congr

@[simp] theorem xxh64Stripes_size : xxh64Stripes.size = 32 := rfl

def xxh64Merge (lanes : Xxh64Lanes) : UInt64 :=
  let h64 := xxhRotl64 lanes.v1 1 + xxhRotl64 lanes.v2 7 + xxhRotl64 lanes.v3 12 +
    xxhRotl64 lanes.v4 18
  let h64 := xxh64MergeRound h64 lanes.v1
  let h64 := xxh64MergeRound h64 lanes.v2
  let h64 := xxh64MergeRound h64 lanes.v3
  xxh64MergeRound h64 lanes.v4

/-- The loop over the words behind the stripes. -/
def xxh64Words : StripeHash UInt64 where
  size := 8
  positive := Nat.succ_pos 7
  absorb h64 store p :=
    xxhRotl64 (h64 ^^^ xxh64Round 0 (store.u64 p)) 27 * prime64_1 + prime64_4
  absorb_congr _ _ _ _ _ same := by rw [ByteStore.u64_of_same same]

/-- The half word behind them. -/
def xxh64HalfWord (store : ByteStore) (bEnd : ℕ) (h64 : UInt64) (p : ℕ) : UInt64 × ℕ :=
  if p + 4 ≤ bEnd then
    (xxhRotl64 (h64 ^^^ ((store.u32 p).toUInt64 * prime64_1)) 23 * prime64_2 + prime64_3, p + 4)
  else (h64, p)

/-- The loop over the bytes behind it. -/
def xxh64Bytes : StripeHash UInt64 where
  size := 1
  positive := Nat.succ_pos 0
  absorb h64 store p := xxhRotl64 (h64 ^^^ ((store p).toUInt64 * prime64_5)) 11 * prime64_1
  absorb_congr _ _ _ i j same := by
    rw [← Nat.add_zero i, ← Nat.add_zero j, same 0 Nat.one_pos]

def xxh64Avalanche (h64 : UInt64) : UInt64 :=
  let h64 := (h64 ^^^ (h64 >>> 33)) * prime64_2
  let h64 := (h64 ^^^ (h64 >>> 29)) * prime64_3
  h64 ^^^ (h64 >>> 32)

/-- The end of `xxh64`, which `xxh64_digest` repeats. -/
def xxh64Finish (store : ByteStore) (bEnd : ℕ) (h64 : UInt64) (p : ℕ) : UInt64 :=
  let (h64, p) := xxh64Words.absorbWhile store bEnd h64 p
  let (h64, p) := xxh64HalfWord store bEnd h64 p
  let (h64, _) := xxh64Bytes.absorbWhile store bEnd h64 p
  xxh64Avalanche h64

def xxh64 (input : ByteStore) (len : ℕ) (seed : UInt64) : UInt64 :=
  let (h64, p) :=
    if 32 ≤ len then
      let (lanes, p) := xxh64Stripes.absorbLoop input (len - 32) (xxh64Seeded seed) 0
      (xxh64Merge lanes, p)
    else (seed + prime64_5, 0)
  xxh64Finish input len (h64 + UInt64.ofNat len) p

/-- `struct xxh64_state`; `mem64` and `memsize` are those of the stripes. -/
structure Xxh64State where
  totalLen : UInt64
  stripes : StripeState Xxh64Lanes

def xxh64Reset (seed : UInt64) : Xxh64State := ⟨0, ⟨xxh64Seeded seed, fun _ => 0, 0⟩⟩

/-- `xxh64_update` of an input that is not NULL. -/
def xxh64Update (state : Xxh64State) (input : ByteStore) (len : ℕ) : Xxh64State :=
  ⟨state.totalLen + UInt64.ofNat len, xxh64Stripes.update input len state.stripes⟩

def xxh64Digest (state : Xxh64State) : UInt64 :=
  let h64 :=
    if 32 ≤ state.totalLen then xxh64Merge state.stripes.lanes
    else state.stripes.lanes.v3 + prime64_5
  xxh64Finish state.stripes.mem state.stripes.memsize (h64 + state.totalLen) 0

/-- `buffer_xxh64` on a buffer in memory; a NULL input is the error of `xxh64_update`. -/
def bufferXxh64 (build : Build) (memory : ByteStore) (buffer : SimpleBuffer) : Outcome UInt64 :=
  if buffer.buffer == 0 then .ok (0 - 1)
  else
    (bufferPos build buffer).bind fun input =>
      (bufferLen build buffer).bind fun len =>
        if input == 0 then .ok (0 - 1)
        else
          .ok (xxh64Digest (xxh64Update (xxh64Reset 0) (fun index => memory (input.toNat + index))
            len.toNat))

end ZLoader
