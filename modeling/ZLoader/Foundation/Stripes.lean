import ZLoader.Foundation.ByteList

/-! # Hashing in stripes

A hash that takes its input in stripes of one size keeps what does not fill a stripe until more
input comes. Wherever the input is cut, the lanes have taken in the whole stripes of all the input
so far, and the buffer holds what is behind them.
-/

namespace ZLoader

/-- How a stripe is taken into the lanes of a hash: only its own bytes matter. -/
structure StripeHash (A : Type) where
  size : ℕ
  positive : 0 < size
  absorb : A → ByteStore → ℕ → A
  absorb_congr : ∀ (lanes : A) (first second : ByteStore) (i j : ℕ),
    (∀ k < size, first (i + k) = second (j + k)) → absorb lanes first i = absorb lanes second j

/-- The lanes, and the bytes that have not filled a stripe. -/
structure StripeState (A : Type) where
  lanes : A
  mem : ByteStore
  memsize : ℕ

/-- The bytes of the chunks, one chunk after another. -/
def chunkBytes (chunks : List (ByteStore × ℕ)) : List UInt8 :=
  chunks.flatMap fun chunk => chunk.1.bytesAt 0 chunk.2

namespace StripeHash

variable {A : Type} (hash : StripeHash A)

/-- So many stripes, one after another from an offset on. -/
def absorbAll (store : ByteStore) : ℕ → ℕ → A → A
  | 0, _, lanes => lanes
  | count + 1, offset, lanes =>
      absorbAll store count (offset + hash.size) (hash.absorb lanes store offset)

/-- A stripe, and further ones up to a limit: the lanes, and the offset behind the last one. -/
def absorbLoop (store : ByteStore) (limit : ℕ) (lanes : A) (p : ℕ) : A × ℕ :=
  let lanes := hash.absorb lanes store p
  let p := p + hash.size
  if p ≤ limit then absorbLoop store limit lanes p else (lanes, p)
termination_by limit + 1 - p
decreasing_by
  have positive := hash.positive
  omega

/-- The stripes from an offset on that end in front of `bEnd`. -/
def absorbWhile (store : ByteStore) (bEnd : ℕ) (lanes : A) (p : ℕ) : A × ℕ :=
  if p + hash.size ≤ bEnd then
    absorbWhile store bEnd (hash.absorb lanes store p) (p + hash.size)
  else (lanes, p)
termination_by bEnd - p
decreasing_by
  have positive := hash.positive
  omega

/-- Fill up the buffer and take it in, if there is anything in it: the state, and the bytes used. -/
def fillBuffer (input : ByteStore) (st : StripeState A) : StripeState A × ℕ :=
  if st.memsize != 0 then
    let mem := (Patch.copy st.memsize (hash.size - st.memsize) input 0).apply st.mem
    (⟨hash.absorb st.lanes mem 0, mem, 0⟩, hash.size - st.memsize)
  else (st, 0)

/-- Take the stripes from an offset on, and keep the bytes behind them. -/
def takeStripes (input : ByteStore) (len : ℕ) (st : StripeState A) (p : ℕ) : StripeState A :=
  let (lanes, p) :=
    if p + hash.size ≤ len then hash.absorbLoop input (len - hash.size) st.lanes p
    else (st.lanes, p)
  if p < len then ⟨lanes, (Patch.copy 0 (len - p) input p).apply st.mem, len - p⟩
  else { st with lanes := lanes }

/-- Take in more input. -/
def update (input : ByteStore) (len : ℕ) (st : StripeState A) : StripeState A :=
  if st.memsize + len < hash.size then
    { st with
      mem := (Patch.copy st.memsize len input 0).apply st.mem
      memsize := st.memsize + len }
  else
    let (st, p) := hash.fillBuffer input st
    hash.takeStripes input len st p

variable {hash} {data input : ByteStore} {start lanes : A} {st : StripeState A} {n len : ℕ}

theorem absorbAll_add (store : ByteStore) (first second offset : ℕ) (lanes : A) :
    hash.absorbAll store (first + second) offset lanes =
      hash.absorbAll store second (offset + first * hash.size)
        (hash.absorbAll store first offset lanes) := by
  induction first generalizing offset lanes with
  | zero => simp [absorbAll]
  | succ first ih =>
    rw [Nat.succ_add, absorbAll, ih, absorbAll, Nat.succ_mul, Nat.add_assoc,
      Nat.add_comm hash.size]

theorem absorbAll_succ (store : ByteStore) (count : ℕ) (lanes : A) :
    hash.absorbAll store (count + 1) 0 lanes =
      hash.absorb (hash.absorbAll store count 0 lanes) store (count * hash.size) := by
  rw [absorbAll_add, Nat.zero_add]
  rfl

theorem absorbAll_congr {first second : ByteStore} {count i j : ℕ}
    (same : ∀ k < count * hash.size, first (i + k) = second (j + k)) (lanes : A) :
    hash.absorbAll first count i lanes = hash.absorbAll second count j lanes := by
  induction count generalizing i j lanes with
  | zero => rfl
  | succ count ih =>
    rw [Nat.succ_mul] at same
    rw [absorbAll, absorbAll, hash.absorb_congr lanes first second i j fun k inside =>
      same k (by omega)]
    apply ih
    intro k inside
    have later := same (hash.size + k) (by omega)
    rwa [← Nat.add_assoc, ← Nat.add_assoc] at later

/-- The loop takes all the stripes that there are. -/
theorem absorbLoop_eq (store : ByteStore) {p bEnd : ℕ} (room : p + hash.size ≤ bEnd) (lanes : A) :
    hash.absorbLoop store (bEnd - hash.size) lanes p =
      (hash.absorbAll store ((bEnd - p) / hash.size) p lanes,
        p + (bEnd - p) / hash.size * hash.size) := by
  have positive := hash.positive
  have count : (bEnd - p) / hash.size = (bEnd - (p + hash.size)) / hash.size + 1 := by
    rw [← Nat.sub_sub, Nat.div_eq_sub_div positive (by omega)]
  rw [absorbLoop, count, absorbAll, Nat.succ_mul]
  split_ifs with more
  · rw [absorbLoop_eq store (by omega)]
    congr 1
    omega
  · rw [Nat.div_eq_of_lt (by omega), absorbAll, Nat.zero_mul, Nat.zero_add]
termination_by bEnd - p

theorem absorbWhile_eq (store : ByteStore) (bEnd : ℕ) (lanes : A) (p : ℕ) :
    hash.absorbWhile store bEnd lanes p =
      (hash.absorbAll store ((bEnd - p) / hash.size) p lanes,
        p + (bEnd - p) / hash.size * hash.size) := by
  have positive := hash.positive
  rw [absorbWhile]
  split_ifs with more
  · have count : (bEnd - p) / hash.size = (bEnd - (p + hash.size)) / hash.size + 1 := by
      rw [← Nat.sub_sub, Nat.div_eq_sub_div positive (by omega)]
    rw [absorbWhile_eq, count, absorbAll, Nat.succ_mul]
    congr 1
    omega
  · rw [Nat.div_eq_of_lt (by omega), absorbAll, Nat.zero_mul, Nat.add_zero]
termination_by bEnd - p

/-- Where the bytes lie does not matter. -/
theorem absorbWhile_same {first second : ByteStore} {i j rest : ℕ}
    (same : ∀ k < rest, first (i + k) = second (j + k)) (lanes : A) :
    ∃ lanes', ∃ count ≤ rest, hash.absorbWhile first (i + rest) lanes i = (lanes', i + count) ∧
      hash.absorbWhile second (j + rest) lanes j = (lanes', j + count) := by
  have whole := Nat.div_mul_le_self rest hash.size
  refine ⟨hash.absorbAll second (rest / hash.size) j lanes, _, whole, ?_, ?_⟩
  · rw [absorbWhile_eq, Nat.add_sub_cancel_left, absorbAll_congr fun k inside =>
      same k (Nat.lt_of_lt_of_le inside whole)]
  · rw [absorbWhile_eq, Nat.add_sub_cancel_left]

/-- So much of the data has been taken in. -/
structure Absorbed (hash : StripeHash A) (start : A) (data : ByteStore) (n : ℕ)
    (st : StripeState A) : Prop where
  lanes : st.lanes = hash.absorbAll data (n / hash.size) 0 start
  memsize : st.memsize = n % hash.size
  pending : ∀ k < n % hash.size, st.mem k = data (n / hash.size * hash.size + k)

theorem absorbed_start (start : A) (data mem : ByteStore) :
    hash.Absorbed start data 0 ⟨start, mem, 0⟩ where
  lanes := by rw [Nat.zero_div]; rfl
  memsize := (Nat.zero_mod _).symm
  pending := fun k before => by
    rw [Nat.zero_mod] at before
    exact absurd before (Nat.not_lt_zero k)

theorem Absorbed.memsize_lt (absorbed : hash.Absorbed start data n st) : st.memsize < hash.size :=
  absorbed.memsize ▸ Nat.mod_lt n hash.positive

/-- What is behind the stripes stands at the start of the buffer. -/
theorem Absorbed.behind (absorbed : hash.Absorbed start data n st) :
    ∀ k < n % hash.size, st.mem (0 + k) = data (n / hash.size * hash.size + k) := fun k inside => by
  rw [Nat.zero_add, absorbed.pending k inside]

/-- A state with the stripes in front of an end taken in, and what is behind them in the buffer. -/
theorem absorbed_of_rest {count rest : ℕ} {mem : ByteStore}
    (total : n = count * hash.size + rest) (small : rest < hash.size)
    (absorbed : lanes = hash.absorbAll data count 0 start)
    (kept : ∀ k < rest, mem k = data (count * hash.size + k)) :
    hash.Absorbed start data n ⟨lanes, mem, rest⟩ := by
  rw [Nat.mul_comm] at total
  have quotient : n / hash.size = count := by
    rw [total, Nat.mul_add_div hash.positive, Nat.div_eq_of_lt small, Nat.add_zero]
  have remainder : n % hash.size = rest := by
    rw [total, Nat.mul_add_mod, Nat.mod_eq_of_lt small]
  refine ⟨?_, remainder.symm, ?_⟩
  · rw [quotient]
    exact absorbed
  · rw [remainder, quotient]
    exact kept

/-- Input behind what is in the buffer. -/
theorem Absorbed.mem_copy (absorbed : hash.Absorbed start data n st)
    (same : ∀ k < len, input k = data (n + k)) {count k : ℕ} (some_ : count ≤ len)
    (inside : k < st.memsize + count) :
    (Patch.copy st.memsize count input 0).apply st.mem k =
      data (n / hash.size * hash.size + k) := by
  rcases Nat.lt_or_ge k st.memsize with old | new
  · rw [Patch.apply_copy_outside _ _ (.inl old)]
    exact absorbed.pending k (absorbed.memsize ▸ old)
  · obtain ⟨index, rfl⟩ := Nat.exists_eq_add_of_le new
    have split : n / hash.size * hash.size + st.memsize = n := by
      rw [absorbed.memsize]
      exact Nat.div_add_mod' ..
    rw [Patch.apply_copy _ _ (by omega), Nat.zero_add, same index (by omega), ← Nat.add_assoc,
      split]

/-- The buffer is empty afterwards, and the bytes used end a stripe. -/
theorem Absorbed.fillBuffer (absorbed : hash.Absorbed start data n st)
    (same : ∀ k < len, input k = data (n + k)) (enough : hash.size ≤ st.memsize + len) :
    ∃ count, n + (hash.fillBuffer input st).2 = count * hash.size ∧
      (hash.fillBuffer input st).2 ≤ len ∧ (hash.fillBuffer input st).1.memsize = 0 ∧
      (hash.fillBuffer input st).1.lanes = hash.absorbAll data count 0 start := by
  have small := absorbed.memsize_lt
  have split : n / hash.size * hash.size + st.memsize = n := by
    rw [absorbed.memsize]
    exact Nat.div_add_mod' ..
  rw [StripeHash.fillBuffer]
  split_ifs with used
  · dsimp only
    refine ⟨n / hash.size + 1, ?_, by omega, rfl, ?_⟩
    · rw [Nat.succ_mul]
      omega
    · rw [absorbAll_succ, ← absorbed.lanes]
      apply hash.absorb_congr
      intro k inside
      rw [Nat.zero_add, absorbed.mem_copy same (by omega) (by omega)]
  · have empty : st.memsize = 0 := by simpa using used
    exact ⟨n / hash.size, by omega, Nat.zero_le _, empty, absorbed.lanes⟩

/-- Input from an offset on that ends a stripe. -/
theorem absorbed_takeStripes {count p : ℕ} (behind : n + p = count * hash.size) (inside : p ≤ len)
    (same : ∀ k < len, input k = data (n + k)) (empty : st.memsize = 0)
    (absorbed : st.lanes = hash.absorbAll data count 0 start) :
    hash.Absorbed start data (n + len) (hash.takeStripes input len st p) := by
  have positive := hash.positive
  obtain ⟨stripes, taken⟩ : ∃ stripes, stripes = (len - p) / hash.size := ⟨_, rfl⟩
  have whole : stripes * hash.size ≤ len - p := taken ▸ Nat.div_mul_le_self ..
  have rest : len - p < stripes * hash.size + hash.size := by
    rw [taken]
    exact Nat.lt_div_mul_add positive
  have lanes : (if p + hash.size ≤ len then hash.absorbLoop input (len - hash.size) st.lanes p
      else (st.lanes, p)) =
        (hash.absorbAll data (count + stripes) 0 start, p + stripes * hash.size) := by
    have later : hash.absorbAll input stripes p st.lanes =
        hash.absorbAll data (count + stripes) 0 start := by
      rw [absorbAll_add, ← absorbed, Nat.zero_add, ← behind]
      apply absorbAll_congr
      intro k before
      rw [same (p + k) (by omega), Nat.add_assoc]
    rw [← later]
    split_ifs with more
    · rw [absorbLoop_eq input more, ← taken]
    · have none_ : stripes = 0 := by
        rw [taken]
        exact Nat.div_eq_of_lt (by omega)
      rw [none_, Nat.zero_mul]
      rfl
  rw [takeStripes, lanes]
  have total : n + len = (count + stripes) * hash.size + (len - (p + stripes * hash.size)) := by
    rw [Nat.add_mul]
    omega
  dsimp only
  split_ifs with more
  · refine absorbed_of_rest total (by omega) rfl fun k before => ?_
    have copied := @Patch.apply_copy st.mem input 0 _ (p + stripes * hash.size) k before
    rw [Nat.zero_add] at copied
    rw [copied, same _ (by omega), Nat.add_mul, ← behind, Nat.add_assoc, Nat.add_assoc,
      Nat.add_assoc]
  · have whole_ : len - (p + stripes * hash.size) = 0 := by omega
    rw [whole_] at total
    rw [empty]
    exact absorbed_of_rest total positive rfl fun k before => absurd before (Nat.not_lt_zero k)

/-- Taking in more input. -/
theorem Absorbed.update (absorbed : hash.Absorbed start data n st)
    (same : ∀ k < len, input k = data (n + k)) :
    hash.Absorbed start data (n + len) (hash.update input len st) := by
  rw [StripeHash.update]
  split_ifs with short
  · -- nothing but the buffer changes
    have split : n / hash.size * hash.size + st.memsize = n := by
      rw [absorbed.memsize]
      exact Nat.div_add_mod' ..
    exact absorbed_of_rest (by omega) short absorbed.lanes fun k inside =>
      absorbed.mem_copy same (Nat.le_refl len) inside
  · obtain ⟨count, behind, inside, empty, lanes⟩ := absorbed.fillBuffer same (Nat.not_lt.mp short)
    exact absorbed_takeStripes behind inside same empty lanes

/-- Only the bytes that have been taken in matter. -/
theorem Absorbed.congr (absorbed : hash.Absorbed start data n st) (other : ByteStore)
    (same : ∀ k < n, other k = data k) : hash.Absorbed start other n st where
  lanes := by
    have whole := Nat.div_mul_le_self n hash.size
    rw [absorbed.lanes]
    exact absorbAll_congr (fun k inside => by
      rw [Nat.zero_add, same k (Nat.lt_of_lt_of_le inside whole)]) _
  memsize := absorbed.memsize
  pending := fun k inside => by
    have split := Nat.div_add_mod' n hash.size
    rw [absorbed.pending k inside, same _ (by omega)]

/-- More bytes behind those that have been taken in. -/
theorem Absorbed.append {bytes : List UInt8} {behind : ByteStore}
    (absorbed : hash.Absorbed start (ByteStore.ofList bytes behind) bytes.length st)
    (input : ByteStore) (len : ℕ) :
    hash.Absorbed start (ByteStore.ofList (bytes ++ input.bytesAt 0 len) behind)
      (bytes.length + len) (hash.update input len st) := by
  have length := ByteStore.bytesAt_length input 0 len
  refine Absorbed.update (absorbed.congr _ fun k inside => ?_) fun k inside => ?_
  · rw [ByteStore.ofList_of_lt _ _ inside, ByteStore.ofList_of_lt _ _ (by simp; omega),
      List.getD_eq_getElem?_getD, List.getElem?_append_left inside, List.getD_eq_getElem?_getD]
  · have later := congrFun (ByteStore.ofList_append_from bytes (input.bytesAt 0 len) behind) k
    rw [ByteStore.from_] at later
    rw [later, ByteStore.ofList, ByteStore.bytesAt_getD _ _ inside, Nat.zero_add]

end StripeHash

end ZLoader
