import Mathlib.Tactic.IntervalCases
import ZLoader.Foundation.Repetition
import ZLoader.Model.Lib.Lz4Block

/-! # The copies of the LZ4 decoder

Every way in which the decoder copies literals or a match stays inside of the buffers and leaves
what is wanted at least up to the end of the literals or of the match. What a copy writes behind
that end does no harm as long as it lies in the output.
-/

namespace ZLoader

namespace Lz4Call

variable (call : Lz4Call)

/-- The lowest address a match can start at. -/
def historyStart : ℕ := if call.dict = .withPrefix64k then call.dst - 65535 else call.lowPrefix

/-- The window lies in the input, in the output and what stands in front of it, or in the
dictionary. -/
def Readable (window : Window) : Prop :=
  (call.src ≤ window.start ∧ window.start + window.length ≤ call.iend) ∨
    (call.historyStart ≤ window.start ∧ window.start + window.length ≤ call.oend) ∨
    (call.dict = .usingExtDict ∧ call.dictStart ≤ window.start ∧
      window.start + window.length ≤ call.dictStart + call.dictSize)

/-- The window lies in the output. -/
def Writable (window : Window) : Prop :=
  call.dst ≤ window.start ∧ window.start + window.length ≤ call.oend

end Lz4Call

/-- All accesses so far are allowed, and memory outside of the output is what it was. -/
structure Lz4State.Contained (call : Lz4Call) (memory : ByteStore) (st : Lz4State) : Prop where
  reads : ∀ window ∈ st.reads, call.Readable window
  writes : ∀ window ∈ st.writes, call.Writable window
  frame : ∀ index, index < call.dst ∨ call.oend ≤ index → st.memory index = memory index

/-- Copies from a state on have left what is wanted in front of an address. -/
structure Lz4State.Filled (call : Lz4Call) (memory want : ByteStore) (start : Lz4State) (p : ℕ)
    (st : Lz4State) : Prop extends Lz4State.Contained call memory st where
  filled : FilledTo want st.memory p
  ip : st.ip = start.ip
  op : st.op = start.op

/-- A block of bytes can be copied to an address as soon as all is filled up to there. -/
def Feeds (call : Lz4Call) (memory want : ByteStore) (size s p : ℕ) : Prop :=
  call.Readable ⟨s, size⟩ ∧ ∀ start st, Lz4State.Filled call memory want start p st →
    ∀ index < size, st.memory (s + index) = want (p + index)

section Copies

variable {call : Lz4Call} {memory want : ByteStore} {start st : Lz4State} {p s d e size : ℕ}

namespace Lz4State

theorem Contained.load (contained : Contained call memory st) (s size : ℕ)
    (readable : call.Readable ⟨s, size⟩) :
    Contained call memory (st.load s size) where
  reads := by
    intro window member
    rcases List.mem_cons.mp member with rfl | old
    · exact readable
    · exact contained.reads window old
  writes := contained.writes
  frame := contained.frame

theorem Contained.store (contained : Contained call memory st) (bytes : ℕ → UInt8)
    (writable : call.Writable ⟨d, size⟩) : Contained call memory (st.store d size bytes) where
  reads := contained.reads
  writes := by
    intro window member
    rcases List.mem_cons.mp member with rfl | old
    · exact writable
    · exact contained.writes window old
  frame index outside := by
    have kept : (st.store d size bytes).memory index = st.memory index := by
      apply Patch.apply_outside
      rintro ⟨lower, upper⟩
      dsimp only at lower upper
      have low := writable.1
      have high := writable.2
      dsimp only at low high
      omega
    exact kept.trans (contained.frame index outside)

theorem Contained.copy (contained : Contained call memory st) (readable : call.Readable ⟨s, size⟩)
    (writable : call.Writable ⟨d, size⟩) : Contained call memory (st.copy d s size) where
  reads := (contained.load s size readable).reads
  writes := (contained.store (fun index => st.memory (s + index)) writable).writes
  frame := (contained.store (fun index => st.memory (s + index)) writable).frame

theorem Filled.mono {q : ℕ} (filled : Filled call memory want start p st) (le : q ≤ p) :
    Filled call memory want start q st :=
  { filled with filled := filled.filled.mono le }

/-- A block that is wanted behind what is filled. -/
theorem Filled.copy (filled : Filled call memory want start p st)
    (feeds : Feeds call memory want size s p) (low : call.dst ≤ p) (room : p + size ≤ call.oend) :
    Filled call memory want start (p + size) (st.copy p s size) where
  toContained := filled.toContained.copy feeds.1 ⟨low, room⟩
  filled := filled.filled.copy (feeds.2 start st filled)
  ip := filled.ip
  op := filled.op

theorem Filled.store (filled : Filled call memory want start p st) (size : ℕ) (bytes : ℕ → UInt8)
    (wanted : ∀ index < size, bytes index = want (p + index)) (low : call.dst ≤ p)
    (room : p + size ≤ call.oend) :
    Filled call memory want start (p + size) (st.store p size bytes) where
  toContained := filled.toContained.store bytes ⟨low, room⟩
  filled := filled.filled.patch wanted
  ip := filled.ip
  op := filled.op

/-- What is written behind the end is not looked at. -/
theorem Filled.scratch (filled : Filled call memory want start p st) (size : ℕ) (bytes : ℕ → UInt8)
    (low : call.dst ≤ p) (room : p + size ≤ call.oend) :
    Filled call memory want start p (st.store p size bytes) where
  toContained := filled.toContained.store bytes ⟨low, room⟩
  filled index before := by
    have kept : (st.store p size bytes).memory index = st.memory index :=
      Patch.apply_outside _ _ fun inside => absurd inside.1 (Nat.not_le.mpr before)
    rw [kept]
    exact filled.filled index before
  ip := filled.ip
  op := filled.op

/-- Bytes copied onto themselves. -/
theorem Filled.self (filled : Filled call memory want start p st) (d size : ℕ)
    (readable : call.Readable ⟨d, size⟩)
    (writable : call.Writable ⟨d, size⟩) : Filled call memory want start p (st.copy d d size) where
  toContained := filled.toContained.copy readable writable
  filled index before := by
    rw [← filled.filled index before]
    by_cases inside : d ≤ index ∧ index < d + size
    · obtain ⟨skip, rfl⟩ := Nat.exists_eq_add_of_le inside.1
      exact Patch.apply_copy _ _ (by omega)
    · exact Patch.apply_copy_outside _ _ (by omega)
  ip := filled.ip
  op := filled.op

end Lz4State

/-- What lies in front of the cursor. -/
theorem feeds_output (size : ℕ) (mirrors : Mirrors want s p) (low : call.historyStart ≤ s)
    (behind : s + size ≤ p) (inside : p ≤ call.oend) : Feeds call memory want size s p :=
  ⟨.inr (.inl ⟨low, Nat.le_trans behind inside⟩), fun _ _ filled =>
    mirrors.feeds filled.filled behind⟩

/-- What lies in the input. -/
theorem feeds_input (apart : call.iend ≤ call.dst ∨ call.oend ≤ call.src)
    (wanted : ∀ index < size, want (p + index) = memory (s + index)) (low : call.src ≤ s)
    (inside : s + size ≤ call.iend) : Feeds call memory want size s p :=
  ⟨.inl ⟨low, inside⟩, fun _ _ filled index bound => by
    rw [wanted index bound, filled.frame _ (by omega)]⟩

/-! ## Loops -/

theorem lz4WildCopy8_filled {st : Lz4State} {d s e : ℕ}
    (filled : Lz4State.Filled call memory want start d st)
    (feeds : ∀ skip, skip = 0 ∨ d + skip < e → Feeds call memory want 8 (s + skip) (d + skip))
    (low : call.dst ≤ d) (first : d + 8 ≤ call.oend) (room : e + 7 ≤ call.oend) :
    ∃ p, e ≤ p ∧ d + 8 ≤ p ∧
      Lz4State.Filled call memory want start p (lz4WildCopy8 st d s e) := by
  have block := filled.copy (feeds 0 (.inl rfl)) low first
  rw [lz4WildCopy8]
  split_ifs with more
  · obtain ⟨p, enough, beyond, copied⟩ := lz4WildCopy8_filled block (fun skip inside => by
      have later := feeds (8 + skip) (.inr (by omega))
      rwa [← Nat.add_assoc, ← Nat.add_assoc] at later) (Nat.le_trans low (Nat.le_add_right ..))
      (by omega) room
    exact ⟨p, enough, by omega, copied⟩
  · exact ⟨d + 8, by omega, Nat.le_refl _, block⟩
termination_by e - d

theorem lz4WildCopy32_filled {st : Lz4State} {d s e : ℕ}
    (filled : Lz4State.Filled call memory want start d st)
    (feeds : ∀ skip, skip = 0 ∨ skip = 16 ∨ d + skip < e + 16 →
      Feeds call memory want 16 (s + skip) (d + skip))
    (low : call.dst ≤ d) (first : d + 32 ≤ call.oend) (room : e + 31 ≤ call.oend) :
    ∃ p, e ≤ p ∧ Lz4State.Filled call memory want start p (lz4WildCopy32 st d s e) := by
  have block := filled.copy (feeds 0 (.inl rfl)) low (by omega)
  have both := block.copy (feeds 16 (.inr (.inl rfl))) (by omega) (by omega)
  rw [lz4WildCopy32]
  split_ifs with more
  · obtain ⟨p, enough, copied⟩ := lz4WildCopy32_filled both (fun skip inside => by
      have later := feeds (32 + skip) (.inr (.inr (by omega)))
      rwa [← Nat.add_assoc, ← Nat.add_assoc] at later) (by omega) (by omega) room
    exact ⟨p, enough, copied⟩
  · exact ⟨d + 32, by omega, both⟩
termination_by e - d

theorem lz4ByteCopy_filled (count : ℕ) (filled : Lz4State.Filled call memory want start p st)
    (mirrors : Mirrors want s p) (low : call.historyStart ≤ s) (behind : s < p)
    (lower : call.dst ≤ p) (room : p + count ≤ call.oend) :
    Lz4State.Filled call memory want start (p + count) (lz4ByteCopy st p s count) := by
  induction count generalizing p s st with
  | zero => exact filled
  | succ count ih =>
    have one := filled.copy (feeds_output 1 mirrors low behind (by omega)) lower (by omega)
    have rest := ih one (mirrors.shift 1) (by omega) (by omega) (by omega) (by omega)
    rwa [Nat.add_assoc, Nat.add_comm 1] at rest

theorem lz4StoreLoop_filled {st : Lz4State} {d e : ℕ} {v : ℕ → UInt8}
    (filled : Lz4State.Filled call memory want start d st)
    (wanted : ∀ skip, ∀ index < 8, v index = want (d + 8 * skip + index)) (low : call.dst ≤ d)
    (room : e + 7 ≤ call.oend) :
    ∃ p, e ≤ p ∧ d ≤ p ∧ Lz4State.Filled call memory want start p (lz4StoreLoop st v d e) := by
  rw [lz4StoreLoop]
  split_ifs with more
  · have block := filled.store 8 v (wanted 0) low (by omega)
    obtain ⟨p, enough, beyond, stored⟩ := lz4StoreLoop_filled (v := v) block (fun skip index inside => by
      rw [wanted (skip + 1) index inside, Nat.mul_add_one]
      congr 1
      omega) (by omega) room
    exact ⟨p, enough, by omega, stored⟩
  · exact ⟨d, by omega, Nat.le_refl _, filled⟩
termination_by e - d

/-! ## Matches that lie close -/

/-- Both tables lead to a multiple of the distance. -/
theorem closeTables : ∀ offset < 8, 0 < offset →
    inc32table.getD offset 0 ≤ offset ∧
    (∃ count < 9, inc32table.getD offset 0 + count * offset = 4 + offset) ∧
    ∃ skip ≤ offset, (skip : ℤ) = inc32table.getD offset 0 - dec64table.getD offset 0 ∧
      ∃ count < 9, skip + count * offset = 8 + offset := by
  decide

theorem inc32table_mirrors {op offset : ℕ} (repeats : RepeatsFrom want op offset) (close : offset < 8)
    (far : offset ≤ op) :
    Mirrors want (op - offset + inc32table.getD offset 0) (op + 4) ∧
      op - offset + inc32table.getD offset 0 ≤ op := by
  rcases Nat.eq_zero_or_pos offset with rfl | positive
  · exact ⟨repeats.mirrors_zero (Nat.le_add_right ..) (by omega), Nat.le_refl _⟩
  · obtain ⟨le, ⟨count, -, multiple⟩, -⟩ := closeTables offset close positive
    have lies : op - offset + inc32table.getD offset 0 + count * offset = op + 4 := by omega
    exact ⟨lies ▸ repeats.mirrors_mul positive (by omega) count, by omega⟩

theorem lz4CloseNext_mirrors {op offset : ℕ} (repeats : RepeatsFrom want op offset) (close : offset < 8)
    (far : offset ≤ op) :
    Mirrors want (lz4CloseNext (op - offset) offset) (op + 8) ∧
      op - offset ≤ lz4CloseNext (op - offset) offset ∧
      lz4CloseNext (op - offset) offset ≤ op := by
  rcases Nat.eq_zero_or_pos offset with rfl | positive
  · have same : lz4CloseNext (op - 0) 0 = op := by simp [lz4CloseNext, inc32table, dec64table]
    rw [same]
    exact ⟨repeats.mirrors_zero (Nat.le_refl _) (by omega), by omega, Nat.le_refl _⟩
  · obtain ⟨-, -, skip, le, difference, count, -, multiple⟩ := closeTables offset close positive
    have next : lz4CloseNext (op - offset) offset = op - offset + skip := by
      rw [lz4CloseNext]
      omega
    rw [next]
    have lies : op - offset + skip + count * offset = op + 8 := by omega
    exact ⟨lies ▸ repeats.mirrors_mul positive (by omega) count, by omega, by omega⟩

/-- Bytes copied onto themselves one after another. -/
theorem lz4ByteCopy_self {count : ℕ} (filled : Lz4State.Filled call memory want start p st)
    (low : call.historyStart ≤ d) (lower : call.dst ≤ d) (room : d + count ≤ call.oend) :
    Lz4State.Filled call memory want start p (lz4ByteCopy st d d count) := by
  induction count generalizing d st with
  | zero => exact filled
  | succ count ih =>
    have one := filled.self d 1 (.inr (.inl ⟨low, by dsimp only; omega⟩))
      ⟨lower, by dsimp only; omega⟩
    exact ih one (by omega) (by omega) (by omega)

section Match

variable {op offset length : ℕ} (repeats : RepeatsFrom want op offset) (far : offset ≤ op)
  (low : call.historyStart ≤ op - offset) (lower : call.dst ≤ op)

include repeats far low lower

theorem lz4CopyClose_filled (filled : Lz4State.Filled call memory want start op st)
    (close : offset < 8) (room : op + 8 ≤ call.oend) :
    Lz4State.Filled call memory want start (op + 8) (lz4CopyClose st op (op - offset) offset) := by
  obtain ⟨mirrors, behind⟩ := inc32table_mirrors repeats close far
  have four : Lz4State.Filled call memory want start (op + 4)
      (lz4ByteCopy (st.store op 4 fun _ => 0) op (op - offset) 4) := by
    rcases Nat.eq_zero_or_pos offset with rfl | positive
    · -- the zeros stored first are what is wanted
      have zeros := filled.store 4 (fun _ => 0) (fun index _ => by
        rw [repeats _ (Nat.le_add_right ..), if_pos rfl]) lower (by omega)
      exact lz4ByteCopy_self zeros low lower (by omega)
    · have scratch := filled.scratch 4 (fun _ => 0) lower (by omega)
      exact lz4ByteCopy_filled 4 scratch (repeats.mirrors positive (by omega)) low (by omega) lower
        (by omega)
  exact four.copy (feeds_output 4 mirrors (by omega) (by omega) (by omega)) (by omega)
    (by omega)

/-- The first eight bytes, and where the match goes on. -/
theorem lz4FirstEight_filled (filled : Lz4State.Filled call memory want start op st)
    (room : op + 8 ≤ call.oend) :
    ∃ first next, (if offset < 8 then
        (lz4CopyClose st op (op - offset) offset, lz4CloseNext (op - offset) offset)
      else (st.copy op (op - offset) 8, op - offset + 8)) = (first, next) ∧
      Lz4State.Filled call memory want start (op + 8) first ∧ Mirrors want next (op + 8) ∧
      call.historyStart ≤ next ∧ next ≤ op := by
  split_ifs with close
  · obtain ⟨mirrors, above, behind⟩ := lz4CloseNext_mirrors repeats close far
    exact ⟨_, _, rfl, lz4CopyClose_filled repeats far low lower filled close room, mirrors,
      by omega, behind⟩
  · have mirrors := repeats.mirrors (s := op - offset) (by omega) (by omega)
    exact ⟨_, _, rfl, filled.copy (feeds_output 8 mirrors low (by omega) (by omega)) lower room,
      mirrors.shift 8, by omega, by omega⟩

theorem lz4MemcpyUsingOffsetBase_filled (filled : Lz4State.Filled call memory want start op st)
    (room : op + 16 ≤ call.oend) (behind : e + 7 ≤ call.oend) :
    ∃ p, e ≤ p ∧ Lz4State.Filled call memory want start p
      (lz4MemcpyUsingOffsetBase st op (op - offset) e offset) := by
  obtain ⟨first, next, same, eight, mirrors, above, below⟩ :=
    lz4FirstEight_filled repeats far low lower filled (by omega)
  obtain ⟨p, enough, -, copied⟩ := lz4WildCopy8_filled (e := e) eight (fun skip inside =>
    feeds_output _ (mirrors.shift skip) (by omega) (by omega) (by omega)) (by omega) (by omega) behind
  refine ⟨p, enough, ?_⟩
  rw [lz4MemcpyUsingOffsetBase]
  split_ifs at same ⊢ <;> obtain ⟨rfl, rfl⟩ := Prod.mk.inj same <;> exact copied

theorem lz4MemcpyUsingOffset_filled (filled : Lz4State.Filled call memory want start op st)
    (room : op + 16 ≤ call.oend) (behind : e + 7 ≤ call.oend) :
    ∃ p, e ≤ p ∧ Lz4State.Filled call memory want start p
      (lz4MemcpyUsingOffset st op (op - offset) e offset) := by
  rw [lz4MemcpyUsingOffset]
  split_ifs with power
  · -- the distance divides the eight bytes that are stored each time
    have wanted (skip index : ℕ) (inside : index < 8) :
        st.memory (op - offset + index % offset) = want (op + 8 * skip + index) := by
      rw [filled.filled _ (by rcases power with rfl | rfl | rfl <;> omega)]
      rcases power with rfl | rfl | rfl
      · rw [← repeats.mirrors_mul (s := op - 1) (by omega) (by omega) (8 * skip + index + 1)]
        congr 1
        omega
      · rw [← repeats.mirrors_mul (s := op - 2) (by omega) (by omega) (4 * skip + index / 2 + 1)]
        congr 1
        omega
      · rw [← repeats.mirrors_mul (s := op - 4) (by omega) (by omega) (2 * skip + index / 4 + 1)]
        congr 1
        omega
    have loaded : Lz4State.Filled call memory want start op (st.load (op - offset) offset) :=
      { filled with
        toContained := filled.toContained.load _ _ (.inr (.inl ⟨low, by dsimp only; omega⟩)) }
    have first := loaded.store 8 _ (wanted 0) lower (by omega)
    obtain ⟨p, enough, -, stored⟩ := lz4StoreLoop_filled (e := e)
      (v := fun index => st.memory (op - offset + index % offset)) first (fun skip index inside => by
        rw [wanted (skip + 1) index inside, Nat.mul_add_one]
        congr 1
        omega) (by omega) behind
    exact ⟨p, enough, stored⟩
  · exact lz4MemcpyUsingOffsetBase_filled repeats far low lower filled room behind

theorem lz4Copy18_filled (filled : Lz4State.Filled call memory want start op st)
    (opens : st.op = op) (distant : 8 ≤ offset) (room : op + 18 ≤ call.oend) :
    Lz4State.Filled call memory want start (op + 18) (lz4Copy18 st (op - offset)) := by
  subst opens
  have mirrors := repeats.mirrors (s := st.op - offset) (by omega) (by omega)
  have first := filled.copy (feeds_output 8 mirrors low (by omega) (by omega)) lower
    (by omega)
  have second := first.copy (feeds_output 8 (mirrors.shift 8) (by omega) (by omega)
    (by omega)) (by omega) (by omega)
  exact second.copy (feeds_output 2 (mirrors.shift 16) (by omega) (by omega) (by omega))
    (by omega) (by omega)

/-- The end of the main loop's body copies the match, or fails where it ends too close to the end of
the output. -/
theorem lz4CopyWithin_cases (filled : Lz4State.Filled call memory want st op st)
    (opens : st.op = op) (long : 4 ≤ length) (room : op + 8 ≤ call.oend) :
    (∃ st', lz4CopyWithin call st (op - offset) offset length = .failed st' ∧
      st'.Contained call memory ∧ st'.ip = st.ip ∧ call.oend < op + length + 5) ∨
    ∃ st', lz4CopyWithin call st (op - offset) offset length = .safe (st'.skip length) ∧
      Lz4State.Filled call memory want st (op + length) st' ∧ op + length + 5 ≤ call.oend := by
  obtain ⟨first, next, same, eight, mirrors, above, below⟩ :=
    lz4FirstEight_filled repeats far low lower filled room
  subst opens
  rw [lz4CopyWithin, same]
  dsimp only
  split_ifs with near close space many
  · exact .inl ⟨first, rfl, eight.toContained, eight.ip, close⟩
  · -- blocks of eight up to the limit, and single bytes behind it
    obtain ⟨p, enough, -, copied⟩ := lz4WildCopy8_filled (e := call.oend - 7) eight
      (fun skip inside => feeds_output _ (mirrors.shift skip) (by omega) (by omega) (by omega))
      (by omega) (by omega) (by omega)
    have shifted := mirrors.shift (call.oend - 7 - (st.op + 8))
    rw [Nat.add_sub_cancel' (Nat.le_of_lt space)] at shifted
    have bytes := lz4ByteCopy_filled (st.op + length - (call.oend - 7))
      (copied.mono enough) shifted (by omega) (by omega) (by omega) (by omega)
    exact .inr ⟨_, rfl, bytes.mono (by omega), by omega⟩
  · have bytes := lz4ByteCopy_filled (st.op + length - (st.op + 8)) eight mirrors above
      (by omega) (by omega) (by omega)
    exact .inr ⟨_, rfl, bytes.mono (by omega), by omega⟩
  · have second := eight.copy (feeds_output 8 mirrors above (by omega) (by omega))
      (by omega) (by omega)
    obtain ⟨p, enough, -, copied⟩ := lz4WildCopy8_filled (e := st.op + length) second
      (fun skip inside => feeds_output _ ((mirrors.shift 8).shift skip) (by omega) (by omega)
        (by omega)) (by omega) (by omega) (by omega)
    exact .inr ⟨_, rfl, copied.mono enough, by omega⟩
  · have second := eight.copy (feeds_output 8 mirrors above (by omega) (by omega))
      (by omega) (by omega)
    exact .inr ⟨_, rfl, second.mono (by omega), by omega⟩

/-- The last copy of the fast loop. -/
theorem lz4FastWithin_filled (filled : Lz4State.Filled call memory want start op st)
    (opens : st.op = op) (room : op + length + 64 < call.oend) :
    Lz4State.Filled call memory want start (op + length)
      (if offset < 16 then lz4MemcpyUsingOffset st st.op (op - offset) (st.op + length) offset
        else lz4WildCopy32 st st.op (op - offset) (st.op + length)) := by
  subst opens
  split_ifs with close
  · obtain ⟨p, enough, copied⟩ := lz4MemcpyUsingOffset_filled (e := st.op + length) repeats far low
      lower filled (by omega) (by omega)
    exact copied.mono enough
  · have mirrors := repeats.mirrors (s := st.op - offset) (by omega) (by omega)
    obtain ⟨p, enough, copied⟩ := lz4WildCopy32_filled (e := st.op + length) filled
      (fun skip inside => feeds_output _ (mirrors.shift skip) (by omega) (by omega) (by omega)) lower
      (by omega) (by omega)
    exact copied.mono enough

end Match

/-! ## Matches that start in the dictionary -/

theorem Lz4State.skip_skip (st : Lz4State) (first second : ℕ) :
    (st.skip first).skip second = st.skip (first + second) := by
  rw [skip, skip, skip, Nat.add_assoc]

theorem Lz4State.skip_copy (st : Lz4State) (length d s size : ℕ) :
    (st.skip length).copy d s size = (st.copy d s size).skip length := rfl

theorem Lz4State.skip_lz4ByteCopy (st : Lz4State) (length d s count : ℕ) :
    lz4ByteCopy (st.skip length) d s count = (lz4ByteCopy st d s count).skip length := by
  induction count generalizing d s st with
  | zero => rfl
  | succ count ih => exact ih (st.copy d s 1) (d + 1) (s + 1)

theorem lz4CopyFromDict_filled {match_ length : ℕ}
    (filled : Lz4State.Filled call memory want st st.op st)
    (dict : call.dict = .usingExtDict) (dictStart : call.dictStart ≠ 0)
    (apart : call.dictStart + call.dictSize ≤ call.dst ∨ call.oend ≤ call.dictStart)
    (reaches : call.lowPrefix - match_ ≤ call.dictSize)
    (wanted : ∀ index < call.lowPrefix - match_,
      want (st.op + index) =
        memory (call.dictStart + call.dictSize - (call.lowPrefix - match_) + index))
    (mirrors : Mirrors want call.lowPrefix (st.op + (call.lowPrefix - match_)))
    (starts : match_ < call.lowPrefix) (within : call.lowPrefix ≤ st.op) (lower : call.dst ≤ st.op)
    (room : st.op + length ≤ call.oend) :
    ∃ st', lz4CopyFromDict call st match_ length = st'.skip length ∧
      Lz4State.Filled call memory want st (st.op + length) st' := by
  obtain ⟨copySize, size⟩ : ∃ copySize, copySize = call.lowPrefix - match_ := ⟨_, rfl⟩
  have dictEnd : call.dictEnd = call.dictStart + call.dictSize := if_neg dictStart
  have above : call.historyStart ≤ call.lowPrefix := by
    rw [Lz4Call.historyStart, dict, if_neg (by decide)]
  have feeds {part : ℕ} (le : part ≤ copySize) :
      Feeds call memory want part (call.dictStart + call.dictSize - copySize) st.op := by
    refine ⟨.inr (.inr ⟨dict, ?_, ?_⟩), fun _ _ filled index inside => ?_⟩
    · dsimp only
      omega
    · dsimp only
      omega
    · rw [filled.frame _ (by omega), wanted index (by omega), size]
  rw [← size] at mirrors reaches
  rw [lz4CopyFromDict, ← size, dictEnd]
  split_ifs with fits
  · exact ⟨_, rfl, filled.copy (feeds fits) lower room⟩
  · dsimp only
    have first := filled.copy (feeds (Nat.le_refl copySize)) lower (by omega)
    split_ifs with overlaps
    · have rest := lz4ByteCopy_filled (length - copySize) first mirrors above (by omega)
        (by omega) (by omega)
      refine ⟨_, ?_, rest.mono (by omega)⟩
      rw [Lz4State.skip_lz4ByteCopy, Lz4State.skip_skip, Nat.add_sub_cancel' (by omega)]
      rfl
    · have behind : call.lowPrefix + (length - copySize) ≤ st.op + copySize := by
        dsimp only [Lz4State.skip, Lz4State.copy] at overlaps
        omega
      have rest := first.copy (feeds_output (length - copySize) mirrors above behind
        (by omega)) (by omega) (by omega)
      refine ⟨_, ?_, rest.mono (by omega)⟩
      rw [Lz4State.skip_copy, Lz4State.skip_skip, Nat.add_sub_cancel' (by omega)]
      rfl

end Copies

end ZLoader
