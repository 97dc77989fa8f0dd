import ZLoader.Foundation.Trace
import ZLoader.Soundness.LoadOptions
import ZLoader.Soundness.TextScan
import ZLoader.Soundness.Utf8Conversion

/-! # What the conversion reads and writes

Every turn of `mbstowcs` moves the index forward, at most to the end of the source, and stores at
most one unit. So the index bounds the number of units stored, whatever the bytes are. A sequence
that `mbtowc` accepts is decoded the same way whatever follows it, after which the loop is where it
would be at the start of the rest.
-/

namespace ZLoader

open StateTransition

/-! ## The loop turn by turn -/

/-- The variables of the loop of `mbstowcs`, with its destination. -/
structure MbstowcsState where
  i : ℕ
  strlen : ℕ
  dest : ℕ → UInt16

section Loop

variable (src : ℕ → UInt8) (len : ℕ)

/-- One turn of the loop; there is none when its condition fails. -/
def mbstowcsStep (st : MbstowcsState) : Option MbstowcsState :=
  if st.i < len then
    match mbtowc (fun index => src (st.i + index)) (len - st.i) with
    | none => some { st with i := st.i + 1 }
    | some (unichar, utf8len) =>
        some ⟨st.i + utf8len, st.strlen + 1, Function.update st.dest st.strlen unichar⟩
  else none

/-- The bytes of the source that a turn examines. -/
def mbstowcsReads (st : MbstowcsState) : List ℕ :=
  (mbtowcReads (fun index => src (st.i + index)) (len - st.i)).map (st.i + ·)

/-- The units of the destination that a turn writes. -/
def mbstowcsWrites (st : MbstowcsState) : List ℕ :=
  match mbtowc (fun index => src (st.i + index)) (len - st.i) with
  | none => []
  | some _ => [st.strlen]

/-- A turn reads inside of the source. -/
def TurnReadsInside (st : MbstowcsState) : Prop := ∀ index ∈ mbstowcsReads src len st, index < len

/-- What a turn does: it moves on inside of the source, and stores one unit or none. -/
structure TurnTaken (st next : MbstowcsState) : Prop where
  onward : st.i < next.i
  inside : next.i ≤ len
  written : mbstowcsWrites src len st = List.range' st.strlen (next.strlen - st.strlen)
  stored : st.strlen ≤ next.strlen ∧ next.strlen ≤ st.strlen + 1
  kept : ∀ index ≥ next.strlen, next.dest index = st.dest index

variable {src len}

/-- The continuation bytes examined are those of the character. -/
theorem mbtowcRestReads_subset (s : ℕ → UInt8) (indices : List ℕ) :
    mbtowcRestReads s indices ⊆ indices := by
  induction indices with
  | nil => exact List.Subset.refl _
  | cons index rest ih =>
    rw [mbtowcRestReads]
    split_ifs
    · exact List.cons_subset_cons _ (List.nil_subset _)
    · exact List.cons_subset_cons _ ih

/-- `mbtowc` examines none but the bytes it is given. -/
theorem mbtowcReads_lt (s : ℕ → UInt8) (n : ℕ) : ∀ index ∈ mbtowcReads s n, index < n := by
  rw [mbtowcReads]
  split_ifs with empty
  · simp
  · have positive : 0 < n := Nat.pos_of_ne_zero (by simpa using empty)
    rw [List.forall_mem_cons]
    refine ⟨positive, ?_⟩
    split
    · simp
    · next length announced =>
      split_ifs with long
      · simp
      · intro index member
        have within := List.mem_of_mem_drop (mbtowcRestReads_subset s _ member)
        exact Nat.lt_of_lt_of_le (List.mem_range.mp within) (Nat.not_lt.mp long)

theorem turnReadsInside (st : MbstowcsState) : TurnReadsInside src len st := by
  intro index member
  obtain ⟨offset, examined, rfl⟩ := List.mem_map.mp member
  have bound := mbtowcReads_lt _ _ offset examined
  omega

theorem mbstowcsStep_taken {st next : MbstowcsState} (stepped : mbstowcsStep src len st = some next) :
    TurnTaken src len st next := by
  rw [mbstowcsStep] at stepped
  split_ifs at stepped with more
  cases decoded : mbtowc (fun index => src (st.i + index)) (len - st.i) with
  | none =>
    rw [decoded] at stepped
    obtain rfl := Option.some.inj stepped
    refine ⟨Nat.lt_succ_self _, more, ?_, ⟨Nat.le_refl _, Nat.le_succ _⟩, fun _ _ => rfl⟩
    simp [mbstowcsWrites, decoded]
  | some character =>
    obtain ⟨unichar, utf8len⟩ := character
    rw [decoded] at stepped
    obtain rfl := Option.some.inj stepped
    obtain ⟨announced, fits, -⟩ := mbtowc_eq_some decoded
    have positive := (mbtowcLength_bounds announced).1
    refine ⟨Nat.lt_add_of_pos_right positive, by dsimp only; omega, ?_,
      ⟨Nat.le_succ _, Nat.le_refl _⟩, fun index beyond => ?_⟩
    · simp [mbstowcsWrites, decoded]
    · exact Function.update_of_ne (Nat.ne_of_gt beyond) unichar st.dest

/-- The turns of the bounded loop are those of the source. -/
theorem mbstowcsStoreLoop_succ (turns : ℕ) (st : MbstowcsState) :
    mbstowcsStoreLoop src len (turns + 1) st.i st.strlen st.dest =
      match mbstowcsStep src len st with
      | none => (st.dest, st.strlen)
      | some next => mbstowcsStoreLoop src len turns next.i next.strlen next.dest := by
  rw [mbstowcsStoreLoop, mbstowcsStep]
  split_ifs
  · cases mbtowc (fun index => src (st.i + index)) (len - st.i) with
    | none => rfl
    | some character => rfl
  · rfl

/-- A run of the loop from a state on to its end. The units stored are as many as the index has
moved at most. -/
structure LoopRun (src : ℕ → UInt8) (len : ℕ) (st last : MbstowcsState) : Prop where
  trace : Trace (mbstowcsStep src len) (TurnReadsInside src len) (mbstowcsWrites src len) st
    (List.range' st.strlen (last.strlen - st.strlen)) last
  ended : mbstowcsStep src len last = none
  stored : st.strlen ≤ last.strlen
  bounded : last.strlen ≤ st.strlen + (len - st.i)
  kept : ∀ index ≥ last.strlen, last.dest index = st.dest index

theorem LoopRun.refl {st : MbstowcsState} (ended : mbstowcsStep src len st = none) :
    LoopRun src len st st where
  trace := by
    rw [Nat.sub_self]
    exact .refl st
  ended := ended
  stored := Nat.le_refl _
  bounded := Nat.le_add_right _ _
  kept _ _ := rfl

theorem LoopRun.head {st next last : MbstowcsState} (stepped : mbstowcsStep src len st = some next)
    (run : LoopRun src len next last) : LoopRun src len st last := by
  obtain ⟨onward, inside, written, ⟨more, most⟩, kept⟩ := mbstowcsStep_taken stepped
  obtain ⟨trace, ended, stored, bounded, rest⟩ := run
  refine ⟨?_, ended, Nat.le_trans more stored, by omega, fun index beyond =>
    (rest index beyond).trans (kept index (Nat.le_trans stored beyond))⟩
  have whole := Trace.head (turnReadsInside st) stepped trace
  have joined : List.range' st.strlen (next.strlen - st.strlen) ++
      List.range' next.strlen (last.strlen - next.strlen) =
        List.range' st.strlen (last.strlen - st.strlen) := by
    have start : next.strlen = st.strlen + 1 * (next.strlen - st.strlen) := by omega
    have length : last.strlen - st.strlen =
        (next.strlen - st.strlen) + (last.strlen - next.strlen) := by omega
    rw [length, ← List.range'_append, ← start]
  rwa [written, joined] at whole

/-- The loop ends within the turns that its index can take, with what the bounded loop returns. -/
theorem loopRun_of_enough {turns : ℕ} (st : MbstowcsState) (enough : len ≤ st.i + turns) :
    ∃ last, LoopRun src len st last ∧
      mbstowcsStoreLoop src len turns st.i st.strlen st.dest = (last.dest, last.strlen) := by
  induction turns generalizing st with
  | zero =>
    have finished : ¬ st.i < len := Nat.not_lt.mpr enough
    refine ⟨st, .refl ?_, rfl⟩
    rw [mbstowcsStep, if_neg finished]
  | succ turns ih =>
    rw [mbstowcsStoreLoop_succ]
    cases stepped : mbstowcsStep src len st with
    | none => exact ⟨st, .refl stepped, rfl⟩
    | some next =>
      have onward := (mbstowcsStep_taken stepped).onward
      obtain ⟨last, run, same⟩ := ih next (by omega)
      exact ⟨last, run.head stepped, same⟩

end Loop

/-! ## Decoding resumes behind an accepted sequence -/

section Resume

variable {src : ℕ → UInt8} {len : ℕ}

/-- A sequence that `mbtowc` accepts as one character. -/
def AcceptedSequence (bytes : List UInt8) : Prop :=
  ∃ behind unichar, mbtowc (ByteStore.ofList bytes behind) bytes.length =
    some (unichar, bytes.length)

/-- A decoded character does not depend on what follows it, nor on how much follows. -/
theorem mbtowc_extend {s other : ℕ → UInt8} {n length : ℕ} {unichar : UInt16}
    (decoded : mbtowc s n = some (unichar, length)) {m : ℕ} (room : length ≤ m)
    (same : ∀ index < length, s index = other index) :
    mbtowc other m = some (unichar, length) := by
  obtain ⟨announced, -, rest⟩ := mbtowc_eq_some decoded
  have positive := (mbtowcLength_bounds announced).1
  have within : ∀ index ∈ (List.range length).drop 1, s index = other index := fun index member =>
    same index (List.mem_range.mp (List.mem_of_mem_drop member))
  rw [same 0 positive] at announced rest
  have nonempty : ¬ (m == 0) = true := by
    rw [beq_iff_eq]
    omega
  rw [mbtowc, if_neg nonempty, announced]
  simp only [if_neg (Nat.not_lt.mpr room), ← mbtowcRest_congr within, rest, Option.map_some]

/-- Turns that are left over change nothing. -/
theorem mbstowcsLoop_turns {turns : ℕ} (more i : ℕ) (enough : len ≤ i + turns) :
    mbstowcsLoop src len (turns + more) i = mbstowcsLoop src len turns i := by
  induction turns generalizing i with
  | zero =>
    have finished : ¬ i < len := Nat.not_lt.mpr enough
    cases more with
    | zero => rfl
    | succ more =>
      rw [Nat.zero_add, mbstowcsLoop.eq_def]
      exact if_neg finished
  | succ turns ih =>
    rw [Nat.add_right_comm, mbstowcsLoop, mbstowcsLoop]
    split_ifs
    · cases decoded : mbtowc (fun index => src (i + index)) (len - i) with
      | none => exact ih (i + 1) (by omega)
      | some character =>
        have positive := (mbtowcLength_bounds (mbtowc_eq_some decoded).1).1
        exact congrArg _ (ih (i + character.2) (by omega))
    · rfl

/-- The loop over a source from a distance on. -/
theorem mbstowcsLoop_from (skip turns i : ℕ) :
    mbstowcsLoop src (skip + len) turns (skip + i) =
      mbstowcsLoop (ByteStore.from_ src skip) len turns i := by
  induction turns generalizing i with
  | zero => rfl
  | succ turns ih =>
    have seen : (fun index => src (skip + i + index)) =
        fun index => ByteStore.from_ src skip (i + index) :=
      funext fun index => congrArg src (Nat.add_assoc _ _ _)
    rw [mbstowcsLoop, mbstowcsLoop, Nat.add_sub_add_left, seen]
    simp only [Nat.add_lt_add_iff_left, Nat.add_assoc, ih]

/-- An accepted sequence gives one unit, and decoding goes on behind it. -/
theorem mbstowcs_accepted {bytes : List UInt8} (accepted : AcceptedSequence bytes) :
    ∃ unichar, ∀ (rest : List UInt8) (behind : ByteStore),
      mbstowcs (ByteStore.ofList (bytes ++ rest) behind) (bytes ++ rest).length =
        unichar :: mbstowcs (ByteStore.ofList rest behind) rest.length := by
  obtain ⟨other, unichar, decoded⟩ := accepted
  refine ⟨unichar, fun rest behind => ?_⟩
  have positive := (mbtowcLength_bounds (mbtowc_eq_some decoded).1).1
  have head : mbtowc (fun index => ByteStore.ofList (bytes ++ rest) behind (0 + index))
      (bytes.length + rest.length - 0) = some (unichar, bytes.length) := by
    apply mbtowc_extend decoded (by omega)
    intro index bound
    simp only [ByteStore.ofList, Nat.zero_add, List.getD_eq_getElem?_getD,
      List.getElem?_append_left bound, List.getElem?_eq_getElem bound, Option.getD_some]
  obtain ⟨turns, size⟩ := Nat.exists_eq_add_of_le' positive
  have tail := @mbstowcsLoop_from (ByteStore.ofList (bytes ++ rest) behind) rest.length bytes.length
    (rest.length + turns) 0
  rw [ByteStore.ofList_append_from, mbstowcsLoop_turns turns 0 (Nat.le_of_eq (Nat.zero_add _).symm)]
    at tail
  have total : bytes.length + rest.length = rest.length + turns + 1 := by omega
  have more : 0 < bytes.length + rest.length := by omega
  rw [mbstowcs, List.length_append]
  nth_rewrite 2 [total]
  rw [mbstowcsLoop, if_pos more, head]
  dsimp only
  rw [Nat.zero_add]
  exact congrArg _ tail

/-- What stands behind the source plays no part. -/
theorem mbstowcs_behind (bytes : List UInt8) (behind behind' : ByteStore) :
    mbstowcs (ByteStore.ofList bytes behind) bytes.length =
      mbstowcs (ByteStore.ofList bytes behind') bytes.length := by
  apply mbstowcs_congr
  intro index bound
  simp only [ByteStore.ofList, List.getD_eq_getElem?_getD, List.getElem?_eq_getElem bound,
    Option.getD_some]

/-- The output for accepted sequences and what follows them is the output for the one and then for
the other. -/
theorem mbstowcs_append {sequences : List (List UInt8)}
    (accepted : ∀ bytes ∈ sequences, AcceptedSequence bytes) (rest : List UInt8)
    (behind behind' : ByteStore) :
    mbstowcs (ByteStore.ofList (sequences.flatten ++ rest) behind)
        (sequences.flatten ++ rest).length =
      mbstowcs (ByteStore.ofList sequences.flatten behind') sequences.flatten.length ++
        mbstowcs (ByteStore.ofList rest behind) rest.length := by
  induction sequences with
  | nil => rfl
  | cons bytes sequences ih =>
    rw [List.forall_mem_cons] at accepted
    obtain ⟨unichar, resumes⟩ := mbstowcs_accepted accepted.1
    rw [List.flatten_cons, List.append_assoc, resumes, resumes, ih accepted.2, List.cons_append]

end Resume

/-! ## The conversion as a whole -/

section Conversion

variable {D σ τ : Type}

/-- The conversion of so many bytes comes to an end in a state of its loop: it reads inside of the
source and writes the units up to its terminator, one after the other, and nothing else. -/
structure ConvertsInside (src : ℕ → UInt8) (len : ℕ) (dest : ℕ → UInt16) (last : MbstowcsState)
    (writes : List ℕ) : Prop where
  trace : Trace (mbstowcsStep src len) (TurnReadsInside src len) (mbstowcsWrites src len)
    ⟨0, 0, dest⟩ writes last
  ended : mbstowcsStep src len last = none
  returned : mbstowcsStore dest src len = (Function.update last.dest last.strlen 0, last.strlen)
  counted : last.strlen ≤ len
  written : writes ++ [last.strlen] = List.range (last.strlen + 1)
  kept : ∀ index > last.strlen, (mbstowcsStore dest src len).1 index = dest index

/-- The buffer for the embedded command line has room for all that the conversion writes. -/
def CmdlineInBuffer (env : StubEnvironment D σ τ) : Prop :=
  ∀ sections options, env.located = some sections → env.usesLoadOptions = false →
    sections.cmdline.loadAddress ≠ 0 → buildOptions env sections.cmdline = some options →
      options.allocated.toNat = (sections.cmdline.size.toNat + 1) * 2 ∧
        ∀ dest, ((mbstowcsStore dest
          (env.loaded.memory.from_ sections.cmdline.loadAddress.toNat)
          sections.cmdline.size.toNat).2 + 1) * 2 ≤ options.allocated.toNat

/-- The conversion of a source to a destination is safe, its output is what `mbstowcs` stands for,
the buffer of the stub is large enough for it, and it resumes behind accepted sequences. -/
structure ConversionSafe (env : StubEnvironment D σ τ) (src : ℕ → UInt8) (len : ℕ)
    (dest : ℕ → UInt16) : Prop where
  inside : ∃ last writes, ConvertsInside src len dest last writes
  output : let stored := mbstowcsStore dest src len
    (List.range (stored.2 + 1)).map stored.1 = mbstowcs src len ++ [0]
  buffer : CmdlineInBuffer env
  resumes : ∀ sequences : List (List UInt8), (∀ bytes ∈ sequences, AcceptedSequence bytes) →
    ∀ (rest : List UInt8) (whole first second : ByteStore),
      mbstowcs (ByteStore.ofList (sequences.flatten ++ rest) whole)
          (sequences.flatten ++ rest).length =
        mbstowcs (ByteStore.ofList sequences.flatten first) sequences.flatten.length ++
          mbstowcs (ByteStore.ofList rest second) rest.length

theorem convertsInside (src : ℕ → UInt8) (len : ℕ) (dest : ℕ → UInt16) :
    ∃ last writes, ConvertsInside src len dest last writes := by
  obtain ⟨last, run, same⟩ := @loopRun_of_enough src len len ⟨0, 0, dest⟩
    (Nat.le_of_eq (Nat.zero_add len).symm)
  have returned : mbstowcsStore dest src len =
      (Function.update last.dest last.strlen 0, last.strlen) := by
    rw [mbstowcsStore, same]
  refine ⟨last, _, run.trace, run.ended, returned, ?_, ?_, fun index beyond => ?_⟩
  · exact Nat.le_trans run.bounded (Nat.le_of_eq (Nat.zero_add len))
  · rw [Nat.sub_zero, ← List.range_eq_range', List.range_succ]
  · rw [returned]
    exact (Function.update_of_ne (Nat.ne_of_gt beyond) _ _).trans
      (run.kept index (Nat.le_of_lt beyond))

theorem located_cmdline_size {env : StubEnvironment D σ τ} {sections : StubSections}
    (located : env.located = some sections) : sections.cmdline.size.toNat < 2 ^ 32 := by
  rw [StubEnvironment.located] at located
  split at located
  · next found searched =>
    obtain ⟨entries, rfl, listed⟩ := Option.bind_eq_some_iff.mp located
    exact peLocateSections_size searched _ (StubSections.cmdline_mem listed)
  · contradiction
  · contradiction

theorem cmdlineInBuffer (env : StubEnvironment D σ τ) : CmdlineInBuffer env := by
  intro sections options located embedded present built
  have small := located_cmdline_size located
  have section_ : (sections.cmdline.loadAddress != 0) = true := by simpa using present
  rw [buildOptions, if_neg (by simp [embedded]), if_pos section_, allocateSimpleBuffer_eq] at built
  split_ifs at built with failed
  dsimp only at built
  obtain rfl := Option.some.inj built
  have size : ((sections.cmdline.size + 1) * 2).toNat = (sections.cmdline.size.toNat + 1) * 2 := by
    rw [UInt64.toNat_mul, UInt64.toNat_add]
    change (_ + 1) % _ * 2 % _ = _
    omega
  refine ⟨size, fun dest => ?_⟩
  obtain ⟨last, writes, converted⟩ := convertsInside
    (env.loaded.memory.from_ sections.cmdline.loadAddress.toNat) sections.cmdline.size.toNat dest
  rw [converted.returned]
  change _ ≤ ((sections.cmdline.size + 1) * 2).toNat
  rw [size]
  exact Nat.mul_le_mul_right 2 (Nat.succ_le_succ converted.counted)

/-- Whatever the bytes, the conversion is safe, and it resumes behind what it has accepted. -/
theorem conversionSafe (env : StubEnvironment D σ τ) (src : ℕ → UInt8) (len : ℕ)
    (dest : ℕ → UInt16) : ConversionSafe env src len dest where
  inside := convertsInside src len dest
  output := (mbstowcsStore_eq dest src len).2
  buffer := cmdlineInBuffer env
  resumes sequences accepted rest whole first second := by
    rw [mbstowcs_append accepted rest whole first, mbstowcs_behind rest whole second]

end Conversion

end ZLoader
