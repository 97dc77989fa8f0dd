import Mathlib.Data.List.GetD
import ZLoader.Soundness.Lz4Turns

/-! # Decoding an LZ4 block

Whatever its input is, a call of the decoder ends, and touches nothing but its buffers. When it
succeeds, the input was a block of the format and the output is what this block stands for; blocks
that keep the rules for their end are decoded. How the loops are built, where the output goes and
where the dictionary stands makes no difference to that.
-/

namespace ZLoader

/-- Some sequences have been decoded, and there is input left. -/
structure Decoded (call : Lz4Call) (memory : ByteStore) (history : List UInt8)
    (sequences : List MatchSequence) (st : Lz4State) : Prop where
  holds : st.Holds call memory history (applySequences history sequences)
  reaching : Reaching history.length sequences
  low : call.src ≤ st.ip
  inside : st.ip < call.iend
  exact_ : call.Short → memory.bytesAt call.src (st.ip - call.src) = sequenceBytes sequences
  completion : call.Short → call.Completion memory history history call.src →
    call.Completion memory history (applySequences history sequences) st.ip

/-- What holds between the turns of a call. -/
inductive RunHolds (call : Lz4Call) (memory : ByteStore) (history : List UInt8) :
    Lz4Turn → Prop where
  | fast {sequences : List MatchSequence} {st : Lz4State}
      (decoded : Decoded call memory history sequences st) (room : st.op + 64 ≤ call.oend) :
      RunHolds call memory history (.fast st)
  | safe {sequences : List MatchSequence} {st : Lz4State}
      (decoded : Decoded call memory history sequences st) : RunHolds call memory history (.safe st)
  | finished {block : SequenceBlock} {st : Lz4State}
      (holds : st.Holds call memory history (applySequences history block.sequences ++ block.last))
      (reaching : Reaching history.length block.sequences)
      (exact_ : call.Short → memory.bytesAt call.src call.srcSize = block.bytes) :
      RunHolds call memory history (.finished st)
  | failed {st : Lz4State} (contained : st.Contained call memory) (low : call.src ≤ st.ip)
      (refuses : call.Short → ¬ call.Completion memory history history call.src) :
      RunHolds call memory history (.failed st)

/-- The input that is left for further turns. -/
def Lz4Turn.left (call : Lz4Call) : Lz4Turn → ℕ
  | .fast st | .safe st => call.iend - st.ip
  | .finished _ | .failed _ => 0

section Runs

variable {call : Lz4Call} {memory : ByteStore} {history : List UInt8}
  {sequences : List MatchSequence} {st : Lz4State} {turn : Lz4Turn}

/-- The rest of a block behind a sequence. -/
theorem Lz4Call.Completion.tail {data : List UInt8} {ip next : ℕ} {seq : MatchSequence}
    (completion : call.Completion memory history data ip) (after : ip ≤ next)
    (inside : next < call.iend) (bytes : memory.bytesAt ip (next - ip) = seq.bytes) :
    call.Completion memory history (seq.apply data) next := by
  obtain ⟨⟨sequences, nibble, last, low⟩, ahead, reaching, fits, ends⟩ := completion
  rw [Lz4Call.ahead_eq _ _ after (Nat.le_of_lt inside), bytes] at ahead
  cases sequences with
  | nil => exact (lastBytes_ne_bytes low last seq _ ahead.symm).elim
  | cons other rest =>
    rw [SequenceBlock.bytes, sequenceBytes_cons, List.append_assoc] at ahead
    obtain ⟨rfl, rest_⟩ := MatchSequence.bytes_injective ahead
    refine ⟨⟨rest, nibble, last, low⟩, rest_, ?_, ?_, ends.tail⟩
    · rw [MatchSequence.apply_length]
      exact reaching.2
    · rw [SequenceBlock.size, sequencesSize_cons] at fits
      rw [MatchSequence.apply_length, SequenceBlock.size]
      dsimp only at fits ⊢
      omega

theorem Decoded.sequence (decoded : Decoded call memory history sequences st) {st' : Lz4State}
    (takes : st'.TakesSequence call memory history (applySequences history sequences) st.ip) :
    ∃ seq, Decoded call memory history (sequences ++ [seq]) st' ∧ st.ip < st'.ip := by
  obtain ⟨seq, holds, reaches, after, inside, bytes⟩ := takes
  have low := decoded.low
  refine ⟨seq, ⟨?_, ?_, by omega, inside, fun short => ?_, fun short completion => ?_⟩, after⟩
  · rwa [applySequences_concat]
  · rw [applySequences_length] at reaches
    exact (reaching_concat ..).mpr ⟨decoded.reaching, reaches⟩
  · rw [show st'.ip - call.src = st.ip - call.src + (st'.ip - st.ip) by omega,
      ByteStore.bytesAt_add, decoded.exact_ short, Nat.add_sub_cancel' low, bytes short,
      sequenceBytes_concat]
  · rw [applySequences_concat]
    exact (decoded.completion short completion).tail (Nat.le_of_lt after) inside (bytes short)

/-- What a turn leaves. -/
theorem Decoded.ends (decoded : Decoded call memory history sequences st)
    (ends : TurnEnds call memory history (applySequences history sequences) st.ip turn) :
    RunHolds call memory history turn ∧ turn.left call < call.iend - st.ip := by
  have low := decoded.low
  have inside := decoded.inside
  cases ends with
  | fast takes room =>
    obtain ⟨seq, decoded', after⟩ := decoded.sequence takes
    have inside' := decoded'.inside
    exact ⟨.fast decoded' room, by rw [Lz4Turn.left]; omega⟩
  | safe takes =>
    obtain ⟨seq, decoded', after⟩ := decoded.sequence takes
    have inside' := decoded'.inside
    exact ⟨.safe decoded', by rw [Lz4Turn.left]; omega⟩
  | finished takes =>
    obtain ⟨nibble, last, lt, holds, bytes⟩ := takes
    refine ⟨@RunHolds.finished _ _ _ ⟨sequences, nibble, last, lt⟩ _ holds decoded.reaching
      fun short => ?_, by rw [Lz4Turn.left]; omega⟩
    have all := Lz4Call.ahead_eq call memory low (Nat.le_of_lt inside)
    rw [decoded.exact_ short, bytes short, Lz4Call.ahead, Lz4Call.iend, Nat.add_sub_cancel_left]
      at all
    exact all
  | failed refuses =>
    obtain ⟨contained, low', refuses⟩ := refuses
    exact ⟨.failed contained (by omega) fun short completion =>
      refuses short (decoded.completion short completion), by rw [Lz4Turn.left]; omega⟩

/-- The run of a call: with a turn for each byte of the input it comes to an end. -/
theorem RunHolds.run (placed : call.Placed memory history)
    (holds : RunHolds call memory history turn) (turns : ℕ) (enough : turn.left call ≤ turns) :
    RunHolds call memory history (lz4Turns call turns turn) ∧
      (lz4Turns call turns turn).left call = 0 := by
  induction turns generalizing turn with
  | zero => exact ⟨holds, Nat.le_zero.mp enough⟩
  | succ turns ih =>
    cases holds with
    | fast decoded room =>
      obtain ⟨holds, less⟩ := decoded.ends
        (decoded.holds.fastTurn placed decoded.low decoded.inside room)
      exact ih holds (Nat.le_of_lt_succ (Nat.lt_of_lt_of_le less enough))
    | safe decoded =>
      obtain ⟨holds, less⟩ := decoded.ends
        (decoded.holds.safeTurn placed decoded.low decoded.inside)
      exact ih holds (Nat.le_of_lt_succ (Nat.lt_of_lt_of_le less enough))
    | finished holds reaching exact_ => exact ⟨.finished holds reaching exact_, rfl⟩
    | failed contained low refuses => exact ⟨.failed contained low refuses, rfl⟩

end Runs

/-! ## The call -/

/-- How a call ends: it has decoded a block, or refused what is not a proper one. -/
inductive CallEnds (call : Lz4Call) (memory : ByteStore) (history : List UInt8) :
    Lz4Outcome → Prop where
  | decoded {block : SequenceBlock} {st : Lz4State} (contained : st.Contained call memory)
      (bytes : call.Short → memory.bytesAt call.src call.srcSize = block.bytes)
      (reaching : Reaching history.length block.sequences) (room : block.size ≤ call.outputSize)
      (output : st.memory.bytesAt call.dst block.size = block.decode history) :
      CallEnds call memory history (.returned block.size st)
  | refused {result : ℤ} {st : Lz4State} (contained : st.Contained call memory)
      (negative : result < 0)
      (refuses : call.Short → 0 < call.outputSize →
        ¬ call.Completion memory history history call.src) :
      CallEnds call memory history (.returned result st)

section Calls

variable {call : Lz4Call} {memory : ByteStore} {history data : List UInt8} {st : Lz4State}

/-- The output is the data behind the history. -/
theorem Lz4State.Holds.output (placed : call.Placed memory history)
    (holds : st.Holds call memory history data) :
    st.memory.bytesAt call.dst (st.op - call.dst) = data.drop history.length := by
  have length := holds.length
  have low := holds.low
  have lowPrefix := placed.lowPrefix_le
  apply List.ext_getElem
  · rw [ByteStore.bytesAt_length, List.length_drop]
    omega
  · intro index inside inside'
    rw [ByteStore.bytesAt_length] at inside
    have recalled := holds.recalls (st.op - (call.dst + index)) (by omega) (by omega)
    rw [Lz4Call.place_of_le fun _ => by omega, Nat.sub_sub_self (by omega)] at recalled
    rw [← List.getD_eq_getElem _ 0, ByteStore.bytesAt_getD _ _ inside, recalled,
      List.getElem_drop, ← List.getD_eq_getElem _ 0]
    congr 1
    omega

theorem Lz4Call.Completion.srcSize_pos (completion : call.Completion memory history data call.src) :
    0 < call.srcSize := by
  obtain ⟨length, nibble, rest, -, -, same⟩ := completion.literals
  have total := congrArg List.length same
  rw [ahead_length, iend, Nat.add_sub_cancel_left] at total
  rw [total]
  exact Nat.succ_pos _

variable (placed : call.Placed memory history)

include placed

/-- The first turn of a call. -/
theorem RunHolds.start (some_ : call.srcSize ≠ 0) :
    RunHolds call memory history (if call.fastDecLoop && !decide (call.outputSize < 64) then
      .fast ⟨memory, call.src, call.dst, [], []⟩ else .safe ⟨memory, call.src, call.dst, [], []⟩) := by
  have decoded : Decoded call memory history [] ⟨memory, call.src, call.dst, [], []⟩ :=
    { holds := Lz4State.holds_start placed
      reaching := trivial
      low := Nat.le_refl _
      inside := Nat.lt_add_of_pos_right (Nat.pos_of_ne_zero some_)
      exact_ := fun _ => by
        rw [Nat.sub_self]
        rfl
      completion := fun _ completion => completion }
  split
  next quick =>
    rw [Bool.and_eq_true, Bool.not_eq_true', decide_eq_false_iff_not] at quick
    refine .fast decoded ?_
    change call.dst + 64 ≤ call.dst + call.outputSize
    omega
  next => exact .safe decoded

theorem lz4DecompressGeneric_ends :
    CallEnds call memory history (lz4DecompressGeneric call memory) := by
  have start := (Lz4State.holds_start placed).toContained
  rw [lz4DecompressGeneric, if_neg placed.source]
  dsimp only
  split
  next none_ =>
    split
    next one =>
      have loaded := start.load call.src 1 (.inl ⟨Nat.le_refl _, by
        rw [Lz4Call.iend, one]⟩)
      split
      next zero =>
        refine @CallEnds.decoded _ _ _ ⟨[], 0, [], by omega⟩ _ loaded (fun _ => ?_) trivial
          (Nat.zero_le _) ?_
        · rw [one, ByteStore.bytesAt_succ, zero]
          rfl
        · rw [SequenceBlock.decode, List.append_nil]
          exact (List.drop_length).symm
      next => exact .refused loaded (by decide) fun _ positive => absurd none_ (Nat.ne_of_gt positive)
    next => exact .refused start (by decide) fun _ positive => absurd none_ (Nat.ne_of_gt positive)
  next =>
    split
    next empty =>
      exact .refused start (by decide) fun _ _ completion =>
        absurd empty (Nat.ne_of_gt completion.srcSize_pos)
    next some_ =>
      obtain ⟨holds, ended⟩ := (RunHolds.start placed some_).run placed call.srcSize
        (by split <;> exact Nat.le_of_eq (Nat.add_sub_cancel_left ..))
      generalize lz4Turns call call.srcSize _ = turn at holds ended
      cases holds with
      | fast decoded => exact absurd decoded.inside (Nat.not_lt.mpr (Nat.sub_eq_zero_iff_le.mp ended))
      | safe decoded => exact absurd decoded.inside (Nat.not_lt.mpr (Nat.sub_eq_zero_iff_le.mp ended))
      | @finished block st holds reaching exact_ =>
        have length := holds.length
        have low := holds.low
        have room := holds.room
        have oend : call.oend = call.dst + call.outputSize := rfl
        rw [List.length_append, applySequences_length] at length
        have size : block.size = st.op - call.dst := by
          rw [SequenceBlock.size]
          omega
        have result : (st.op - call.dst : ℤ) = (block.size : ℕ) := by
          rw [size, Nat.cast_sub low]
        dsimp only
        rw [result]
        refine .decoded holds.toContained exact_ reaching (by omega) ?_
        rw [size, holds.output placed, SequenceBlock.decode]
      | failed contained low refuses =>
        exact .refused contained (by omega) fun short _ => refuses short

end Calls

/-! ## With a dictionary -/

/-- The buffers of `LZ4_decompress_safe_usingDict`: the dictionary is empty, or it stands in front of
the output, or apart from it. -/
structure DictPlaced (source dest compressedSize maxOutputSize dictStart dictSize : ℕ) : Prop where
  source_ne : source ≠ 0
  low : 65536 ≤ dest
  high : dest + maxOutputSize + 2 ^ 33 ≤ 2 ^ 64
  highInput : source + compressedSize + 2 ^ 33 ≤ 2 ^ 64
  apart : source + compressedSize ≤ dest ∨ dest + maxOutputSize ≤ source
  dictionary : dictSize = 0 ∨ dictStart + dictSize = dest ∨ dictStart ≠ 0 ∧
    (dictStart + dictSize ≤ dest ∨ dest + maxOutputSize ≤ dictStart)

/-- The instance that is chosen finds the dictionary. -/
theorem DictPlaced.placed
    {source dest compressedSize maxOutputSize dictStart dictSize : ℕ} (fast : Bool)
    (memory : ByteStore)
    (placed : DictPlaced source dest compressedSize maxOutputSize dictStart dictSize) :
    (lz4UsingDict fast source dest compressedSize maxOutputSize dictStart dictSize).Placed memory
      (memory.bytesAt dictStart dictSize) := by
  have low := placed.low
  have size := ByteStore.bytesAt_length memory dictStart dictSize
  rw [lz4UsingDict]
  dsimp only
  split_ifs with none_ front large
  · refine ⟨placed.source_ne, placed.low, placed.high, placed.highInput, placed.apart, ?_⟩
    subst none_
    exact .smallPrefix rfl rfl rfl rfl
  · refine ⟨placed.source_ne, placed.low, placed.high, placed.highInput, placed.apart, ?_⟩
    refine .largePrefix rfl rfl ?_ ?_ ?_ ?_
    · dsimp only
      omega
    · omega
    · dsimp only
      omega
    · dsimp only
      rw [size, ← front, Nat.add_sub_cancel]
  · refine ⟨placed.source_ne, placed.low, placed.high, placed.highInput, placed.apart, ?_⟩
    refine .smallPrefix rfl rfl ?_ ?_
    · dsimp only
      omega
    · dsimp only
      rw [size, ← front, Nat.add_sub_cancel]
  · refine ⟨placed.source_ne, placed.low, placed.high, placed.highInput, placed.apart, ?_⟩
    obtain ⟨start, apart⟩ := (placed.dictionary.resolve_left none_).resolve_left front
    exact .dictionary rfl rfl size.symm start apart (congrArg _ size)

/-! ## What a call does -/

section Results

variable {call : Lz4Call} {memory : ByteStore} {history : List UInt8} {st : Lz4State}

/-- The block that a successful call has decoded. -/
theorem CallEnds.block {result : ℤ} (ends : CallEnds call memory history (.returned result st))
    (short : call.Short) (success : 0 ≤ result) :
    ∃ block : SequenceBlock, memory.bytesAt call.src call.srcSize = block.bytes ∧
      Reaching history.length block.sequences ∧ result = block.size ∧
      block.size ≤ call.outputSize ∧
      st.memory.bytesAt call.dst block.size = block.decode history := by
  cases ends with
  | @decoded block _ contained bytes reaching room output =>
    exact ⟨block, bytes short, reaching, rfl, room, output⟩
  | refused contained negative refuses => exact absurd success (Int.not_le.mpr negative)

/-- Every call ends, reads only the input, the output and the history, and writes only the output. -/
theorem lz4DecompressGeneric_contained (placed : call.Placed memory history) :
    ∃ result st, lz4DecompressGeneric call memory = .returned result st ∧
      st.Contained call memory ∧ result ≤ call.outputSize := by
  have ends := lz4DecompressGeneric_ends placed
  generalize lz4DecompressGeneric call memory = outcome at ends
  cases ends with
  | decoded contained bytes reaching room output => exact ⟨_, _, rfl, contained, Int.ofNat_le.mpr room⟩
  | refused contained negative refuses => exact ⟨_, _, rfl, contained, by omega⟩

/-- An input that ends within a length. -/
theorem lz4DecompressGeneric_contained_short :
    ∃ result st, lz4DecompressGeneric (lz4UsingDict true 70000 80000 3 100 90000 65536)
        (fun _ => 255) = .returned result st ∧
      st.Contained (lz4UsingDict true 70000 80000 3 100 90000 65536) (fun _ => 255) ∧
      result ≤ 100 := by
  have placed : DictPlaced 70000 80000 3 100 90000 65536 :=
    ⟨by omega, by omega, by omega, by omega, by omega, .inr (.inr ⟨by omega, by omega⟩)⟩
  exact lz4DecompressGeneric_contained (placed.placed true _)

/-- What has been decoded is what the input stands for behind the history. -/
theorem lz4DecompressGeneric_sound (placed : call.Placed memory history) (short : call.Short)
    {result : ℤ}
    (returned : lz4DecompressGeneric call memory = .returned result st) (success : 0 ≤ result) :
    ∃ block : SequenceBlock, memory.bytesAt call.src call.srcSize = block.bytes ∧
      Reaching history.length block.sequences ∧ result = block.size ∧
      block.size ≤ call.outputSize ∧
      st.memory.bytesAt call.dst block.size = block.decode history := by
  have ends := lz4DecompressGeneric_ends placed
  rw [returned] at ends
  exact ends.block short success

/-- The value and the state of a call that has returned. -/
def Lz4Outcome.returned? : Lz4Outcome → Option (ℤ × Lz4State)
  | .returned result st => some (result, st)
  | .running _ => none

theorem Lz4Outcome.eq_returned {outcome : Lz4Outcome} {result : ℤ}
    (returned : outcome.returned? = some (result, st)) : outcome = .returned result st := by
  cases outcome with
  | returned value last =>
    obtain ⟨rfl, rfl⟩ := Prod.mk.inj (Option.some.inj returned)
    rfl
  | running last => cases returned

/-- A block with a match that reaches four bytes in front of the output, and these four bytes. -/
def reachingMemory (source history : ℕ) : ByteStore := fun index =>
  if source ≤ index ∧ index < source + 10 then
    [0x14, 0x61, 5, 0, 0x50, 6, 7, 8, 9, 10].getD (index - source) 0
  else [1, 2, 3, 4].getD (index - history) 0

theorem lz4DecompressGeneric_sound_match :
    ∃ block : SequenceBlock, (reachingMemory 70000 90000).bytesAt 70000 10 = block.bytes ∧
      Reaching 4 block.sequences ∧ 14 = block.size ∧
      block.decode [1, 2, 3, 4] = [0x61, 1, 2, 3, 4, 0x61, 1, 2, 3, 6, 7, 8, 9, 10] := by
  have placed : DictPlaced 70000 80000 10 100 90000 4 :=
    ⟨by omega, by omega, by omega, by omega, by omega, .inr (.inr ⟨by omega, by omega⟩)⟩
  have decodes : (lz4DecompressGeneric (lz4UsingDict true 70000 80000 10 100 90000 4)
      (reachingMemory 70000 90000)).returned?.map (fun (result, st) =>
        (result, st.memory.bytesAt 80000 14)) =
      some (14, [0x61, 1, 2, 3, 4, 0x61, 1, 2, 3, 6, 7, 8, 9, 10]) := by decide +kernel
  obtain ⟨⟨result, st⟩, returned, same⟩ := Option.map_eq_some_iff.mp decodes
  obtain ⟨rfl, bytes⟩ := Prod.mk.inj same
  obtain ⟨block, input, reaching, size, -, output⟩ := lz4DecompressGeneric_sound
    (placed.placed true (reachingMemory 70000 90000)) (show 10 ≤ 2 ^ 24 by omega)
    (Lz4Outcome.eq_returned returned) (by omega)
  have size := Int.ofNat_inj.mp size
  have history : (reachingMemory 70000 90000).bytesAt 90000 4 = [1, 2, 3, 4] := by decide
  rw [← size, history] at output
  rw [ByteStore.bytesAt_length] at reaching
  exact ⟨block, input, reaching, size, output.symm.trans bytes⟩

/-- A block that reaches only what there is, fits the output and keeps the rules for its end is
decoded. -/
theorem lz4DecompressGeneric_complete (placed : call.Placed memory history) (short : call.Short)
    (some_ : 0 < call.outputSize)
    {block : SequenceBlock} (bytes : memory.bytesAt call.src call.srcSize = block.bytes)
    (reaching : Reaching history.length block.sequences) (room : block.size ≤ call.outputSize)
    (ends : block.EndsWell) :
    ∃ st, lz4DecompressGeneric call memory = .returned block.size st ∧
      st.memory.bytesAt call.dst block.size = block.decode history := by
  have completion : call.Completion memory history history call.src := by
    refine ⟨block, ?_, reaching, Nat.add_le_add_left room _, ends⟩
    rw [Lz4Call.ahead, Lz4Call.iend, Nat.add_sub_cancel_left, bytes]
  have outcome := lz4DecompressGeneric_ends placed
  generalize lz4DecompressGeneric call memory = returned at outcome
  cases outcome with
  | @decoded other st contained bytes' reaching' room' output =>
    obtain rfl := SequenceBlock.bytes_injective (bytes.symm.trans (bytes' short))
    exact ⟨st, rfl, output⟩
  | refused contained negative refuses => exact absurd completion (refuses short some_)

theorem lz4DecompressGeneric_complete_match :
    ∃ st, lz4DecompressGeneric (lz4UsingDict true 70000 80000 10 100 0 0)
        (fun index => [0x14, 0x61, 1, 0, 0x50, 1, 2, 3, 4, 5].getD (index - 70000) 0) =
          .returned 14 st ∧
      st.memory.bytesAt 80000 14 =
        [0x61, 0x61, 0x61, 0x61, 0x61, 0x61, 0x61, 0x61, 0x61, 1, 2, 3, 4, 5] := by
  have placed : DictPlaced 70000 80000 10 100 0 0 :=
    ⟨by omega, by omega, by omega, by omega, by omega, .inl rfl⟩
  obtain ⟨block, same⟩ : ∃ block : SequenceBlock, block =
    ⟨[] ++ [⟨[0x61], 1, 8, by omega, by omega⟩], 0, [1, 2, 3, 4, 5], by omega⟩ := ⟨_, rfl⟩
  have bytes : block.bytes = [0x14, 0x61, 1, 0, 0x50, 1, 2, 3, 4, 5] := by
    rw [same]
    decide
  have decoded : block.size = 14 ∧ block.decode [] =
      [0x61, 0x61, 0x61, 0x61, 0x61, 0x61, 0x61, 0x61, 0x61, 1, 2, 3, 4, 5] := by
    rw [same]
    decide
  have ends : block.EndsWell := by
    rw [same, SequenceBlock.endsWell_concat]
    decide
  have reaching : Reaching 0 block.sequences := by
    rw [same]
    exact ⟨by decide, trivial⟩
  obtain ⟨st, returned, output⟩ := @lz4DecompressGeneric_complete _
    (fun index => [0x14, 0x61, 1, 0, 0x50, 1, 2, 3, 4, 5].getD (index - 70000) 0) []
    (placed.placed true _) (show 10 ≤ 2 ^ 24 by omega) (show 0 < 100 by omega) block
    (by rw [bytes]; decide) reaching
    (by rw [decoded.1]; decide) ends
  rw [decoded.1] at returned output
  exact ⟨st, returned, output.trans decoded.2⟩

/-- Two calls that both succeed on the same input behind the same history leave the same output,
whichever loops they run and wherever their buffers and the history stand. -/
theorem lz4DecompressGeneric_agree (placed : call.Placed memory history) {other : Lz4Call}
    {memory' : ByteStore} (placed' : other.Placed memory' history) (short : call.Short)
    (same : memory'.bytesAt other.src other.srcSize = memory.bytesAt call.src call.srcSize)
    {st' : Lz4State} {result result' : ℤ}
    (returned : lz4DecompressGeneric call memory = .returned result st) (success : 0 ≤ result)
    (returned' : lz4DecompressGeneric other memory' = .returned result' st')
    (success' : 0 ≤ result') :
    result' = result ∧
      st'.memory.bytesAt other.dst result.toNat = st.memory.bytesAt call.dst result.toNat := by
  have lengths := congrArg List.length same
  rw [ByteStore.bytesAt_length, ByteStore.bytesAt_length] at lengths
  have short' : other.Short := lengths.trans_le short
  have ends := lz4DecompressGeneric_ends placed
  have ends' := lz4DecompressGeneric_ends placed'
  rw [returned] at ends
  rw [returned'] at ends'
  obtain ⟨block, bytes, -, rfl, -, output⟩ := ends.block short success
  obtain ⟨block', bytes', -, rfl, -, output'⟩ := ends'.block short' success'
  obtain rfl := SequenceBlock.bytes_injective (bytes'.symm.trans (same.trans bytes))
  exact ⟨rfl, output'.trans output.symm⟩

/-- The fast loop with a dictionary somewhere else, and the main loop with one in front of the
output. -/
theorem lz4DecompressGeneric_agree_match :
    ∃ st st', lz4DecompressGeneric (lz4UsingDict true 70000 80000 10 100 90000 4)
        (reachingMemory 70000 90000) = .returned 14 st ∧
      lz4DecompressGeneric (lz4UsingDict false 70001 75000 10 64 74996 4)
        (reachingMemory 70001 74996) = .returned 14 st' ∧
      st'.memory.bytesAt 75000 14 = st.memory.bytesAt 80000 14 := by
  have placed : DictPlaced 70000 80000 10 100 90000 4 :=
    ⟨by omega, by omega, by omega, by omega, by omega, .inr (.inr ⟨by omega, by omega⟩)⟩
  have placed' : DictPlaced 70001 75000 10 64 74996 4 :=
    ⟨by omega, by omega, by omega, by omega, by omega, .inr (.inl rfl)⟩
  have history : (reachingMemory 70001 74996).bytesAt 74996 4 =
      (reachingMemory 70000 90000).bytesAt 90000 4 := by decide
  have second := placed'.placed false (reachingMemory 70001 74996)
  rw [history] at second
  have decodes : (lz4DecompressGeneric (lz4UsingDict true 70000 80000 10 100 90000 4)
      (reachingMemory 70000 90000)).returned?.map Prod.fst = some 14 := by decide +kernel
  have decodes' : (lz4DecompressGeneric (lz4UsingDict false 70001 75000 10 64 74996 4)
      (reachingMemory 70001 74996)).returned?.map Prod.fst = some 14 := by decide +kernel
  obtain ⟨⟨_, st⟩, returned, rfl⟩ := Option.map_eq_some_iff.mp decodes
  obtain ⟨⟨result, st'⟩, returned', same⟩ := Option.map_eq_some_iff.mp decodes'
  obtain rfl : result = 14 := same
  have returned := Lz4Outcome.eq_returned returned
  have returned' := Lz4Outcome.eq_returned returned'
  have agree := lz4DecompressGeneric_agree (placed.placed true (reachingMemory 70000 90000)) second
    (show 10 ≤ 2 ^ 24 by omega) (by decide) returned (by decide) returned' (by decide)
  exact ⟨st, st', returned, returned', agree.2⟩

end Results

end ZLoader
