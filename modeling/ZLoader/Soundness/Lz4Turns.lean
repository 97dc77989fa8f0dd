import ZLoader.Soundness.Lz4Lengths

/-! # A turn of the LZ4 decoder takes one sequence

A turn of either loop reads a token, the literals and a match, and leaves the data longer by this
sequence, or reads the last literals of the block. It fails only where no block that keeps the rules
for its end goes on there.
-/

namespace ZLoader

/-- A block goes on at an address that keeps the rules for its end, reaches only what there is, and
fits the output. -/
def Lz4Call.Completion (call : Lz4Call) (memory : ByteStore) (history data : List UInt8)
    (ip : ℕ) : Prop :=
  ∃ block : SequenceBlock, call.ahead memory ip = block.bytes ∧
    Reaching data.length block.sequences ∧
    data.length + block.size ≤ history.length + call.outputSize ∧ block.EndsWell

namespace Lz4State

/-- A turn that started at an address of the input has taken a sequence. -/
def TakesSequence (call : Lz4Call) (memory : ByteStore) (history data : List UInt8) (ip : ℕ)
    (st : Lz4State) : Prop :=
  ∃ seq : MatchSequence, st.Holds call memory history (seq.apply data) ∧
    seq.offset ≤ data.length + seq.literals.length ∧ ip < st.ip ∧ st.ip < call.iend ∧
    (call.Short → memory.bytesAt ip (st.ip - ip) = seq.bytes)

/-- A turn has taken the last literals. -/
def TakesLast (call : Lz4Call) (memory : ByteStore) (history data : List UInt8) (ip : ℕ)
    (st : Lz4State) : Prop :=
  ∃ nibble last, nibble < 16 ∧ st.Holds call memory history (data ++ last) ∧
    (call.Short → call.ahead memory ip = SequenceBlock.lastBytes nibble last)

/-- A turn has failed, and had to. -/
def Refuses (call : Lz4Call) (memory : ByteStore) (history data : List UInt8) (ip : ℕ)
    (st : Lz4State) : Prop :=
  st.Contained call memory ∧ call.src ≤ st.ip ∧
    (call.Short → ¬ call.Completion memory history data ip)

end Lz4State

/-- What a turn that started at an address comes to. -/
inductive TurnEnds (call : Lz4Call) (memory : ByteStore) (history data : List UInt8) (ip : ℕ) :
    Lz4Turn → Prop where
  | fast {st : Lz4State} (takes : st.TakesSequence call memory history data ip)
      (room : st.op + 64 ≤ call.oend) : TurnEnds call memory history data ip (.fast st)
  | safe {st : Lz4State} (takes : st.TakesSequence call memory history data ip) :
      TurnEnds call memory history data ip (.safe st)
  | finished {st : Lz4State} (takes : st.TakesLast call memory history data ip) :
      TurnEnds call memory history data ip (.finished st)
  | failed {st : Lz4State} (refuses : st.Refuses call memory history data ip) :
      TurnEnds call memory history data ip (.failed st)

namespace Lz4State

variable {call : Lz4Call} {memory : ByteStore} {history data : List UInt8} {st st' : Lz4State}

theorem Holds.of_same (holds : st.Holds call memory history data)
    (contained : st'.Contained call memory) (same : st'.memory = st.memory) (op : st'.op = st.op) :
    st'.Holds call memory history data where
  toContained := contained
  low := op ▸ holds.low
  room := op ▸ holds.room
  length := op ▸ holds.length
  recalls back := by
    rw [same, op]
    exact holds.recalls back

end Lz4State

/-- A cursor and a length of 32 bits stay away from the end of the address space. -/
theorem not_lz4Overflows {p last : ℕ} (le : p ≤ last) (high : last + 2 ^ 33 ≤ 2 ^ 64)
    (more : UInt32) : ¬ lz4Overflows p (15 + more.toNat) = true := by
  have bound := more.toNat_lt
  rw [lz4Overflows, decide_eq_true_eq, Nat.mod_eq_of_lt (by omega)]
  omega

/-! ## Literals -/

/-- What the literals leave, without an end. -/
def Lz4State.wantLiterals (st : Lz4State) (memory : ByteStore) : ByteStore := fun index =>
  if index < st.op then st.memory index else memory (st.ip + (index - st.op))

/-- A token and the length of its literals have been read. -/
structure Opened (call : Lz4Call) (memory : ByteStore) (history data : List UInt8) (ip token : ℕ)
    (length : ℕ) (st : Lz4State) : Prop where
  holds : st.Holds call memory history data
  low : call.src ≤ ip
  after : ip < st.ip
  inside : st.ip ≤ call.iend
  exact_ : call.Short →
    (token / 16 = min length 15 ∧ memory.bytesAt ip (st.ip - ip) =
      tokenByte length (token % 16) :: lengthBytes length) ∨
    (call.iend < st.ip + length ∧ ¬ call.Completion memory history data ip)

/-- Token, literals and so many bytes of the match have been read. -/
structure Taken (call : Lz4Call) (memory : ByteStore) (history data : List UInt8) (ip token : ℕ)
    (literals behind : List UInt8) (st : Lz4State) : Prop where
  holds : st.Holds call memory history (data ++ literals)
  low : call.src ≤ ip
  after : ip < st.ip
  inside : st.ip ≤ call.iend
  exact_ : call.Short →
    token / 16 = min literals.length 15 ∧ memory.bytesAt ip (st.ip - ip) =
      tokenByte literals.length (token % 16) :: lengthBytes literals.length ++ literals ++ behind

section Literals

variable {call : Lz4Call} {memory : ByteStore} {history data literals behind : List UInt8}
  {ip token length : ℕ} {st : Lz4State}

/-- What is left behind the length: the last literals, or the literals of a sequence, and the match
with enough behind it. -/
theorem Opened.completion (opened : Opened call memory history data ip token length st)
    (short : call.Short) (completion : call.Completion memory history data ip) :
    (st.ip + length = call.iend ∧ st.op + length ≤ call.oend) ∨
      (st.ip + length + 8 ≤ call.iend ∧ st.op + length + 12 ≤ call.oend) := by
  obtain ⟨-, bytes⟩ := (opened.exact_ short).resolve_right fun refuted => refuted.2 completion
  obtain ⟨block, ahead, reaching, fits, ends⟩ := completion
  have place := opened.holds.length
  have inside := opened.inside
  have oend : call.oend = call.dst + call.outputSize := rfl
  have total := Lz4Call.ahead_length call memory st.ip
  have nibble := Nat.mod_lt token (show 0 < 16 by omega)
  rw [Lz4Call.ahead_eq _ _ (Nat.le_of_lt opened.after) inside, bytes] at ahead
  rcases SequenceBlock.opens reaching ends with ⟨nibble', low, last, same, size⟩ |
    ⟨seq, tail, same, fit⟩
  · rw [same, SequenceBlock.lastBytes] at ahead
    obtain ⟨-, rfl, rest⟩ := opening_injective nibble low ahead
    rw [rest] at total
    exact .inl ⟨by omega, by omega⟩
  · rw [same, MatchSequence.bytes, List.append_assoc, List.append_assoc, List.append_assoc] at ahead
    obtain ⟨-, rfl, rest⟩ := opening_injective nibble (by omega) ahead
    have enough := fit.behind
    have starts := fit.starts
    simp only [rest, List.length_append, leBytes_length] at total
    exact .inr ⟨by omega, by omega⟩

theorem feeds_literals (placed : call.Placed memory history) (low : call.src ≤ st.ip)
    (skip : ℕ) {size : ℕ} (inside : st.ip + skip + size ≤ call.iend) :
    Feeds call memory (st.wantLiterals memory) size (st.ip + skip) (st.op + skip) :=
  feeds_input placed.apart (fun index _ => by
    rw [Lz4State.wantLiterals, if_neg (by omega)]
    congr 1
    omega) (by omega) inside

theorem Lz4State.Holds.filled_wantLiterals (holds : st.Holds call memory history data) :
    Filled call memory (st.wantLiterals memory) st st.op st :=
  { toContained := holds.toContained
    filled := fun _ before => (if_pos before).symm
    ip := rfl
    op := rfl }

/-- Literals that have been copied. -/
theorem Opened.taken (placed : call.Placed memory history)
    (opened : Opened call memory history data ip token length st)
    (inside : st.ip + length ≤ call.iend) (room : st.op + length ≤ call.oend) {st' : Lz4State}
    (filled : Lz4State.Filled call memory (st.wantLiterals memory) st (st.op + length) st') :
    Taken call memory history data ip token (memory.bytesAt st.ip length) []
        (st'.advance length) ∧
      (st'.advance length).ip = st.ip + length ∧ (st'.advance length).op = st.op + length := by
  have op : (st'.advance length).op = st.op + length := congrArg (· + length) filled.op
  have next : (st'.advance length).ip = st.ip + length := congrArg (· + length) filled.ip
  have after := opened.after
  refine ⟨⟨opened.holds.extend placed ⟨filled.reads, filled.writes, filled.frame⟩ op (by omega)
    (by rw [List.length_append, ByteStore.bytesAt_length]) (fun index before => ?_)
    (fun index before => ?_) (fun index before => ?_), opened.low, by omega, by omega, ?_⟩, next, op⟩
  · rw [List.getD_eq_getElem?_getD, List.getElem?_append_left before, ← List.getD_eq_getElem?_getD]
  · exact (filled.filled index (by omega)).trans (if_pos before)
  · refine (filled.filled _ (by omega)).trans ?_
    rw [Lz4State.wantLiterals, if_neg (by omega), Nat.add_sub_cancel_left,
      List.getD_eq_getElem?_getD, List.getElem?_append_right (Nat.le_add_right ..),
      Nat.add_sub_cancel_left, ← List.getD_eq_getElem?_getD, ByteStore.bytesAt_getD _ _ before]
  · intro short
    obtain ⟨nibble, bytes⟩ := (opened.exact_ short).resolve_right fun beyond => by
      have past := beyond.1
      omega
    rw [ByteStore.bytesAt_length]
    refine ⟨nibble, ?_⟩
    rw [next, show st.ip + length - ip = st.ip - ip + length by omega, ByteStore.bytesAt_add, bytes,
      Nat.add_sub_cancel' (Nat.le_of_lt after), List.append_nil]

end Literals

/-! ## Matches -/

section Matches

variable {call : Lz4Call} {memory : ByteStore} {history data literals behind : List UInt8}
  {ip token offset more : ℕ} {st : Lz4State}

/-- What is left behind the literals when there is no end yet: a match. -/
theorem Taken.completion (taken : Taken call memory history data ip token literals behind st)
    (begun : behind ≠ []) (short : call.Short)
    (completion : call.Completion memory history data ip) :
    ∃ seq : MatchSequence, ∃ rest, seq.literals = literals ∧
      min (seq.length - 4) 15 = token % 16 ∧
      behind ++ call.ahead memory st.ip =
        leBytes 2 seq.offset ++ (lengthBytes (seq.length - 4) ++ rest) ∧
      6 ≤ rest.length ∧ seq.offset ≤ data.length + literals.length ∧
      st.op + seq.length + 5 ≤ call.oend := by
  obtain ⟨-, bytes⟩ := taken.exact_ short
  obtain ⟨block, ahead, reaching, fits, ends⟩ := completion
  have place := taken.holds.length
  have oend : call.oend = call.dst + call.outputSize := rfl
  have nibble := Nat.mod_lt token (show 0 < 16 by omega)
  rw [Lz4Call.ahead_eq _ _ (Nat.le_of_lt taken.after) taken.inside, bytes, List.append_assoc] at ahead
  rcases SequenceBlock.opens reaching ends with ⟨nibble', low, last, same, size⟩ |
    ⟨seq, rest, same, fit⟩
  · rw [same, SequenceBlock.lastBytes, ← List.append_nil (_ ++ last)] at ahead
    obtain ⟨-, -, none_⟩ := literals_injective nibble low ahead
    exact absurd (List.append_eq_nil_iff.mp none_).1 begun
  · rw [same, MatchSequence.bytes, List.append_assoc _ _ rest, List.append_assoc _ _ (_ ++ rest)]
      at ahead
    obtain ⟨nibbles, rfl, tails⟩ := literals_injective nibble (by omega) ahead
    have size := fit.ends
    rw [MatchSequence.size] at size
    rw [List.length_append] at place
    exact ⟨seq, rest, rfl, nibbles.symm, tails, fit.behind, fit.reaches, by omega⟩

/-- The same when the offset is known. -/
theorem Taken.completion_offset
    (taken : Taken call memory history data ip token literals (leBytes 2 offset ++ behind) st)
    (bound : offset < 65536) (short : call.Short)
    (completion : call.Completion memory history data ip) :
    ∃ length rest, min length 15 = token % 16 ∧
      behind ++ call.ahead memory st.ip = lengthBytes length ++ rest ∧ 6 ≤ rest.length ∧
      offset ≤ data.length + literals.length ∧ st.op + length + 9 ≤ call.oend := by
  have begun : leBytes 2 offset ++ behind ≠ [] := by
    rw [leBytes]
    rintro ⟨⟩
  obtain ⟨seq, rest, -, nibble, bytes, enough, reaches, room⟩ := taken.completion begun short completion
  have four := seq.four_le
  rw [List.append_assoc] at bytes
  obtain ⟨offsets, tails⟩ := List.append_inj bytes (by simp)
  obtain rfl := leBytes_injective bound seq.offset_lt offsets
  exact ⟨seq.length - 4, rest, nibble, tails, enough, reaches, by omega⟩

/-- A match that has been copied ends a sequence. -/
theorem Taken.sequence
    (taken : Taken call memory history data ip token literals
      (leBytes 2 offset ++ lengthBytes more) st)
    (bound : offset < 65536) (nibble : min more 15 = token % 16) (inside : st.ip < call.iend)
    (reaches : offset ≤ (data ++ literals).length) {st' : Lz4State}
    (holds : st'.Holds call memory history (repeatBytes (data ++ literals) offset (more + 4)))
    (same : st'.ip = st.ip) : st'.TakesSequence call memory history data ip := by
  rw [List.length_append] at reaches
  refine ⟨⟨literals, offset, more + 4, bound, Nat.le_add_left ..⟩, holds, reaches,
    same ▸ taken.after, same ▸ inside, fun short => ?_⟩
  rw [same, (taken.exact_ short).2, ← nibble]
  simp only [MatchSequence.bytes, Nat.add_sub_cancel, List.append_assoc, List.cons_append]

theorem Lz4State.readOffset_ip (st : Lz4State) : st.readOffset.2.ip = st.ip + 2 := rfl

theorem Lz4State.readOffset_op (st : Lz4State) : st.readOffset.2.op = st.op := rfl

/-- The offset behind the literals. -/
theorem Taken.readOffset (taken : Taken call memory history data ip token literals [] st)
    (apart : call.iend ≤ call.dst ∨ call.oend ≤ call.src) (inside : st.ip + 2 ≤ call.iend) :
    st.readOffset.1 < 65536 ∧
      Taken call memory history data ip token literals (leBytes 2 st.readOffset.1)
        st.readOffset.2 := by
  have low := taken.low
  have after := taken.after
  have next := st.readOffset_ip
  have contained := taken.holds.toContained.load st.ip 2
    (.inl ⟨by dsimp only; omega, inside⟩)
  refine ⟨UInt16.toNat_lt _, taken.holds.of_same ⟨contained.reads, contained.writes, contained.frame⟩
    rfl rfl, low, by omega, by omega, fun short => ?_⟩
  obtain ⟨literal, bytes⟩ := taken.exact_ short
  have offset : leBytes 2 st.readOffset.1 = memory.bytesAt st.ip 2 := by
    have same : st.memory.u16 st.ip = memory.u16 st.ip := ByteStore.u16_of_same fun index below =>
      taken.holds.frame _ (by omega)
    rw [← ByteStore.leBytes_readLE]
    congr 1
    rw [Lz4State.readOffset, same, ByteStore.u16, UInt16.toNat_ofNat']
    exact Nat.mod_eq_of_lt (ByteStore.readLE_lt memory st.ip 2)
  refine ⟨literal, ?_⟩
  rw [next, show st.ip + 2 - ip = st.ip - ip + 2 by omega, ByteStore.bytesAt_add, bytes,
    Nat.add_sub_cancel' (Nat.le_of_lt after), offset, List.append_nil]

/-- No block goes on with an offset beyond the data. -/
theorem Taken.refuses
    (taken : Taken call memory history data ip token literals (leBytes 2 offset) st)
    (bound : offset < 65536) (beyond : (data ++ literals).length < offset) :
    st.Refuses call memory history data ip := by
  have low := taken.low
  have after := taken.after
  refine ⟨taken.holds.toContained, by omega, fun short completion => ?_⟩
  rw [← List.append_nil (leBytes 2 offset)] at taken
  obtain ⟨-, -, -, -, -, reaches, -⟩ := taken.completion_offset bound short completion
  rw [List.length_append] at beyond
  omega

/-- A short length stands in the token. -/
theorem Taken.shortLength
    (taken : Taken call memory history data ip token literals (leBytes 2 offset) st)
    (nibble : token % 16 ≠ 15) :
    Taken call memory history data ip token literals
      (leBytes 2 offset ++ lengthBytes (token % 16)) st := by
  have none_ : lengthBytes (token % 16) = [] := if_pos (by omega)
  rwa [none_, List.append_nil]

variable (placed : call.Placed memory history)

include placed

/-- The match from `safe_match_copy` on, of a known length. -/
theorem Taken.safeMatchCopy
    (taken : Taken call memory history data ip token literals
      (leBytes 2 offset ++ lengthBytes more) st)
    (bound : offset < 65536) (nibble : min more 15 = token % 16) (inside : st.ip < call.iend)
    (room : st.op + 8 ≤ call.oend) :
    TurnEnds call memory history data ip (lz4SafeMatchCopy call st offset (more + 4)) := by
  rcases taken.holds.safeMatchCopy placed bound (more + 4) (Nat.le_add_left ..) room with
    ⟨st', same, contained, next, bad⟩ | ⟨st', same, holds, next, -, reaches⟩
  · rw [same]
    have low := taken.low
    have after := taken.after
    refine .failed ⟨contained, by omega, fun short completion => ?_⟩
    obtain ⟨length, rest, other, bytes, -, reaches, fits⟩ :=
      taken.completion_offset bound short completion
    obtain ⟨rfl, -⟩ := lengthBytes_injective (nibble.trans other.symm) bytes
    rw [List.length_append] at bad
    omega
  · rw [same]
    exact .safe (taken.sequence bound nibble inside reaches holds next)

/-- The bytes of a match's length have been read, or there are too few. -/
theorem Taken.matchLength
    (taken : Taken call memory history data ip token literals (leBytes 2 offset) st)
    (bound : offset < 65536) (nibble : token % 16 = 15) (inside : st.ip < call.iend) :
    ∃ error more st', readVariableLength call.iend 4 false st = (error, more, st') ∧
      st'.op = st.op ∧
      ((error ≠ .ok ∧ st'.Refuses call memory history data ip) ∨
        (error = .ok ∧ st'.ip < call.iend ∧
          Taken call memory history data ip token literals
            (leBytes 2 offset ++ lengthBytes (15 + more.toNat)) st')) := by
  have low := taken.low
  have after := taken.after
  obtain ⟨error, more, st', same, contained, memory_, op, known⟩ :=
    readVariableLengthLoop_known placed.apart taken.holds.toContained (by omega) inside 4
  have next := known.after
  refine ⟨error, more, st', by rw [readVariableLength, Bool.false_and, if_neg (by decide), same],
    op, ?_⟩
  rcases known.ended with ⟨ok, room⟩ | ⟨failed, close⟩
  · refine .inr ⟨ok, by omega, taken.holds.of_same contained memory_ op, low, by omega, known.inside,
      fun short => ?_⟩
    obtain ⟨literal, bytes⟩ := taken.exact_ short
    have lengths := (known.exact_ short).resolve_right fun beyond => by
      have past := beyond.1
      omega
    refine ⟨literal, ?_⟩
    rw [show st'.ip - ip = st.ip - ip + (st'.ip - st.ip) by omega, ByteStore.bytesAt_add, bytes,
      Nat.add_sub_cancel' (Nat.le_of_lt after), lengths, List.append_assoc, List.append_assoc]
  · refine .inl ⟨by rw [failed]; rintro ⟨⟩, contained, by omega, fun short completion => ?_⟩
    rw [← List.append_nil (leBytes 2 offset)] at taken
    obtain ⟨length, rest, other, bytes, enough, -, -⟩ :=
      taken.completion_offset bound short completion
    obtain ⟨-, left⟩ := known.unique short (by omega) (by omega) bytes
    have few := Lz4Call.ahead_length call memory st'.ip
    rw [left] at few
    omega

/-- The match from `_copy_match` on. -/
theorem Taken.copyMatch
    (taken : Taken call memory history data ip token literals (leBytes 2 offset) st)
    (bound : offset < 65536) (inside : st.ip < call.iend) (room : st.op + 8 ≤ call.oend) :
    TurnEnds call memory history data ip (lz4CopyMatch call st token offset) := by
  rw [lz4CopyMatch]
  split
  next long =>
    obtain ⟨error, more, st', same, op, ends⟩ := taken.matchLength placed bound long inside
    rw [same, long]
    dsimp only
    rcases ends with ⟨failed, refuses⟩ | ⟨ok, inside', taken'⟩
    · rw [if_pos failed]
      exact .failed refuses
    · rw [if_neg (not_not.mpr ok), if_neg (not_lz4Overflows taken'.holds.room placed.high more)]
      exact taken'.safeMatchCopy placed bound (by omega) inside' (by omega)
  next short => exact (taken.shortLength short).safeMatchCopy placed bound (by omega) inside room

end Matches

/-! ## The two loops -/

section Turns

variable {call : Lz4Call} {memory : ByteStore} {history data literals : List UInt8}
  {ip token offset length : ℕ} {st : Lz4State} (placed : call.Placed memory history)

include placed

/-- The 18 bytes of a match that is not longer. -/
theorem Taken.copy18
    (taken : Taken call memory history data ip token literals (leBytes 2 offset) st)
    (bound : offset < 65536) (nibble : token % 16 ≠ 15) (inside : st.ip < call.iend)
    (inPrefix : lz4InPrefix call (lz4Match st.op offset) = true) (distant : 8 ≤ offset)
    (room : st.op + 18 ≤ call.oend) :
    ((lz4Copy18 st (lz4Match st.op offset)).skip (token % 16 + 4)).TakesSequence call memory history
      data ip := by
  have holds := taken.holds
  have within := holds.within_of_inPrefix placed bound inPrefix
  obtain ⟨far, start⟩ := within.far placed holds bound
  rw [holds.match_eq placed bound]
  have filled := lz4Copy18_filled (within.repeats placed holds bound) far start holds.low
    (holds.filled_wantMatch offset) rfl distant room
  exact (taken.shortLength nibble).sequence bound (by omega) inside within.reaches
    (holds.copied placed (by omega) (filled.mono (by omega))) filled.ip

/-- A block of literals that covers them. -/
theorem Opened.copy (opened : Opened call memory history data ip token length st) (size : ℕ)
    (covers : length ≤ size) (inside : st.ip + size ≤ call.iend) (room : st.op + size ≤ call.oend) :
    Taken call memory history data ip token (memory.bytesAt st.ip length) []
      ((st.copy st.op st.ip size).advance length) := by
  have low := opened.low
  have after := opened.after
  have copied := opened.holds.filled_wantLiterals.copy
    (feeds_literals placed (by omega) 0 inside) opened.holds.low room
  exact (opened.taken placed (by omega) (by omega) (copied.mono (by omega))).1

/-- The literals from `safe_literal_copy` on. -/
theorem Opened.safeLiteralCopy (opened : Opened call memory history data ip token length st) :
    TurnEnds call memory history data ip (lz4SafeLiteralCopy call st token length) := by
  have low := opened.low
  have after := opened.after
  rw [lz4SafeLiteralCopy]
  dsimp only
  split
  next near =>
    split
    next bad =>
      refine .failed ⟨opened.holds.toContained, by omega, fun short completion => ?_⟩
      have left := opened.completion short completion
      omega
    next good =>
      have taken := opened.copy placed length (Nat.le_refl length) (by omega) (by omega)
      have next : ((st.copy st.op st.ip length).advance length).ip = call.iend := by
        change st.ip + length = call.iend
        omega
      refine .finished ⟨token % 16, _, Nat.mod_lt _ (by omega), taken.holds, fun short => ?_⟩
      have bytes := (taken.exact_ short).2
      rwa [next, List.append_nil] at bytes
  next far =>
    obtain ⟨p, enough, -, copied⟩ := lz4WildCopy8_filled (e := st.op + length)
      opened.holds.filled_wantLiterals
      (fun skip inside => feeds_literals placed (by omega) skip (by omega)) opened.holds.low
      (by omega) (by omega)
    obtain ⟨taken, next, op⟩ := opened.taken placed (by omega) (by omega) (copied.mono enough)
    obtain ⟨bound, offset⟩ := taken.readOffset placed.apart (by omega)
    refine offset.copyMatch placed bound ?_ ?_
    · rw [Lz4State.readOffset_ip]
      omega
    · rw [Lz4State.readOffset_op]
      omega

/-- The shortcut of the main loop. -/
theorem Opened.shortcut (opened : Opened call memory history data ip token (token / 16) st)
    (few : token / 16 < 15) (inside : st.ip + 16 < call.iend) (room : st.op + 32 ≤ call.oend) :
    TurnEnds call memory history data ip (lz4Shortcut call st token) := by
  have taken := opened.copy placed 16 (by omega) (Nat.le_of_lt inside) (by omega)
  have next : ((st.copy st.op st.ip 16).advance (token / 16)).ip = st.ip + token / 16 := rfl
  have op : ((st.copy st.op st.ip 16).advance (token / 16)).op = st.op + token / 16 := rfl
  obtain ⟨bound, offset⟩ := taken.readOffset placed.apart (by omega)
  have behind := Lz4State.readOffset_ip ((st.copy st.op st.ip 16).advance (token / 16))
  have op_ := Lz4State.readOffset_op ((st.copy st.op st.ip 16).advance (token / 16))
  rw [lz4Shortcut]
  dsimp only
  split
  next fast =>
    exact .safe (offset.copy18 placed bound fast.1 (by omega) fast.2.2 fast.2.1 (by omega))
  next slow => exact offset.copyMatch placed bound (by omega) (by omega)

/-- The match at the end of the fast loop's body, of a known length. -/
theorem Taken.fastCopy {more : ℕ}
    (taken : Taken call memory history data ip token literals
      (leBytes 2 offset ++ lengthBytes more) st)
    (bound : offset < 65536) (nibble : min more 15 = token % 16) (inside : st.ip < call.iend)
    (room : st.op + (more + 4) + 64 < call.oend) :
    TurnEnds call memory history data ip
      (lz4FastCopy call st (lz4Match st.op offset) offset (more + 4)) := by
  rcases taken.holds.fastCopy placed bound room with
    ⟨st', same, contained, next, beyond⟩ | ⟨st', same, holds, next, op, reaches⟩
  · rw [same]
    have low := taken.low
    have after := taken.after
    refine .failed ⟨contained, by omega, fun short completion => ?_⟩
    obtain ⟨-, -, -, -, -, reaches, -⟩ := taken.completion_offset bound short completion
    rw [List.length_append] at beyond
    omega
  · rw [same]
    exact .fast (taken.sequence bound nibble inside reaches holds next) (by omega)

/-- The match in the body of the fast loop. -/
theorem Taken.fastMatch (taken : Taken call memory history data ip token literals [] st)
    (inside : st.ip + 2 < call.iend) (room : st.op + 8 ≤ call.oend) :
    TurnEnds call memory history data ip (lz4FastMatch call st token) := by
  obtain ⟨bound, offset⟩ := taken.readOffset placed.apart (Nat.le_of_lt inside)
  have behind := st.readOffset_ip
  have op := st.readOffset_op
  rw [lz4FastMatch]
  dsimp only
  split
  next long =>
    split
    next beyond =>
      exact .failed (offset.refuses bound ((offset.holds.offsetInvalid_iff placed bound).mp beyond))
    next valid =>
      obtain ⟨error, more, st', same, op', ends⟩ := offset.matchLength placed bound long (by omega)
      rw [same, long, ← op']
      dsimp only
      rcases ends with ⟨failed, refuses⟩ | ⟨ok, inside', taken'⟩
      · rw [if_pos failed]
        exact .failed refuses
      · rw [if_neg (not_not.mpr ok), if_neg (not_lz4Overflows taken'.holds.room placed.high more)]
        split
        next close => exact taken'.safeMatchCopy placed bound (by omega) inside' (by omega)
        next far => exact taken'.fastCopy placed bound (by omega) inside' (by omega)
  next short =>
    have taken' := offset.shortLength short
    split
    next close => exact taken'.safeMatchCopy placed bound (by omega) (by omega) (by omega)
    next far =>
      split
      next fast =>
        refine .fast (offset.copy18 placed bound short (by omega) fast.1 fast.2 (by omega)) ?_
        change st.readOffset.2.op + (token % 16 + 4) + 64 ≤ call.oend
        omega
      next slow => exact taken'.fastCopy placed bound (by omega) (by omega) (by omega)

end Turns

section Tokens

variable {call : Lz4Call} {memory : ByteStore} {history data : List UInt8} {st : Lz4State}

/-- Whatever goes on has a token and the length of its literals, and they are there. -/
theorem Lz4Call.Completion.literals {ip : ℕ} (completion : call.Completion memory history data ip) :
    ∃ length nibble rest, nibble < 16 ∧ length ≤ rest.length ∧
      call.ahead memory ip = tokenByte length nibble :: lengthBytes length ++ rest := by
  obtain ⟨block, ahead, reaching, fits, ends⟩ := completion
  rw [ahead]
  rcases SequenceBlock.opens reaching ends with ⟨nibble, low, last, same, -⟩ | ⟨seq, rest, same, -⟩
  · exact ⟨last.length, nibble, last, low, Nat.le_refl _, same⟩
  · refine ⟨seq.literals.length, min (seq.length - 4) 15, seq.literals ++ (leBytes 2 seq.offset ++
      (lengthBytes (seq.length - 4) ++ rest)), by omega, ?_, ?_⟩
    · rw [List.length_append]
      exact Nat.le_add_right ..
    · rw [same, MatchSequence.bytes]
      simp only [List.append_assoc, List.cons_append]

variable (placed : call.Placed memory history) (holds : st.Holds call memory history data)
  (low : call.src ≤ st.ip) (inside : st.ip < call.iend)

include placed holds low inside

theorem Lz4State.Holds.next : st.next.2.Holds call memory history data ∧
    memory.bytesAt st.ip 1 =
      [UInt8.ofNat (st.next.1.toNat / 16 * 16 + st.next.1.toNat % 16)] := by
  have apart := placed.apart
  refine ⟨holds.of_same (holds.toContained.next low inside) rfl rfl, ?_⟩
  rw [Nat.div_add_mod', UInt8.ofNat_toNat, ByteStore.bytesAt_succ, Lz4State.next,
    holds.frame _ (by omega)]
  rfl

/-- A short number of literals stands in the token. -/
theorem Lz4State.Holds.opened_short (few : st.next.1.toNat / 16 ≠ 15) :
    Opened call memory history data st.ip st.next.1.toNat (st.next.1.toNat / 16) st.next.2 := by
  obtain ⟨next, byte⟩ := holds.next placed low inside
  have bound := st.next.1.toNat_lt
  refine ⟨next, low, Nat.lt_succ_self _, inside, fun _ => .inl ⟨by omega, ?_⟩⟩
  rw [lengthBytes, if_pos (by omega), tokenByte, Nat.min_eq_left (by omega), ← byte]
  change memory.bytesAt st.ip (st.ip + 1 - st.ip) = _
  rw [Nat.add_sub_cancel_left]

/-- A longer one is read from the bytes behind the token. -/
theorem Lz4State.Holds.opened_long (many : st.next.1.toNat / 16 = 15) :
    ∃ error more st', readVariableLength call.iend 15 true st.next.2 = (error, more, st') ∧
      st'.op = st.op ∧
      ((error = .initialError ∧ st'.Refuses call memory history data st.ip) ∨
        (error ≠ .initialError ∧
          Opened call memory history data st.ip st.next.1.toNat (15 + more.toNat) st')) := by
  obtain ⟨next, byte⟩ := holds.next placed low inside
  have behind : st.next.2.ip = st.ip + 1 := rfl
  have op : st.next.2.op = st.op := rfl
  have ahead := Lz4Call.ahead_eq call memory (Nat.le_succ st.ip) inside
  rw [Nat.succ_sub (Nat.le_refl _), Nat.sub_self, byte, many] at ahead
  -- what a block that goes on here has behind the token
  have literals (completion : call.Completion memory history data st.ip) :
      ∃ length rest, 15 ≤ length ∧ length ≤ rest.length ∧
        call.ahead memory (st.ip + 1) = lengthBytes length ++ rest := by
    obtain ⟨length, nibble, rest, low_, there, same⟩ := completion.literals
    rw [same] at ahead
    obtain ⟨token, tails⟩ := List.cons.inj ahead
    obtain ⟨long, -⟩ := @tokenByte_injective _ _ 15 _ low_ (Nat.mod_lt _ (by omega)) token
    exact ⟨length, rest, by omega, there, tails.symm⟩
  rw [readVariableLength, Bool.true_and]
  split
  next close =>
    rw [decide_eq_true_eq] at close
    refine ⟨_, _, _, rfl, op, .inl ⟨rfl, next.toContained, by omega, fun _ completion => ?_⟩⟩
    obtain ⟨length, rest, long, there, same⟩ := literals completion
    have total := congrArg List.length same
    rw [Lz4Call.ahead_length, List.length_append, lengthBytes, if_neg (Nat.not_lt.mpr long)] at total
    simp only [List.length_append, List.length_singleton] at total
    omega
  next far =>
    rw [decide_eq_true_eq] at far
    obtain ⟨error, more, st', same, contained, memory_, op', known⟩ :=
      readVariableLengthLoop_known placed.apart next.toContained (by omega) (by omega) 15
    have after := known.after
    refine ⟨error, more, st', same, op'.trans op, .inr ⟨?_, next.of_same contained memory_ op', low,
      by omega, known.inside, fun short => ?_⟩⟩
    · rcases known.ended with ⟨same_, -⟩ | ⟨same_, -⟩ <;> rw [same_] <;> rintro ⟨⟩
    · rcases known.exact_ short with bytes | ⟨close, big, -⟩
      · refine .inl ⟨by omega, ?_⟩
        rw [show st'.ip - st.ip = 1 + (st'.ip - (st.ip + 1)) by omega, ByteStore.bytesAt_add, byte,
          ← behind, bytes, tokenByte, many, Nat.min_eq_right (Nat.le_add_right ..)]
        rfl
      · refine .inr ⟨by omega, fun completion => ?_⟩
        obtain ⟨length, rest, long, there, bytes⟩ := literals completion
        obtain ⟨rfl, left⟩ := known.unique short long (Nat.le_trans long there) bytes
        have total := Lz4Call.ahead_length call memory st'.ip
        rw [left] at total
        omega

/-- A turn of the main loop. -/
theorem Lz4State.Holds.safeTurn :
    TurnEnds call memory history data st.ip (lz4SafeTurn call st) := by
  have bound := st.next.1.toNat_lt
  rw [lz4SafeTurn]
  dsimp only
  split
  next quick =>
    exact (holds.opened_short placed low inside quick.1).shortcut placed (by omega) quick.2.1
      quick.2.2
  next =>
    split
    next many =>
      obtain ⟨error, more, st', same, op, ends⟩ := holds.opened_long placed low inside many
      rw [same, many]
      dsimp only
      rcases ends with ⟨failed, refuses⟩ | ⟨read, opened⟩
      · rw [if_pos failed]
        exact .failed refuses
      · rw [if_neg read, if_neg (not_lz4Overflows opened.holds.room placed.high more),
          if_neg (not_lz4Overflows opened.inside placed.highInput more)]
        exact opened.safeLiteralCopy placed
    next few => exact (holds.opened_short placed low inside few).safeLiteralCopy placed

/-- A turn of the fast loop. -/
theorem Lz4State.Holds.fastTurn (room : st.op + 64 ≤ call.oend) :
    TurnEnds call memory history data st.ip (lz4FastTurn call st) := by
  have bound := st.next.1.toNat_lt
  rw [lz4FastTurn]
  dsimp only
  split
  next many =>
    obtain ⟨error, more, st', same, op, ends⟩ := holds.opened_long placed low inside many
    rw [same, many]
    dsimp only
    rcases ends with ⟨failed, refuses⟩ | ⟨read, opened⟩
    · rw [if_pos failed]
      exact .failed refuses
    · rw [if_neg read, if_neg (not_lz4Overflows opened.holds.room placed.high more),
        if_neg (not_lz4Overflows opened.inside placed.highInput more)]
      split
      next close => exact opened.safeLiteralCopy placed
      next far =>
        have after := opened.after
        obtain ⟨p, enough, copied⟩ := lz4WildCopy32_filled (e := st'.op + (15 + more.toNat))
          opened.holds.filled_wantLiterals
          (fun skip inside => feeds_literals placed (by omega) skip (by omega)) opened.holds.low
          (by omega) (by omega)
        obtain ⟨taken, next, op⟩ := opened.taken placed (by omega) (by omega) (copied.mono enough)
        exact taken.fastMatch placed (by omega) (by omega)
  next few =>
    have opened := holds.opened_short placed low inside few
    split
    next close => exact opened.safeLiteralCopy placed
    next far =>
      have behind : st.next.2.op = st.op := rfl
      have taken := opened.copy placed 16 (by omega) (by omega) (by omega)
      refine taken.fastMatch placed ?_ ?_
      · change st.next.2.ip + st.next.1.toNat / 16 + 2 < call.iend
        omega
      · change st.next.2.op + st.next.1.toNat / 16 + 8 ≤ call.oend
        omega

end Tokens

end ZLoader
