import ZLoader.Foundation.Lz4Format
import ZLoader.Soundness.Lz4Copies

/-! # The data behind a cursor of the LZ4 decoder

A match refers to bytes in front of the cursor: to the output, to a prefix that stands in front of
it, or to a dictionary somewhere else. Wherever they stand, they are the end of one list of bytes,
the history and what has been decoded, and a copied match makes it longer as the format says.
-/

namespace ZLoader

namespace Lz4Call

variable (call : Lz4Call)

/-- Where the byte stands that lies so far in front of an address. -/
def place (op back : ℕ) : ℕ :=
  if call.dict = .usingExtDict ∧ op < call.lowPrefix + back then
    call.dictStart + call.dictSize - (call.lowPrefix + back - op)
  else op - back

/-- The three ways in which the history of a block is handed over. -/
inductive HistoryPlaced (memory : ByteStore) (history : List UInt8) : Prop where
  | smallPrefix (dict : call.dict = .noDict) (dictSize : call.dictSize = 0)
      (lowPrefix : call.lowPrefix + history.length = call.dst)
      (stands : memory.bytesAt call.lowPrefix history.length = history)
  | largePrefix (dict : call.dict = .withPrefix64k) (dictSize : call.dictSize = 0)
      (lowPrefix : call.lowPrefix + 65536 = call.dst) (large : 65535 ≤ history.length)
      (fits : history.length ≤ call.dst)
      (stands : memory.bytesAt (call.dst - history.length) history.length = history)
  | dictionary (dict : call.dict = .usingExtDict) (lowPrefix : call.lowPrefix = call.dst)
      (dictSize : call.dictSize = history.length) (dictStart : call.dictStart ≠ 0)
      (apart : call.dictStart + call.dictSize ≤ call.dst ∨ call.oend ≤ call.dictStart)
      (stands : memory.bytesAt call.dictStart history.length = history)

/-- The buffers of a call: none of them lies at the ends of the address space, the input lies apart
from the output, and the history is handed over. -/
structure Placed (memory : ByteStore) (history : List UInt8) : Prop where
  source : call.src ≠ 0
  low : 65536 ≤ call.dst
  high : call.oend + 2 ^ 33 ≤ 2 ^ 64
  highInput : call.iend + 2 ^ 33 ≤ 2 ^ 64
  apart : call.iend ≤ call.dst ∨ call.oend ≤ call.src
  history : call.HistoryPlaced memory history

end Lz4Call

/-- The data in front of the cursor of the output can be recalled. -/
structure Lz4State.Holds (call : Lz4Call) (memory : ByteStore) (history data : List UInt8)
    (st : Lz4State) : Prop extends Lz4State.Contained call memory st where
  low : call.dst ≤ st.op
  room : st.op ≤ call.oend
  length : data.length + call.dst = history.length + st.op
  recalls : ∀ back, 0 < back → back ≤ data.length →
    st.memory (call.place st.op back) = data.getD (data.length - back) 0

/-- What a match leaves, without an end. -/
def Lz4State.wantMatch (st : Lz4State) (data : List UInt8) (offset : ℕ) : ByteStore := fun index =>
  if index < st.op then st.memory index
  else repeated data offset (data.length + (index - st.op))

section History

variable {call : Lz4Call} {memory : ByteStore} {history data : List UInt8} {st : Lz4State}

theorem Lz4Call.Placed.lowPrefix_le (placed : call.Placed memory history) :
    call.lowPrefix ≤ call.dst := by
  rcases placed.history with ⟨-, -, same, -⟩ | ⟨-, -, same, -, -, -⟩ | ⟨-, same, -, -, -, -⟩ <;> omega

theorem lz4Match_eq {op offset : ℕ} (far : offset ≤ op) (high : op < 2 ^ 64) :
    lz4Match op offset = op - offset := by
  rw [lz4Match, show op + 2 ^ 64 - offset = op - offset + 2 ^ 64 by omega, Nat.add_mod_right,
    Nat.mod_eq_of_lt (by omega)]

theorem Lz4Call.place_of_le {op back : ℕ} (near : call.dict = .usingExtDict → call.lowPrefix + back ≤ op) :
    call.place op back = op - back :=
  if_neg fun ⟨dict, beyond⟩ => absurd (near dict) (Nat.not_le.mpr beyond)

namespace Lz4State

theorem holds_start (placed : call.Placed memory history) :
    Holds call memory history history ⟨memory, call.src, call.dst, [], []⟩ where
  reads := fun _ member => absurd member List.not_mem_nil
  writes := fun _ member => absurd member List.not_mem_nil
  frame := fun _ _ => rfl
  low := Nat.le_refl _
  room := Nat.le_add_right ..
  length := rfl
  recalls := fun back positive le => by
    dsimp only
    have byte {start : ℕ} (stands : memory.bytesAt start history.length = history)
        (lies : call.place call.dst back = start + (history.length - back)) :
        memory (call.place call.dst back) = history.getD (history.length - back) 0 := by
      rw [lies, ← @ByteStore.bytesAt_getD memory start history.length _ (by omega) 0, stands]
    rcases placed.history with ⟨dict, -, lowPrefix, stands⟩ | ⟨dict, -, -, -, fits, stands⟩ |
      ⟨dict, lowPrefix, dictSize, -, -, stands⟩
    · refine byte stands ?_
      rw [Lz4Call.place_of_le (by rw [dict]; rintro ⟨⟩)]
      omega
    · refine byte stands ?_
      rw [Lz4Call.place_of_le (by rw [dict]; rintro ⟨⟩)]
      omega
    · refine byte stands ?_
      rw [Lz4Call.place, if_pos ⟨dict, by omega⟩]
      omega

/-- More data behind the old. -/
theorem Holds.extend (placed : call.Placed memory history) (holds : st.Holds call memory history data)
    {st' : Lz4State} {data' : List UInt8} {size : ℕ} (contained : st'.Contained call memory)
    (op : st'.op = st.op + size) (room : st'.op ≤ call.oend)
    (length : data'.length = data.length + size)
    (old : ∀ index < data.length, data'.getD index 0 = data.getD index 0)
    (below : ∀ index < st.op, st'.memory index = st.memory index)
    (new : ∀ index < size, st'.memory (st.op + index) = data'.getD (data.length + index) 0) :
    st'.Holds call memory history data' where
  toContained := contained
  low := by
    have low := holds.low
    omega
  room := room
  length := by
    have before := holds.length
    omega
  recalls := fun back positive le => by
    have lowPrefix := placed.lowPrefix_le
    have base := placed.low
    have low := holds.low
    rcases Nat.lt_or_ge size back with far | near
    · -- what was there before
      have recalled := holds.recalls (back - size) (by omega) (by omega)
      have place : call.place st'.op back = call.place st.op (back - size) := by
        have same : (call.dict = .usingExtDict ∧ st.op + size < call.lowPrefix + back) ↔
            (call.dict = .usingExtDict ∧ st.op < call.lowPrefix + (back - size)) :=
          and_congr_right fun _ => by omega
        rw [Lz4Call.place, Lz4Call.place, op]
        simp only [same]
        split_ifs <;> omega
      rw [place, show data'.length - back = data.length - (back - size) by omega, old _ (by omega),
        ← recalled, Lz4Call.place]
      split_ifs with dict
      · -- the dictionary lies outside of the output
        rcases placed.history with ⟨other, -⟩ | ⟨other, -⟩ | ⟨-, same, dictSize, -, apart, -⟩
        · rw [other] at dict
          cases dict.1
        · rw [other] at dict
          cases dict.1
        · have before := holds.length
          rw [contained.frame _ (by omega), holds.frame _ (by omega)]
      · exact below _ (by omega)
    · rw [Lz4Call.place_of_le (by omega), op, show st.op + size - back = st.op + (size - back) by omega,
        new _ (by omega)]
      congr 1
      omega

theorem Holds.filled_wantMatch (holds : st.Holds call memory history data) (offset : ℕ) :
    Filled call memory (st.wantMatch data offset) st st.op st :=
  { toContained := holds.toContained
    filled := fun _ before => (if_pos before).symm
    ip := rfl
    op := rfl }

/-- A match that has been copied. -/
theorem Holds.copied (placed : call.Placed memory history) (holds : st.Holds call memory history data)
    {st' : Lz4State} {offset length : ℕ} (room : st.op + length ≤ call.oend)
    (filled : Filled call memory (st.wantMatch data offset) st (st.op + length) st') :
    (st'.skip length).Holds call memory history (repeatBytes data offset length) := by
  refine holds.extend placed ⟨filled.reads, filled.writes, filled.frame⟩
    (congrArg (· + length) filled.op) ?_ (repeatBytes_length ..) (fun index inside => ?_)
    (fun index before => ?_) (fun index inside => ?_)
  · exact (congrArg (· + length) filled.op).trans_le room
  · rw [← @repeated_eq data offset length _ (by omega), repeated_of_lt _ _ inside]
  · exact (filled.filled index (by omega)).trans (if_pos before)
  · refine (filled.filled _ (by omega)).trans ?_
    rw [wantMatch, if_neg (by omega), Nat.add_sub_cancel_left]
    exact repeated_eq data offset (by omega)

section Offsets

variable (placed : call.Placed memory history) (holds : st.Holds call memory history data)
  {offset : ℕ} (bound : offset < 65536)

include placed holds bound

theorem Holds.match_eq : lz4Match st.op offset = st.op - offset := by
  have low := placed.low
  have high := placed.high
  have above := holds.low
  have room := holds.room
  exact lz4Match_eq (by omega) (by omega)

/-- The check of the offset finds out whether it reaches beyond the data. -/
theorem Holds.offsetInvalid_iff :
    lz4OffsetInvalid call (lz4Match st.op offset) = true ↔ data.length < offset := by
  have low := placed.low
  have high := placed.high
  have above := holds.low
  have room := holds.room
  have length := holds.length
  rw [holds.match_eq placed bound, lz4OffsetInvalid, Bool.and_eq_true, decide_eq_true_eq,
    Lz4Call.checkOffset, decide_eq_true_eq]
  rcases placed.history with ⟨-, size, lowPrefix, -⟩ | ⟨-, size, lowPrefix, large, -, -⟩ |
    ⟨-, lowPrefix, size, -, -, -⟩
  · rw [size, Nat.add_zero, Nat.mod_eq_of_lt (by omega)]
    omega
  · rw [size, Nat.add_zero, Nat.mod_eq_of_lt (by omega)]
    omega
  · by_cases small : call.dictSize < 65536
    · rw [Nat.mod_eq_of_lt (by omega)]
      omega
    · exact iff_of_false (fun both => small both.1) (by omega)

/-- A match that starts in front of the cursor, and not in the dictionary. -/
structure Within (call : Lz4Call) (data : List UInt8) (st : Lz4State) (offset : ℕ) : Prop where
  reaches : offset ≤ data.length
  near : call.dict = .usingExtDict → call.lowPrefix + offset ≤ st.op

theorem Within.far (within : Within call data st offset) :
    offset ≤ st.op ∧ call.historyStart ≤ st.op - offset := by
  have low := placed.low
  have above := holds.low
  have length := holds.length
  have reaches := within.reaches
  refine ⟨by omega, ?_⟩
  rw [Lz4Call.historyStart]
  rcases placed.history with ⟨dict, -, lowPrefix, -⟩ | ⟨dict, -, -, -, -, -⟩ |
    ⟨dict, -, -, -, -, -⟩
  · rw [dict, if_neg (by decide)]
    omega
  · rw [dict, if_pos rfl]
    omega
  · have near := within.near dict
    rw [dict, if_neg (by decide)]
    omega

theorem Within.repeats (within : Within call data st offset) :
    RepeatsFrom (st.wantMatch data offset) st.op offset := by
  intro index above
  obtain ⟨far, -⟩ := within.far placed holds bound
  have reaches := within.reaches
  rw [wantMatch, if_neg (Nat.not_lt.mpr above),
    repeated_of_ge data offset (Nat.le_add_right ..) (by omega)]
  split_ifs with none_
  · rfl
  · rcases Nat.lt_or_ge (index - offset) st.op with before | behind
    · have recalled := holds.recalls (st.op - (index - offset)) (by omega) (by omega)
      rw [Lz4Call.place_of_le fun dict => by
        have near := within.near dict
        omega] at recalled
      rw [wantMatch, if_pos before, repeated_of_lt _ _ (by omega),
        show index - offset = st.op - (st.op - (index - offset)) by omega, recalled]
      congr 1
      omega
    · rw [wantMatch, if_neg (Nat.not_lt.mpr behind)]
      congr 1
      omega

/-- The fast paths take a match only where it lies in front of the cursor. -/
theorem Holds.within_of_inPrefix (inPrefix : lz4InPrefix call (lz4Match st.op offset) = true) :
    Within call data st offset := by
  have low := placed.low
  have above := holds.low
  have length := holds.length
  rw [holds.match_eq placed bound, lz4InPrefix, Bool.or_eq_true, beq_iff_eq, decide_eq_true_eq]
    at inPrefix
  rcases placed.history with ⟨dict, -, lowPrefix, -⟩ | ⟨dict, -, -, large, -, -⟩ |
    ⟨dict, lowPrefix, -, -, -, -⟩
  · rw [dict] at inPrefix
    have near := inPrefix.resolve_left (by decide)
    exact ⟨by omega, by rw [dict]; rintro ⟨⟩⟩
  · exact ⟨by omega, by rw [dict]; rintro ⟨⟩⟩
  · rw [dict] at inPrefix
    have near := inPrefix.resolve_left (by decide)
    exact ⟨by omega, fun _ => by omega⟩

theorem Holds.within_of_not_dictionary (reaches : offset ≤ data.length)
    (other : ¬ (call.dict = .usingExtDict ∧ lz4Match st.op offset < call.lowPrefix)) :
    Within call data st offset where
  reaches := reaches
  near dict := by
    have near : ¬ lz4Match st.op offset < call.lowPrefix := fun starts => other ⟨dict, starts⟩
    rw [holds.match_eq placed bound] at near
    have base := placed.low
    have above := holds.low
    omega

/-- A match that starts in the dictionary has been copied. -/
theorem Holds.copyFromDict (reaches : offset ≤ data.length) (dict : call.dict = .usingExtDict)
    (starts : lz4Match st.op offset < call.lowPrefix) (length : ℕ)
    (room : st.op + length ≤ call.oend) :
    ∃ st', lz4CopyFromDict call st (lz4Match st.op offset) length = st' ∧
      st'.Holds call memory history (repeatBytes data offset length) ∧ st'.ip = st.ip ∧
      st'.op = st.op + length := by
  have above := holds.low
  have lowPrefix := placed.lowPrefix_le
  have size := holds.length
  rw [holds.match_eq placed bound] at starts ⊢
  rcases placed.history with ⟨other, -⟩ | ⟨other, -⟩ | ⟨-, same, dictSize, dictStart, apart, -⟩
  · rw [other] at dict
    cases dict
  · rw [other] at dict
    cases dict
  have base := placed.low
  have wanted : ∀ index < call.lowPrefix - (st.op - offset),
      st.wantMatch data offset (st.op + index) =
        memory (call.dictStart + call.dictSize - (call.lowPrefix - (st.op - offset)) + index) := by
    intro index inside
    have recalled := holds.recalls (offset - index) (by omega) (by omega)
    rw [Lz4Call.place, if_pos ⟨dict, by omega⟩, holds.frame _ (by omega)] at recalled
    rw [wantMatch, if_neg (by omega), repeated_of_ge data offset (by omega) (by omega),
      if_neg (by omega), repeated_of_lt _ _ (by omega), show data.length + (st.op + index - st.op) -
        offset = data.length - (offset - index) by omega, ← recalled]
    congr 1
    omega
  have mirrors : Mirrors (st.wantMatch data offset) call.lowPrefix
      (st.op + (call.lowPrefix - (st.op - offset))) := by
    intro index
    rw [wantMatch, if_neg (by omega), repeated_of_ge data offset (by omega) (by omega),
      if_neg (by omega)]
    rcases Nat.lt_or_ge (call.lowPrefix + index) st.op with before | behind
    · have recalled := holds.recalls (st.op - (call.lowPrefix + index)) (by omega) (by omega)
      rw [Lz4Call.place_of_le fun _ => by omega, Nat.sub_sub_self (by omega)] at recalled
      rw [wantMatch, if_pos before, recalled, repeated_of_lt _ _ (by omega)]
      congr 1
      omega
    · rw [wantMatch, if_neg (by omega)]
      congr 1
      omega
  obtain ⟨st', copied, filled⟩ := lz4CopyFromDict_filled (holds.filled_wantMatch offset) dict
    dictStart apart (by omega) wanted mirrors starts (by omega) above room
  exact ⟨_, copied, holds.copied placed room filled, filled.ip,
    congrArg (· + length) filled.op⟩

/-- The match from `safe_match_copy` on: the decoder fails where the offset reaches beyond the data
or the match too close to the end of the output. -/
theorem Holds.safeMatchCopy (length : ℕ) (long : 4 ≤ length) (room : st.op + 8 ≤ call.oend) :
    (∃ st', lz4SafeMatchCopy call st offset length = .failed st' ∧ st'.Contained call memory ∧
      st'.ip = st.ip ∧ (data.length < offset ∨ call.oend < st.op + length + 5)) ∨
    ∃ st', lz4SafeMatchCopy call st offset length = .safe st' ∧
      st'.Holds call memory history (repeatBytes data offset length) ∧ st'.ip = st.ip ∧
      st'.op = st.op + length ∧ offset ≤ data.length := by
  have invalid := holds.offsetInvalid_iff placed bound
  rw [lz4SafeMatchCopy]
  split_ifs with beyond dictionary close
  · exact .inl ⟨st, rfl, holds.toContained, rfl, .inl (invalid.mp beyond)⟩
  · exact .inl ⟨st, rfl, holds.toContained, rfl, .inr close⟩
  · have reaches := Nat.not_lt.mp fun beyond_ => beyond (invalid.mpr beyond_)
    obtain ⟨st', copied, holds', ip, op⟩ := holds.copyFromDict placed bound reaches dictionary.1
      dictionary.2 length (by omega)
    exact .inr ⟨st', congrArg _ copied, holds', ip, op, reaches⟩
  · have reaches := Nat.not_lt.mp fun beyond_ => beyond (invalid.mpr beyond_)
    have within := holds.within_of_not_dictionary placed bound reaches dictionary
    obtain ⟨far, start⟩ := within.far placed holds bound
    rw [holds.match_eq placed bound]
    rcases lz4CopyWithin_cases (within.repeats placed holds bound) far start holds.low
      (holds.filled_wantMatch offset) rfl long room with
      ⟨st', failed, contained, ip, close⟩ | ⟨st', copied, filled, fits⟩
    · exact .inl ⟨st', failed, contained, ip, .inr close⟩
    · exact .inr ⟨_, copied, holds.copied placed (by omega) filled, filled.ip,
        congrArg (· + length) filled.op, reaches⟩

/-- The match at the end of the fast loop. -/
theorem Holds.fastCopy {length : ℕ} (room : st.op + length + 64 < call.oend) :
    (∃ st', lz4FastCopy call st (lz4Match st.op offset) offset length = .failed st' ∧
      st'.Contained call memory ∧ st'.ip = st.ip ∧ data.length < offset) ∨
    ∃ st', lz4FastCopy call st (lz4Match st.op offset) offset length = .fast st' ∧
      st'.Holds call memory history (repeatBytes data offset length) ∧ st'.ip = st.ip ∧
      st'.op = st.op + length ∧ offset ≤ data.length := by
  have invalid := holds.offsetInvalid_iff placed bound
  rw [lz4FastCopy]
  split
  next beyond => exact .inl ⟨st, rfl, holds.toContained, rfl, invalid.mp beyond⟩
  next valid =>
    have reaches := Nat.not_lt.mp fun beyond => valid (invalid.mpr beyond)
    split
    next dictionary =>
      rw [if_neg (by omega)]
      obtain ⟨st', copied, holds', ip, op⟩ := holds.copyFromDict placed bound reaches dictionary.1
        dictionary.2 length (by omega)
      exact .inr ⟨st', congrArg _ copied, holds', ip, op, reaches⟩
    next dictionary =>
      have within := holds.within_of_not_dictionary placed bound reaches dictionary
      obtain ⟨far, start⟩ := within.far placed holds bound
      have filled := lz4FastWithin_filled (within.repeats placed holds bound) far start holds.low
        (holds.filled_wantMatch offset) rfl room
      rw [holds.match_eq placed bound]
      exact .inr ⟨_, rfl, holds.copied placed (by omega) filled, filled.ip,
        congrArg (· + length) filled.op, reaches⟩

end Offsets

end Lz4State

end History

end ZLoader
