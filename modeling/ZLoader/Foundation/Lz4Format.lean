import ZLoader.Foundation.Repetition

/-! # The LZ4 block format

A block is a list of sequences, each of literals and a match, and literals behind the last match.
Its bytes give a length of fifteen or more in further bytes behind the token. The bytes of a block
are the bytes of no other one, so that what a block stands for is a function of its bytes.
-/

namespace ZLoader

/-- The bytes that a length has behind its nibble. -/
def lengthBytes (length : ℕ) : List UInt8 :=
  if length < 15 then []
  else List.replicate ((length - 15) / 255) 255 ++ [UInt8.ofNat ((length - 15) % 255)]

/-- The first byte of a sequence: the nibble of its number of literals, and another one. -/
def tokenByte (literals nibble : ℕ) : UInt8 := UInt8.ofNat (min literals 15 * 16 + nibble)

/-- Literals, and a match behind them. -/
structure MatchSequence where
  literals : List UInt8
  offset : ℕ
  length : ℕ
  offset_lt : offset < 65536
  four_le : 4 ≤ length
deriving DecidableEq, Repr

namespace MatchSequence

def bytes (seq : MatchSequence) : List UInt8 :=
  tokenByte seq.literals.length (min (seq.length - 4) 15) :: lengthBytes seq.literals.length ++
    seq.literals ++ leBytes 2 seq.offset ++ lengthBytes (seq.length - 4)

/-- The data with the sequence behind it. -/
def apply (data : List UInt8) (seq : MatchSequence) : List UInt8 :=
  repeatBytes (data ++ seq.literals) seq.offset seq.length

/-- The number of bytes that the sequence stands for. -/
def size (seq : MatchSequence) : ℕ := seq.literals.length + seq.length

@[simp] theorem apply_length (data : List UInt8) (seq : MatchSequence) :
    (seq.apply data).length = data.length + seq.size := by
  simp [apply, size, Nat.add_assoc]

end MatchSequence

/-- The bytes of some sequences. -/
def sequenceBytes (sequences : List MatchSequence) : List UInt8 :=
  sequences.flatMap MatchSequence.bytes

/-- The data with some sequences behind it. -/
def applySequences (data : List UInt8) (sequences : List MatchSequence) : List UInt8 :=
  sequences.foldl MatchSequence.apply data

/-- The number of bytes that some sequences stand for. -/
def sequencesSize : List MatchSequence → ℕ
  | [] => 0
  | seq :: rest => seq.size + sequencesSize rest

/-- No match starts in front of the data. -/
def Reaching : ℕ → List MatchSequence → Prop
  | _, [] => True
  | size, seq :: rest => seq.offset ≤ size + seq.literals.length ∧ Reaching (size + seq.size) rest

/-- Sequences, and the literals behind them. Nothing is said by the other nibble of the last
token. -/
structure SequenceBlock where
  sequences : List MatchSequence
  nibble : ℕ
  last : List UInt8
  nibble_lt : nibble < 16
deriving DecidableEq, Repr

namespace SequenceBlock

def lastBytes (nibble : ℕ) (last : List UInt8) : List UInt8 :=
  tokenByte last.length nibble :: lengthBytes last.length ++ last

def bytes (block : SequenceBlock) : List UInt8 :=
  sequenceBytes block.sequences ++ lastBytes block.nibble block.last

/-- What a block stands for behind some data. -/
def decode (block : SequenceBlock) (history : List UInt8) : List UInt8 :=
  (applySequences history block.sequences ++ block.last).drop history.length

/-- The number of bytes that a block stands for. -/
def size (block : SequenceBlock) : ℕ := sequencesSize block.sequences + block.last.length

/-- The rules for the end of a block: behind a match the last five bytes are literals, and the last
match starts twelve bytes in front of the end. -/
def EndsWell (block : SequenceBlock) : Prop :=
  ∀ front seq, block.sequences = front ++ [seq] →
    5 ≤ block.last.length ∧ 12 ≤ seq.length + block.last.length

end SequenceBlock

/-! ## Sequence after sequence -/

section Sequences

variable (data : List UInt8) (sequences : List MatchSequence) (seq : MatchSequence)

theorem sequencesSize_cons :
    sequencesSize (seq :: sequences) = seq.size + sequencesSize sequences := rfl

@[simp] theorem applySequences_length :
    (applySequences data sequences).length = data.length + sequencesSize sequences := by
  induction sequences generalizing data with
  | nil => rfl
  | cons seq rest ih =>
    rw [applySequences, List.foldl_cons, ← applySequences, ih, MatchSequence.apply_length,
      sequencesSize_cons, Nat.add_assoc]

theorem applySequences_concat :
    applySequences data (sequences ++ [seq]) = seq.apply (applySequences data sequences) := by
  rw [applySequences, List.foldl_append]
  rfl

theorem sequenceBytes_cons :
    sequenceBytes (seq :: sequences) = seq.bytes ++ sequenceBytes sequences := List.flatMap_cons ..

theorem sequenceBytes_concat :
    sequenceBytes (sequences ++ [seq]) = sequenceBytes sequences ++ seq.bytes := by
  simp [sequenceBytes]

theorem sequencesSize_concat :
    sequencesSize (sequences ++ [seq]) = sequencesSize sequences + seq.size := by
  induction sequences with
  | nil => exact Nat.add_comm ..
  | cons first rest ih => rw [List.cons_append, sequencesSize, ih, sequencesSize, Nat.add_assoc]

theorem reaching_append (size : ℕ) (rest : List MatchSequence) :
    Reaching size (sequences ++ rest) ↔
      Reaching size sequences ∧ Reaching (size + sequencesSize sequences) rest := by
  induction sequences generalizing size with
  | nil => simp [Reaching, sequencesSize]
  | cons seq others ih =>
    rw [List.cons_append, Reaching, Reaching, ih, and_assoc, sequencesSize_cons, Nat.add_assoc]

theorem reaching_concat (size : ℕ) :
    Reaching size (sequences ++ [seq]) ↔
      Reaching size sequences ∧ seq.offset ≤ size + sequencesSize sequences + seq.literals.length := by
  rw [reaching_append, Reaching, Reaching, and_true]

theorem Reaching.mono {size more : ℕ} (reaching : Reaching size sequences) (le : size ≤ more) :
    Reaching more sequences := by
  induction sequences generalizing size more with
  | nil => trivial
  | cons seq rest ih =>
    exact ⟨Nat.le_trans reaching.1 (Nat.add_le_add_right le _),
      ih reaching.2 (Nat.add_le_add_right le _)⟩

/-- No match reaches further back than a window of data. -/
theorem reaching_of_large {size : ℕ} (large : 65535 ≤ size) : Reaching size sequences := by
  induction sequences generalizing size with
  | nil => trivial
  | cons seq rest ih =>
    have near := seq.offset_lt
    exact ⟨by omega, ih (by omega)⟩

/-- Data further in front is not looked at. -/
theorem applySequences_append (front : List UInt8) (reaching : Reaching data.length sequences) :
    applySequences (front ++ data) sequences = front ++ applySequences data sequences := by
  induction sequences generalizing data with
  | nil => rfl
  | cons seq rest ih =>
    have one : seq.apply (front ++ data) = front ++ seq.apply data := by
      rw [MatchSequence.apply, List.append_assoc,
        repeatBytes_append _ _ (by rw [List.length_append]; exact reaching.1)]
      rfl
    have later : Reaching (seq.apply data).length rest := by
      rw [MatchSequence.apply_length]
      exact reaching.2
    rw [applySequences, List.foldl_cons, one]
    exact ih _ later

end Sequences

section Ends

variable {seq : MatchSequence} {rest : List MatchSequence} {nibble : ℕ} {last : List UInt8}
  {low : nibble < 16}

theorem SequenceBlock.EndsWell.tail (ends : EndsWell ⟨seq :: rest, nibble, last, low⟩) :
    EndsWell ⟨rest, nibble, last, low⟩ := fun front other same =>
  ends (seq :: front) other (congrArg (seq :: ·) same)

theorem SequenceBlock.endsWell_concat {front : List MatchSequence} :
    EndsWell ⟨front ++ [seq], nibble, last, low⟩ ↔
      5 ≤ last.length ∧ 12 ≤ seq.length + last.length := by
  refine ⟨fun ends => ends front seq rfl, fun both other seq' same => ?_⟩
  obtain ⟨-, final⟩ := List.append_inj' same rfl
  obtain ⟨rfl, -⟩ := List.cons.inj final
  exact both

/-- What is in front of the end stays away from it. -/
theorem SequenceBlock.EndsWell.head (ends : EndsWell ⟨seq :: rest, nibble, last, low⟩) :
    5 ≤ last.length ∧ 12 ≤ seq.length + sequencesSize rest + last.length := by
  rcases List.eq_nil_or_concat rest with rfl | ⟨front, final, rfl⟩
  · obtain ⟨five, twelve⟩ := @endsWell_concat seq nibble last low [] |>.mp ends
    exact ⟨five, by omega⟩
  · rw [List.concat_eq_append, ← List.cons_append, endsWell_concat] at ends
    rw [List.concat_eq_append, sequencesSize_concat, MatchSequence.size]
    omega

end Ends

/-- A sequence that is not the end of its block: how many bytes lie in front of it, and how many
the block stands for from there on. -/
structure MatchSequence.Fits (size total : ℕ) (seq : MatchSequence) (behind : List UInt8) : Prop where
  behind : 6 ≤ behind.length
  reaches : seq.offset ≤ size + seq.literals.length
  ends : seq.size + 5 ≤ total
  starts : seq.literals.length + 12 ≤ total

/-- A block that keeps the rules is its last literals, or it opens with a sequence. -/
theorem SequenceBlock.opens {block : SequenceBlock} {size : ℕ}
    (reaching : Reaching size block.sequences) (ends : block.EndsWell) :
    (∃ nibble < 16, ∃ last, block.bytes = lastBytes nibble last ∧ block.size = last.length) ∨
      ∃ seq behind, block.bytes = seq.bytes ++ behind ∧
        MatchSequence.Fits size block.size seq behind := by
  obtain ⟨sequences, nibble, last, low⟩ := block
  cases sequences with
  | nil => exact .inl ⟨nibble, low, last, rfl, Nat.zero_add _⟩
  | cons seq rest =>
    obtain ⟨five, twelve⟩ := ends.head
    have four := seq.four_le
    refine .inr ⟨seq, sequenceBytes rest ++ lastBytes nibble last, ?_, ?_, reaching.1, ?_, ?_⟩
    · rw [bytes, sequenceBytes_cons, List.append_assoc]
    · simp only [lastBytes, List.length_append, List.length_cons]
      omega
    · simp only [SequenceBlock.size, sequencesSize_cons]
      omega
    · simp only [SequenceBlock.size, sequencesSize_cons, MatchSequence.size]
      omega

@[simp] theorem SequenceBlock.decode_length (block : SequenceBlock) (history : List UInt8) :
    (block.decode history).length = block.size := by
  rw [decode, List.length_drop, List.length_append, applySequences_length, size]
  omega

/-- What a block stands for depends on the end of the history only. -/
theorem SequenceBlock.decode_append {block : SequenceBlock} (front : List UInt8)
    {history : List UInt8} (reaching : Reaching history.length block.sequences) :
    block.decode (front ++ history) = block.decode history := by
  rw [decode, decode, applySequences_append _ _ _ reaching, List.append_assoc, List.length_append,
    ← List.drop_drop, List.drop_left]

/-! ## The bytes determine the block -/

theorem replicate_terminated_injective {count more : ℕ} {byte other : UInt8} {rest tail : List UInt8}
    (first : byte ≠ 255) (second : other ≠ 255)
    (same : List.replicate count 255 ++ byte :: rest = List.replicate more 255 ++ other :: tail) :
    count = more ∧ byte = other ∧ rest = tail := by
  induction count generalizing more with
  | zero =>
    cases more with
    | zero =>
      rw [List.replicate_zero, List.nil_append, List.nil_append] at same
      exact ⟨rfl, List.cons.inj same⟩
    | succ more => exact absurd (List.cons.inj same).1 first
  | succ count ih =>
    cases more with
    | zero => exact absurd (List.cons.inj same).1.symm second
    | succ more =>
      rw [List.replicate_succ, List.replicate_succ, List.cons_append, List.cons_append] at same
      obtain ⟨counts, bytes, rests⟩ := ih (List.cons.inj same).2
      exact ⟨congrArg (· + 1) counts, bytes, rests⟩

theorem ofNat_mod_ne (length : ℕ) : UInt8.ofNat (length % 255) ≠ 255 := by
  intro same
  have value := congrArg UInt8.toNat same
  rw [UInt8.toNat_ofNat'] at value
  have below := Nat.mod_lt length (show 0 < 255 by omega)
  rw [Nat.mod_eq_of_lt (by omega), show (255 : UInt8).toNat = 255 from rfl] at value
  omega

theorem lengthBytes_injective {length other : ℕ} {rest tail : List UInt8}
    (nibbles : min length 15 = min other 15)
    (same : lengthBytes length ++ rest = lengthBytes other ++ tail) :
    length = other ∧ rest = tail := by
  rw [lengthBytes, lengthBytes] at same
  split_ifs at same with short short_ short_
  · exact ⟨by omega, same⟩
  · omega
  · omega
  · rw [List.append_assoc, List.append_assoc, List.singleton_append, List.singleton_append] at same
    obtain ⟨counts, bytes, rests⟩ := replicate_terminated_injective (ofNat_mod_ne _) (ofNat_mod_ne _)
      same
    have low := congrArg UInt8.toNat bytes
    have first := Nat.mod_lt (length - 15) (show 0 < 255 by omega)
    have second := Nat.mod_lt (other - 15) (show 0 < 255 by omega)
    rw [UInt8.toNat_ofNat', UInt8.toNat_ofNat'] at low
    exact ⟨by omega, rests⟩

theorem tokenByte_injective {literals nibble other nibble' : ℕ} (low : nibble < 16)
    (low' : nibble' < 16) (same : tokenByte literals nibble = tokenByte other nibble') :
    min literals 15 = min other 15 ∧ nibble = nibble' := by
  have value := congrArg UInt8.toNat same
  rw [tokenByte, tokenByte, UInt8.toNat_ofNat', UInt8.toNat_ofNat', Nat.mod_eq_of_lt (by omega),
    Nat.mod_eq_of_lt (by omega)] at value
  omega

/-- Token and length in front of anything. -/
theorem opening_injective {length other nibble nibble' : ℕ} {rest tail : List UInt8}
    (low : nibble < 16) (low' : nibble' < 16)
    (same : tokenByte length nibble :: lengthBytes length ++ rest =
      tokenByte other nibble' :: lengthBytes other ++ tail) :
    nibble = nibble' ∧ length = other ∧ rest = tail := by
  simp only [List.cons_append] at same
  obtain ⟨token, behind⟩ := List.cons.inj same
  obtain ⟨nibbles, lows⟩ := tokenByte_injective low low' token
  exact ⟨lows, lengthBytes_injective nibbles behind⟩

/-- Token, length and literals in front of anything. -/
theorem literals_injective {literals other rest tail : List UInt8} {nibble nibble' : ℕ}
    (low : nibble < 16) (low' : nibble' < 16)
    (same : tokenByte literals.length nibble :: lengthBytes literals.length ++ literals ++ rest =
      tokenByte other.length nibble' :: lengthBytes other.length ++ other ++ tail) :
    nibble = nibble' ∧ literals = other ∧ rest = tail := by
  rw [List.append_assoc, List.append_assoc _ other] at same
  obtain ⟨lows, lengths, bytes⟩ := opening_injective low low' same
  exact ⟨lows, List.append_inj bytes lengths⟩

theorem leBytes_injective {width value other : ℕ} (bound : value < 256 ^ width)
    (bound' : other < 256 ^ width) (same : leBytes width value = leBytes width other) :
    value = other := by
  have first := ByteStore.readLE_ofList_leBytes width value [] fun _ => 0
  rw [same, ByteStore.readLE_ofList_leBytes, Nat.mod_eq_of_lt bound, Nat.mod_eq_of_lt bound'] at first
  exact first.symm

theorem MatchSequence.bytes_injective {seq other : MatchSequence} {rest tail : List UInt8}
    (same : seq.bytes ++ rest = other.bytes ++ tail) : seq = other ∧ rest = tail := by
  obtain ⟨literals, offset, length, offset_lt, four_le⟩ := seq
  obtain ⟨literals', offset', length', offset_lt', four_le'⟩ := other
  rw [bytes, bytes, List.append_assoc, List.append_assoc _ _ tail, List.append_assoc,
    List.append_assoc _ _ (_ ++ tail)] at same
  obtain ⟨nibbles, rfl, behind⟩ := literals_injective (by omega) (by omega) same
  obtain ⟨offsets, lengths⟩ := List.append_inj behind (by simp)
  obtain rfl := leBytes_injective offset_lt offset_lt' offsets
  obtain ⟨equal, rfl⟩ := lengthBytes_injective nibbles lengths
  dsimp only at equal
  obtain rfl : length = length' := by omega
  exact ⟨rfl, rfl⟩

/-- The last token and its literals do not begin with a sequence. -/
theorem lastBytes_ne_bytes {nibble : ℕ} (low : nibble < 16) (last : List UInt8) (seq : MatchSequence)
    (rest : List UInt8) : SequenceBlock.lastBytes nibble last ≠ seq.bytes ++ rest := by
  intro same
  rw [SequenceBlock.lastBytes, MatchSequence.bytes, List.append_assoc, List.append_assoc,
    ← List.append_nil (_ ++ last)] at same
  obtain ⟨-, -, behind⟩ := literals_injective low (by omega) same
  have length := congrArg List.length behind
  simp only [List.length_nil, List.length_append, leBytes_length] at length
  omega

/-- What a block stands for is a function of its bytes. -/
theorem SequenceBlock.bytes_injective {block other : SequenceBlock}
    (same : block.bytes = other.bytes) : block = other := by
  obtain ⟨sequences, nibble, last, low⟩ := block
  obtain ⟨sequences', nibble', last', low'⟩ := other
  dsimp only [bytes] at same
  induction sequences generalizing sequences' with
  | nil =>
    cases sequences' with
    | nil =>
      rw [lastBytes, lastBytes, ← List.append_nil (_ ++ last), ← List.append_nil (_ ++ last')] at same
      obtain ⟨rfl, rfl, -⟩ := literals_injective low low' same
      rfl
    | cons seq rest =>
      rw [sequenceBytes_cons, List.append_assoc] at same
      exact (lastBytes_ne_bytes low _ _ _ same).elim
  | cons seq rest ih =>
    rw [sequenceBytes_cons, List.append_assoc] at same
    cases sequences' with
    | nil => exact (lastBytes_ne_bytes low' _ _ _ same.symm).elim
    | cons seq' rest' =>
      rw [sequenceBytes_cons, List.append_assoc] at same
      obtain ⟨rfl, behind⟩ := MatchSequence.bytes_injective same
      have others := ih rest' behind
      rw [SequenceBlock.mk.injEq] at others ⊢
      exact ⟨congrArg _ others.1, others.2⟩

end ZLoader
