import ZLoader.Foundation.FirstDifference
import ZLoader.Foundation.Trace
import ZLoader.Model.Lib.StringLoops
import ZLoader.Soundness.TextScan

/-! # The order of strings

A comparison walks over the characters that two strings have in common and is decided by the first
that differ. `strcmp` and `strncmp` subtract signed characters, and `strncmp` looks at the characters
in front of its bound; `wcscmp` looks for the end of the strings behind the first characters, and
takes strings to be equal when either has ended.
-/

namespace ZLoader

open StateTransition Relation

/-! ## What is claimed -/

/-- A string in memory. -/
structure NulString (α : Type) [OfNat α 0] extends Terminated α where
  nulFree : 0 ∉ units

/-- A call of a comparison. -/
inductive ComparisonCall where
  | strcmp (a b : NulString UInt8)
  | strncmp (a b : NulString UInt8) (length : ℕ)
  | wcscmp (a b : NulString UInt16)

namespace ComparisonCall

/-- The call with its strings exchanged. -/
def swap : ComparisonCall → ComparisonCall
  | strcmp a b => strcmp b a
  | strncmp a b length => strncmp b a length
  | wcscmp a b => wcscmp b a

def run : ComparisonCall → Part CompareState
  | strcmp a b => eval (strcmpTurn a.get b.get) (compareStart 0)
  | strncmp a b length => eval (strncmpTurn a.get b.get) (compareStart length)
  | wcscmp a b => eval (wcscmpTurn a.get b.get) (compareStart 0)

/-- The characters of the first string that are compared, as unsigned numbers. -/
def first : ComparisonCall → List ℕ
  | strcmp a _ => a.units.map UInt8.toNat
  | strncmp a _ length => (a.units.map UInt8.toNat).take length
  | wcscmp a _ => a.units.map UInt16.toNat

def second (call : ComparisonCall) : List ℕ := call.swap.first

/-- The indices of the first string that may be read: none behind the terminator, and none from the
bound on. -/
def FirstReadable (index : ℕ) : ComparisonCall → Prop
  | strcmp a _ => index ≤ a.units.length
  | strncmp a _ length => index ≤ a.units.length ∧ index < length
  | wcscmp a _ => index ≤ a.units.length

end ComparisonCall

/-- The sign of a result says how two texts are ordered. -/
structure IsOrder (result : ℤ) (first second : List ℕ) : Prop where
  less : result < 0 ↔ first < second
  equal : result = 0 ↔ first = second
  greater : 0 < result ↔ second < first

/-- The call returns the order of its strings and has read nothing behind them, and the call with the
strings exchanged returns the opposite sign. -/
def ComparisonCall.Orders (call : ComparisonCall) : Prop :=
  ∃ last ∈ call.run, ∃ result, last.result = some result ∧
    IsOrder result call.first call.second ∧
    (∀ index ∈ last.readsA, call.FirstReadable index) ∧
    (∀ index ∈ last.readsB, call.swap.FirstReadable index) ∧
    ∃ last' ∈ call.swap.run, ∃ result', last'.result = some result' ∧ result'.sign = -result.sign

/-- The first characters that differ, or a character and a terminator, are on the same side of
`0x80`. -/
def SameSide (first second : List ℕ) : Prop :=
  ∀ index, FirstDifference 0 first second index →
    (first.getD index 0 < 0x80 ↔ second.getD index 0 < 0x80)

/-- When a call orders its strings. A bounded comparison has to end in front of its bound, and of wide
strings one has to begin with a character, and neither may end where they begin to differ unless
it is empty. -/
def ComparisonCall.Comparable : ComparisonCall → Prop
  | strcmp a b => SameSide (a.units.map UInt8.toNat) (b.units.map UInt8.toNat)
  | strncmp a b length =>
      (a.units.length < length ∨ a.units.take length ≠ b.units.take length) ∧
        SameSide ((a.units.map UInt8.toNat).take length) ((b.units.map UInt8.toNat).take length)
  | wcscmp a b =>
      (a.units ≠ [] ∨ b.units ≠ []) ∧
        ∀ index, FirstDifference 0 (a.units.map UInt16.toNat) (b.units.map UInt16.toNat) index →
          index = 0 ∨ index < a.units.length ∧ index < b.units.length

/-! ## Orders -/

theorem isOrder_self {result : ℤ} {text : List ℕ} : IsOrder result text text ↔ result = 0 := by
  constructor
  · intro order
    exact order.equal.mpr rfl
  · rintro rfl
    exact ⟨iff_of_false (lt_irrefl _) (lt_irrefl _), iff_of_true rfl rfl,
      iff_of_false (lt_irrefl _) (lt_irrefl _)⟩

/-- The first characters that differ decide the order. -/
theorem FirstDifference.isOrder_iff {first second : List ℕ} {index : ℕ}
    (difference : FirstDifference 0 first second index) {result : ℤ} :
    IsOrder result first second ↔
      (result < 0 ↔ first.getD index 0 < second.getD index 0) ∧
        (0 < result ↔ second.getD index 0 < first.getD index 0) := by
  have less := difference.lt_iff Nat.zero_le
  have greater := difference.symm.lt_iff Nat.zero_le
  constructor
  · intro order
    exact ⟨order.less.trans less, order.greater.trans greater⟩
  · rintro ⟨negative, positive⟩
    refine ⟨negative.trans less.symm, iff_of_false ?_ difference.ne, positive.trans greater.symm⟩
    have differs := difference.differs
    omega

theorem toInt_toInt8 (c : UInt8) :
    c.toInt8.toInt = if c.toNat < 0x80 then (c.toNat : ℤ) else c.toNat - 0x100 := by
  have all : ∀ bits : BitVec 8, (UInt8.ofBitVec bits).toInt8.toInt =
      if (UInt8.ofBitVec bits).toNat < 0x80 then ((UInt8.ofBitVec bits).toNat : ℤ)
      else (UInt8.ofBitVec bits).toNat - 0x100 := by decide +kernel
  exact all c.toBitVec

/-- A difference of characters has the sign of their order when they are on the same side. -/
theorem charDifference_order {a b : UInt8} (differ : a ≠ b) :
    ((charDifference a b < 0 ↔ a.toNat < b.toNat) ∧ (0 < charDifference a b ↔ b.toNat < a.toNat)) ↔
      (a.toNat < 0x80 ↔ b.toNat < 0x80) := by
  have bound := a.toNat_lt
  have bound' := b.toNat_lt
  have apart : a.toNat ≠ b.toNat := fun same => differ (UInt8.toNat_inj.mp same)
  rw [charDifference, toInt_toInt8, toInt_toInt8]
  split_ifs <;> omega

/-! ## The loops -/

/-- The characters at the first indices agree, and neither string ends there. -/
def Alike {α : Type} [OfNat α 0] (a b : ℕ → α) (count : ℕ) : Prop :=
  ∀ index < count, a index = b index ∧ a index ≠ 0

/-- A comparison that has come to an index with so much of `length` left. -/
inductive ComparedTo (length index : ℕ) : CompareState → Prop where
  | intro {readsA readsB : List ℕ} (belowA : ∀ read ∈ readsA, read ≤ index)
      (belowB : ∀ read ∈ readsB, read ≤ index) :
      ComparedTo length index ⟨index, length, readsA, readsB, none⟩

/-- A comparison that has returned, with the last indices it may have read. -/
structure ReturnedAt (endA endB : ℕ) (result : ℤ) (st : CompareState) : Prop where
  result : st.result = some result
  readsA : ∀ read ∈ st.readsA, read ≤ endA
  readsB : ∀ read ∈ st.readsB, read ≤ endB

/-- One turn after another. -/
theorem reaches_comparedTo {turn : CompareState → Option CompareState} {length : ℕ → ℕ} {count : ℕ}
    (steps : ∀ index < count, ∀ st, ComparedTo (length index) index st →
      ∃ next, turn st = some next ∧ ComparedTo (length (index + 1)) (index + 1) next) :
    ∃ st, Reaches turn (compareStart (length 0)) st ∧ ComparedTo (length count) count st := by
  induction count with
  | zero => exact ⟨_, .refl, .intro (List.forall_mem_nil _) (List.forall_mem_nil _)⟩
  | succ count ih =>
    obtain ⟨st, run, compared⟩ := ih fun index before => steps index (Nat.lt_succ_of_lt before)
    obtain ⟨next, stepped, compared'⟩ := steps count (Nat.lt_succ_self _) st compared
    exact ⟨next, run.tail stepped, compared'⟩

theorem le_of_mem_cons {index : ℕ} {reads : List ℕ} (below : ∀ read ∈ reads, read ≤ index) :
    ∀ read ∈ index :: reads, read ≤ index :=
  List.forall_mem_cons.mpr ⟨Nat.le_refl _, below⟩

theorem le_succ_of_mem {index : ℕ} {reads : List ℕ} (below : ∀ read ∈ reads, read ≤ index) :
    ∀ read ∈ reads, read ≤ index + 1 := fun read member => Nat.le_succ_of_le (below read member)

section Narrow

variable {a b : ℕ → UInt8} {length index : ℕ} {st : CompareState}

theorem strcmp_step (compared : ComparedTo length index st) (same : a index = b index)
    (more : a index ≠ 0) :
    ∃ next, strcmpTurn a b st = some next ∧ ComparedTo length (index + 1) next := by
  cases compared with
  | @intro readsA readsB belowA belowB =>
    have turn : strcmpTurn a b ⟨index, length, readsA, readsB, none⟩ =
        some ⟨index + 1, length, index :: readsA, index :: readsB, none⟩ :=
      congrArg some (if_pos (by simp [← same, more]))
    exact ⟨_, turn, .intro (le_succ_of_mem (le_of_mem_cons belowA))
      (le_succ_of_mem (le_of_mem_cons belowB))⟩

theorem strcmp_stop (compared : ComparedTo length index st)
    (stop : a index = 0 ∨ a index ≠ b index) :
    ∃ last, strcmpTurn a b st = some last ∧
      ReturnedAt index index (charDifference (a index) (b index)) last := by
  cases compared with
  | @intro readsA readsB belowA belowB =>
    have turn : strcmpTurn a b ⟨index, length, readsA, readsB, none⟩ =
        some ⟨index, length, index :: readsA, index :: readsB,
          some (charDifference (a index) (b index))⟩ :=
      congrArg some (if_neg (by simpa [or_iff_not_imp_left] using stop))
    exact ⟨_, turn, rfl, le_of_mem_cons belowA, le_of_mem_cons belowB⟩

theorem strncmp_step (compared : ComparedTo (length + 1) index st) (same : a index = b index)
    (more : a index ≠ 0) :
    ∃ next, strncmpTurn a b st = some next ∧ ComparedTo length (index + 1) next := by
  cases compared with
  | @intro readsA readsB belowA belowB =>
    have turn : strncmpTurn a b ⟨index, length + 1, readsA, readsB, none⟩ =
        some ⟨index + 1, length, index :: readsA, index :: readsB, none⟩ := by
      simp only [strncmpTurn, bne_iff_ne, ne_eq, more, not_false_eq_true, if_true]
      exact congrArg some (if_pos (by simp [← same, more]))
    exact ⟨_, turn, .intro (le_succ_of_mem (le_of_mem_cons belowA))
      (le_succ_of_mem (le_of_mem_cons belowB))⟩

theorem strncmp_stop (compared : ComparedTo (length + 1) index st)
    (stop : a index = 0 ∨ a index ≠ b index) :
    ∃ last, strncmpTurn a b st = some last ∧
      ReturnedAt index index (charDifference (a index) (b index)) last := by
  cases compared with
  | @intro readsA readsB belowA belowB =>
    have turn : strncmpTurn a b ⟨index, length + 1, readsA, readsB, none⟩ =
        some ⟨index, length + 1, index :: readsA, index :: readsB,
          some (charDifference (a index) (b index))⟩ := by
      have ended : ¬ (a index != 0 && a index == b index && length + 1 != 0) = true := by
        simpa [or_iff_not_imp_left] using stop
      exact congrArg some ((if_neg ended).trans (if_neg (by simp)))
    exact ⟨_, turn, rfl, le_of_mem_cons belowA, le_of_mem_cons belowB⟩

/-- The characters at the bound are looked at. -/
theorem strncmp_bound (compared : ComparedTo 0 index st) :
    ∃ last, strncmpTurn a b st = some last ∧ last.result = some 0 ∧ index ∈ last.readsA := by
  cases compared with
  | @intro readsA readsB belowA belowB =>
    refine ⟨_, congrArg some ((if_neg (by simp)).trans (if_pos rfl)), rfl, ?_⟩
    split_ifs
    · exact List.mem_cons_self
    · exact List.mem_cons_self

end Narrow

theorem sub_eq_sign (ret : ℤ) :
    (if 0 < ret then 1 else 0) - (if ret < 0 then 1 else 0) = ret.sign := by
  rcases lt_trichotomy ret 0 with negative | rfl | positive
  · rw [if_neg (Int.not_lt.mpr (Int.le_of_lt negative)), if_pos negative,
      Int.sign_eq_neg_one_of_neg negative]
    rfl
  · rfl
  · rw [if_pos positive, if_neg (Int.not_lt.mpr (Int.le_of_lt positive)),
      Int.sign_eq_one_of_pos positive]
    rfl

section Wide

variable {a b : ℕ → UInt16} {length index : ℕ} {st : CompareState}

theorem wcscmp_step (compared : ComparedTo length index st) (same : a index = b index)
    (more : a (index + 1) ≠ 0) (more' : b (index + 1) ≠ 0) :
    ∃ next, wcscmpTurn a b st = some next ∧ ComparedTo length (index + 1) next := by
  cases compared with
  | @intro readsA readsB belowA belowB =>
    have turn : wcscmpTurn a b ⟨index, length, readsA, readsB, none⟩ =
        some ⟨index + 1, length, (index + 1) :: index :: readsA, (index + 1) :: index :: readsB,
          none⟩ := by
      have goes : (a (index + 1) != 0) = true := by simpa using more
      have goes' : (b (index + 1) != 0) = true := by simpa using more'
      have equal : ¬ (((a index).toNat - (b index).toNat : ℤ) != 0) = true := by simp [same]
      exact congrArg some ((if_neg equal).trans ((if_pos goes).trans (if_pos goes')))
    exact ⟨_, turn, .intro (le_of_mem_cons (le_succ_of_mem (le_of_mem_cons belowA)))
      (le_of_mem_cons (le_succ_of_mem (le_of_mem_cons belowB)))⟩

theorem wcscmp_differs (compared : ComparedTo length index st) (differ : a index ≠ b index) :
    ∃ last, wcscmpTurn a b st = some last ∧
      ReturnedAt index index ((a index).toNat - (b index).toNat : ℤ).sign last := by
  cases compared with
  | @intro readsA readsB belowA belowB =>
    have apart : (((a index).toNat - (b index).toNat : ℤ) != 0) = true := by
      have other : (a index).toNat ≠ (b index).toNat := fun same => differ (UInt16.toNat_inj.mp same)
      rw [bne_iff_ne]
      omega
    exact ⟨_, congrArg some (if_pos apart), congrArg some (sub_eq_sign _), le_of_mem_cons belowA,
      le_of_mem_cons belowB⟩

/-- The end of either string ends the comparison. The second is looked at where the first goes on. -/
theorem wcscmp_ends (compared : ComparedTo length index st) (same : a index = b index)
    (stop : a (index + 1) = 0 ∨ b (index + 1) = 0) :
    ∃ last, wcscmpTurn a b st = some last ∧
      ReturnedAt (index + 1) (if a (index + 1) = 0 then index else index + 1) 0 last ∧
      index + 1 ∈ last.readsA := by
  cases compared with
  | @intro readsA readsB belowA belowB =>
    have equal : ¬ (((a index).toNat - (b index).toNat : ℤ) != 0) = true := by simp [same]
    have readA : ∀ read ∈ (index + 1) :: index :: readsA, read ≤ index + 1 :=
      le_of_mem_cons (le_succ_of_mem (le_of_mem_cons belowA))
    by_cases ended : a (index + 1) = 0
    · have stops : ¬ (a (index + 1) != 0) = true := by simpa using ended
      refine ⟨_, congrArg some ((if_neg equal).trans (if_neg stops)), ⟨rfl, readA, ?_⟩,
        List.mem_cons_self⟩
      rw [if_pos ended]
      exact le_of_mem_cons belowB
    · have goes : (a (index + 1) != 0) = true := by simpa using ended
      have stops : ¬ (b (index + 1) != 0) = true := by simpa using stop.resolve_left ended
      refine ⟨_, congrArg some ((if_neg equal).trans ((if_pos goes).trans (if_neg stops))),
        ⟨rfl, readA, ?_⟩, List.mem_cons_self⟩
      rw [if_neg ended]
      exact le_of_mem_cons (le_succ_of_mem (le_of_mem_cons belowB))

end Wide

/-! ## The runs -/

section Runs

variable {a b : ℕ → UInt8} {a' b' : ℕ → UInt16} {index : ℕ}

theorem strcmp_returns (agree : Alike a b index) (stop : a index = 0 ∨ a index ≠ b index) :
    ∃ last ∈ eval (strcmpTurn a b) (compareStart 0),
      ReturnedAt index index (charDifference (a index) (b index)) last := by
  obtain ⟨st, run, compared⟩ := @reaches_comparedTo (strcmpTurn a b) (fun _ => 0) index
    fun before inside st compared =>
      strcmp_step compared (agree before inside).1 (agree before inside).2
  obtain ⟨last, stepped, returned⟩ := strcmp_stop compared stop
  refine ⟨last, mem_eval.mpr ⟨run.tail stepped, ?_⟩, returned⟩
  rw [strcmpTurn, returned.result]

/-- The characters in front of a bound. -/
theorem strncmp_reaches {length : ℕ} (agree : Alike a b index) (inside : index ≤ length) :
    ∃ st, Reaches (strncmpTurn a b) (compareStart length) st ∧
      ComparedTo (length - index) index st := by
  apply @reaches_comparedTo (strncmpTurn a b) (fun index => length - index) index
  intro before earlier st compared
  have left : length - before = length - (before + 1) + 1 := by omega
  rw [left] at compared
  exact strncmp_step compared (agree before earlier).1 (agree before earlier).2

theorem strncmp_returns {length : ℕ} (agree : Alike a b index)
    (stop : a index = 0 ∨ a index ≠ b index) (inside : index < length) :
    ∃ last ∈ eval (strncmpTurn a b) (compareStart length),
      ReturnedAt index index (charDifference (a index) (b index)) last := by
  obtain ⟨st, run, compared⟩ := strncmp_reaches agree (Nat.le_of_lt inside)
  have left : length - index = length - index - 1 + 1 := by omega
  rw [left] at compared
  obtain ⟨last, stepped, returned⟩ := strncmp_stop compared stop
  refine ⟨last, mem_eval.mpr ⟨run.tail stepped, ?_⟩, returned⟩
  rw [strncmpTurn, returned.result]

/-- Characters that agree up to the bound. -/
theorem strncmp_overruns {length : ℕ} (agree : Alike a b length) :
    ∃ last ∈ eval (strncmpTurn a b) (compareStart length),
      last.result = some 0 ∧ length ∈ last.readsA := by
  obtain ⟨st, run, compared⟩ := strncmp_reaches agree (Nat.le_refl _)
  rw [Nat.sub_self] at compared
  obtain ⟨last, stepped, result, read⟩ := strncmp_bound compared
  refine ⟨last, mem_eval.mpr ⟨run.tail stepped, ?_⟩, result, read⟩
  rw [strncmpTurn, result]

/-- Where the function that names are compared by stops. -/
theorem strncmp_cases (a b : ℕ → UInt8) (length : ℕ) :
    (Alike a b length ∧ strncmp a b length = 0) ∨
    (∃ index < length, Alike a b index ∧ (a index = 0 ∨ a index ≠ b index) ∧
      strncmp a b length = charDifference (a index) (b index)) := by
  induction length generalizing a b with
  | zero => exact .inl ⟨nofun, rfl⟩
  | succ length ih =>
    rw [strncmp]
    split_ifs with goes
    · have here : a 0 = b 0 ∧ a 0 ≠ 0 := by simpa [and_comm] using goes
      have shifted : ∀ {count}, Alike (fun index => a (index + 1)) (fun index => b (index + 1)) count →
          Alike a b (count + 1) := by
        intro count agree index before
        cases index with
        | zero => exact here
        | succ index => exact agree index (Nat.lt_of_succ_lt_succ before)
      rcases ih (fun index => a (index + 1)) (fun index => b (index + 1)) with
        ⟨agree, zero⟩ | ⟨index, inside, agree, stop, result⟩
      · exact .inl ⟨shifted agree, zero⟩
      · exact .inr ⟨index + 1, Nat.succ_lt_succ inside, shifted agree, stop, result⟩
    · refine .inr ⟨0, Nat.succ_pos length, nofun, ?_, rfl⟩
      simpa [or_iff_not_imp_left] using goes

/-- The loop returns what that function is. -/
theorem strncmp_run (a b : ℕ → UInt8) (length : ℕ) :
    ∃ last ∈ eval (strncmpTurn a b) (compareStart length),
      last.result = some (strncmp a b length) := by
  rcases strncmp_cases a b length with ⟨agree, zero⟩ | ⟨index, inside, agree, stop, result⟩
  · obtain ⟨last, run, returned, -⟩ := strncmp_overruns agree
    exact ⟨last, run, by rw [returned, zero]⟩
  · obtain ⟨last, run, returned⟩ := strncmp_returns agree stop inside
    exact ⟨last, run, by rw [returned.result, result]⟩

/-- Characters that agree, behind which both strings go on. -/
def Follow (a b : ℕ → UInt16) (count : ℕ) : Prop :=
  ∀ index < count, a index = b index ∧ a (index + 1) ≠ 0 ∧ b (index + 1) ≠ 0

theorem wcscmp_reaches (follow : Follow a' b' index) :
    ∃ st, Reaches (wcscmpTurn a' b') (compareStart 0) st ∧ ComparedTo 0 index st := by
  apply @reaches_comparedTo (wcscmpTurn a' b') (fun _ => 0) index
  intro before earlier st compared
  obtain ⟨same, more, more'⟩ := follow before earlier
  exact wcscmp_step compared same more more'

theorem wcscmp_returns (follow : Follow a' b' index) (differ : a' index ≠ b' index) :
    ∃ last ∈ eval (wcscmpTurn a' b') (compareStart 0),
      ReturnedAt index index ((a' index).toNat - (b' index).toNat : ℤ).sign last := by
  obtain ⟨st, run, compared⟩ := wcscmp_reaches follow
  obtain ⟨last, stepped, returned⟩ := wcscmp_differs compared differ
  refine ⟨last, mem_eval.mpr ⟨run.tail stepped, ?_⟩, returned⟩
  rw [wcscmpTurn, returned.result]

theorem wcscmp_stops (follow : Follow a' b' index) (same : a' index = b' index)
    (stop : a' (index + 1) = 0 ∨ b' (index + 1) = 0) :
    ∃ last ∈ eval (wcscmpTurn a' b') (compareStart 0),
      ReturnedAt (index + 1) (if a' (index + 1) = 0 then index else index + 1) 0 last ∧
      index + 1 ∈ last.readsA := by
  obtain ⟨st, run, compared⟩ := wcscmp_reaches follow
  obtain ⟨last, stepped, returned, read⟩ := wcscmp_ends compared same stop
  refine ⟨last, mem_eval.mpr ⟨run.tail stepped, ?_⟩, returned, read⟩
  rw [wcscmpTurn, returned.result]

/-- What has been read stays read. -/
theorem wcscmpTurn_reads {st next : CompareState} (stepped : wcscmpTurn a' b' st = some next) :
    st.readsA ⊆ next.readsA := by
  rw [wcscmpTurn] at stepped
  split at stepped
  · cases stepped
  · have one : st.readsA ⊆ st.index :: st.readsA := List.subset_cons_self ..
    have two : st.readsA ⊆ (st.index + 1) :: st.index :: st.readsA :=
      List.subset_cons_of_subset _ one
    obtain rfl := Option.some.inj stepped
    dsimp only
    split
    · exact one
    · split_ifs <;> exact two

/-- Of two empty strings the characters behind are read. -/
theorem wcscmp_empty (ended : a' 0 = 0) (ended' : b' 0 = 0) {last : CompareState}
    (returned : last ∈ eval (wcscmpTurn a' b') (compareStart 0)) : 1 ∈ last.readsA := by
  obtain ⟨run, final⟩ := mem_eval.mp returned
  have equal : ¬ (((a' 0).toNat - (b' 0).toNat : ℤ) != 0) = true := by simp [ended, ended']
  rcases ReflTransGen.cases_head run with rfl | ⟨next, stepped, behind⟩
  · cases final
  · have read : 1 ∈ next.readsA := by
      obtain rfl := Option.some.inj ((congrArg some (if_neg equal)).symm.trans stepped)
      dsimp only
      split_ifs
      · exact List.mem_cons_self
      · exact List.mem_cons_self
      · exact List.mem_cons_self
    exact reaches_invariant (fun st => 1 ∈ st.readsA)
      (fun st next member stepped => wcscmpTurn_reads stepped member) behind read

end Runs

/-! ## The strings -/

namespace NulString

variable {α : Type} [OfNat α 0] {code : α → ℕ} {index : ℕ}

theorem get_ne_zero (s : NulString α) (inside : index < s.units.length) : s.get index ≠ 0 := by
  rw [s.get_of_lt inside]
  intro zero
  exact s.nulFree (zero ▸ List.getElem_mem inside)

theorem get_zero {s : NulString α} (empty : s.units = []) : s.get 0 = 0 := by
  have terminator := s.get_length
  rwa [empty, List.length_nil] at terminator

/-- The terminator is read as the code zero. -/
theorem code_get (zero : code 0 = 0) (s : NulString α) (inside : index ≤ s.units.length) :
    code (s.get index) = (s.units.map code).getD index 0 := by
  rcases Nat.lt_or_eq_of_le inside with before | rfl
  · rw [s.get_of_lt before, List.getD_eq_getElem _ _ (by rwa [List.length_map]), List.getElem_map]
  · rw [s.get_length, List.getD_eq_default _ _ (by rw [List.length_map]), zero]

theorem zero_notMem_codes (injective : Function.Injective code) (zero : code 0 = 0)
    (s : NulString α) : 0 ∉ s.units.map code := by
  intro member
  obtain ⟨c, inside, same⟩ := List.mem_map.mp member
  exact s.nulFree (injective (same.trans zero.symm) ▸ inside)

variable {a b : NulString α}

theorem alike_of_take {count : ℕ} (same : a.units.take count = b.units.take count)
    (inside : count ≤ a.units.length) : Alike a.get b.get count := by
  have lengths := congrArg List.length same
  rw [List.length_take, List.length_take, Nat.min_eq_left inside] at lengths
  intro index before
  have here : index < a.units.length := Nat.lt_of_lt_of_le before inside
  have here' : index < b.units.length := by omega
  refine ⟨?_, a.get_ne_zero here⟩
  have units : (a.units.take count)[index]? = (b.units.take count)[index]? := by rw [same]
  rw [List.getElem?_take_of_lt before, List.getElem?_take_of_lt before,
    List.getElem?_eq_getElem here, List.getElem?_eq_getElem here', Option.some.injEq] at units
  rw [a.get_of_lt here, b.get_of_lt here', units]

theorem alike_of_eq (same : a.units = b.units) : Alike a.get b.get a.units.length :=
  alike_of_take (by rw [same]) (Nat.le_refl _)

section Difference

variable (injective : Function.Injective code) (zero : code 0 = 0)
  (difference : FirstDifference 0 (a.units.map code) (b.units.map code) index)

include difference

theorem left_le : index ≤ a.units.length := by
  have left := difference.left
  rwa [List.length_map] at left

theorem right_le : index ≤ b.units.length := left_le difference.symm

include injective in
theorem alike_of_difference : Alike a.get b.get index := by
  have same := difference.same
  rw [← List.map_take, ← List.map_take] at same
  exact alike_of_take (List.map_injective_iff.mpr injective same) (left_le difference)

include zero in
theorem get_ne_of_difference : a.get index ≠ b.get index := by
  intro same
  apply difference.differs
  rw [← code_get zero a (left_le difference), ← code_get zero b (right_le difference), same]

end Difference

end NulString

/-! ## The calls -/

/-- A call that returns is judged by its result where it reads nothing behind its strings. -/
theorem ComparisonCall.orders_iff_of_returns (call : ComparisonCall) {endA endB endA' endB' : ℕ}
    {result result' : ℤ} (ended : ∃ last ∈ call.run, ReturnedAt endA endB result last)
    (ended' : ∃ last ∈ call.swap.run, ReturnedAt endA' endB' result' last)
    (opposite : result'.sign = -result.sign)
    (readable : ∀ index ≤ endA, call.FirstReadable index)
    (readable' : ∀ index ≤ endB, call.swap.FirstReadable index) :
    call.Orders ↔ IsOrder result call.first call.second := by
  obtain ⟨last, run, returned⟩ := ended
  obtain ⟨last', run', returned'⟩ := ended'
  constructor
  · rintro ⟨other, otherRun, otherResult, found, order, -⟩
    obtain rfl := Part.mem_unique run otherRun
    rwa [← Option.some.inj (found.symm.trans returned.result)]
  · intro order
    exact ⟨last, run, result, returned.result, order,
      fun index member => readable index (returned.readsA index member),
      fun index member => readable' index (returned.readsB index member),
      last', run', result', returned'.result, opposite⟩

theorem sign_charDifference (a b : UInt8) :
    (charDifference b a).sign = -(charDifference a b).sign := by
  rw [charDifference, charDifference, ← Int.sign_neg, Int.neg_sub]

theorem sameSide_self (text : List ℕ) : SameSide text text :=
  fun _ difference => absurd rfl difference.ne

/-- The difference of the first characters that differ is the order where they are on one side. -/
theorem isOrder_charDifference_iff {first second : List ℕ} {index : ℕ} {a b : UInt8}
    (difference : FirstDifference 0 first second index) (left : a.toNat = first.getD index 0)
    (right : b.toNat = second.getD index 0) :
    IsOrder (charDifference a b) first second ↔ SameSide first second := by
  have differ : a ≠ b := by
    rintro rfl
    exact difference.differs (left.symm.trans right)
  rw [difference.isOrder_iff, ← left, ← right, charDifference_order differ, left, right]
  constructor
  · intro side other difference'
    obtain rfl := difference.unique difference'
    exact side
  · intro side
    exact side index difference

section Narrow

variable {a b : NulString UInt8} {index : ℕ}

theorem Alike.symm {α : Type} [OfNat α 0] {a b : ℕ → α} {count : ℕ} (agree : Alike a b count) :
    Alike b a count := by
  intro index before
  obtain ⟨same, more⟩ := agree index before
  exact ⟨same.symm, same ▸ more⟩

theorem stop_symm {a b : UInt8} (stop : a = 0 ∨ a ≠ b) : b = 0 ∨ b ≠ a := by
  rcases stop with rfl | differ
  · exact (eq_or_ne b 0).imp id id
  · exact .inr differ.symm

/-- `strcmp` returns the difference of the characters that it stops at. -/
theorem strcmp_orders (agree : Alike a.get b.get index)
    (stop : a.get index = 0 ∨ a.get index ≠ b.get index) (left : index ≤ a.units.length)
    (right : index ≤ b.units.length) :
    (ComparisonCall.strcmp a b).Orders ↔
      IsOrder (charDifference (a.get index) (b.get index)) (a.units.map UInt8.toNat)
        (b.units.map UInt8.toNat) :=
  ComparisonCall.orders_iff_of_returns (.strcmp a b) (strcmp_returns agree stop)
    (strcmp_returns agree.symm (stop_symm stop)) (sign_charDifference _ _)
    (fun _ before => Nat.le_trans before left) (fun _ before => Nat.le_trans before right)

/-- And so does `strncmp` in front of its bound. -/
theorem strncmp_orders {length : ℕ} (agree : Alike a.get b.get index)
    (stop : a.get index = 0 ∨ a.get index ≠ b.get index) (left : index ≤ a.units.length)
    (right : index ≤ b.units.length) (inside : index < length) :
    (ComparisonCall.strncmp a b length).Orders ↔
      IsOrder (charDifference (a.get index) (b.get index)) ((a.units.map UInt8.toNat).take length)
        ((b.units.map UInt8.toNat).take length) :=
  ComparisonCall.orders_iff_of_returns (.strncmp a b length) (strncmp_returns agree stop inside)
    (strncmp_returns agree.symm (stop_symm stop) inside) (sign_charDifference _ _)
    (fun _ before => ⟨Nat.le_trans before left, Nat.lt_of_le_of_lt before inside⟩)
    (fun _ before => ⟨Nat.le_trans before right, Nat.lt_of_le_of_lt before inside⟩)

theorem charDifference_length (same : a.units = b.units) :
    charDifference (a.get a.units.length) (b.get a.units.length) = 0 := by
  rw [a.get_length, same, b.get_length]
  rfl

theorem exists_difference {α : Type} [OfNat α 0] {code : α → ℕ} (injective : Function.Injective code)
    (zero : code 0 = 0) {a b : NulString α} (differ : a.units ≠ b.units) :
    ∃ index, FirstDifference 0 (a.units.map code) (b.units.map code) index :=
  FirstDifference.exists_of_ne (a.zero_notMem_codes injective zero)
    (b.zero_notMem_codes injective zero)
    fun same => differ (List.map_injective_iff.mpr injective same)

theorem toNat_injective : Function.Injective UInt8.toNat := fun _ _ => UInt8.toNat_inj.mp

variable (a b) in
theorem strcmp_orders_iff :
    (ComparisonCall.strcmp a b).Orders ↔ (ComparisonCall.strcmp a b).Comparable := by
  by_cases same : a.units = b.units
  · rw [strcmp_orders (NulString.alike_of_eq same) (.inl a.get_length) (Nat.le_refl _)
      (Nat.le_of_eq (congrArg _ same)), charDifference_length same, ComparisonCall.Comparable, same]
    exact iff_of_true (isOrder_self.mpr rfl) (sameSide_self _)
  · obtain ⟨index, difference⟩ := exists_difference toNat_injective rfl same
    have left := NulString.left_le difference
    have right := NulString.right_le difference
    rw [strcmp_orders (NulString.alike_of_difference toNat_injective difference)
      (.inr (NulString.get_ne_of_difference rfl difference)) left right]
    exact isOrder_charDifference_iff difference (a.code_get rfl left) (b.code_get rfl right)

/-- Texts that agree up to a bound and end in front of it are the same. -/
theorem units_eq_of_take {length : ℕ} (same : a.units.take length = b.units.take length)
    (short : a.units.length < length) : a.units = b.units := by
  have lengths := congrArg List.length same
  rw [List.length_take, List.length_take] at lengths
  rwa [List.take_of_length_le (Nat.le_of_lt short), List.take_of_length_le (by omega)] at same

/-- Where the characters agree up to the bound, one behind it is read. -/
theorem not_strncmp_orders {length : ℕ} (agree : Alike a.get b.get length) :
    ¬ (ComparisonCall.strncmp a b length).Orders := by
  rintro ⟨last, run, result, -, -, readable, -⟩
  obtain ⟨other, otherRun, -, read⟩ := strncmp_overruns agree
  obtain rfl := Part.mem_unique run otherRun
  exact Nat.lt_irrefl _ (readable length read).2

variable (a b) in
theorem strncmp_orders_iff (length : ℕ) :
    (ComparisonCall.strncmp a b length).Orders ↔
      (ComparisonCall.strncmp a b length).Comparable := by
  rw [ComparisonCall.Comparable]
  by_cases same : a.units.take length = b.units.take length
  · rcases Nat.lt_or_ge a.units.length length with short | long
    · have equal := units_eq_of_take same short
      rw [strncmp_orders (NulString.alike_of_eq equal) (.inl a.get_length) (Nat.le_refl _)
        (Nat.le_of_eq (congrArg _ equal)) short, charDifference_length equal, equal]
      exact iff_of_true (isOrder_self.mpr rfl) ⟨.inl (equal ▸ short), sameSide_self _⟩
    · have within : ¬ (a.units.length < length ∨ a.units.take length ≠ b.units.take length) := by
        rintro (short | differ)
        · exact Nat.not_lt.mpr long short
        · exact differ same
      exact iff_of_false (not_strncmp_orders (NulString.alike_of_take same long))
        fun comparable => within comparable.1
  · have differ : (a.units.map UInt8.toNat).take length ≠ (b.units.map UInt8.toNat).take length := by
      rw [← List.map_take, ← List.map_take]
      exact fun codes => same (List.map_injective_iff.mpr toNat_injective codes)
    obtain ⟨index, difference⟩ := @FirstDifference.exists_of_ne ℕ 0 _ _
      (fun member => a.zero_notMem_codes toNat_injective rfl (List.mem_of_mem_take member))
      (fun member => b.zero_notMem_codes toNat_injective rfl (List.mem_of_mem_take member)) differ
    obtain ⟨inside, whole⟩ := difference.of_take
    have left := NulString.left_le whole
    have right := NulString.right_le whole
    rw [strncmp_orders (NulString.alike_of_difference toNat_injective whole)
      (.inr (NulString.get_ne_of_difference rfl whole)) left right inside,
      isOrder_charDifference_iff difference]
    · exact (and_iff_right (.inr same)).symm
    · rw [getD_take inside]
      exact a.code_get rfl left
    · rw [getD_take inside]
      exact b.code_get rfl right

end Narrow

section Wide

variable {a b : NulString UInt16} {index : ℕ}

theorem toNat_injective16 : Function.Injective UInt16.toNat := fun _ _ => UInt16.toNat_inj.mp

/-- Strings that agree in front of an index up to which both go on. -/
theorem follow_of_agree (agree : Alike a.get b.get index)
    (left : index < a.units.length ∨ index = 0) (right : index < b.units.length ∨ index = 0) :
    Follow a.get b.get index := by
  intro before earlier
  refine ⟨(agree before earlier).1, a.get_ne_zero ?_, b.get_ne_zero ?_⟩
  · omega
  · omega

theorem not_wcscmp_orders_empty (left : a.units = []) (right : b.units = []) :
    ¬ (ComparisonCall.wcscmp a b).Orders := by
  rintro ⟨last, run, result, -, -, readable, -⟩
  have bound : 1 ≤ a.units.length :=
    readable 1 (wcscmp_empty (NulString.get_zero left) (NulString.get_zero right) run)
  rw [left] at bound
  exact Nat.not_succ_le_zero _ bound

/-- `wcscmp` returns the order of the characters that it stops at. -/
theorem wcscmp_orders (agree : Alike a.get b.get index) (differ : a.get index ≠ b.get index)
    (going : index = 0 ∨ index < a.units.length ∧ index < b.units.length) :
    (ComparisonCall.wcscmp a b).Orders ↔
      IsOrder ((a.get index).toNat - (b.get index).toNat : ℤ).sign (a.units.map UInt16.toNat)
        (b.units.map UInt16.toNat) := by
  have left : index < a.units.length ∨ index = 0 := by omega
  have right : index < b.units.length ∨ index = 0 := by omega
  apply ComparisonCall.orders_iff_of_returns (.wcscmp a b)
    (wcscmp_returns (follow_of_agree agree left right) differ)
    (wcscmp_returns (follow_of_agree agree.symm right left) differ.symm)
  · rw [Int.sign_sign, Int.sign_sign, ← Int.sign_neg, Int.neg_sub]
  · intro read before
    change read ≤ a.units.length
    omega
  · intro read before
    change read ≤ b.units.length
    omega

/-- Where either string ends behind characters that agree, it returns zero. -/
theorem wcscmp_orders_zero (agree : Alike a.get b.get (index + 1))
    (left : index + 1 ≤ a.units.length) (right : index + 1 ≤ b.units.length)
    (stop : index + 1 = a.units.length ∨ index + 1 = b.units.length) :
    (ComparisonCall.wcscmp a b).Orders ↔
      IsOrder 0 (a.units.map UInt16.toNat) (b.units.map UInt16.toNat) := by
  have inner : Alike a.get b.get index := fun before earlier =>
    agree before (Nat.lt_succ_of_lt earlier)
  have same := (agree index (Nat.lt_succ_self index)).1
  have ended : a.get (index + 1) = 0 ∨ b.get (index + 1) = 0 := by
    rcases stop with here | here
    · exact .inl (by rw [here, a.get_length])
    · exact .inr (by rw [here, b.get_length])
  obtain ⟨last, run, returned, -⟩ :=
    wcscmp_stops (follow_of_agree inner (.inl left) (.inl right)) same ended
  obtain ⟨last', run', returned', -⟩ :=
    wcscmp_stops (follow_of_agree inner.symm (.inl right) (.inl left)) same.symm ended.symm
  apply ComparisonCall.orders_iff_of_returns (.wcscmp a b) ⟨last, run, returned⟩
    ⟨last', run', returned'⟩ rfl
  · exact fun read before => Nat.le_trans before left
  · intro read before
    change read ≤ b.units.length
    split_ifs at before <;> omega

variable (a b) in
theorem wcscmp_orders_iff :
    (ComparisonCall.wcscmp a b).Orders ↔ (ComparisonCall.wcscmp a b).Comparable := by
  rw [ComparisonCall.Comparable]
  by_cases same : a.units = b.units
  · by_cases empty : a.units = []
    · apply iff_of_false (not_wcscmp_orders_empty empty (same ▸ empty))
      rintro ⟨left | right, -⟩
      · exact left empty
      · exact right (same ▸ empty)
    · have some := Nat.succ_pred_eq_of_pos (List.length_pos_of_ne_nil empty)
      have agree := NulString.alike_of_eq same
      rw [← some] at agree
      rw [wcscmp_orders_zero agree (Nat.le_of_eq some)
        (Nat.le_of_eq (some.trans (congrArg _ same))) (.inl some), same]
      exact iff_of_true (isOrder_self.mpr rfl)
        ⟨.inl (same ▸ empty), fun _ difference => absurd rfl difference.ne⟩
  · obtain ⟨index, difference⟩ := exists_difference toNat_injective16 rfl same
    have left := NulString.left_le difference
    have right := NulString.right_le difference
    have agree := NulString.alike_of_difference toNat_injective16 difference
    have nonempty : a.units ≠ [] ∨ b.units ≠ [] := by
      by_contra both
      push Not at both
      exact same (both.1.trans both.2.symm)
    by_cases going : index = 0 ∨ index < a.units.length ∧ index < b.units.length
    · rw [wcscmp_orders agree (NulString.get_ne_of_difference rfl difference) going,
        difference.isOrder_iff, ← a.code_get rfl left, ← b.code_get rfl right,
        Int.sign_neg_iff, Int.sign_pos_iff]
      refine iff_of_true ⟨by omega, by omega⟩ ⟨nonempty, fun other difference' => ?_⟩
      obtain rfl := difference.unique difference'
      exact going
    · have positive : 0 < index := by omega
      obtain ⟨before, rfl⟩ : ∃ before, index = before + 1 := ⟨index - 1, by omega⟩
      rw [wcscmp_orders_zero agree left right (by omega)]
      apply iff_of_false
      · intro order
        exact difference.ne (order.equal.mp rfl)
      · intro comparable
        exact going (comparable.2 _ difference)

end Wide

/-- A comparison decides the order of its strings exactly where they can be compared. -/
theorem orders_iff (call : ComparisonCall) : call.Orders ↔ call.Comparable := by
  cases call with
  | strcmp a b => exact strcmp_orders_iff a b
  | strncmp a b length => exact strncmp_orders_iff a b length
  | wcscmp a b => exact wcscmp_orders_iff a b

/-- `wcscmp(u"a", u"ab")` is zero. -/
theorem not_orders_beginning :
    ¬ (ComparisonCall.wcscmp ⟨⟨[0x61], fun _ => 0⟩, by decide⟩
      ⟨⟨[0x61, 0x62], fun _ => 0⟩, by decide⟩).Orders := by
  rw [wcscmp_orders_iff]
  rintro ⟨-, going⟩
  have difference : FirstDifference 0 [0x61] [0x61, 0x62] 1 := ⟨rfl, by decide, by decide, by decide⟩
  rcases going 1 difference with zero | inside
  · cases zero
  · exact Nat.lt_irrefl _ inside.1

end ZLoader
