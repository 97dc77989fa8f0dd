import ZLoader.Soundness.StringOrder

/-! # Searches in strings

A search looks at a character before it looks for the end, so of the empty string it passes the
terminator and goes on behind it. Where the needle is missing, the searches that promise the end
return the last character.
-/

namespace ZLoader

open StateTransition Relation

/-! ## What is claimed -/

/-- A call of a search. The needle is not NUL. -/
inductive SearchCall where
  | strchr (s : NulString UInt8) (needle : Int32) (visible : needle ≠ 0)
  | wcschr (s : NulString UInt16) (needle : UInt16) (visible : needle ≠ 0)
  | strchrnul (s : NulString UInt8) (needle : Int32) (visible : needle ≠ 0)
  | wcschrnul (s : NulString UInt16) (needle : UInt16) (visible : needle ≠ 0)

namespace SearchCall

def run : SearchCall → Part SearchState
  | strchr s needle _ => eval (strchrTurn s.get needle) searchStart
  | wcschr s needle _ => eval (wcschrTurn s.get needle) searchStart
  | strchrnul s needle _ => eval (strchrnulTurn s.get needle) searchStart
  | wcschrnul s needle _ => eval (wcschrnulTurn s.get needle) searchStart

/-- The index of the first character that is the needle. Narrow characters are signed. -/
def first : SearchCall → Option ℕ
  | strchr s needle _ | strchrnul s needle _ =>
      s.units.findIdx? fun c => c.toInt8.toInt32 == needle
  | wcschr s needle _ | wcschrnul s needle _ => s.units.findIdx? fun c => c == needle

/-- The index of the terminator. -/
def terminator : SearchCall → ℕ
  | strchr s _ _ | strchrnul s _ _ => s.units.length
  | wcschr s _ _ | wcschrnul s _ _ => s.units.length

/-- The first occurrence of the needle; else `NULL` or the terminator. -/
def promised (call : SearchCall) : Option ℕ :=
  match call with
  | strchr .. | wcschr .. => call.first
  | strchrnul .. | wcschrnul .. => some (call.first.getD call.terminator)

/-- The call returns what is promised and has read nothing behind the terminator. -/
def Finds (call : SearchCall) : Prop :=
  ∃ last ∈ call.run, last.control = .returned call.promised ∧
    ∀ index ∈ last.reads, index ≤ call.terminator

/-- When a call does: the string is not empty, and the needle is there for those that promise the
terminator. -/
def Searchable : SearchCall → Prop
  | strchr s _ _ => s.units ≠ []
  | wcschr s _ _ => s.units ≠ []
  | strchrnul s needle _ => ∃ c ∈ s.units, c.toInt8.toInt32 = needle
  | wcschrnul s needle _ => needle ∈ s.units

end SearchCall

/-! ## The loop -/

section Loop

variable {α : Type} [OfNat α 0] [BEq α] (s : NulString α) (isNeedle : α → Bool)
  (behind : ℕ → Option ℕ)

/-- A turn of the search for a character. -/
def characterTurn : SearchState → Option SearchState :=
  searchTurn (fun index => isNeedle (s.get index)) (fun index => s.get index != 0) behind

variable {s isNeedle behind}

/-- What has been read stays read. -/
theorem characterTurn_reads {st next : SearchState}
    (stepped : characterTurn s isNeedle behind st = some next) : st.reads ⊆ next.reads := by
  rw [characterTurn, searchTurn] at stepped
  have one : st.reads ⊆ st.index :: st.reads := List.subset_cons_self ..
  split at stepped
  · cases stepped
  · obtain rfl := Option.some.inj stepped
    dsimp only
    split_ifs
    · exact one
    · exact List.subset_cons_of_subset _ one
    · exact List.subset_cons_of_subset _ one

/-- Of the empty string the character behind the terminator is read. -/
theorem search_empty (nul : isNeedle 0 = false) (empty : s.units = []) {last : SearchState}
    (ended : last ∈ eval (characterTurn s isNeedle behind) searchStart) : 1 ∈ last.reads := by
  obtain ⟨run, final⟩ := mem_eval.mp ended
  have miss : ¬ isNeedle (s.get 0) = true := by
    rw [NulString.get_zero empty, nul]
    exact Bool.false_ne_true
  rcases ReflTransGen.cases_head run with rfl | ⟨next, stepped, rest⟩
  · cases final
  · have read : 1 ∈ next.reads := by
      obtain rfl := Option.some.inj ((congrArg some (if_neg miss)).symm.trans stepped)
      dsimp only
      split_ifs
      · exact List.mem_cons_self
      · exact List.mem_cons_self
    exact reaches_invariant (fun st => 1 ∈ st.reads)
      (fun st next member stepped => characterTurn_reads stepped member) rest read

variable [LawfulBEq α]

theorem goesOn_of_lt {index : ℕ} (inside : index < s.units.length) :
    (s.get index != 0) = true := by
  rw [bne_iff_ne]
  exact s.get_ne_zero inside

variable (behind) in
/-- A search in front of the needle. -/
theorem search_reaches {count : ℕ} (inside : count < s.units.length)
    (absent : ∀ index < count, isNeedle (s.get index) = false) :
    ∃ reads, Reaches (characterTurn s isNeedle behind) searchStart ⟨count, reads, .searching⟩ ∧
      ∀ read ∈ reads, read ≤ count := by
  induction count with
  | zero => exact ⟨[], .refl, List.forall_mem_nil _⟩
  | succ count ih =>
    obtain ⟨reads, run, below⟩ := ih (Nat.lt_of_succ_lt inside)
      fun index before => absent index (Nat.lt_succ_of_lt before)
    have turn : characterTurn s isNeedle behind ⟨count, reads, .searching⟩ =
        some ⟨count + 1, (count + 1) :: count :: reads, .searching⟩ := by
      have other := Bool.eq_false_iff.mp (absent count (Nat.lt_succ_self count))
      exact congrArg some ((if_neg other).trans (if_pos (goesOn_of_lt inside)))
    exact ⟨_, run.tail turn, le_of_mem_cons (le_succ_of_mem (le_of_mem_cons below))⟩

variable (behind) in
/-- The first occurrence is returned. -/
theorem search_found {index : ℕ} (found : s.units.findIdx? isNeedle = some index) :
    ∃ last ∈ eval (characterTurn s isNeedle behind) searchStart,
      last.control = .returned (some index) ∧ ∀ read ∈ last.reads, read ≤ index := by
  obtain ⟨inside, here, before⟩ := List.findIdx?_eq_some_iff_getElem.mp found
  have absent : ∀ index' < index, isNeedle (s.get index') = false := by
    intro index' earlier
    rw [s.get_of_lt (Nat.lt_trans earlier inside)]
    exact Bool.eq_false_iff.mpr (before index' earlier)
  obtain ⟨reads, run, below⟩ := search_reaches behind inside absent
  have turn : characterTurn s isNeedle behind ⟨index, reads, .searching⟩ =
      some ⟨index, index :: reads, .returned (some index)⟩ := by
    rw [← s.get_of_lt inside] at here
    exact congrArg some (if_pos here)
  exact ⟨_, mem_eval.mpr ⟨run.tail turn, rfl⟩, rfl, le_of_mem_cons below⟩

/-- Without an occurrence the loop ends at the terminator. -/
theorem search_absent (absent : s.units.findIdx? isNeedle = none) (nonempty : s.units ≠ []) :
    ∃ last ∈ eval (characterTurn s isNeedle behind) searchStart,
      last.control = .returned (behind s.units.length) ∧
      ∀ read ∈ last.reads, read ≤ s.units.length := by
  have other : ∀ index < s.units.length, isNeedle (s.get index) = false := by
    intro index inside
    rw [s.get_of_lt inside]
    exact List.findIdx?_eq_none_iff.mp absent _ (List.getElem_mem inside)
  obtain ⟨count, last⟩ := Nat.exists_eq_add_one.mpr (List.length_pos_of_ne_nil nonempty)
  have inside : count < s.units.length := last ▸ Nat.lt_succ_self count
  obtain ⟨reads, run, below⟩ := search_reaches behind inside
    fun index before => other index (Nat.lt_trans before inside)
  have turn : characterTurn s isNeedle behind ⟨count, reads, .searching⟩ =
      some ⟨count + 1, (count + 1) :: count :: reads, .returned (behind (count + 1))⟩ := by
    have ended : ¬ (s.get (count + 1) != 0) = true := by
      rw [← last, s.get_length]
      simp
    have miss := Bool.eq_false_iff.mp (other count inside)
    exact congrArg some ((if_neg miss).trans (if_neg ended))
  rw [last]
  exact ⟨_, mem_eval.mpr ⟨run.tail turn, rfl⟩, rfl,
    le_of_mem_cons (le_succ_of_mem (le_of_mem_cons below))⟩

/-- A search that stays inside of its string returns the first occurrence or what stands behind the
loop. -/
theorem search_iff (nul : isNeedle 0 = false) (promised : Option ℕ) :
    (∃ last ∈ eval (characterTurn s isNeedle behind) searchStart,
      last.control = .returned promised ∧ ∀ read ∈ last.reads, read ≤ s.units.length) ↔
      s.units ≠ [] ∧ promised = (s.units.findIdx? isNeedle).or (behind s.units.length) := by
  by_cases empty : s.units = []
  · refine iff_of_false ?_ fun both => both.1 empty
    rintro ⟨last, ended, -, inside⟩
    have bound := inside 1 (search_empty nul empty ended)
    rw [empty] at bound
    exact Nat.not_succ_le_zero _ bound
  · rw [and_iff_right empty]
    obtain ⟨last, ended, control, inside⟩ : ∃ last ∈ eval (characterTurn s isNeedle behind) searchStart,
        last.control = .returned ((s.units.findIdx? isNeedle).or (behind s.units.length)) ∧
        ∀ read ∈ last.reads, read ≤ s.units.length := by
      cases found : s.units.findIdx? isNeedle with
      | none => exact search_absent found empty
      | some index =>
        obtain ⟨last, ended, control, below⟩ := search_found behind found
        have before := (List.findIdx?_eq_some_iff_getElem.mp found).1
        exact ⟨last, ended, control, fun read member =>
          Nat.le_trans (below read member) (Nat.le_of_lt before)⟩
    constructor
    · rintro ⟨other, ended', control', -⟩
      obtain rfl := Part.mem_unique ended ended'
      exact SearchControl.returned.inj (control'.symm.trans control)
    · rintro rfl
      exact ⟨last, ended, control, inside⟩

/-- Without the needle, `str - 1` is not the terminator. -/
theorem search_nul_iff (nul : isNeedle 0 = false) :
    (∃ last ∈ eval (characterTurn s isNeedle fun index => some (index - 1)) searchStart,
      last.control = .returned (some ((s.units.findIdx? isNeedle).getD s.units.length)) ∧
      ∀ read ∈ last.reads, read ≤ s.units.length) ↔ ∃ c ∈ s.units, isNeedle c = true := by
  rw [search_iff nul]
  cases found : s.units.findIdx? isNeedle with
  | none =>
    have absent := List.findIdx?_eq_none_iff.mp found
    apply iff_of_false
    · rintro ⟨nonempty, same⟩
      have positive := List.length_pos_of_ne_nil nonempty
      have last : s.units.length = s.units.length - 1 := Option.some.inj same
      omega
    · rintro ⟨c, member, here⟩
      exact Bool.false_ne_true ((absent c member).symm.trans here)
  | some index =>
    obtain ⟨inside, here, -⟩ := List.findIdx?_eq_some_iff_getElem.mp found
    have member := List.getElem_mem inside
    exact iff_of_true ⟨List.ne_nil_of_mem member, rfl⟩ ⟨_, member, here⟩

end Loop

/-! ## The calls -/

section Narrow

variable (s : NulString UInt8) {needle : Int32} (visible : needle ≠ 0)

theorem strchr_finds_iff :
    (SearchCall.strchr s needle visible).Finds ↔ (SearchCall.strchr s needle visible).Searchable := by
  have nul : ((0 : UInt8).toInt8.toInt32 == needle) = false := beq_false_of_ne visible.symm
  have law := @search_iff UInt8 _ _ s (fun c => c.toInt8.toInt32 == needle) (fun _ => none) _ nul
    (SearchCall.strchr s needle visible).promised
  rw [Option.or_none] at law
  exact law.trans (and_iff_left rfl)

theorem strchrnul_finds_iff :
    (SearchCall.strchrnul s needle visible).Finds ↔
      (SearchCall.strchrnul s needle visible).Searchable := by
  have nul : ((0 : UInt8).toInt8.toInt32 == needle) = false := beq_false_of_ne visible.symm
  have law := @search_nul_iff UInt8 _ _ s (fun c => c.toInt8.toInt32 == needle) _ nul
  simp only [beq_iff_eq] at law
  exact law

end Narrow

section Wide

variable (s : NulString UInt16) {needle : UInt16} (visible : needle ≠ 0)

theorem wcschr_finds_iff :
    (SearchCall.wcschr s needle visible).Finds ↔ (SearchCall.wcschr s needle visible).Searchable := by
  have nul : ((0 : UInt16) == needle) = false := beq_false_of_ne visible.symm
  have law := @search_iff UInt16 _ _ s (fun c => c == needle) (fun _ => none) _ nul
    (SearchCall.wcschr s needle visible).promised
  rw [Option.or_none] at law
  exact law.trans (and_iff_left rfl)

theorem wcschrnul_finds_iff :
    (SearchCall.wcschrnul s needle visible).Finds ↔
      (SearchCall.wcschrnul s needle visible).Searchable := by
  have nul : ((0 : UInt16) == needle) = false := beq_false_of_ne visible.symm
  have law := @search_nul_iff UInt16 _ _ s (fun c => c == needle) _ nul
  simp only [beq_iff_eq, exists_eq_right] at law
  exact law

end Wide

/-- A search finds its needle, or what it promises without one, exactly where the string is not empty
and the needle is there for those that promise the terminator. -/
theorem finds_iff (call : SearchCall) : call.Finds ↔ call.Searchable := by
  cases call with
  | strchr s needle visible => exact strchr_finds_iff s visible
  | wcschr s needle visible => exact wcschr_finds_iff s visible
  | strchrnul s needle visible => exact strchrnul_finds_iff s visible
  | wcschrnul s needle visible => exact wcschrnul_finds_iff s visible

/-- `wcschrnul(u"a", u'b')` is the index of the last character. -/
theorem not_finds_missing :
    ¬ (SearchCall.wcschrnul ⟨⟨[0x61], fun _ => 0⟩, by decide⟩ 0x62 (by decide)).Finds := by
  rw [wcschrnul_finds_iff]
  change ¬ (0x62 : UInt16) ∈ [0x61]
  decide

end ZLoader
