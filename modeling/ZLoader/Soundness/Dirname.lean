import ZLoader.Foundation.Trace
import ZLoader.Model.Lockdown
import ZLoader.Soundness.TextScan

/-! # The directory of a path

`get_dirname` should return what stands in front of the last backslash of a path. For a path of at
least two units that does not end in a backslash the scan stays in front of the terminator and the
directory is written, but the allocation has one byte for every unit of it and one for the
terminator: no call stays inside of its memory.
-/

namespace ZLoader

open StateTransition

/-- A path in memory. -/
structure PathArgument where
  units : List UInt16
  behind : ℕ → UInt16
  nulFree : 0 ∉ units

namespace PathArgument

variable (path : PathArgument)

/-- The unit at an index. -/
def get : ℕ → UInt16 := (⟨path.units, path.behind⟩ : Terminated UInt16).get

theorem get_of_lt {index : ℕ} (inside : index < path.units.length) :
    path.get index = path.units[index] := Terminated.get_of_lt _ inside

theorem get_length : path.get path.units.length = 0 := Terminated.get_length _

theorem get_ne_zero {index : ℕ} (inside : index < path.units.length) : path.get index ≠ 0 := by
  rw [path.get_of_lt inside]
  intro zero
  exact path.nulFree (zero ▸ List.getElem_mem inside)

end PathArgument

/-- What stands in front of the last backslash; nothing where there is none. -/
inductive IsDirname (units : List UInt16) : List UInt16 → Prop where
  | before {front behind : List UInt16} (split : units = front ++ wide '\\' :: behind)
      (last : wide '\\' ∉ behind) : IsDirname units front
  | none (absent : wide '\\' ∉ units) : IsDirname units []

/-! ## What is stored -/

section Invariant

variable (path : ℕ → UInt16) (malloc : ℕ → Bool)

/-- The last position is the start of the path or a backslash that has been read. -/
def DirnameState.Positioned (st : DirnameState) : Prop :=
  st.lastPos = 0 ∨ st.lastPos ∈ st.reads ∧ path st.lastPos = wide '\\'

/-- What holds while `get_dirname` runs: the copy is bound for the last position, and the terminator
is stored there or at a NUL in front of it. -/
inductive DirnameRuns (st : DirnameState) : Prop where
  | searching {str : ℕ} (control : st.control = .searching str)
  | copying {n index : ℕ} (control : st.control = .copying n index)
      (bound : index + n = st.lastPos) (allocated : st.allocated = st.lastPos + 1)
  | returned (control : st.control = .returned) (allocated : st.allocated = st.lastPos + 1)
      (stored : ∃ index ∈ st.stores, index = st.lastPos ∨ index < st.lastPos ∧ path index = 0)
  | failed (control : st.control = .failed)

theorem dirnameTurn_runs {st next : DirnameState}
    (held : DirnameRuns path st ∧ st.Positioned path)
    (stepped : dirnameTurn path malloc st = some next) :
    DirnameRuns path next ∧ next.Positioned path := by
  obtain ⟨runs, positioned⟩ := held
  have kept : ∀ {reads : List ℕ}, st.reads ⊆ reads →
      st.lastPos = 0 ∨ st.lastPos ∈ reads ∧ path st.lastPos = wide '\\' := by
    intro reads subset
    exact positioned.imp id fun ⟨member, separator⟩ => ⟨subset member, separator⟩
  have one : ∀ index : ℕ, st.reads ⊆ index :: st.reads := fun index => List.subset_cons_self ..
  have two : ∀ index other : ℕ, st.reads ⊆ index :: other :: st.reads := fun index other =>
    List.subset_cons_of_subset _ (one other)
  cases runs with
  | @searching str control =>
    simp only [dirnameTurn, control, searchingTurn, Option.some.injEq] at stepped
    subst stepped
    split_ifs with separator more
    · exact ⟨.searching rfl, .inr ⟨List.mem_cons_self, beq_iff_eq.mp separator⟩⟩
    · exact ⟨.searching rfl, kept (two _ _)⟩
    · simp only [dirnameAllocate]
      split_ifs
      · exact ⟨.copying rfl (Nat.zero_add _) rfl, kept (two _ _)⟩
      · exact ⟨.failed rfl, kept (two _ _)⟩
  | @copying n index control bound allocated =>
    simp only [dirnameTurn, control, copyingTurn, Option.some.injEq] at stepped
    subst stepped
    split_ifs with done more
    · refine ⟨.returned rfl allocated ⟨index, List.mem_cons_self, .inl ?_⟩, positioned⟩
      change index = st.lastPos
      omega
    · refine ⟨.copying rfl ?_ allocated, kept (one _)⟩
      change index + 1 + (n - 1) = st.lastPos
      omega
    · refine ⟨.returned rfl allocated ⟨index, List.mem_cons_self, .inr ⟨?_, ?_⟩⟩, kept (one _)⟩
      · change index < st.lastPos
        omega
      · simpa using more
  | returned control =>
    rw [dirnameTurn, control] at stepped
    cases stepped
  | failed control =>
    rw [dirnameTurn, control] at stepped
    cases stepped

end Invariant

/-- A call that returns and reads up to the terminator only stores a NUL behind its allocation. -/
theorem exists_store_outside (path : PathArgument) {malloc : ℕ → Bool} {dir : ℕ → UInt16}
    {last : DirnameState} (ended : last ∈ eval (dirnameTurn path.get malloc) (dirnameStart dir))
    (returned : last.control = .returned)
    (inside : ∀ index ∈ last.reads, index ≤ path.units.length) :
    ∃ index ∈ last.stores, last.allocated < 2 * index + 2 := by
  have start : DirnameRuns path.get (dirnameStart dir) ∧ (dirnameStart dir).Positioned path.get :=
    ⟨.searching rfl, .inl rfl⟩
  obtain ⟨runs, positioned⟩ := reaches_invariant
    (fun st => DirnameRuns path.get st ∧ st.Positioned path.get)
    (fun _ _ held stepped => dirnameTurn_runs path.get malloc held stepped)
    (mem_eval.mp ended).1 start
  cases runs with
  | searching control => cases control.symm.trans returned
  | copying control => cases control.symm.trans returned
  | failed control => cases control.symm.trans returned
  | returned _ allocated stored =>
    obtain ⟨index, member, place⟩ := stored
    refine ⟨index, member, ?_⟩
    rcases place with same | ⟨before, nul⟩
    · omega
    · -- the last position stands in the path, in front of its terminator
      rcases positioned with zero | ⟨read, separator⟩
      · omega
      · have bound := inside _ read
        exact absurd nul (path.get_ne_zero (by omega))

/-! ## Scans inside of the path -/

section Scan

variable {path : PathArgument} {malloc : ℕ → Bool} {st : DirnameState}

/-- What a scan that has come to an index knows: its last position is the last backslash so far, or
the start of the path. -/
structure ScannedTo (path : PathArgument) (st : DirnameState) (str : ℕ) : Prop where
  reads : ∀ index ∈ st.reads, index ≤ path.units.length
  before : st.lastPos < str
  separator : st.lastPos = 0 ∨ path.get st.lastPos = wide '\\'
  last : ∀ index, st.lastPos < index → index < str → path.get index ≠ wide '\\'

theorem ScannedTo.found {str : ℕ} (scanned : ScannedTo path st str)
    (inside : str < path.units.length) (separator : path.get str = wide '\\') :
    ScannedTo path { st with control := .searching (str + 1), lastPos := str,
                             reads := str :: st.reads } (str + 1) := by
  refine ⟨?_, Nat.lt_succ_self str, .inr separator, fun index above below => ?_⟩
  · rw [List.forall_mem_cons]
    exact ⟨Nat.le_of_lt inside, scanned.reads⟩
  · change str < index at above
    omega

theorem ScannedTo.passed {str : ℕ} (scanned : ScannedTo path st str)
    (inside : str < path.units.length) (other : path.get str ≠ wide '\\') :
    ScannedTo path { st with reads := (str + 1) :: str :: st.reads } (str + 1) := by
  have before := scanned.before
  refine ⟨?_, Nat.lt_succ_of_lt scanned.before, scanned.separator, fun index above below => ?_⟩
  · rw [List.forall_mem_cons, List.forall_mem_cons]
    exact ⟨inside, Nat.le_of_lt inside, scanned.reads⟩
  · rcases Nat.lt_succ_iff_lt_or_eq.mp below with earlier | rfl
    · exact scanned.last index above earlier
    · exact other

/-- Where the last unit is no backslash the scan ends in front of the terminator. The induction is
on the units that are left. -/
theorem scan_reaches {left str : ℕ} (distance : str + left + 1 = path.units.length)
    (open_ : path.get (path.units.length - 1) ≠ wide '\\') (granted : ∀ size, malloc size = true)
    (control : st.control = .searching str) (scanned : ScannedTo path st str) :
    ∃ found, Reaches (dirnameTurn path.get malloc) st found ∧
      found.control = .copying found.lastPos 0 ∧ ScannedTo path found path.units.length := by
  induction left generalizing str st with
  | zero =>
    have final : str = path.units.length - 1 := by omega
    have other : path.get str ≠ wide '\\' := by rwa [final]
    have terminator : path.get (str + 1) = 0 := by
      rw [show str + 1 = path.units.length from by omega]
      exact path.get_length
    have stepped : dirnameTurn path.get malloc st =
        some (dirnameAllocate malloc { st with reads := (str + 1) :: str :: st.reads }) := by
      have differs : (path.get str == wide '\\') = false := by simpa using other
      simp only [dirnameTurn, control, searchingTurn, differs, terminator]
      rfl
    have passed := scanned.passed (by omega) other
    rw [show str + 1 = path.units.length from by omega] at passed stepped
    refine ⟨_, .single stepped, ?_, ?_⟩
    · simp only [dirnameAllocate, granted, if_true]
    · simp only [dirnameAllocate, granted, if_true]
      exact ⟨passed.reads, passed.before, passed.separator, passed.last⟩
  | succ left ih =>
    rcases eq_or_ne (path.get str) (wide '\\') with separator | other
    · have stepped : dirnameTurn path.get malloc st =
          some { st with control := .searching (str + 1), lastPos := str,
                         reads := str :: st.reads } := by
        simp only [dirnameTurn, control, searchingTurn, separator, beq_self_eq_true, if_true]
      obtain ⟨found, run, copying, last⟩ :=
        ih (by omega) rfl (scanned.found (by omega) separator)
      exact ⟨found, .head stepped run, copying, last⟩
    · have more : path.get (str + 1) ≠ 0 := path.get_ne_zero (by omega)
      have stepped : dirnameTurn path.get malloc st =
          some { st with control := .searching (str + 1), reads := (str + 1) :: str :: st.reads } := by
        have differs : (path.get str == wide '\\') = false := by simpa using other
        have goesOn : (path.get (str + 1) != 0) = true := by simpa using more
        simp only [dirnameTurn, control, searchingTurn, differs, goesOn]
        rfl
      have passed := scanned.passed (by omega) other
      have next : ScannedTo path { st with control := .searching (str + 1),
                                           reads := (str + 1) :: str :: st.reads } (str + 1) :=
        ⟨passed.reads, passed.before, passed.separator, passed.last⟩
      obtain ⟨found, run, copying, last⟩ := @ih _ _ (by omega) rfl next
      exact ⟨found, .head stepped run, copying, last⟩

/-- The copy of units in front of the terminator. The induction is on the units left to copy. -/
theorem copy_reaches {n index : ℕ} (bound : index + n < path.units.length)
    (control : st.control = .copying n index)
    (reads : ∀ index ∈ st.reads, index ≤ path.units.length)
    (copied : ∀ i < index, st.dir i = path.get i) :
    ∃ last, Reaches (dirnameTurn path.get malloc) st last ∧ last.control = .returned ∧
      (∀ index ∈ last.reads, index ≤ path.units.length) ∧
      (∀ i < index + n, last.dir i = path.get i) ∧ last.dir (index + n) = 0 := by
  induction n generalizing index st with
  | zero =>
    have stepped : dirnameTurn path.get malloc st =
        some { st.store index 0 with control := .returned } := by
      simp only [dirnameTurn, control, copyingTurn, if_true]
    refine ⟨_, .single stepped, rfl, reads, fun i below => ?_, Function.update_self ..⟩
    exact (Function.update_of_ne (Nat.ne_of_lt below) ..).trans (copied i below)
  | succ n ih =>
    have more : (path.get index != 0) = true := by simpa using path.get_ne_zero (by omega)
    have stepped : dirnameTurn path.get malloc st =
        some { ({ st with reads := index :: st.reads } : DirnameState).store index (path.get index)
          with control := .copying n (index + 1) } := by
      simp only [dirnameTurn, control, copyingTurn, more]
      rfl
    have reads' : ∀ i ∈ index :: st.reads, i ≤ path.units.length := by
      rw [List.forall_mem_cons]
      exact ⟨by omega, reads⟩
    have copied' : ∀ i < index + 1, Function.update st.dir index (path.get index) i = path.get i := by
      intro i below
      rcases Nat.lt_succ_iff_lt_or_eq.mp below with earlier | rfl
      · exact (Function.update_of_ne (Nat.ne_of_lt earlier) ..).trans (copied i earlier)
      · exact Function.update_self ..
    obtain ⟨last, run, returned, inside, same, terminated⟩ :=
      @ih { ({ st with reads := index :: st.reads } : DirnameState).store index (path.get index) with
        control := .copying n (index + 1) } (index + 1) (by omega) rfl reads' copied'
    rw [Nat.add_right_comm] at same terminated
    exact ⟨last, .head stepped run, returned, inside, same, terminated⟩

/-- The last position of the whole scan cuts off the directory. -/
theorem ScannedTo.isDirname (scanned : ScannedTo path st path.units.length) :
    IsDirname path.units (path.units.take st.lastPos) := by
  have inside := scanned.before
  have behind : wide '\\' ∉ path.units.drop (st.lastPos + 1) := by
    intro member
    obtain ⟨index, bound, same⟩ := List.getElem_of_mem member
    rw [List.length_drop] at bound
    rw [List.getElem_drop, ← path.get_of_lt (by omega)] at same
    exact scanned.last _ (by omega) (by omega) same
  have split : path.units = path.units.take st.lastPos ++
      path.get st.lastPos :: path.units.drop (st.lastPos + 1) := by
    rw [path.get_of_lt inside, ← List.drop_eq_getElem_cons, List.take_append_drop]
  rcases eq_or_ne (path.get st.lastPos) (wide '\\') with separator | other
  · rw [separator] at split
    exact .before split behind
  · have start := scanned.separator.resolve_right other
    rw [start, List.take_zero] at split ⊢
    refine .none ?_
    rw [split, List.nil_append, List.mem_cons, not_or]
    rw [start] at behind other
    exact ⟨other.symm, behind⟩

end Scan

/-! ## The whole call -/

/-- A call returns the directory of the path as a string, in memory that it allocated, without
reading behind the terminator. -/
structure DirnameCall (path : PathArgument) (dir : ℕ → UInt16) (last : DirnameState) : Prop where
  ended : last ∈ eval (dirnameTurn path.get fun _ => true) (dirnameStart dir)
  returned : last.control = .returned
  reads : ∀ index ∈ last.reads, index ≤ path.units.length
  stores : ∀ index ∈ last.stores, 2 * index + 2 ≤ last.allocated
  dirname : ∃ front, IsDirname path.units front ∧
    (List.range front.length).map last.dir = front ∧ last.dir front.length = 0

/-- `get_dirname` does what it should where the allocation succeeds. -/
def GetsDirname (path : PathArgument) (dir : ℕ → UInt16) : Prop := ∃ last, DirnameCall path dir last

/-- For a path of at least two units that does not end in a backslash all but the stores is as it
should be. -/
theorem getDirname_reads (path : PathArgument) (long : 2 ≤ path.units.length)
    (open_ : path.get (path.units.length - 1) ≠ wide '\\') (dir : ℕ → UInt16) :
    ∃ last ∈ eval (dirnameTurn path.get fun _ => true) (dirnameStart dir),
      last.control = .returned ∧ (∀ index ∈ last.reads, index ≤ path.units.length) ∧
        ∃ front, IsDirname path.units front ∧
          (List.range front.length).map last.dir = front ∧ last.dir front.length = 0 := by
  have start : ScannedTo path (dirnameStart dir) 1 :=
    ⟨fun _ member => absurd member List.not_mem_nil, Nat.one_pos, .inl rfl, by omega⟩
  have granted : ∀ size : ℕ, (fun _ => true) size = true := fun _ => rfl
  obtain ⟨found, scan, copying, scanned⟩ := scan_reaches
    (show 1 + (path.units.length - 2) + 1 = path.units.length by omega) open_ granted rfl start
  have inside := scanned.before
  obtain ⟨last, copy, returned, reads, same, terminated⟩ :=
    copy_reaches (by omega) copying scanned.reads fun _ below => absurd below (Nat.not_lt_zero _)
  rw [Nat.zero_add] at same terminated
  have length : (path.units.take found.lastPos).length = found.lastPos :=
    List.length_take_of_le (Nat.le_of_lt inside)
  refine ⟨last, mem_eval.mpr ⟨scan.trans copy, ?_⟩, returned, reads,
    path.units.take found.lastPos, scanned.isDirname, ?_, ?_⟩
  · rw [dirnameTurn, returned]
  · rw [length]
    apply List.ext_getElem
    · rw [List.length_map, List.length_range, length]
    · intro index bound bound'
      rw [List.length_map, List.length_range] at bound
      rw [List.getElem_map, List.getElem_range, same index bound, List.getElem_take,
        path.get_of_lt (by omega)]
  · rw [length]
    exact terminated

/-- No call stores inside of its memory. -/
theorem not_getsDirname (path : PathArgument) (dir : ℕ → UInt16) : ¬ GetsDirname path dir := by
  rintro ⟨last, call⟩
  obtain ⟨index, member, outside⟩ :=
    exists_store_outside path call.ended call.returned call.reads
  have inside := call.stores index member
  omega

/-- Where the program may stand on a medium. -/
def lockdownPath : PathArgument :=
  { units := ['\\', 'k', '\\', 'l'].map wide
    behind := fun _ => 0
    nulFree := by decide }

/-- The directory has two units, and the terminator is stored behind its three bytes. -/
theorem not_getsDirname_lockdownPath : ¬ GetsDirname lockdownPath fun _ => 0 := by
  rintro ⟨last, call⟩
  obtain ⟨index, member, outside⟩ :=
    exists_store_outside lockdownPath call.ended call.returned call.reads
  exact absurd (call.stores index member) (Nat.not_le.mpr outside)

end ZLoader
