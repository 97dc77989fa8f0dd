import ZLoader.Foundation.Trace
import ZLoader.Soundness.TextScan

/-! # Printing an item

`ptr_item` walks over the text of an item twice, once to measure it and once to put it. Where the
first walk gets to its end the second one does, and the item is its characters with the paddings
that its widths ask for.
-/

namespace ZLoader

open StateTransition

/-! ## What a turn reads -/

/-- The call of `ptr_getc` that a turn makes. -/
def PrintState.read (ps : PrintState) : Option Ptr :=
  match ps.control with
  | .text | .directive _ | .digits _ _ => some ps.fmt
  | .measuring item p => if p.index < item.fieldWidth then some p else none
  | .adding _ p len => if p.index < len then some p else none
  | .floating | .returned => none

/-- The call of `ptr_getc` advances unless it returns NUL. -/
def PrintState.Advances (ps : PrintState) : Prop :=
  ∀ p, ps.read = some p → (ptrGetc p).1 ≠ 0 → p.index < (ptrGetc p).2.index

/-- The directives that set an attribute and stand alone. -/
def standaloneLetters : List UInt16 := ['A', 'T', 'N', 'B', 'E'].map wide

/-- The modifiers of a directive that set an attribute for its field. -/
def fieldLetters : List UInt16 := ['n', 'b', 'e'].map wide

/-- The `switch` sets an attribute, which ends the directive. -/
def setsAttribute (args : ℕ → Argument) (vars : PrintVars) (item : Item) (c : UInt16) : Bool :=
  (directiveSwitch args vars item c).any fun switched => switched.attr != 0

/-- A character of a directive that should set an attribute, and whether it does. -/
def attributeMet (args : ℕ → Argument) (vars : PrintVars) (item : Item) (c : UInt16) : List Bool :=
  if c ∈ standaloneLetters then [setsAttribute args vars item c] else []

/-- The attribute directive that a turn meets. -/
def PrintState.attributeMet (ps : PrintState) : List Bool :=
  match ps.control with
  | .directive item => ZLoader.attributeMet ps.args ps.vars item (ptrGetc ps.fmt).1
  | _ => []

/-- A turn in front of the end of the format that advances. -/
def Orderly (n : ℕ) (ps : PrintState) : Prop := ps.fmt.index ≤ n ∧ ps.Advances

/-- A stretch of orderly turns, with the attribute directives met. -/
abbrev PrintTrace (n : ℕ) : PrintState → List Bool → PrintState → Prop :=
  Trace printTurn (Orderly n) PrintState.attributeMet

/-! ## What is put -/

/-- The second output comes from the first by putting the characters, with changes of the attribute
and flushes in between. -/
inductive Emits : Output → List UInt16 → Output → Prop where
  | refl (out : Output) : Emits out [] out
  | put {out out' : Output} {text : List UInt16} (c : UInt16)
      (rest : Emits (ptrPutc out c) text out') : Emits out (c :: text) out'
  | setattr {out out' : Output} {text : List UInt16} (attr : UInt64)
      (rest : Emits (out.setattr attr) text out') : Emits out text out'
  | flush {out out' : Output} {text : List UInt16}
      (rest : Emits (ptrFlush out) text out') : Emits out text out'

theorem Emits.trans {out middle out' : Output} {left right : List UInt16}
    (first : Emits out left middle) (second : Emits middle right out') :
    Emits out (left ++ right) out' := by
  induction first with
  | refl => exact second
  | put c _ ih => exact .put c (ih second)
  | setattr attr _ ih => exact .setattr attr (ih second)
  | flush _ ih => exact .flush (ih second)

theorem Emits.single (out : Output) (c : UInt16) : Emits out [c] (ptrPutc out c) :=
  .put c (.refl _)

theorem Emits.padding (c : UInt16) (times : ℕ) (out : Output) :
    Emits out (List.replicate times c) (putTimes c times out) := by
  induction times generalizing out with
  | zero => exact .refl out
  | succ times ih => exact .put c (ih _)

/-! ## Leaving a directive -/

/-- The variables behind the loop over a directive. -/
def PrintVars.leave (vars : PrintVars) : PrintVars :=
  if vars.restoreAttr != 0 then vars.setattr vars.restoreAttr else vars

@[simp] theorem leaveDirective_control (ps : PrintState) :
    (leaveDirective ps).control = .text := rfl

@[simp] theorem leaveDirective_fmt (ps : PrintState) : (leaveDirective ps).fmt = ps.fmt := by
  rw [leaveDirective]
  split_ifs <;> rfl

@[simp] theorem leaveDirective_args (ps : PrintState) : (leaveDirective ps).args = ps.args := by
  rw [leaveDirective]
  split_ifs <;> rfl

@[simp] theorem leaveDirective_vars (ps : PrintState) :
    (leaveDirective ps).vars = ps.vars.leave := by
  rw [leaveDirective, PrintVars.leave]
  split_ifs <;> rfl

/-- The loop that was left does not matter. -/
theorem leaveDirective_of_control (fmt : Ptr) (args : ℕ → Argument) (vars : PrintVars)
    (out : Output) (control control' : Control) :
    leaveDirective ⟨fmt, args, vars, out, control⟩ =
      leaveDirective ⟨fmt, args, vars, out, control'⟩ := by
  simp only [leaveDirective]
  split_ifs <;> rfl

theorem Emits.leave (ps : PrintState) : Emits ps.out [] (leaveDirective ps).out := by
  rw [leaveDirective]
  split_ifs
  · exact .setattr ps.vars.restoreAttr (.refl _)
  · exact .refl _

/-! ## The text of an item -/

/-- The index at which the first walk stops, and the characters that the second one puts. There is
none where the first walk comes to a malformed character. A NUL that takes several units is stepped
back into, and put. -/
def Scan.measure (fieldWidth : ℕ) : Scan → ℕ → Option (ℕ × List UInt16)
  | .nul, index => some (index, [])
  | .malformed, index => if index < fieldWidth then none else some (index, [])
  | .char c units rest, index =>
      if index < fieldWidth then
        if c = 0 then some (index + units - 1, if 1 < units then [0] else [])
        else
          (rest.measure fieldWidth (index + units)).map fun measured =>
            (measured.1, c :: measured.2)
      else some (index, [])

/-- What `ptr_item` puts. -/
def itemText (item : Item) (text : Text) : Option (List UInt16) :=
  (text.scan.measure item.fieldWidth 0).map fun measured =>
    let item := item.fit measured.1
    let field := List.replicate (item.fieldWidth - item.width) (wide ' ')
    let padded := List.replicate (item.width - measured.1) item.padChar ++ measured.2
    if item.padBefore then field ++ padded else padded ++ field

theorem Scan.measure_full {fieldWidth index : ℕ} (scan : Scan) (full : ¬ index < fieldWidth) :
    scan.measure fieldWidth index = some (index, []) := by
  cases scan with
  | nul => rfl
  | malformed => exact if_neg full
  | char c units rest => exact if_neg full

/-- The ways to measure: the field is full, the text ends, at a NUL of several units too, or its first
character is passed. -/
theorem Scan.measure_eq_some {fieldWidth : ℕ} {scan : Scan} {index len : ℕ}
    {chars : List UInt16} (measured : scan.measure fieldWidth index = some (len, chars)) :
    (¬ index < fieldWidth ∧ len = index ∧ chars = []) ∨
    (index < fieldWidth ∧ scan = .nul ∧ len = index ∧ chars = []) ∨
    (∃ units rest, index < fieldWidth ∧ scan = .char 0 units rest ∧ len = index + units - 1 ∧
      chars = if 1 < units then [0] else []) ∨
    (∃ c units rest later, index < fieldWidth ∧ scan = .char c units rest ∧ c ≠ 0 ∧
      rest.measure fieldWidth (index + units) = some (len, later) ∧ chars = c :: later) := by
  by_cases more : index < fieldWidth
  · cases scan with
    | nul =>
      obtain ⟨rfl, rfl⟩ := Prod.mk.inj (Option.some.inj measured)
      exact .inr (.inl ⟨more, rfl, rfl, rfl⟩)
    | malformed =>
      rw [Scan.measure, if_pos more] at measured
      cases measured
    | char c units rest =>
      rw [Scan.measure, if_pos more] at measured
      by_cases zero : c = 0
      · rw [if_pos zero] at measured
        obtain ⟨rfl, rfl⟩ := Prod.mk.inj (Option.some.inj measured)
        subst zero
        exact .inr (.inr (.inl ⟨units, rest, more, rfl, rfl, rfl⟩))
      · rw [if_neg zero] at measured
        obtain ⟨⟨len', later⟩, rest_measured, same⟩ := Option.map_eq_some_iff.mp measured
        obtain ⟨rfl, rfl⟩ := Prod.mk.inj same
        exact .inr (.inr (.inr ⟨c, units, rest, later, more, rfl, zero, rest_measured, rfl⟩))
  · obtain ⟨rfl, rfl⟩ := Prod.mk.inj (Option.some.inj ((scan.measure_full more).symm.trans measured))
    exact .inl ⟨more, rfl, rfl⟩

theorem Scan.le_measure {fieldWidth : ℕ} {scan : Scan} {index len : ℕ} {chars : List UInt16}
    {text : Text} (stands : text.StandsAt scan index)
    (measured : scan.measure fieldWidth index = some (len, chars)) : index ≤ len := by
  induction scan generalizing index chars with
  | nul | malformed =>
    rcases Scan.measure_eq_some measured with ⟨-, rfl, -⟩ | ⟨-, -, rfl, -⟩ | ⟨_, _, -, scan, -⟩ |
      ⟨_, _, _, _, -, scan, -⟩
    · exact Nat.le_refl _
    · exact Nat.le_refl _
    · cases scan
    · cases scan
  | char c units rest ih =>
    obtain ⟨positive, -, -, behind⟩ := stands
    rcases Scan.measure_eq_some measured with ⟨-, rfl, -⟩ | ⟨-, scan, -⟩ |
      ⟨_, _, -, scan, rfl, -⟩ | ⟨_, _, _, later, -, scan, -, measured, -⟩
    · exact Nat.le_refl _
    · cases scan
    · cases scan
      omega
    · cases scan
      exact Nat.le_trans (Nat.le_add_right ..) (ih behind measured)

section Item

variable {n : ℕ} {ps : PrintState} {item : Item} {text : Text} {len fieldWidth : ℕ}
  {chars : List UInt16}

/-- A read of an item that returns NUL or advances. -/
theorem orderly_measuring (inside : ps.fmt.index ≤ n) {index : ℕ}
    (advances : index < item.fieldWidth → (ptrGetc ⟨text, index⟩).1 ≠ 0 →
      index < (ptrGetc ⟨text, index⟩).2.index) :
    Orderly n { ps with control := .measuring item ⟨text, index⟩ } := by
  refine ⟨inside, fun q read => ?_⟩
  simp only [PrintState.read] at read
  split_ifs at read with more
  rw [← Option.some.inj read]
  exact advances more

variable (ps) in
theorem orderly_adding (inside : ps.fmt.index ≤ n) {index : ℕ}
    (advances : index < len → (ptrGetc ⟨text, index⟩).1 ≠ 0 →
      index < (ptrGetc ⟨text, index⟩).2.index) :
    Orderly n { ps with control := .adding item ⟨text, index⟩ len } := by
  refine ⟨inside, fun q read => ?_⟩
  simp only [PrintState.read] at read
  split_ifs at read with more
  rw [← Option.some.inj read]
  exact advances more

variable (ps) in
/-- The first walk reaches the index that is measured. -/
theorem measuring_trace (inside : ps.fmt.index ≤ n) {scan : Scan} {index : ℕ}
    (stands : text.StandsAt scan index)
    (measured : scan.measure item.fieldWidth index = some (len, chars)) :
    PrintTrace n { ps with control := .measuring item ⟨text, index⟩ } []
      (startItem ps item ⟨text, len⟩) := by
  induction scan generalizing index chars with
  | nul | malformed =>
    rcases Scan.measure_eq_some measured with ⟨full, rfl, -⟩ | ⟨more, scan, rfl, -⟩ |
      ⟨_, _, -, scan, -⟩ | ⟨_, _, _, _, -, scan, -⟩
    · refine Trace.turn (orderly_measuring inside fun more => absurd more full) ?_ rfl
      simp only [printTurn, measuringTurn, if_neg full]
      rfl
    · cases scan
      all_goals
        obtain rfl : len = text.length := stands
        refine Trace.turn (orderly_measuring inside ?_) ?_ rfl
        · intro _ nonzero
          rw [ptrGetc_length] at nonzero
          exact absurd rfl nonzero
        · simp only [printTurn, measuringTurn, if_pos more, ptrGetc_length]
          rfl
    · cases scan
    · cases scan
  | char c units rest ih =>
    obtain ⟨positive, -, read, behind⟩ := stands
    have orderly : Orderly n { ps with control := .measuring item ⟨text, index⟩ } := by
      apply orderly_measuring inside
      intro _ _
      rw [read]
      exact Nat.lt_add_of_pos_right positive
    rcases Scan.measure_eq_some measured with ⟨full, rfl, -⟩ | ⟨-, scan, -⟩ |
      ⟨_, _, more, scan, rfl, -⟩ | ⟨_, _, _, later, more, scan, other, measured, -⟩
    · refine Trace.turn orderly ?_ rfl
      simp only [printTurn, measuringTurn, if_neg full]
      rfl
    · cases scan
    · cases scan
      refine Trace.turn orderly ?_ rfl
      simp only [printTurn, measuringTurn, if_pos more, read]
      rfl
    · cases scan
      refine Trace.silent orderly ?_ rfl (ih behind measured)
      have nonzero : (c == 0) = false := by simpa using other
      simp only [printTurn, measuringTurn, if_pos more, read, nonzero]
      rfl

/-- The end of the second walk. -/
theorem adding_done (inside : ps.fmt.index ≤ n) {index : ℕ} (done : ¬ index < len)
    (out : Output) :
    PrintTrace n { ps with out := out, control := .adding item ⟨text, index⟩ len } []
      (leaveDirective
        { ps with
          out :=
            if item.padBefore then out
            else putTimes (wide ' ') (item.fieldWidth - item.width) out }) := by
  refine Trace.turn (orderly_adding { ps with out := out } inside fun more => absurd more done)
    ?_ rfl
  simp only [printTurn, addingTurn, if_neg done]
  exact congrArg some (leaveDirective_of_control ..)

/-- The first walk stops for good at a malformed character in front of the end of the field. -/
def PrintState.StuckInItem (ps : PrintState) : Prop :=
  ∃ item p, ps.control = .measuring item p ∧ p.index < item.fieldWidth ∧ ptrGetc p = (wide '?', p)

variable (ps) in
/-- Where nothing is measured the first walk comes to a malformed character. -/
theorem measuring_stuck (inside : ps.fmt.index ≤ n) {scan : Scan} {index : ℕ}
    (stands : text.StandsAt scan index)
    (unmeasured : scan.measure item.fieldWidth index = none) :
    ∃ p, p.index < item.fieldWidth ∧ ptrGetc p = (wide '?', p) ∧
      PrintTrace n { ps with control := .measuring item ⟨text, index⟩ } []
        { ps with control := .measuring item p } := by
  induction scan generalizing index with
  | nul => cases unmeasured
  | malformed =>
    rw [Scan.measure] at unmeasured
    split_ifs at unmeasured with more
    exact ⟨⟨text, index⟩, more, stands.2, .refl _⟩
  | char c units rest ih =>
    obtain ⟨positive, -, read, behind⟩ := stands
    rw [Scan.measure] at unmeasured
    split_ifs at unmeasured with more zero
    obtain ⟨p, before, stuck, trace⟩ := ih behind (Option.map_eq_none_iff.mp unmeasured)
    refine ⟨p, before, stuck, Trace.silent (orderly_measuring inside ?_) ?_ rfl trace⟩
    · intro _ _
      rw [read]
      exact Nat.lt_add_of_pos_right positive
    · have nonzero : (c == 0) = false := by simpa using zero
      simp only [printTurn, measuringTurn, if_pos more, read, nonzero]
      rfl

variable (ps item) in
/-- The second walk puts the characters and leaves the directive. -/
theorem adding_trace (inside : ps.fmt.index ≤ n) {scan : Scan} {index : ℕ}
    (stands : text.StandsAt scan index)
    (measured : scan.measure fieldWidth index = some (len, chars)) (out : Output) :
    ∃ out', Emits out chars out' ∧
      PrintTrace n { ps with out := out, control := .adding item ⟨text, index⟩ len } []
        (leaveDirective
          { ps with
            out :=
              if item.padBefore then out'
              else putTimes (wide ' ') (item.fieldWidth - item.width) out' }) := by
  induction scan generalizing index chars out with
  | nul | malformed =>
    rcases Scan.measure_eq_some measured with ⟨-, rfl, rfl⟩ | ⟨-, -, rfl, rfl⟩ |
      ⟨_, _, -, scan, -⟩ | ⟨_, _, _, _, -, scan, -⟩
    · exact ⟨out, .refl out, adding_done inside (Nat.lt_irrefl _) out⟩
    · exact ⟨out, .refl out, adding_done inside (Nat.lt_irrefl _) out⟩
    · cases scan
    · cases scan
  | char c units rest ih =>
    obtain ⟨positive, -, read, behind⟩ := stands
    -- a turn that puts the character
    have put : index < len → ∀ {last : PrintState},
        PrintTrace n
          { ps with
            out := ptrPutc out c
            control := .adding item ⟨text, index + units⟩ len } [] last →
        PrintTrace n { ps with out := out, control := .adding item ⟨text, index⟩ len } [] last := by
      intro more last later
      refine Trace.silent (orderly_adding { ps with out := out } inside ?_) ?_ rfl later
      · intro _ _
        rw [read]
        exact Nat.lt_add_of_pos_right positive
      · simp only [printTurn, addingTurn, if_pos more, read]
    rcases Scan.measure_eq_some measured with ⟨-, rfl, rfl⟩ | ⟨-, scan, -⟩ |
      ⟨_, _, -, scan, rfl, rfl⟩ | ⟨_, _, _, later, -, scan, -, measured, rfl⟩
    · exact ⟨out, .refl out, adding_done inside (Nat.lt_irrefl _) out⟩
    · cases scan
    · cases scan
      by_cases long : 1 < units
      · rw [if_pos long]
        have done : ¬ index + units < index + units - 1 := by omega
        exact ⟨_, .single out 0, put (by omega) (adding_done inside done _)⟩
      · rw [if_neg long]
        have done : ¬ index < index + units - 1 := by omega
        exact ⟨out, .refl out, adding_done inside done out⟩
    · cases scan
      have bound := Scan.le_measure behind measured
      obtain ⟨out', emits, trace⟩ := ih behind measured (ptrPutc out c)
      exact ⟨out', .put c emits, put (by omega) trace⟩

variable (ps) in
/-- `ptr_item` puts the text of the item and leaves the directive. -/
theorem item_trace (inside : ps.fmt.index ≤ n) {printed : List UInt16}
    (text_printed : itemText item text = some printed) :
    ∃ out', Emits ps.out printed out' ∧
      PrintTrace n { ps with control := .measuring item ⟨text, 0⟩ } []
        (leaveDirective { ps with out := out' }) := by
  obtain ⟨⟨len, chars⟩, measured, rfl⟩ := Option.map_eq_some_iff.mp text_printed
  have walk := measuring_trace ps inside text.scan_stands measured
  obtain ⟨out', emits, trace⟩ := adding_trace ps (item.fit len) inside
    text.scan_stands measured (startItem ps item ⟨text, len⟩).out
  refine ⟨_, ?_, Trace.trans walk trace⟩
  simp only [startItem] at emits
  simp only
  split_ifs at emits ⊢ with before
  · refine .trans (.padding _ _ _) (.trans (.padding _ _ _) emits)
  · rw [List.append_assoc]
    exact .trans (.padding _ _ _) (.trans emits (.padding _ _ _))

end Item

end ZLoader
