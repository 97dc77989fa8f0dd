import ZLoader.Soundness.PrintItems

/-! # The rendering of a format

What a format and its arguments describe, read off the characters of the format: a text, the
attribute directives on the way, and how it comes to an end. The printer follows the rendering
character by character. It leaves it where the rendering is defective: at a directive that the end of
the format cuts off it goes on behind the terminator, at malformed characters it stays for good.
-/

namespace ZLoader

open StateTransition

/-- How a rendering ends: at the end of the format, inside a directive, at bytes of the format or of
an argument that are no character, or in the conversion of a floating-point number. -/
inductive RenderEnd where
  | complete
  | cut
  | malformedFormat
  | malformedArgument
  | floatingPoint
deriving DecidableEq, Repr

/-- The text, for every attribute directive met whether it sets an attribute, and the end. -/
structure Rendering where
  text : List UInt16
  attributes : List Bool
  ending : RenderEnd
deriving DecidableEq, Repr

/-- A rendering behind what comes before it. -/
def Rendering.after (text : List UInt16) (attributes : List Bool) (rendering : Rendering) :
    Rendering :=
  ⟨text ++ rendering.text, attributes ++ rendering.attributes, rendering.ending⟩

/-- Where a character of the format stands: in the text, in a directive, or in a number of it. -/
inductive Mode where
  | text
  | directive (item : Item)
  | digits (item : Item)

/-- A character of a directive, in front of the rest of the format. -/
def renderDirective (args : ℕ → Argument) (item : Item) (vars : PrintVars) (c : UInt16)
    (rest : Mode → PrintVars → Rendering) : Rendering :=
  let met := attributeMet args vars item c
  if c = 0 then (rest .text vars.leave).after [] met
  else if startsNumber c then
    (rest (.digits ((item.setParsed 0).digit c)) vars).after [] met
  else
    match directiveSwitch args vars item c with
    | none => ⟨[], met, .floatingPoint⟩
    | some switched =>
        match switched.item.text with
        | some text =>
            match itemText switched.item text with
            | none => ⟨[], met, .malformedArgument⟩
            | some printed => (rest .text switched.vars.leave).after printed met
        | none =>
            if switched.attr != 0 then
              let vars := switched.vars.setattr switched.attr
              (rest .text { vars with restoreAttr := 0 }).after [] met
            else (rest (.directive switched.item) switched.vars).after [] met

/-- The rendering of a format from a character on. A character of several units behind a number is
stepped back into, and is no character there. -/
def render (args : ℕ → Argument) : Scan → Mode → PrintVars → Rendering
  | .nul, .text, _ => ⟨[], [], .complete⟩
  | .nul, .directive _, _ | .nul, .digits _, _ => ⟨[], [], .cut⟩
  | .malformed, _, _ => ⟨[], [], .malformedFormat⟩
  | .char c _ rest, .text, vars =>
      if c = 0 then ⟨[], [], .complete⟩
      else if c = wide '%' then render args rest (.directive newItem) { vars with restoreAttr := 0 }
      else (render args rest .text vars).after [c] []
  | .char c _ rest, .directive item, vars => renderDirective args item vars c (render args rest)
  | .char c units rest, .digits item, vars =>
      if isDigit c then render args rest (.digits (item.digit c)) vars
      else if units = 1 then renderDirective args item vars c (render args rest)
      else ⟨[], [], .malformedFormat⟩

/-- The rendering that `_print` starts on. -/
def PrintState.rendering (ps : PrintState) : Rendering :=
  render ps.args ps.fmt.text.scan .text ps.vars

/-! ## States that are not left -/

/-- The reader does not get over the character at the pointer. -/
def Ptr.Stuck (p : Ptr) : Prop := ptrGetc p = (wide '?', p)

/-- A number was read up to the pointer, its last digit from an index in front of it. -/
def Ptr.BehindDigit (p : Ptr) (c : UInt16) : Prop :=
  isDigit c ∧ ∃ index < p.index, ptrGetc ⟨p.text, index⟩ = (c, p)

/-- The states of a printer whose format has come to a malformed character: it is read again and
again, alone or together with the last digit in front of it. -/
inductive StuckInFormat (n : ℕ) (ps : PrintState) : Prop where
  | text (inside : ps.fmt.index ≤ n) (stuck : ps.fmt.Stuck) (control : ps.control = .text)
  | directive (inside : ps.fmt.index ≤ n) (stuck : ps.fmt.Stuck) {item : Item}
      (control : ps.control = .directive item)
  | measuring (inside : ps.fmt.index ≤ n) (stuck : ps.fmt.Stuck) {item : Item} {p : Ptr}
      (control : ps.control = .measuring item p)
  | adding (inside : ps.fmt.index ≤ n) (stuck : ps.fmt.Stuck) {item : Item} {p : Ptr} {len : ℕ}
      (control : ps.control = .adding item p len)
  | digits (inside : ps.fmt.index ≤ n) (stuck : ps.fmt.Stuck) {item : Item} {c : UInt16}
      (control : ps.control = .digits item c) (behind : ps.fmt.BehindDigit c)
  | digit {item : Item} {c : UInt16} {p : Ptr} (inside : p.index ≤ n) (stuck : p.Stuck)
      (control : ps.control = .directive item) (read : ptrGetc ps.fmt = (c, p))
      (before : ps.fmt.index < p.index) (digit : isDigit c)

/-- What is left of the printer stays in front of the end of the format and meets no attribute
directive. -/
def Stays (n : ℕ) (ps : PrintState) : Prop :=
  ∀ reached, Reaches printTurn ps reached →
    reached.fmt.index ≤ n ∧ reached.attributeMet = [] ∧ printTurn reached ≠ none

theorem stays_of_fixed {n : ℕ} {ps : PrintState} (inside : ps.fmt.index ≤ n)
    (unmet : ps.attributeMet = []) (fixed : printTurn ps = some ps) : Stays n ps := by
  intro reached run
  obtain rfl : reached = ps := by
    apply reaches_invariant (· = ps) _ run rfl
    rintro _ next rfl stepped
    exact Option.some.inj (stepped.symm.trans fixed)
  refine ⟨inside, unmet, ?_⟩
  rw [fixed]
  exact Option.some_ne_none _

theorem PrintState.StuckInItem.stays {n : ℕ} {ps : PrintState} (stuck : ps.StuckInItem)
    (inside : ps.fmt.index ≤ n) : Stays n ps := by
  obtain ⟨item, p, control, more, malformed⟩ := stuck
  apply stays_of_fixed inside
  · rw [PrintState.attributeMet, control]
  · have other : (wide '?' == 0) = false := rfl
    simp only [printTurn, control, measuringTurn, if_pos more, malformed, other]
    rw [← control]
    rfl

theorem isDigit_cases {c : UInt16} (digit : isDigit c) : startsNumber c ∨ c = wide '0' := by
  simp only [isDigit, startsNumber, Bool.and_eq_true, decide_eq_true_eq] at digit ⊢
  obtain ⟨lower, upper⟩ := digit
  by_cases zero : c = wide '0'
  · exact .inr zero
  · refine .inl ⟨?_, upper⟩
    have distinct : c.toNat ≠ (wide '0').toNat := fun same => zero (UInt16.toNat_inj.mp same)
    simp only [UInt16.le_iff_toNat_le] at lower ⊢
    have zeroValue : (wide '0').toNat = 48 := rfl
    have oneValue : (wide '1').toNat = 49 := rfl
    omega

theorem attributeMet_of_isDigit {c : UInt16} (digit : isDigit c) (args : ℕ → Argument)
    (vars : PrintVars) (item : Item) : attributeMet args vars item c = [] := by
  rw [attributeMet, if_neg]
  intro letter
  simp only [standaloneLetters, List.map_cons, List.map_nil, List.mem_cons, List.not_mem_nil,
    or_false] at letter
  rcases letter with rfl | rfl | rfl | rfl | rfl <;> exact absurd digit (by decide)

theorem ne_zero_of_isDigit {c : UInt16} (digit : isDigit c) : (c == 0) = false := by
  rw [beq_eq_false_iff_ne]
  rintro rfl
  exact absurd digit (by decide)

/-- A stuck format stays stuck. -/
theorem StuckInFormat.next {n : ℕ} {ps : PrintState} (stuck : StuckInFormat n ps) :
    ∃ next, printTurn ps = some next ∧ StuckInFormat n next := by
  have question : (wide '?' == 0) = false := rfl
  cases stuck with
  | text inside stuck control =>
    refine ⟨_, by simp only [printTurn, control]; rfl, ?_⟩
    have turned : textTurn ps = { ps with out := ptrPutc ps.out (wide '?') } := by
      simp only [textTurn, show ptrGetc ps.fmt = _ from stuck, question]
      rfl
    rw [turned]
    exact .text inside stuck control
  | @directive inside stuck item control =>
    refine ⟨_, by simp only [printTurn, control]; rfl, ?_⟩
    have turned : directiveTurn ps item =
        { ps with
          control := .measuring (item.scratch [wide '?']) ⟨.unicode ⟨[wide '?'], fun _ => 0⟩, 0⟩ } := by
      simp only [directiveTurn, show ptrGetc ps.fmt = _ from stuck, question]
      rfl
    rw [turned]
    exact .measuring inside stuck rfl
  | @measuring inside stuck item p control =>
    refine ⟨_, by simp only [printTurn, control]; rfl, ?_⟩
    simp only [measuringTurn]
    split_ifs
    · exact .adding inside stuck rfl
    · exact .measuring inside stuck rfl
    · exact .adding inside stuck rfl
  | @adding inside stuck item p len control =>
    refine ⟨_, by simp only [printTurn, control]; rfl, ?_⟩
    simp only [addingTurn]
    split_ifs
    · exact .adding inside stuck rfl
    · exact .text (by simpa using inside) (by simpa using stuck) rfl
    · exact .text (by simpa using inside) (by simpa using stuck) rfl
  | @digits inside stuck item c control behind =>
    refine ⟨_, by simp only [printTurn, control]; rfl, ?_⟩
    have turned : digitsTurn ps item c =
        { ps with
          fmt := ⟨ps.fmt.text, ps.fmt.index - 1⟩
          control := .directive (item.digit c) } := by
      simp only [digitsTurn, show ptrGetc ps.fmt = _ from stuck]
      rfl
    rw [turned]
    obtain ⟨digit, index, before, read⟩ := behind
    by_cases single : ps.fmt.index - 1 = index
    · rw [single]
      exact .digit inside stuck rfl read before digit
    · -- the last digit took several units
      have long : 1 < ps.fmt.index - index := by omega
      have whole : index + (ps.fmt.index - index) = ps.fmt.index :=
        Nat.add_sub_of_le (Nat.le_of_lt before)
      have inner := ptrGetc_back long (by rw [read, whole])
      rw [whole] at inner
      exact .directive (Nat.le_trans (Nat.sub_le _ _) inside) inner rfl
  | @digit item c p inside stuck control read before digit =>
    refine ⟨_, by simp only [printTurn, control]; rfl, ?_⟩
    have sameText : p.text = ps.fmt.text := by rw [← ptrGetc_text ps.fmt, read]
    rcases isDigit_cases digit with starts | rfl
    · have turned : directiveTurn ps item =
          { ps with fmt := p, control := .digits (item.setParsed 0) c } := by
        simp only [directiveTurn, read, ne_zero_of_isDigit digit, starts]
        rfl
      rw [turned]
      refine .digits inside stuck rfl ⟨digit, ps.fmt.index, before, ?_⟩
      rw [sameText, ← read]
    · simp only [directiveTurn, read]
      have zero : (wide '0' == 0) = false := rfl
      have starts : startsNumber (wide '0') = false := rfl
      have switched : directiveSwitch ps.args ps.vars item (wide '0') =
          some ⟨ps.vars, { item with padChar := wide '0' }, 0, none⟩ := rfl
      simp only [zero, starts, switched, Bool.false_eq_true, if_false]
      cases shown : item.text with
      | some text => exact .measuring inside stuck rfl
      | none => exact .directive inside stuck rfl

theorem StuckInFormat.met {n : ℕ} {ps : PrintState} (stuck : StuckInFormat n ps) :
    ps.fmt.index ≤ n ∧ ps.attributeMet = [] := by
  cases stuck with
  | text inside _ control | measuring inside _ control | adding inside _ control
  | digits inside _ control _ =>
    exact ⟨inside, by rw [PrintState.attributeMet, control]⟩
  | @directive inside stuck item control =>
    refine ⟨inside, ?_⟩
    simp only [PrintState.attributeMet, control, show ptrGetc ps.fmt = _ from stuck]
    exact if_neg (by decide)
  | @digit item c p inside stuck control read before digit =>
    refine ⟨by omega, ?_⟩
    simp only [PrintState.attributeMet, control, read]
    exact attributeMet_of_isDigit digit ..

theorem StuckInFormat.stays {n : ℕ} {ps : PrintState} (stuck : StuckInFormat n ps) :
    Stays n ps := by
  intro reached run
  have held : StuckInFormat n reached := by
    apply reaches_invariant (StuckInFormat n) _ run stuck
    intro state next held stepped
    obtain ⟨next', stepped', held'⟩ := held.next
    rwa [← Option.some.inj (stepped'.symm.trans stepped)]
  obtain ⟨next, stepped, -⟩ := held.next
  refine ⟨held.met.1, held.met.2, ?_⟩
  rw [stepped]
  exact Option.some_ne_none _

/-! ## Following the rendering -/

/-- What the printer has come to where a rendering ends. -/
def Settled (n : ℕ) (ps : PrintState) : RenderEnd → Prop
  | .complete => ps.control = .returned ∧ ∃ before, ps.out = ptrFlush before
  | .cut => ps.control = .text ∧ ps.fmt.index = n + 1
  | .malformedFormat | .malformedArgument | .floatingPoint => Stays n ps

/-- The printer follows a rendering. -/
def Follows (n : ℕ) (ps : PrintState) (rendering : Rendering) : Prop :=
  ∃ last, PrintTrace n ps rendering.attributes last ∧ Emits ps.out rendering.text last.out ∧
    Settled n last rendering.ending

theorem Follows.settled {n : ℕ} {ps : PrintState} {ending : RenderEnd}
    (settled : Settled n ps ending) : Follows n ps ⟨[], [], ending⟩ :=
  ⟨ps, .refl ps, .refl _, settled⟩

/-- A stretch of the run in front of a rendering. -/
theorem Follows.after {n : ℕ} {ps next : PrintState} {text : List UInt16}
    {attributes : List Bool} {rendering : Rendering} (trace : PrintTrace n ps attributes next)
    (emits : Emits ps.out text next.out) (rest : Follows n next rendering) :
    Follows n ps (rendering.after text attributes) := by
  obtain ⟨last, trace', emits', settled⟩ := rest
  exact ⟨last, trace.trans trace', emits.trans emits', settled⟩

/-- The loop of the printer that a mode of the rendering belongs to. -/
def Mode.Runs (ps : PrintState) : Mode → Prop
  | .text => ps.control = .text
  | .directive item => ps.control = .directive item
  | .digits item =>
      ∃ before c, ps.control = .digits before c ∧ item = before.digit c ∧ ps.fmt.BehindDigit c

theorem Emits.switched (out : Output) (attr : Option UInt64) :
    Emits out [] (attr.elim out out.setattr) := by
  cases attr with
  | none => exact .refl out
  | some attr => exact .setattr attr (.refl _)

@[simp] theorem PrintVars.leave_of_restored (vars : PrintVars) :
    ({ vars with restoreAttr := 0 } : PrintVars).leave = { vars with restoreAttr := 0 } := rfl

section Directive

variable {n : ℕ} {ps : PrintState} {item : Item} {c : UInt16} {fmt : Ptr}
  {rest : Mode → PrintVars → Rendering}

variable (ps) in
/-- The printer behind the loop over a directive. -/
theorem leave_follows (atEnd : ps.fmt = fmt) {args : ℕ → Argument} (sameArgs : ps.args = args)
    (later : ∀ (next : PrintState), next.fmt = fmt → next.args = args →
      Mode.Runs next .text → Follows n next (rest .text next.vars)) :
    Follows n (leaveDirective ps) (rest .text ps.vars.leave) := by
  rw [← leaveDirective_vars]
  apply later
  · rw [leaveDirective_fmt, atEnd]
  · rw [leaveDirective_args, sameArgs]
  · rfl

variable (ps) in
/-- The printer at the start of an item. -/
theorem item_follows (inside : ps.fmt.index ≤ n) (text : Text)
    (later : ∀ (next : PrintState), next.fmt = ps.fmt → next.args = ps.args →
      Mode.Runs next .text → Follows n next (rest .text next.vars)) :
    Follows n { ps with control := .measuring item ⟨text, 0⟩ }
      (match itemText item text with
      | none => ⟨[], [], .malformedArgument⟩
      | some printed => (rest .text ps.vars.leave).after printed []) := by
  cases printed : itemText item text with
  | none =>
    obtain ⟨p, before, stuck, trace⟩ :=
      measuring_stuck ps inside text.scan_stands (Option.map_eq_none_iff.mp printed)
    exact ⟨_, trace, .refl _, PrintState.StuckInItem.stays ⟨_, p, rfl, before, stuck⟩ inside⟩
  | some printed =>
    obtain ⟨out', emits, trace⟩ := item_trace ps inside (by assumption)
    have emitted := emits.trans (.leave { ps with out := out' })
    rw [List.append_nil] at emitted
    exact .after trace emitted (leave_follows { ps with out := out' } rfl rfl later)

/-- One character of a directive: the turn does what the rendering says, and goes on with the rest
of the format in one of the modes. -/
theorem directive_follows (inside : ps.fmt.index ≤ n) (control : ps.control = .directive item)
    (read : ptrGetc ps.fmt = (c, fmt)) (advance : ps.fmt.index < fmt.index)
    (inside' : fmt.index ≤ n)
    (later : ∀ mode (next : PrintState), next.fmt = fmt → next.args = ps.args →
      Mode.Runs next mode → Follows n next (rest mode next.vars)) :
    Follows n ps (renderDirective ps.args item ps.vars c rest) := by
  have met : ps.attributeMet = attributeMet ps.args ps.vars item c := by
    simp only [PrintState.attributeMet, control, read]
  have orderly : Orderly n ps := by
    refine ⟨inside, fun p due _ => ?_⟩
    simp only [PrintState.read, control, Option.some.injEq] at due
    rw [← due, read]
    exact advance
  -- the turn, to the state that the source's branch leaves
  have turn : ∀ {next : PrintState}, directiveTurn ps item = next →
      PrintTrace n ps (attributeMet ps.args ps.vars item c) next := by
    rintro next rfl
    rw [← met]
    exact .single orderly (by simp only [printTurn, control])
  simp only [renderDirective]
  by_cases zero : c = 0
  · rw [if_pos zero]
    have turned : directiveTurn ps item = leaveDirective { ps with fmt := fmt } := by
      simp only [directiveTurn, read, zero]
      rfl
    exact .after (turn turned) (.leave { ps with fmt := fmt })
      (leave_follows { ps with fmt := fmt } rfl rfl (later .text))
  · have nonzero : (c == 0) = false := by simpa using zero
    rw [if_neg zero]
    by_cases starts : startsNumber c
    · rw [if_pos starts]
      have turned : directiveTurn ps item =
          { ps with fmt := fmt, control := .digits (item.setParsed 0) c } := by
        simp only [directiveTurn, read, nonzero, starts]
        rfl
      have digit : isDigit c := by
        simp only [startsNumber, isDigit, Bool.and_eq_true, decide_eq_true_eq] at starts ⊢
        exact ⟨UInt16.le_trans (by decide) starts.1, starts.2⟩
      refine .after (turn turned) (.refl _) ?_
      refine later (.digits _) _ rfl rfl ⟨_, c, rfl, rfl, digit, ps.fmt.index, advance, ?_⟩
      have sameText : fmt.text = ps.fmt.text := by rw [← ptrGetc_text ps.fmt, read]
      rw [sameText, ← read]
    · have unstarted : startsNumber c = false := by simpa using starts
      rw [if_neg starts]
      cases switch : directiveSwitch ps.args ps.vars item c with
      | none =>
        have turned : directiveTurn ps item = { ps with fmt := fmt, control := .floating } := by
          simp only [directiveTurn, read, nonzero, unstarted, switch]
          rfl
        exact ⟨_, turn turned, .refl _, stays_of_fixed inside' rfl rfl⟩
      | some switched =>
        -- the state behind the switch, whatever loop comes next
        generalize behind : ({ ps with
            fmt := fmt
            vars := switched.vars
            out := switched.setattr.elim ps.out ps.out.setattr } : PrintState) = ps'
        have atEnd : ps'.fmt = fmt := by rw [← behind]
        have sameArgs : ps'.args = ps.args := by rw [← behind]
        have sameVars : ps'.vars = switched.vars := by rw [← behind]
        have emitted : Emits ps.out [] ps'.out := by
          rw [← behind]
          exact .switched ps.out switched.setattr
        have turned : directiveTurn ps item =
            (match switched.item.text with
            | some text => { ps' with control := .measuring switched.item ⟨text, 0⟩ }
            | none =>
                if switched.attr != 0 then
                  leaveDirective
                    { ptrSetattr ps' switched.attr with
                      vars := { (ptrSetattr ps' switched.attr).vars with restoreAttr := 0 } }
                else { ps' with control := .directive switched.item }) := by
          subst behind
          simp only [directiveTurn, read, nonzero, unstarted, switch]
          rfl
        simp only [← sameVars]
        cases shown : switched.item.text with
        | some text =>
          simp only [shown] at turned ⊢
          have follows := Follows.after (turn turned) emitted
            (item_follows ps' (atEnd ▸ inside') text fun next same sameArgs' =>
              later .text next (same.trans atEnd) (sameArgs'.trans sameArgs))
          cases printed : itemText switched.item text with
          | none => simpa [Rendering.after, printed] using follows
          | some printed_text => simpa [Rendering.after, printed] using follows
        | none =>
          simp only [shown] at turned ⊢
          by_cases set : (switched.attr != 0) = true
          · rw [if_pos set] at turned ⊢
            have set_emitted := emitted.trans (.setattr switched.attr (.leave
              { ptrSetattr ps' switched.attr with
                vars := { (ptrSetattr ps' switched.attr).vars with restoreAttr := 0 } }))
            exact .after (turn turned) set_emitted (leave_follows _ atEnd sameArgs (later .text))
          · rw [if_neg set] at turned ⊢
            exact .after (turn turned) emitted (later (.directive _) _ atEnd sameArgs rfl)

end Directive

section Follow

variable {text : Text} {ps : PrintState}

/-- A turn that reads the format in front of its end, in a loop that meets no attribute
directive. -/
theorem Follows.turn {n : ℕ} {ps next : PrintState} {put : List UInt16} {rendering : Rendering}
    (inside : ps.fmt.index ≤ n) (reads : ps.read = some ps.fmt)
    (advances : (ptrGetc ps.fmt).1 ≠ 0 → ps.fmt.index < (ptrGetc ps.fmt).2.index)
    (unmet : ps.attributeMet = []) (stepped : printTurn ps = some next)
    (emits : Emits ps.out put next.out) (rest : Follows n next rendering) :
    Follows n ps (rendering.after put []) := by
  refine .after (Trace.turn ⟨inside, fun p due => ?_⟩ stepped unmet) emits rest
  rw [reads] at due
  rw [← Option.some.inj due]
  exact advances

/-- A turn that puts nothing. -/
theorem Follows.silent {n : ℕ} {ps next : PrintState} {rendering : Rendering}
    (inside : ps.fmt.index ≤ n) (reads : ps.read = some ps.fmt)
    (advances : (ptrGetc ps.fmt).1 ≠ 0 → ps.fmt.index < (ptrGetc ps.fmt).2.index)
    (unmet : ps.attributeMet = []) (stepped : printTurn ps = some next)
    (emits : Emits ps.out [] next.out) (rest : Follows n next rendering) :
    Follows n ps rendering :=
  .turn inside reads advances unmet stepped emits rest

/-- The directive that the end of the format cuts off: the loop over it takes the NUL. -/
theorem cut_follows {item : Item} (atEnd : ps.fmt = ⟨text, text.length⟩)
    (control : ps.control = .directive item) : Follows text.length ps ⟨[], [], .cut⟩ := by
  have read : ptrGetc ps.fmt = (0, ⟨text, text.length + 1⟩) := by rw [atEnd, ptrGetc_length]
  have turned : printTurn ps = some (leaveDirective { ps with fmt := ⟨text, text.length + 1⟩ }) := by
    simp only [printTurn, control, directiveTurn, read]
    rfl
  have settled : Settled text.length (leaveDirective { ps with fmt := ⟨text, text.length + 1⟩ })
      .cut := ⟨rfl, by simp⟩
  have unmet : ps.attributeMet = [] := by
    simp only [PrintState.attributeMet, control, read]
    exact if_neg (by decide)
  refine .silent (by rw [atEnd]) ?_ ?_ unmet turned
    (.leave { ps with fmt := ⟨text, text.length + 1⟩ }) (.settled settled)
  · simp only [PrintState.read, control]
  · rw [read]
    exact fun nonzero => absurd rfl nonzero

/-- The end of the format. -/
theorem nul_follows {mode : Mode} (atEnd : ps.fmt = ⟨text, text.length⟩) (runs : mode.Runs ps) :
    Follows text.length ps (render ps.args .nul mode ps.vars) := by
  have inside : ps.fmt.index ≤ text.length := by rw [atEnd]
  have read : ptrGetc ps.fmt = (0, ⟨text, text.length + 1⟩) := by rw [atEnd, ptrGetc_length]
  have advances : (ptrGetc ps.fmt).1 ≠ 0 → ps.fmt.index < (ptrGetc ps.fmt).2.index := by
    rw [read]
    exact fun nonzero => absurd rfl nonzero
  cases mode with
  | text =>
    have control : ps.control = .text := runs
    have turned : printTurn ps =
        some { ps with
          fmt := ⟨text, text.length + 1⟩, out := ptrFlush ps.out, control := .returned } := by
      simp only [printTurn, control, textTurn, read]
      rfl
    refine .silent inside ?_ advances ?_ turned (.flush (.refl _)) (.settled ⟨rfl, _, rfl⟩)
    · simp only [PrintState.read, control]
    · simp only [PrintState.attributeMet, control]
  | directive item => exact cut_follows atEnd runs
  | digits item =>
    obtain ⟨before, c, control, rfl, -⟩ := runs
    have turned : printTurn ps =
        some { ps with fmt := ⟨text, text.length⟩, control := .directive (before.digit c) } := by
      simp only [printTurn, control, digitsTurn, read]
      rfl
    refine .silent inside ?_ advances ?_ turned (.refl _) (cut_follows rfl rfl)
    · simp only [PrintState.read, control]
    · simp only [PrintState.attributeMet, control]

/-- A malformed character. -/
theorem malformed_follows {mode : Mode} (inside : ps.fmt.index ≤ text.length)
    (stuck : ps.fmt.Stuck) (runs : mode.Runs ps) :
    Follows text.length ps (render ps.args .malformed mode ps.vars) := by
  cases mode with
  | text => exact .settled (StuckInFormat.text inside stuck runs).stays
  | directive item => exact .settled (StuckInFormat.directive inside stuck runs).stays
  | digits item =>
    obtain ⟨before, c, control, -, behind⟩ := runs
    exact .settled (StuckInFormat.digits inside stuck control behind).stays

section Character

variable {c : UInt16} {units : ℕ} {rest : Scan}

/-- A character of plain text. -/
theorem text_char_follows (inside : ps.fmt.index ≤ text.length) (control : ps.control = .text)
    (read : ptrGetc ps.fmt = (c, ⟨text, ps.fmt.index + units⟩)) (positive : 0 < units)
    (later : ∀ mode (next : PrintState), next.fmt = ⟨text, ps.fmt.index + units⟩ →
      next.args = ps.args → Mode.Runs next mode →
      Follows text.length next (render ps.args rest mode next.vars)) :
    Follows text.length ps (render ps.args (.char c units rest) .text ps.vars) := by
  have advances : (ptrGetc ps.fmt).1 ≠ 0 → ps.fmt.index < (ptrGetc ps.fmt).2.index := by
    rw [read]
    exact fun _ => Nat.lt_add_of_pos_right positive
  have reads : ps.read = some ps.fmt := by simp only [PrintState.read, control]
  have unmet : ps.attributeMet = [] := by simp only [PrintState.attributeMet, control]
  rw [render]
  split_ifs with zero percent
  · have turned : printTurn ps =
        some { ps with
          fmt := ⟨text, ps.fmt.index + units⟩, out := ptrFlush ps.out, control := .returned } := by
      simp only [printTurn, control, textTurn, read, zero]
      rfl
    exact .silent inside reads advances unmet turned (.flush (.refl _)) (.settled ⟨rfl, _, rfl⟩)
  · have turned : printTurn ps =
        some { ps with
          fmt := ⟨text, ps.fmt.index + units⟩
          vars := { ps.vars with restoreAttr := 0 }
          control := .directive newItem } := by
      simp only [printTurn, control, textTurn, read, percent]
      rfl
    exact .silent inside reads advances unmet turned (.refl _)
      (later (.directive newItem) _ rfl rfl rfl)
  · have turned : printTurn ps =
        some { ps with fmt := ⟨text, ps.fmt.index + units⟩, out := ptrPutc ps.out c } := by
      have nonzero : (c == 0) = false := by simpa using zero
      have other : (c != wide '%') = true := by simpa using percent
      simp only [printTurn, control, textTurn, read, nonzero, other]
      rfl
    exact .turn inside reads advances unmet turned (.single _ c) (later .text _ rfl rfl control)

/-- A character behind a digit: another digit, or the directive goes on with it. -/
theorem digits_char_follows {item : Item} (inside : ps.fmt.index ≤ text.length)
    (runs : Mode.Runs ps (.digits item))
    (read : ptrGetc ⟨text, ps.fmt.index⟩ = (c, ⟨text, ps.fmt.index + units⟩))
    (sameText : ps.fmt.text = text) (positive : 0 < units)
    (bound : ps.fmt.index + units ≤ text.length)
    (later : ∀ mode (next : PrintState), next.fmt = ⟨text, ps.fmt.index + units⟩ →
      next.args = ps.args → Mode.Runs next mode →
      Follows text.length next (render ps.args rest mode next.vars)) :
    Follows text.length ps (render ps.args (.char c units rest) (.digits item) ps.vars) := by
  have advance : ps.fmt.index < ps.fmt.index + units := Nat.lt_add_of_pos_right positive
  have read' : ptrGetc ps.fmt = (c, ⟨text, ps.fmt.index + units⟩) := by rw [← read, ← sameText]
  have advances : (ptrGetc ps.fmt).1 ≠ 0 → ps.fmt.index < (ptrGetc ps.fmt).2.index := by
    rw [read']
    exact fun _ => advance
  obtain ⟨before, last, control, rfl, -⟩ := runs
  have reads : ps.read = some ps.fmt := by simp only [PrintState.read, control]
  have unmet : ps.attributeMet = [] := by simp only [PrintState.attributeMet, control]
  rw [render]
  by_cases digit : isDigit c
  · rw [if_pos digit]
    have turned : printTurn ps =
        some { ps with
          fmt := ⟨text, ps.fmt.index + units⟩, control := .digits (before.digit last) c } := by
      simp only [printTurn, control, digitsTurn, read', digit]
      rfl
    refine .silent inside reads advances unmet turned (.refl _)
      (later (.digits _) _ rfl rfl ⟨_, c, rfl, rfl, digit, ps.fmt.index, advance, read⟩)
  · rw [if_neg digit]
    have turned : printTurn ps =
        some { ps with
          fmt := ⟨text, ps.fmt.index + units - 1⟩
          control := .directive (before.digit last) } := by
      simp only [printTurn, control, digitsTurn, read', digit]
      rfl
    split_ifs with single
    · subst single
      refine .silent inside reads advances unmet turned (.refl _) ?_
      exact directive_follows inside rfl read advance bound later
    · -- the step back ends inside the character
      have long : 1 < units := by omega
      have inner := ptrGetc_back long (by rw [read])
      have stays : Stays text.length { ps with
          fmt := ⟨text, ps.fmt.index + units - 1⟩
          control := .directive (before.digit last) } :=
        StuckInFormat.stays (.directive (by simp only; omega) inner rfl)
      exact .silent inside reads advances unmet turned (.refl _) (.settled stays)

end Character

/-- The printer follows the rendering of its format. The induction is on the characters of the
format. -/
theorem render_follows {scan : Scan} {mode : Mode} (sameText : ps.fmt.text = text)
    (stands : text.StandsAt scan ps.fmt.index) (runs : mode.Runs ps) :
    Follows text.length ps (render ps.args scan mode ps.vars) := by
  have inside := stands.le
  induction scan generalizing ps mode with
  | nul => exact nul_follows (congrArg₂ Ptr.mk sameText stands) runs
  | malformed =>
    refine malformed_follows inside ?_ runs
    rw [Ptr.Stuck, show ps.fmt = ⟨text, ps.fmt.index⟩ from by rw [← sameText]]
    exact stands.2
  | char c units rest ih =>
    obtain ⟨positive, bound, read, behind⟩ := stands
    have read' : ptrGetc ps.fmt = (c, ⟨text, ps.fmt.index + units⟩) := by rw [← read, ← sameText]
    -- the rest of the format, behind the character
    have later : ∀ (mode : Mode) (next : PrintState),
        next.fmt = ⟨text, ps.fmt.index + units⟩ → next.args = ps.args → mode.Runs next →
        Follows text.length next (render ps.args rest mode next.vars) := by
      intro mode next atNext sameArgs runs
      rw [← sameArgs]
      apply ih
      · rw [atNext]
      · rw [atNext]
        exact behind
      · exact runs
      · rw [atNext]
        exact bound
    cases mode with
    | text => exact text_char_follows inside runs read' positive later
    | directive item =>
      exact directive_follows inside runs read' (Nat.lt_add_of_pos_right positive) bound later
    | digits item => exact digits_char_follows inside runs read sameText positive bound later

/-- `_print` follows the rendering of its format and arguments. -/
theorem print_follows (atStart : ps.fmt.index = 0) (control : ps.control = .text) :
    Follows ps.fmt.text.length ps ps.rendering := by
  have stands : ps.fmt.text.StandsAt ps.fmt.text.scan ps.fmt.index := by
    rw [atStart]
    exact ps.fmt.text.scan_stands
  exact render_follows rfl stands (show Mode.Runs ps .text from control)

end Follow

end ZLoader
