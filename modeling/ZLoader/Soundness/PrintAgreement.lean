import Mathlib.Data.List.TakeWhile
import ZLoader.Soundness.PrintSafety

/-! # Two printers

`_iprint` and `vswprintf` run the same machine on different outputs and attributes. What they put
differs only in what the attributes decide: an attribute directive ends when it sets an attribute,
and one that is zero does not count. Where every attribute directive ends in both, the console gets
the text of the buffer, cut at the flushes, with a carriage return in front of every newline.
-/

namespace ZLoader

open StateTransition

/-! ## The console -/

/-- A text with `\r` in front of each `\n`. -/
def crText (text : List UInt16) : List UInt16 :=
  text.flatMap fun c => if c == wide '\n' then [wide '\r', wide '\n'] else [c]

/-- The strings of the calls of `output_string`, one behind the other. -/
def Output.passed (out : Output) : List UInt16 :=
  out.calls.flatMap fun
    | .outputString text => text
    | .setAttribute _ => []

/-- What was passed to the console, and what waits in the buffer. -/
def Output.printed (out : Output) : List UInt16 := out.passed ++ out.pending

/-- An output of `_iprint` that holds no NUL. -/
structure Output.Console (out : Output) : Prop where
  output : out.output = true
  addCr : out.addCr = true
  room : out.pos < out.endPos
  nulFree : 0 ∉ out.pending

theorem ptrFlush_pending {out : Output} (output : out.output = true) :
    (ptrFlush out).pending = [] := by
  rw [ptrFlush, if_pos output]
  rfl

theorem ptrFlush_output (out : Output) : (ptrFlush out).output = out.output := by
  rw [ptrFlush]
  split_ifs <;> rfl

/-- A flush passes on what waits. -/
theorem ptrFlush_console {out : Output} (output : out.output = true) (addCr : out.addCr = true)
    (room : 0 < out.endPos) (nulFree : 0 ∉ out.pending) :
    (ptrFlush out).Console ∧ (ptrFlush out).printed = out.printed := by
  have whole : out.pending.takeWhile (· != 0) = out.pending := by
    rw [List.takeWhile_eq_self_iff]
    intro c member
    rw [bne_iff_ne]
    rintro rfl
    exact nulFree member
  have flushed : ptrFlush out =
      { out.store out.pos 0 with
        calls := out.calls ++ [.outputString out.pending], pos := 0 } := by
    rw [ptrFlush, if_pos output, whole]
  rw [flushed]
  refine ⟨⟨output, addCr, room, List.not_mem_nil⟩, ?_⟩
  simp only [Output.printed, Output.passed, List.flatMap_append]
  exact (List.append_nil _).trans (by simp)

theorem Output.Console.put {out : Output} (console : out.Console) {c : UInt16} (nonzero : c ≠ 0) :
    (out.put c).Console ∧ (out.put c).printed = out.printed ++ [c] := by
  have pending :
      ({ out.store out.pos c with pos := out.pos + 1, len := out.len + 1 } : Output).pending =
        out.pending ++ [c] := by
    simp only [Output.pending, Output.store]
    rw [List.range_succ, List.map_append, List.map_singleton, Function.update_self]
    congr 1
    apply List.map_congr_left
    intro index before
    exact Function.update_of_ne (Nat.ne_of_lt (List.mem_range.mp before)) ..
  have nulFree : 0 ∉
      ({ out.store out.pos c with pos := out.pos + 1, len := out.len + 1 } : Output).pending := by
    rw [pending, List.mem_append, List.mem_singleton, not_or]
    exact ⟨console.nulFree, nonzero.symm⟩
  have printed :
      ({ out.store out.pos c with pos := out.pos + 1, len := out.len + 1 } : Output).printed =
        out.printed ++ [c] := by
    rw [Output.printed, pending, ← List.append_assoc]
    rfl
  simp only [Output.put]
  split_ifs with full
  · obtain ⟨flushed, same⟩ := ptrFlush_console
      (show ({ out.store out.pos c with pos := out.pos + 1, len := out.len + 1 } : Output).output =
        true from console.output)
      console.addCr (Nat.zero_lt_of_lt console.room) nulFree
    exact ⟨flushed, same.trans printed⟩
  · exact ⟨⟨console.output, console.addCr, Nat.not_le.mp full, nulFree⟩, printed⟩

theorem Output.Console.putc {out : Output} (console : out.Console) {c : UInt16}
    (nonzero : c ≠ 0) :
    (ptrPutc out c).Console ∧ (ptrPutc out c).printed = out.printed ++ crText [c] := by
  by_cases newline : c = wide '\n'
  · subst newline
    obtain ⟨first, returned⟩ := console.put (c := wide '\r') (by decide)
    obtain ⟨second, fed⟩ := first.put (c := wide '\n') (by decide)
    have put : ptrPutc out (wide '\n') = (out.put (wide '\r')).put (wide '\n') := by
      simp only [ptrPutc, console.addCr]
      rfl
    rw [put]
    refine ⟨second, ?_⟩
    rw [fed, returned, List.append_assoc]
    rfl
  · have other : (c == wide '\n') = false := by simpa using newline
    have put : ptrPutc out c = out.put c := by
      simp only [ptrPutc, other]
      rfl
    have kept : crText [c] = [c] := by simp [crText, newline]
    rw [put, kept]
    exact console.put nonzero

theorem Output.Console.setattr {out : Output} (console : out.Console) (attr : UInt64) :
    (out.setattr attr).Console ∧ (out.setattr attr).printed = out.printed := by
  obtain ⟨flushed, same⟩ := ptrFlush_console console.output console.addCr
    (Nat.zero_lt_of_lt console.room) console.nulFree
  simp only [Output.setattr]
  split_ifs
  · refine ⟨⟨flushed.output, flushed.addCr, flushed.room, flushed.nulFree⟩, ?_⟩
    rw [← same]
    simp [Output.printed, Output.passed, Output.pending]
  · exact ⟨flushed, same⟩

/-- The console gets a text with carriage returns, wherever it is cut. -/
theorem Emits.console {out out' : Output} {text : List UInt16} (emits : Emits out text out')
    (console : out.Console) (nulFree : 0 ∉ text) :
    out'.Console ∧ out'.printed = out.printed ++ crText text := by
  induction emits with
  | refl => exact ⟨console, (List.append_nil _).symm⟩
  | @put out out' text c rest ih =>
    rw [List.mem_cons, not_or] at nulFree
    obtain ⟨next, printed⟩ := console.putc (Ne.symm nulFree.1)
    obtain ⟨last, same⟩ := ih next nulFree.2
    refine ⟨last, ?_⟩
    rw [same, printed, List.append_assoc]
    congr 1
    simp [crText]
  | setattr attr _ ih =>
    obtain ⟨next, printed⟩ := console.setattr attr
    obtain ⟨last, same⟩ := ih next nulFree
    exact ⟨last, by rw [same, printed]⟩
  | flush _ ih =>
    obtain ⟨next, printed⟩ := ptrFlush_console console.output console.addCr
      (Nat.zero_lt_of_lt console.room) console.nulFree
    obtain ⟨last, same⟩ := ih next nulFree
    exact ⟨last, by rw [same, printed]⟩

/-! ## Renderings with different attributes -/

/-- Every attribute directive of a rendering sets an attribute. -/
def Rendering.AttributesSet (rendering : Rendering) : Prop :=
  ∀ set ∈ rendering.attributes, set = true

/-- Two renderings are the same as soon as all their attribute directives set attributes. -/
structure Agree (first second : Rendering) : Prop where
  same : first.AttributesSet → second.AttributesSet →
    first.text = second.text ∧ first.ending = second.ending

theorem Agree.refl (ending : RenderEnd) (left right : List Bool) :
    Agree ⟨[], left, ending⟩ ⟨[], right, ending⟩ := ⟨fun _ _ => ⟨rfl, rfl⟩⟩

theorem Agree.after {first second : Rendering} (agree : Agree first second) (text : List UInt16)
    (left right : List Bool) : Agree (first.after text left) (second.after text right) := by
  refine ⟨fun firstSet secondSet => ?_⟩
  obtain ⟨sameText, sameEnd⟩ := agree.same
    (fun set member => firstSet set (List.mem_append_right _ member))
    (fun set member => secondSet set (List.mem_append_right _ member))
  exact ⟨congrArg (text ++ ·) sameText, sameEnd⟩

/-- What the `switch` makes of one character for two printers that have come to the same
argument. -/
structure SwitchedAlike (c : UInt16) (first second : Switched) : Prop where
  item : first.item = second.item
  nextArg : first.vars.nextArg = second.vars.nextArg
  unset : c ∉ standaloneLetters → first.attr = 0 ∧ second.attr = 0

theorem Option.rel_ite {α β : Type} {relation : α → β → Prop} {condition : Prop}
    [Decidable condition] {first first' : Option α} {second second' : Option β}
    (left : condition → Option.Rel relation first second)
    (right : ¬ condition → Option.Rel relation first' second') :
    Option.Rel relation (if condition then first else first')
      (if condition then second else second') := by
  split_ifs with holds
  · exact left holds
  · exact right holds

theorem directiveSwitch_alike (args : ℕ → Argument) {vars vars' : PrintVars}
    (sameArg : vars.nextArg = vars'.nextArg) (item : Item) (c : UInt16) :
    Option.Rel (SwitchedAlike c) (directiveSwitch args vars item c)
      (directiveSwitch args vars' item c) := by
  have shifted : vars.shift.nextArg = vars'.shift.nextArg := congrArg (· + 1) sameArg
  rw [directiveSwitch, directiveSwitch, sameArg]
  -- one case of the switch after another
  repeat
    refine Option.rel_ite (fun letter => ?_) (fun _ => ?_)
    · first
      | exact .some ⟨rfl, sameArg, fun _ => ⟨rfl, rfl⟩⟩
      | exact .some ⟨rfl, shifted, fun _ => ⟨rfl, rfl⟩⟩
      | (cases (args vars'.nextArg).float with
        | none => exact .none
        | some text => exact .some ⟨rfl, shifted, fun _ => ⟨rfl, rfl⟩⟩)
      | (rw [beq_iff_eq] at letter
         subst letter
         exact .some ⟨rfl, by assumption, fun other => absurd (by decide) other⟩)
  exact .some ⟨rfl, sameArg, fun _ => ⟨rfl, rfl⟩⟩

@[simp] theorem PrintVars.leave_nextArg (vars : PrintVars) : vars.leave.nextArg = vars.nextArg := by
  rw [PrintVars.leave]
  split_ifs <;> rfl

/-- A directive that should set an attribute and does not is one of those met. -/
theorem not_attributesSet {args : ℕ → Argument} {vars : PrintVars} {item : Item} {c : UInt16}
    {switched : Switched} (letter : c ∈ standaloneLetters)
    (switch : directiveSwitch args vars item c = some switched) (unset : ¬ (switched.attr != 0) = true)
    (text : List UInt16) (rendering : Rendering) :
    ¬ (rendering.after text (attributeMet args vars item c)).AttributesSet := by
  intro set
  have met : attributeMet args vars item c = [false] := by
    rw [attributeMet, if_pos letter, setsAttribute, switch]
    simpa using unset
  have member : false ∈ (rendering.after text (attributeMet args vars item c)).attributes := by
    rw [met]
    exact List.mem_cons_self
  exact absurd (set false member) (by decide)

theorem renderDirective_agree (args : ℕ → Argument) (item : Item) (c : UInt16)
    {vars vars' : PrintVars} (sameArg : vars.nextArg = vars'.nextArg)
    {rest : Mode → PrintVars → Rendering}
    (later : ∀ (mode : Mode) (vars vars' : PrintVars), vars.nextArg = vars'.nextArg →
      Agree (rest mode vars) (rest mode vars')) :
    Agree (renderDirective args item vars c rest) (renderDirective args item vars' c rest) := by
  have alike := directiveSwitch_alike args sameArg item c
  simp only [renderDirective]
  by_cases zero : c = 0
  · rw [if_pos zero, if_pos zero]
    exact .after (later _ _ _ (by simpa using sameArg)) ..
  · rw [if_neg zero, if_neg zero]
    by_cases starts : startsNumber c
    · rw [if_pos starts, if_pos starts]
      exact .after (later _ _ _ sameArg) ..
    · rw [if_neg starts, if_neg starts]
      cases switch : directiveSwitch args vars item c with
      | none =>
        rw [switch] at alike
        cases switch' : directiveSwitch args vars' item c with
        | none => exact .refl ..
        | some switched' =>
          rw [switch'] at alike
          cases alike
      | some switched =>
        rw [switch] at alike
        cases switch' : directiveSwitch args vars' item c with
        | none =>
          rw [switch'] at alike
          cases alike
        | some switched' =>
          rw [switch'] at alike
          cases alike with
          | some alike =>
            simp only [← alike.item]
            cases switched.item.text with
            | some text =>
              simp only
              cases itemText switched.item text with
              | none => exact .refl ..
              | some printed => exact .after (later _ _ _ (by simpa using alike.nextArg)) ..
            | none =>
              simp only
              -- the directive ends in one printer only if the letter should end it
              have letter : switched.attr ≠ 0 ∨ switched'.attr ≠ 0 → c ∈ standaloneLetters := by
                intro set
                by_contra other
                obtain ⟨first, second⟩ := alike.unset other
                rcases set with set | set
                · exact set first
                · exact set second
              by_cases set : (switched.attr != 0) = true
              · by_cases set' : (switched'.attr != 0) = true
                · rw [if_pos set, if_pos set']
                  refine .after (later _ _ _ ?_) ..
                  exact alike.nextArg
                · rw [if_pos set, if_neg set']
                  have standalone := letter (.inl (by simpa using set))
                  exact ⟨fun _ second =>
                    absurd second (not_attributesSet standalone switch' set' _ _)⟩
              · by_cases set' : (switched'.attr != 0) = true
                · rw [if_neg set, if_pos set']
                  have standalone := letter (.inr (by simpa using set'))
                  exact ⟨fun first _ =>
                    absurd first (not_attributesSet standalone switch set _ _)⟩
                · rw [if_neg set, if_neg set']
                  exact .after (later _ _ _ alike.nextArg) ..

/-- Renderings of one format agree, whatever the attributes. The induction is on the characters of
the format. -/
theorem render_agree (args : ℕ → Argument) (scan : Scan) (mode : Mode) (vars vars' : PrintVars)
    (sameArg : vars.nextArg = vars'.nextArg) :
    Agree (render args scan mode vars) (render args scan mode vars') := by
  induction scan generalizing mode vars vars' with
  | nul => cases mode <;> exact .refl ..
  | malformed => exact .refl ..
  | char c units rest ih =>
    cases mode with
    | text =>
      rw [render, render]
      split_ifs
      · exact .refl ..
      · exact ih _ _ _ sameArg
      · exact .after (ih _ _ _ sameArg) ..
    | directive item => exact renderDirective_agree args item c sameArg ih
    | digits item =>
      rw [render, render]
      split_ifs
      · exact ih _ _ _ sameArg
      · exact renderDirective_agree args item c sameArg ih
      · exact .refl ..

/-! ## Attribute directives -/

/-- The letter of an attribute directive puts nothing and takes nothing of the format but itself, and
a standalone one ends the directive. -/
def PrintState.AttributeStandsAlone (ps : PrintState) : Prop :=
  ∀ item c fmt next, ps.control = .directive item → ptrGetc ps.fmt = (c, fmt) →
    c ∈ standaloneLetters ++ fieldLetters → printTurn ps = some next →
    next.fmt = fmt ∧ next.out.len = ps.out.len ∧ (c ∈ standaloneLetters → next.control = .text)

/-- The item of a directive has no text before its turn. -/
def PrintState.ItemOpen (ps : PrintState) : Prop :=
  match ps.control with
  | .directive item | .digits item _ => item.text = none
  | _ => True

theorem Item.setParsed_text (item : Item) (value : ℕ) : (item.setParsed value).text = item.text := by
  rw [Item.setParsed]
  split <;> rfl

theorem printTurn_itemOpen {ps next : PrintState} (itemOpen : ps.ItemOpen)
    (turned : printTurn ps = some next) : next.ItemOpen := by
  rw [printTurn] at turned
  rw [PrintState.ItemOpen] at itemOpen
  cases control : ps.control with
  | text =>
    rw [control] at turned
    obtain rfl := Option.some.inj turned
    simp only [textTurn]
    split_ifs
    · trivial
    · simp only [PrintState.ItemOpen, control]
    · rfl
  | directive item =>
    rw [control] at turned itemOpen
    obtain rfl := Option.some.inj turned
    simp only [directiveTurn]
    split_ifs
    · trivial
    · exact (item.setParsed_text 0).trans itemOpen
    · split
      · trivial
      · split
        · trivial
        · next shown =>
          split_ifs
          · trivial
          · exact shown
  | digits item c =>
    rw [control] at turned itemOpen
    obtain rfl := Option.some.inj turned
    simp only [digitsTurn]
    split_ifs
    · exact (item.setParsed_text _).trans itemOpen
    · exact (item.setParsed_text _).trans itemOpen
  | floating =>
    rw [control] at turned
    obtain rfl := Option.some.inj turned
    simp only [PrintState.ItemOpen, control]
  | measuring item fmt =>
    rw [control] at turned
    obtain rfl := Option.some.inj turned
    simp only [measuringTurn]
    split_ifs <;> trivial
  | adding item fmt len =>
    rw [control] at turned
    obtain rfl := Option.some.inj turned
    simp only [addingTurn]
    split_ifs <;> trivial
  | returned =>
    rw [control] at turned
    cases turned

theorem standalone_switch {c : UInt16} (letter : c ∈ standaloneLetters) (args : ℕ → Argument)
    (vars : PrintVars) (item : Item) :
    ∃ vars' attr, directiveSwitch args vars item c = some ⟨vars', item, attr, none⟩ := by
  simp only [standaloneLetters, List.map_cons, List.map_nil, List.mem_cons, List.not_mem_nil,
    or_false] at letter
  rcases letter with rfl | rfl | rfl | rfl | rfl
  all_goals exact ⟨_, _, rfl⟩

theorem field_switch {c : UInt16} (letter : c ∈ fieldLetters) (args : ℕ → Argument)
    (vars : PrintVars) (item : Item) :
    ∃ vars' set, directiveSwitch args vars item c = some ⟨vars', item, 0, set⟩ := by
  simp only [fieldLetters, List.map_cons, List.map_nil, List.mem_cons, List.not_mem_nil,
    or_false] at letter
  rcases letter with rfl | rfl | rfl
  all_goals exact ⟨_, _, rfl⟩

theorem ptrFlush_len (out : Output) : (ptrFlush out).len = out.len := by
  rw [ptrFlush]
  split_ifs <;> rfl

theorem Output.setattr_len (out : Output) (attr : UInt64) : (out.setattr attr).len = out.len := by
  simp only [Output.setattr]
  split_ifs <;> exact ptrFlush_len out

theorem leaveDirective_len (ps : PrintState) : (leaveDirective ps).out.len = ps.out.len := by
  rw [leaveDirective]
  split_ifs
  · exact Output.setattr_len ..
  · rfl

/-- The turn of a letter that leaves the item as it is. -/
theorem letter_turn {ps : PrintState} {item : Item} {c : UInt16} {fmt : Ptr}
    (control : ps.control = .directive item) (read : ptrGetc ps.fmt = (c, fmt))
    (shown : item.text = none) (letter : c ∈ standaloneLetters ++ fieldLetters)
    {vars : PrintVars} {attr : UInt64} {set : Option UInt64}
    (switch : directiveSwitch ps.args ps.vars item c = some ⟨vars, item, attr, set⟩) :
    ∃ next, printTurn ps = some next ∧ next.fmt = fmt ∧ next.out.len = ps.out.len ∧
      (next.control = .text ↔ attr ≠ 0) := by
  have other : (c == 0) = false ∧ startsNumber c = false := by
    simp only [standaloneLetters, fieldLetters, List.map_cons, List.map_nil, List.cons_append,
      List.nil_append, List.mem_cons, List.not_mem_nil, or_false] at letter
    rcases letter with rfl | rfl | rfl | rfl | rfl | rfl | rfl | rfl <;> exact ⟨rfl, rfl⟩
  have switched_len : (set.elim ps.out ps.out.setattr).len = ps.out.len := by
    cases set with
    | none => rfl
    | some attr => exact Output.setattr_len ..
  refine ⟨directiveTurn ps item, by simp only [printTurn, control], ?_⟩
  simp only [directiveTurn, read, other, switch, shown, Bool.false_eq_true, if_false]
  split_ifs with sets
  · refine ⟨by rw [leaveDirective_fmt]; rfl, ?_, ?_⟩
    · rw [leaveDirective_len]
      exact (Output.setattr_len ..).trans switched_len
    · simpa using sets
  · refine ⟨rfl, switched_len, ?_⟩
    simpa using sets

/-- The attribute directives stand alone where those that should set an attribute do. -/
theorem attributeStandsAlone_iff {ps : PrintState} (itemOpen : ps.ItemOpen) :
    ps.AttributeStandsAlone ↔ ∀ set ∈ ps.attributeMet, set = true := by
  constructor
  · intro alone set member
    cases control : ps.control with
    | directive item =>
      simp only [PrintState.attributeMet, control, attributeMet] at member
      rw [PrintState.ItemOpen, control] at itemOpen
      split_ifs at member with letter
      · obtain ⟨vars', attr, switch⟩ := standalone_switch letter ps.args ps.vars item
        obtain ⟨next, turned, -, -, ends⟩ := letter_turn control rfl itemOpen
          (List.mem_append_left _ letter) switch
        have sets := ends.mp ((alone item _ _ next control rfl (List.mem_append_left _ letter)
          turned).2.2 letter)
        rw [List.mem_singleton.mp member, setsAttribute, switch]
        simpa using sets
      · cases member
    | text | digits | floating | measuring | adding | returned =>
      rw [PrintState.attributeMet, control] at member
      cases member
  · intro met item c fmt next control read letter turned
    rw [PrintState.ItemOpen, control] at itemOpen
    have turn : ∀ {vars attr set},
        directiveSwitch ps.args ps.vars item c = some ⟨vars, item, attr, set⟩ →
        next.fmt = fmt ∧ next.out.len = ps.out.len ∧ (next.control = .text ↔ attr ≠ 0) := by
      intro vars attr set switch
      obtain ⟨next', turned', same⟩ := letter_turn control read itemOpen letter switch
      rwa [← Option.some.inj (turned'.symm.trans turned)]
    rcases List.mem_append.mp letter with standalone | field
    · obtain ⟨vars', attr, switch⟩ := standalone_switch standalone ps.args ps.vars item
      obtain ⟨sameFmt, sameLen, ends⟩ := turn switch
      refine ⟨sameFmt, sameLen, fun _ => ends.mpr ?_⟩
      have sets := met (setsAttribute ps.args ps.vars item c) (by
        simp only [PrintState.attributeMet, control, read, attributeMet, if_pos standalone,
          List.mem_singleton])
      rw [setsAttribute, switch] at sets
      simpa using sets
    · obtain ⟨vars', set, switch⟩ := field_switch field ps.args ps.vars item
      obtain ⟨sameFmt, sameLen, ends⟩ := turn switch
      refine ⟨sameFmt, sameLen, fun standalone => ?_⟩
      -- no letter is of both kinds
      simp only [fieldLetters, List.map_cons, List.map_nil, List.mem_cons, List.not_mem_nil,
        or_false] at field
      rcases field with rfl | rfl | rfl <;> exact absurd standalone (by decide)

theorem itemOpen_of_reaches {ps reached : PrintState} (control : ps.control = .text)
    (run : Reaches printTurn ps reached) : reached.ItemOpen := by
  apply reaches_invariant PrintState.ItemOpen (fun _ _ => printTurn_itemOpen) run
  rw [PrintState.ItemOpen, control]
  trivial

/-- All attribute directives of a run stand alone if and only if those of its rendering set
attributes, as long as the end of the format does not cut a directive off. -/
theorem Follows.attributes {n : ℕ} {ps : PrintState} {rendering : Rendering}
    (follows : Follows n ps rendering) (control : ps.control = .text) :
    ((∀ reached, Reaches printTurn ps reached → reached.AttributeStandsAlone) →
      rendering.AttributesSet) ∧
    (rendering.AttributesSet → rendering.ending ≠ .cut →
      ∀ reached, Reaches printTurn ps reached → reached.AttributeStandsAlone) := by
  obtain ⟨last, trace, -, settled⟩ := follows
  constructor
  · intro alone set member
    obtain ⟨reached, run, met⟩ := trace.exists_of_mem member
    exact (attributeStandsAlone_iff (itemOpen_of_reaches control run)).mp (alone reached run) set met
  · intro sets uncut reached run
    apply (attributeStandsAlone_iff (itemOpen_of_reaches control run)).mpr
    rcases trace.reached run with ⟨-, labels⟩ | beyond
    · exact fun set member => sets set (labels member)
    · have unmet : reached.attributeMet = [] := by
        cases ending : rendering.ending with
        | complete =>
          rw [ending] at settled
          rw [settled.reached beyond, PrintState.attributeMet, settled.1]
        | cut => exact absurd ending uncut
        | malformedFormat | malformedArgument | floatingPoint =>
          rw [ending] at settled
          exact (settled reached beyond).2.1
      rw [unmet]
      simp

/-! ## Agreement -/

section Agreement

variable (modeAttribute : Int32) (units : List UInt16) (args : ℕ → Argument)

/-- The rendering of a format for a console. -/
def consoleRendering : Rendering :=
  render args (Text.unicode ⟨units, fun _ => 0⟩).scan .text (iprintVars modeAttribute)

/-- The two printers agree on a format, whatever stands behind it: both end or none does, the console
gets the text of a buffer that is long enough, with carriage returns, and the attribute directives
stand alone in both. -/
def PrintersAgree : Prop :=
  ∀ (behind str buffer : ℕ → UInt16) (maxlen : ℕ),
    let string := vswprintfStart maxlen str ⟨units, behind⟩ args
    let console := iprintStart modeAttribute buffer (.unicode ⟨units, behind⟩) args
    ((∃ last, last ∈ eval printTurn string) ↔ ∃ last, last ∈ eval printTurn console) ∧
      (∀ written ∈ eval printTurn string, ∀ shown ∈ eval printTurn console,
        0 ∉ written.out.pending → written.out.pending.length < maxlen →
          shown.out.passed = crText written.out.pending) ∧
      (∀ reached, Reaches printTurn string reached → reached.AttributeStandsAlone) ∧
      ∀ reached, Reaches printTurn console reached → reached.AttributeStandsAlone

theorem vswprintf_follows (maxlen : ℕ) (behind str : ℕ → UInt16) :
    Follows units.length (vswprintfStart maxlen str ⟨units, behind⟩ args)
      (stringRendering units args) :=
  printStart_follows args vswprintfVars (vswprintfOutput maxlen str) (.unicode units _ behind)

theorem iprint_follows (behind buffer : ℕ → UInt16) :
    Follows units.length (iprintStart modeAttribute buffer (.unicode ⟨units, behind⟩) args)
      (consoleRendering modeAttribute units args) :=
  printStart_follows args (iprintVars modeAttribute) (iprintOutput buffer)
    (.unicode units _ behind)

/-- Memory that starts with `%N`. -/
def normalDirective (index : ℕ) : UInt16 := (['%', 'N'].map wide).getD index 0

/-- Behind a directive that is cut off `%N` may stand, which sets no attribute in `vswprintf`. -/
theorem cut_meets_unset (cut : (stringRendering units args).ending = .cut) (str : ℕ → UInt16) :
    ∃ reached,
      Reaches printTurn (vswprintfStart 1 str ⟨units, normalDirective⟩ args) reached ∧
        reached.attributeMet = [false] := by
  obtain ⟨last, trace, -, settled⟩ := vswprintf_follows units args 1 normalDirective str
  rw [cut] at settled
  obtain ⟨control, index⟩ := settled
  have inputs := (proceeds_of_reaches trace.reaches).inputs
  -- the pointers at the two characters
  have atPercent : last.fmt = ⟨.unicode ⟨units, normalDirective⟩, units.length + 1 + 0⟩ :=
    congrArg₂ Ptr.mk inputs.text index
  have percent : ptrGetc last.fmt =
      (wide '%', ⟨.unicode ⟨units, normalDirective⟩, units.length + 1 + 1⟩) := by
    rw [atPercent, ptrGetc]
    exact congrArg (·, _) (Terminated.get_behind _ 0)
  have turned : printTurn last =
      some { last with
        fmt := ⟨.unicode ⟨units, normalDirective⟩, units.length + 1 + 1⟩
        vars := { last.vars with restoreAttr := 0 }
        control := .directive newItem } := by
    simp only [printTurn, control, textTurn, percent]
    rfl
  refine ⟨_, trace.reaches.tail turned, ?_⟩
  have letter : (⟨units, normalDirective⟩ : Terminated UInt16).get (units.length + 1 + 1) =
      wide 'N' := Terminated.get_behind _ 1
  have norm : last.vars.attrNorm = 0 := inputs.attrNorm
  simp only [PrintState.attributeMet, ptrGetc, letter]
  rw [attributeMet, if_pos (by decide), setsAttribute]
  have switch : directiveSwitch last.args { last.vars with restoreAttr := 0 } newItem (wide 'N') =
      some ⟨{ last.vars with restoreAttr := 0 }, newItem, last.vars.attrNorm, none⟩ := rfl
  rw [switch, norm]
  rfl

/-- What the console gets of a complete rendering without a NUL. -/
theorem iprint_ends (complete : (consoleRendering modeAttribute units args).ending = .complete)
    (behind buffer : ℕ → UInt16) :
    ∃ last, last ∈ eval printTurn (iprintStart modeAttribute buffer (.unicode ⟨units, behind⟩) args) ∧
      (0 ∉ (consoleRendering modeAttribute units args).text →
        last.out.passed = crText (consoleRendering modeAttribute units args).text) := by
  obtain ⟨last, ended, settled, -, emits⟩ :=
    (iprint_follows modeAttribute units args behind buffer).ends complete
  refine ⟨last, ended, fun nulFree => ?_⟩
  have start : ({ iprintOutput buffer with len := 0 } : Output).Console :=
    ⟨rfl, rfl, show 0 < printStringLen - 1 by decide, List.not_mem_nil⟩
  obtain ⟨console, printed⟩ := emits.console start nulFree
  obtain ⟨-, before, flushed⟩ := settled
  have emptied : last.out.pending = [] := by
    have output := console.output
    rw [flushed] at output ⊢
    exact ptrFlush_pending ((ptrFlush_output before).symm.trans output)
  rw [Output.printed, emptied, List.append_nil] at printed
  exact printed

/-- What follows from the attribute directives standing alone. -/
theorem attributesSet_of_printersAgree (agree : PrintersAgree modeAttribute units args) :
    (stringRendering units args).AttributesSet ∧
      (consoleRendering modeAttribute units args).AttributesSet ∧
        (stringRendering units args).ending ≠ .cut := by
  obtain ⟨-, -, string, console⟩ := agree (fun _ => 0) (fun _ => 0) (fun _ => 0) 1
  refine ⟨?_, ?_, fun cut => ?_⟩
  · exact ((vswprintf_follows units args 1 _ _).attributes rfl).1 string
  · exact ((iprint_follows modeAttribute units args _ _).attributes rfl).1 console
  · obtain ⟨reached, run, met⟩ := cut_meets_unset units args cut fun _ => 0
    obtain ⟨-, -, alone, -⟩ := agree _ (fun _ => 0) (fun _ => 0) 1
    have sets := (attributeStandsAlone_iff (itemOpen_of_reaches rfl run)).mp (alone reached run)
    rw [met] at sets
    exact absurd (sets false List.mem_cons_self) (by decide)

/-- The printers agree exactly where every attribute directive sets an attribute in both, and the end
of the format does not cut a directive off. -/
theorem printersAgree_iff :
    PrintersAgree modeAttribute units args ↔
      (stringRendering units args).AttributesSet ∧
        (consoleRendering modeAttribute units args).AttributesSet ∧
          (stringRendering units args).ending ≠ .cut := by
  constructor
  · exact attributesSet_of_printersAgree modeAttribute units args
  · rintro ⟨stringSet, consoleSet, uncut⟩ behind str buffer maxlen
    obtain ⟨sameText, sameEnd⟩ := (render_agree args
      (Text.unicode ⟨units, fun _ => 0⟩).scan .text vswprintfVars (iprintVars modeAttribute) rfl).same
      stringSet consoleSet
    have follows := vswprintf_follows units args maxlen behind str
    have follows' := iprint_follows modeAttribute units args behind buffer
    have uncut' : (consoleRendering modeAttribute units args).ending ≠ .cut :=
      fun cut => uncut (sameEnd.trans cut)
    have alone := (follows.attributes rfl).2 stringSet uncut
    have alone' := (follows'.attributes rfl).2 consoleSet uncut'
    by_cases complete : (stringRendering units args).ending = .complete
    · obtain ⟨written, ended, -, -, pending⟩ :=
        vswprintf_ends maxlen units args complete behind str
      obtain ⟨shown, ended', passed⟩ :=
        iprint_ends modeAttribute units args (sameEnd.symm.trans complete) behind buffer
      refine ⟨⟨fun _ => ⟨shown, ended'⟩, fun _ => ⟨written, ended⟩⟩, ?_, alone, alone'⟩
      intro last member last' member' nulFree _
      obtain rfl := Part.mem_unique ended member
      obtain rfl := Part.mem_unique ended' member'
      rw [pending] at nulFree ⊢
      have sameText' : (stringRendering units args).text =
          (consoleRendering modeAttribute units args).text := sameText
      rw [sameText'] at nulFree ⊢
      exact passed nulFree
    · have never := follows.neverEnds complete uncut
      have never' := follows'.neverEnds (fun complete' => complete (sameEnd.trans complete')) uncut'
      refine ⟨⟨?_, ?_⟩, ?_, alone, alone'⟩
      · rintro ⟨last, ended⟩
        exact absurd ended never.not_eval
      · rintro ⟨last, ended⟩
        exact absurd ended never'.not_eval
      · intro last ended
        exact absurd ended never.not_eval

end Agreement

/-- `%N` in front of a text: the console prints the text, the buffer gets a question mark for its
first letter. -/
theorem printersAgree_normal :
    ¬ PrintersAgree 7 (['%', 'N', 'o', 'k'].map wide) fun _ => blankArgument none := by
  intro agree
  have sets := (attributesSet_of_printersAgree _ _ _ agree).1
  exact absurd (sets false (by decide +kernel)) (by decide)

end ZLoader
