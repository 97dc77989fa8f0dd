import ZLoader.Soundness.Rendering

/-! # The ends of the format and of the buffer

Three properties of the printer, each with the formats and arguments for which it holds: that it
ends, that it reads the format up to its terminator at most, and that `vswprintf` stays inside the
buffer. All three are decided by the rendering.
-/

namespace ZLoader

open StateTransition

/-! ## What a turn keeps -/

theorem directiveSwitch_attrNorm {args : ℕ → Argument} {vars : PrintVars} {item : Item}
    {c : UInt16} {switched : Switched} (switch : directiveSwitch args vars item c = some switched) :
    switched.vars.attrNorm = vars.attrNorm := by
  rw [directiveSwitch] at switch
  -- one case of the switch after another
  repeat
    rcases ite_eq_iff.mp switch with ⟨-, branch⟩ | ⟨-, rest⟩
    · first
      | (obtain rfl := Option.some.inj branch; rfl)
      | (obtain ⟨text, -, rfl⟩ := Option.map_eq_some_iff.mp branch; rfl)
    clear switch
    rename' rest => switch
  obtain rfl := Option.some.inj switch
  rfl

/-- The format, the arguments and the normal attribute are the ones that were passed. -/
structure SameInputs (ps next : PrintState) : Prop where
  text : next.fmt.text = ps.fmt.text
  args : next.args = ps.args
  attrNorm : next.vars.attrNorm = ps.vars.attrNorm

theorem SameInputs.refl (ps : PrintState) : SameInputs ps ps := ⟨rfl, rfl, rfl⟩

theorem SameInputs.trans {first second third : PrintState} (left : SameInputs first second)
    (right : SameInputs second third) : SameInputs first third :=
  ⟨right.text.trans left.text, right.args.trans left.args, right.attrNorm.trans left.attrNorm⟩

theorem PrintVars.leave_attrNorm (vars : PrintVars) : vars.leave.attrNorm = vars.attrNorm := by
  rw [PrintVars.leave]
  split_ifs <;> rfl

theorem SameInputs.leave (ps : PrintState) : SameInputs ps (leaveDirective ps) :=
  ⟨by rw [leaveDirective_fmt], by rw [leaveDirective_args],
    by rw [leaveDirective_vars, PrintVars.leave_attrNorm]⟩

/-- A turn keeps the inputs and puts characters. -/
structure Proceeds (ps next : PrintState) : Prop where
  inputs : SameInputs ps next
  emits : ∃ text, Emits ps.out text next.out

theorem Emits.outer (out : Output) (condition : Prop) [Decidable condition] (c : UInt16)
    (times : ℕ) : ∃ text, Emits out text (if condition then putTimes c times out else out) := by
  split_ifs
  · exact ⟨_, .padding c times out⟩
  · exact ⟨[], .refl out⟩

theorem Proceeds.leave {ps next : PrintState} (proceeds : Proceeds ps next) :
    Proceeds ps (leaveDirective next) := by
  obtain ⟨text, emits⟩ := proceeds.emits
  exact ⟨proceeds.inputs.trans (.leave next), _, emits.trans (.leave next)⟩

theorem textTurn_proceeds (ps : PrintState) : Proceeds ps (textTurn ps) := by
  have sameText := ptrGetc_text ps.fmt
  simp only [textTurn]
  split_ifs
  · exact ⟨⟨sameText, rfl, rfl⟩, [], .flush (.refl _)⟩
  · exact ⟨⟨sameText, rfl, rfl⟩, _, .single ps.out _⟩
  · exact ⟨⟨sameText, rfl, rfl⟩, [], .refl _⟩

theorem directiveTurn_proceeds (ps : PrintState) (item : Item) :
    Proceeds ps (directiveTurn ps item) := by
  have sameText := ptrGetc_text ps.fmt
  simp only [directiveTurn]
  split_ifs
  · exact .leave ⟨⟨sameText, rfl, rfl⟩, [], .refl _⟩
  · exact ⟨⟨sameText, rfl, rfl⟩, [], .refl _⟩
  · cases switch : directiveSwitch ps.args ps.vars item (ptrGetc ps.fmt).1 with
    | none => exact ⟨⟨sameText, rfl, rfl⟩, [], .refl _⟩
    | some switched =>
      have norm := directiveSwitch_attrNorm switch
      have emits := Emits.switched ps.out switched.setattr
      cases shown : switched.item.text with
      | some text =>
        simp only [shown]
        exact ⟨⟨sameText, rfl, norm⟩, [], emits⟩
      | none =>
        simp only [shown]
        split_ifs
        · exact .leave ⟨⟨sameText, rfl, norm⟩, [], emits.trans (.setattr _ (.refl _))⟩
        · exact ⟨⟨sameText, rfl, norm⟩, [], emits⟩

theorem startItem_proceeds (ps : PrintState) (item : Item) (fmt : Ptr) :
    Proceeds ps (startItem ps item fmt) := by
  refine ⟨⟨rfl, rfl, rfl⟩, ?_⟩
  obtain ⟨text, emits⟩ := Emits.outer ps.out (item.fit fmt.index).padBefore (wide ' ')
    ((item.fit fmt.index).fieldWidth - (item.fit fmt.index).width)
  exact ⟨_, emits.trans (.padding _ _ _)⟩

theorem addingTurn_proceeds (ps : PrintState) (item : Item) (p : Ptr) (len : ℕ) :
    Proceeds ps (addingTurn ps item p len) := by
  simp only [addingTurn]
  split_ifs
  · exact ⟨⟨rfl, rfl, rfl⟩, _, .single ps.out _⟩
  · exact .leave ⟨⟨rfl, rfl, rfl⟩, [], .refl _⟩
  · exact .leave ⟨⟨rfl, rfl, rfl⟩, _, .padding _ _ _⟩

theorem printTurn_proceeds {ps next : PrintState} (turned : printTurn ps = some next) :
    Proceeds ps next := by
  rw [printTurn] at turned
  cases control : ps.control with
  | text =>
    rw [control] at turned
    obtain rfl := Option.some.inj turned
    exact textTurn_proceeds ps
  | directive item =>
    rw [control] at turned
    obtain rfl := Option.some.inj turned
    exact directiveTurn_proceeds ps item
  | digits item c =>
    rw [control] at turned
    obtain rfl := Option.some.inj turned
    simp only [digitsTurn]
    split_ifs
    · exact ⟨⟨ptrGetc_text ps.fmt, rfl, rfl⟩, [], .refl _⟩
    · exact ⟨⟨ptrGetc_text ps.fmt, rfl, rfl⟩, [], .refl _⟩
  | floating =>
    rw [control] at turned
    obtain rfl := Option.some.inj turned
    exact ⟨.refl ps, [], .refl _⟩
  | measuring item fmt =>
    rw [control] at turned
    obtain rfl := Option.some.inj turned
    simp only [measuringTurn]
    split_ifs
    · exact startItem_proceeds ..
    · exact ⟨⟨rfl, rfl, rfl⟩, [], .refl _⟩
    · exact startItem_proceeds ..
  | adding item fmt len =>
    rw [control] at turned
    obtain rfl := Option.some.inj turned
    exact addingTurn_proceeds ..
  | returned =>
    rw [control] at turned
    cases turned

theorem proceeds_of_reaches {ps reached : PrintState} (run : Reaches printTurn ps reached) :
    Proceeds ps reached := by
  apply reaches_invariant (Proceeds ps) _ run ⟨.refl ps, [], .refl _⟩
  intro before next proceeds turned
  obtain ⟨text, emits⟩ := proceeds.emits
  obtain ⟨inputs, text', emits'⟩ := printTurn_proceeds turned
  exact ⟨proceeds.inputs.trans inputs, _, emits.trans emits'⟩

/-! ## Runs of the printer -/

theorem Emits.stores_subset {out out' : Output} {text : List UInt16} (emits : Emits out text out') :
    out.stores ⊆ out'.stores := by
  have flush : ∀ out : Output, out.stores ⊆ (ptrFlush out).stores := by
    intro out
    rw [ptrFlush]
    split_ifs
    · exact List.subset_cons_self ..
    · exact List.Subset.refl _
  have put : ∀ (out : Output) (c : UInt16), out.stores ⊆ (out.put c).stores := by
    intro out c
    simp only [Output.put]
    split_ifs
    · refine List.Subset.trans ?_ (flush _)
      exact List.subset_cons_self ..
    · exact List.subset_cons_self ..
  induction emits with
  | refl => exact List.Subset.refl _
  | put c _ ih =>
    refine List.Subset.trans ?_ ih
    rw [ptrPutc]
    split_ifs
    · exact List.Subset.trans (put _ _) (put _ _)
    · exact put _ _
  | setattr attr _ ih =>
    refine List.Subset.trans ?_ ih
    simp only [Output.setattr]
    split_ifs
    · exact flush _
    · exact flush _
  | flush _ ih => exact List.Subset.trans (flush _) ih

/-- Neither a complete rendering nor a cut one: the printer does not end. -/
theorem Follows.neverEnds {n : ℕ} {ps : PrintState} {rendering : Rendering}
    (follows : Follows n ps rendering) (incomplete : rendering.ending ≠ .complete)
    (uncut : rendering.ending ≠ .cut) : NeverEnds printTurn ps := by
  obtain ⟨last, trace, -, settled⟩ := follows
  apply NeverEnds.of_reaches _ trace.reaches
  intro reached run
  cases ending : rendering.ending with
  | complete => exact absurd ending incomplete
  | cut => exact absurd ending uncut
  | malformedFormat | malformedArgument | floatingPoint =>
    rw [ending] at settled
    exact (settled reached run).2.2

theorem Settled.returned {n : ℕ} {ps : PrintState} (settled : Settled n ps .complete) :
    printTurn ps = none := by
  rw [printTurn, settled.1]

/-- A complete rendering is followed to the end. -/
theorem Follows.ends {n : ℕ} {ps : PrintState} {rendering : Rendering}
    (follows : Follows n ps rendering) (complete : rendering.ending = .complete) :
    ∃ last, last ∈ eval printTurn ps ∧ Settled n last .complete ∧
      PrintTrace n ps rendering.attributes last ∧ Emits ps.out rendering.text last.out := by
  obtain ⟨last, trace, emits, settled⟩ := follows
  rw [complete] at settled
  exact ⟨last, mem_eval.mpr ⟨trace.reaches, settled.returned⟩, settled, trace, emits⟩

theorem Settled.reached {n : ℕ} {ps reached : PrintState} (settled : Settled n ps .complete)
    (run : Reaches printTurn ps reached) : reached = ps :=
  (eval_maximal (mem_eval.mpr ⟨.refl, settled.returned⟩)).mp run

/-- The format in a memory that is filled with one character behind it. -/
def Text.filledWith (fill : UInt8) : Text → Text
  | .unicode s => .unicode ⟨s.units, fun _ => fill.toUInt16⟩
  | .ascii s => .ascii ⟨s.units, fun _ => fill⟩

theorem Text.sameUnits_filledWith (text : Text) (fill : UInt8) :
    text.SameUnits (text.filledWith fill) := by
  cases text with
  | unicode s => exact .unicode ..
  | ascii s => exact .ascii ..

/-- Behind the terminator the fill is read, one character after another. -/
theorem ptrGetc_filledWith (text : Text) {index : ℕ} (behind : text.length < index) :
    ptrGetc ⟨text.filledWith 0x78, index⟩ =
      (wide 'x', ⟨text.filledWith 0x78, index + 1⟩) := by
  have read : ∀ {α : Type} [OfNat α 0] (units : List α) (c : α), units.length < index →
      (⟨units, fun _ => c⟩ : Terminated α).get index = c := by
    intro α _ units c lower
    rw [Terminated.get, dif_neg (Nat.not_lt.mpr (Nat.le_of_lt lower)), if_neg (Nat.ne_of_gt lower)]
  cases text with
  | unicode s =>
    simp only [ptrGetc, Text.filledWith]
    exact congrArg (·, _) (read s.units _ behind)
  | ascii s =>
    simp only [ptrGetc, Text.filledWith]
    have first := read s.units 0x78 behind
    have decoded : mbtowc (fun offset =>
        (⟨s.units, fun _ => 0x78⟩ : Terminated UInt8).get (index + offset)) 8 =
        some (wide 'x', 1) := by
      simp only [mbtowc, Nat.add_zero, first]
      rfl
    rw [decoded]

/-- In front of endless text the printer does not end. -/
theorem neverEnds_filledWith {text : Text} {ps : PrintState} (control : ps.control = .text)
    (sameText : ps.fmt.text = text.filledWith 0x78) (behind : text.length < ps.fmt.index) :
    NeverEnds printTurn ps := by
  have closed : ∀ ps : PrintState, (ps.control = .text ∧ ps.fmt.text = text.filledWith 0x78 ∧
      text.length < ps.fmt.index) → ∃ next, printTurn ps = some next ∧ (next.control = .text ∧
        next.fmt.text = text.filledWith 0x78 ∧ text.length < next.fmt.index) := by
    rintro ⟨⟨found, index⟩, args, vars, out, -⟩ ⟨rfl, rfl, behind⟩
    refine ⟨_, rfl, ?_⟩
    simp only [textTurn, ptrGetc_filledWith text behind]
    exact ⟨rfl, rfl, Nat.lt_succ_of_lt behind⟩
  exact neverEnds_of_closed closed ⟨control, sameText, behind⟩

section Print

variable (fmt : Text) (args : ℕ → Argument) (vars : PrintVars) (out : Output)

theorem printStart_rendering {fmt memory : Text} (same : fmt.SameUnits memory) :
    (printStart memory args vars out).rendering = (printStart fmt args vars out).rendering := by
  simp only [PrintState.rendering, printStart, same.scan]

theorem printStart_follows {fmt memory : Text} (same : fmt.SameUnits memory) :
    Follows fmt.length (printStart memory args vars out)
      (printStart fmt args vars out).rendering := by
  rw [← printStart_rendering args vars out same, same.length]
  have atStart : (printStart memory args vars out).fmt.index = 0 := rfl
  exact print_follows atStart rfl

/-- Only complete renderings end whatever stands behind the format. -/
theorem complete_of_ends (ends : ∀ memory, fmt.SameUnits memory →
      ∃ last, last ∈ eval printTurn (printStart memory args vars out)) :
    (printStart fmt args vars out).rendering.ending = .complete := by
  by_contra incomplete
  by_cases cut : (printStart fmt args vars out).rendering.ending = .cut
  · have same := fmt.sameUnits_filledWith 0x78
    obtain ⟨last, ended⟩ := ends _ same
    obtain ⟨reached, trace, -, settled⟩ := printStart_follows args vars out same
    rw [cut] at settled
    have never : NeverEnds printTurn reached := by
      apply neverEnds_filledWith settled.1
      · exact (proceeds_of_reaches trace.reaches).inputs.text
      · rw [settled.2]
        exact Nat.lt_succ_self _
    exact (never.of_reaches trace.reaches).not_eval ended
  · have same := fmt.sameUnits_filledWith 0
    obtain ⟨last, ended⟩ := ends _ same
    exact ((printStart_follows args vars out same).neverEnds incomplete cut).not_eval ended

/-! ## Termination -/

/-- `_print` ends, whatever stands behind the format, and every `ptr_getc` that does not return NUL
advances. -/
def PrintTerminates : Prop :=
  ∀ memory, fmt.SameUnits memory →
    (∃ last, last ∈ eval printTurn (printStart memory args vars out)) ∧
      ∀ reached, Reaches printTurn (printStart memory args vars out) reached → reached.Advances

theorem advances_of_returned {ps : PrintState} (returned : ps.control = .returned) :
    ps.Advances := by
  intro p read
  simp only [PrintState.read, returned] at read
  cases read

/-- `_print` terminates exactly where the rendering is complete: no directive is cut off by the end
of the format, no malformed character comes up in it or in the part of an argument that is printed,
and no number in it is followed by a character of several bytes. -/
theorem printTerminates_iff :
    PrintTerminates fmt args vars out ↔
      (printStart fmt args vars out).rendering.ending = .complete := by
  constructor
  · intro terminates
    exact complete_of_ends fmt args vars out fun memory same => (terminates memory same).1
  · intro complete memory same
    obtain ⟨last, ended, settled, trace, -⟩ :=
      (printStart_follows args vars out same).ends complete
    refine ⟨⟨last, ended⟩, fun reached run => ?_⟩
    rcases trace.reached run with ⟨orderly, -⟩ | beyond
    · exact orderly.2
    · rw [settled.reached beyond]
      exact advances_of_returned settled.1

/-! ## The terminator of the format -/

/-- The units of the format that a turn examines. -/
def PrintState.formatReads (ps : PrintState) : List ℕ :=
  match ps.control with
  | .text | .directive _ | .digits _ _ => ps.fmt.reads
  | _ => []

/-- `_print` reads the format up to its terminator at most, whatever stands behind it. -/
def ReadsWithinFormat : Prop :=
  ∀ memory, fmt.SameUnits memory →
    ∀ reached, Reaches printTurn (printStart memory args vars out) reached →
      ∀ index ∈ reached.formatReads, index ≤ fmt.length

theorem formatReads_le {ps : PrintState} (inside : ps.fmt.index ≤ ps.fmt.text.length) :
    ∀ index ∈ ps.formatReads, index ≤ ps.fmt.text.length := by
  intro index member
  simp only [PrintState.formatReads] at member
  split at member
  · exact Ptr.reads_le inside index member
  · exact Ptr.reads_le inside index member
  · exact Ptr.reads_le inside index member
  · cases member

/-- A rendering that is not cut off is followed without a look behind the terminator. -/
theorem Follows.reads_le {n : ℕ} {ps reached : PrintState} {rendering : Rendering}
    (follows : Follows n ps rendering) (uncut : rendering.ending ≠ .cut)
    (run : Reaches printTurn ps reached) (sameLength : reached.fmt.text.length = n) :
    ∀ index ∈ reached.formatReads, index ≤ n := by
  rw [← sameLength]
  obtain ⟨last, trace, -, settled⟩ := follows
  rcases trace.reached run with ⟨orderly, -⟩ | beyond
  · exact formatReads_le (sameLength ▸ orderly.1)
  · cases ending : rendering.ending with
    | complete =>
      rw [ending] at settled
      rw [settled.reached beyond, PrintState.formatReads, settled.1]
      simp
    | cut => exact absurd ending uncut
    | malformedFormat | malformedArgument | floatingPoint =>
      rw [ending] at settled
      exact formatReads_le (sameLength ▸ (settled reached beyond).1)

/-- Where a directive is cut off the outer loop goes on behind the terminator. -/
theorem uncut_of_readsWithinFormat (within : ReadsWithinFormat fmt args vars out) :
    (printStart fmt args vars out).rendering.ending ≠ .cut := by
  intro cut
  have same := fmt.sameUnits_filledWith 0
  obtain ⟨last, trace, -, settled⟩ := printStart_follows args vars out same
  rw [cut] at settled
  obtain ⟨control, index⟩ := settled
  have member : last.fmt.index ∈ last.formatReads := by
    simp only [PrintState.formatReads, control]
    exact Ptr.index_mem_reads _
  have bound := within _ same last trace.reaches _ member
  omega

/-- The format is read behind its terminator exactly where its end cuts a directive off. -/
theorem readsWithinFormat_iff :
    ReadsWithinFormat fmt args vars out ↔
      (printStart fmt args vars out).rendering.ending ≠ .cut := by
  constructor
  · exact uncut_of_readsWithinFormat fmt args vars out
  · intro uncut memory same reached run
    apply (printStart_follows args vars out same).reads_le uncut run
    rw [(proceeds_of_reaches run).inputs.text, same.length]
    rfl

end Print

/-- An argument that is zero at every type, with a text for `%s`. -/
def blankArgument (narrowString : Option (Terminated UInt8)) : Argument :=
  { word := 0
    wideString := none
    narrowString := narrowString
    guid := ⟨0, 0, 0, fun _ => 0⟩
    time := ⟨0, 0, 0, 0, 0, 0⟩
    devicePath := []
    float := none }

/-- `%s` with the byte `0xe9`, an accented letter that is not encoded in UTF-8. -/
theorem printTerminates_latin1 :
    ¬ PrintTerminates (.unicode ⟨['%', 's'].map wide, fun _ => 0⟩)
      (fun _ => blankArgument (some ⟨[0xe9], fun _ => 0⟩)) vswprintfVars
      (vswprintfOutput 100 fun _ => 0) := by
  intro terminates
  have complete := complete_of_ends _ _ _ _ fun memory same => (terminates memory same).1
  exact absurd complete (by decide +kernel)

/-- A lone percent sign. -/
theorem readsWithinFormat_percent :
    ¬ ReadsWithinFormat (.unicode ⟨['%'].map wide, fun _ => 0⟩) (fun _ => blankArgument none)
      vswprintfVars (vswprintfOutput 100 fun _ => 0) := by
  intro within
  exact uncut_of_readsWithinFormat _ _ _ _ within (by decide +kernel)

/-! ## The end of the buffer -/

/-- A `vswprintf` output: no console, no carriage returns, and every store in front of `pos`. -/
structure Output.Bare (out : Output) : Prop where
  output : out.output = false
  addCr : out.addCr = false
  filled : ∀ index ∈ out.stores, index < out.pos

theorem Output.Bare.flush {out : Output} (bare : out.Bare) : ptrFlush out = out := by
  rw [ptrFlush, bare.output]
  rfl

theorem Output.Bare.setattr {out : Output} (bare : out.Bare) (attr : UInt64) :
    (out.setattr attr).Bare ∧ (out.setattr attr).pos = out.pos ∧
      (out.setattr attr).buffer = out.buffer := by
  simp only [Output.setattr, bare.flush]
  split_ifs
  · exact ⟨⟨bare.output, bare.addCr, bare.filled⟩, rfl, rfl⟩
  · exact ⟨bare, rfl, rfl⟩

theorem Output.Bare.stored {out : Output} (bare : out.Bare) (c : UInt16) :
    ({ out.store out.pos c with pos := out.pos + 1, len := out.len + 1 } : Output).Bare := by
  refine ⟨bare.output, bare.addCr, ?_⟩
  simp only [Output.store, List.forall_mem_cons]
  exact ⟨Nat.lt_succ_self _, fun index member => Nat.lt_succ_of_lt (bare.filled index member)⟩

theorem Output.Bare.putc_eq {out : Output} (bare : out.Bare) (c : UInt16) :
    ptrPutc out c = { out.store out.pos c with pos := out.pos + 1, len := out.len + 1 } := by
  simp only [ptrPutc, bare.addCr, Bool.and_false, Bool.false_eq_true, if_false, Output.put,
    (bare.stored c).flush, ite_self]

theorem Output.Bare.putc {out : Output} (bare : out.Bare) (c : UInt16) :
    (ptrPutc out c).Bare ∧ (ptrPutc out c).pos = out.pos + 1 ∧
      (ptrPutc out c).buffer = Function.update out.buffer out.pos c := by
  rw [bare.putc_eq]
  exact ⟨bare.stored c, rfl, rfl⟩

/-- What `vswprintf` puts stands in its buffer, one character behind the other. -/
theorem Emits.bare {out out' : Output} {text : List UInt16} (emits : Emits out text out')
    (bare : out.Bare) :
    out'.Bare ∧ out'.pos = out.pos + text.length ∧ out'.pending = out.pending ++ text := by
  induction emits with
  | refl => exact ⟨bare, rfl, (List.append_nil _).symm⟩
  | @put out out' text c rest ih =>
    obtain ⟨bare', pos, buffer⟩ := bare.putc c
    obtain ⟨last, length, pending⟩ := ih bare'
    refine ⟨last, ?_, ?_⟩
    · rw [length, pos, List.length_cons]
      omega
    · have stored : (ptrPutc out c).pending = out.pending ++ [c] := by
        rw [Output.pending, pos, buffer, List.range_succ, List.map_append, List.map_singleton,
          Function.update_self]
        congr 1
        apply List.map_congr_left
        intro index before
        exact Function.update_of_ne (Nat.ne_of_lt (List.mem_range.mp before)) ..
      rw [pending, stored, List.append_assoc]
      rfl
  | setattr attr _ ih =>
    obtain ⟨bare', pos, buffer⟩ := bare.setattr attr
    obtain ⟨last, length, pending⟩ := ih bare'
    rw [pos] at length
    rw [Output.pending.eq_1 (Output.setattr _ attr), pos, buffer] at pending
    exact ⟨last, length, pending⟩
  | flush _ ih =>
    rw [bare.flush] at ih
    exact ih bare

section Vswprintf

variable (maxlen : ℕ) (units : List UInt16) (args : ℕ → Argument)

/-- The rendering of a format for `vswprintf`. -/
def stringRendering : Rendering :=
  render args (Text.unicode ⟨units, fun _ => 0⟩).scan .text vswprintfVars

/-- `vswprintf` stores only in front of the end of the buffer, whatever stands behind the format,
and leaves a string that ends there. -/
def StaysInBuffer : Prop :=
  ∀ (behind str : ℕ → UInt16),
    let start := vswprintfStart maxlen str ⟨units, behind⟩ args
    (∀ reached, Reaches printTurn start reached → ∀ index ∈ reached.out.stores, index < maxlen) ∧
      ∃ last, last ∈ eval printTurn start ∧
        (∀ index ∈ (vswprintfEnd last).stores, index < maxlen) ∧
          ∃ length, length ≤ maxlen - 1 ∧ (vswprintfEnd last).buffer length = 0

theorem vswprintfOutput_bare (str : ℕ → UInt16) :
    ({ vswprintfOutput maxlen str with len := 0 } : Output).Bare :=
  ⟨rfl, rfl, fun _ member => absurd member List.not_mem_nil⟩

/-- A complete rendering is what `vswprintf` puts. -/
theorem vswprintf_ends (complete : (stringRendering units args).ending = .complete)
    (behind str : ℕ → UInt16) :
    ∃ last, last ∈ eval printTurn (vswprintfStart maxlen str ⟨units, behind⟩ args) ∧
      last.out.Bare ∧ last.out.pos = (stringRendering units args).text.length ∧
        last.out.pending = (stringRendering units args).text := by
  have follows := printStart_follows args vswprintfVars (vswprintfOutput maxlen str)
    (.unicode units (fun _ => 0) behind)
  obtain ⟨last, ended, -, -, emits⟩ := follows.ends complete
  obtain ⟨bare, pos, pending⟩ := emits.bare (vswprintfOutput_bare maxlen str)
  exact ⟨last, ended, bare, pos.trans (Nat.zero_add _), pending⟩

/-- The NUL is stored behind the whole text, which is not cut at the end of the buffer. -/
theorem room_of_staysInBuffer (stays : StaysInBuffer maxlen units args) :
    (stringRendering units args).ending = .complete ∧
      (stringRendering units args).text.length < maxlen := by
  have complete : (stringRendering units args).ending = .complete := by
    apply complete_of_ends (.unicode ⟨units, fun _ => 0⟩) args vswprintfVars
      (vswprintfOutput maxlen fun _ => 0)
    rintro _ ⟨_, _, behind⟩
    obtain ⟨-, last, ended, -⟩ := stays behind fun _ => 0
    exact ⟨last, ended⟩
  refine ⟨complete, ?_⟩
  obtain ⟨last, ended, -, pos, -⟩ :=
    vswprintf_ends maxlen units args complete (fun _ => 0) fun _ => 0
  obtain ⟨-, last', ended', stores, -⟩ := stays (fun _ => 0) fun _ => 0
  obtain rfl := Part.mem_unique ended ended'
  rw [← pos]
  exact stores _ List.mem_cons_self

/-- `vswprintf` stays inside the buffer exactly where the rendering is complete and leaves room for
the NUL. -/
theorem staysInBuffer_iff :
    StaysInBuffer maxlen units args ↔
      (stringRendering units args).ending = .complete ∧
        (stringRendering units args).text.length < maxlen := by
  constructor
  · exact room_of_staysInBuffer maxlen units args
  · rintro ⟨complete, room⟩ behind str
    obtain ⟨last, ended, bare, pos, -⟩ := vswprintf_ends maxlen units args complete behind str
    have inside : ∀ index ∈ last.out.stores, index < maxlen := by
      intro index member
      have bound := bare.filled index member
      omega
    refine ⟨fun reached run index member => ?_, last, ended, ?_, last.out.pos, by omega, ?_⟩
    · obtain ⟨-, text, emits⟩ := proceeds_of_reaches (reaches_of_eval ended run)
      exact inside index (emits.stores_subset member)
    · simp only [vswprintfEnd, Output.store, List.forall_mem_cons]
      exact ⟨by omega, inside⟩
    · exact Function.update_self ..

end Vswprintf

/-- Two characters in a buffer for two: the NUL is stored behind it. -/
theorem staysInBuffer_full :
    ¬ StaysInBuffer 2 (['o', 'k'].map wide) fun _ => blankArgument none := by
  intro stays
  exact absurd (room_of_staysInBuffer _ _ _ stays).2 (by decide +kernel)

end ZLoader
