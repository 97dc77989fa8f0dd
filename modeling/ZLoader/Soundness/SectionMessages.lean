import ZLoader.Soundness.FormatPieces
import ZLoader.Soundness.HandleImage

/-! # The message about an illegal section address

The section loop stands still when this message does. The model of the loop has the walk over the
name in its place; here the walk is compared with the printer. The directive for the name has a
width but no field width, so the printer walks up to the terminator, and what precedes and follows
the name always comes to its end.
-/

namespace ZLoader

/-- The name of a section as the printer finds it: the bytes from `offset` on, with the first NUL at
`length`. -/
def sectionName (file : ByteStore) (offset length : ℕ) : Terminated UInt8 :=
  ⟨(List.range length).map fun index => file (offset + index),
    fun index => file (offset + length + 1 + index)⟩

theorem sectionName_get {file : ByteStore} {offset length : ℕ} (nul : file (offset + length) = 0)
    (index : ℕ) : (sectionName file offset length).get index = file (offset + index) := by
  have size : (sectionName file offset length).units.length = length := by simp [sectionName]
  rcases Nat.lt_trichotomy index length with before | rfl | behind
  · rw [Terminated.get_of_lt _ (by rwa [size])]
    simp [sectionName]
  · have last := Terminated.get_length (sectionName file offset index)
    rw [size] at last
    exact last.trans nul.symm
  · obtain ⟨more, rfl⟩ := Nat.exists_eq_add_of_lt behind
    have later := Terminated.get_behind (sectionName file offset length) more
    rw [size] at later
    rw [show length + more + 1 = length + 1 + more by omega, later]
    simp [sectionName, Nat.add_assoc]

section Walk

variable {s : Terminated UInt8} {index units : ℕ} {c : UInt16}

theorem mbtowc_of_stuck (stuck : ptrGetc ⟨.ascii s, index⟩ = (wide '?', ⟨.ascii s, index⟩)) :
    mbtowc (fun offset => s.get (index + offset)) 8 = none := by
  cases decoded : mbtowc (fun offset => s.get (index + offset)) 8 with
  | none => rfl
  | some result =>
    obtain ⟨c, ret⟩ := result
    have bounds := mbtowcLength_bounds (mbtowc_eq_some decoded).1
    simp only [ptrGetc, decoded, Prod.mk.injEq, Ptr.mk.injEq] at stuck
    omega

theorem mbtowc_of_read (positive : 0 < units)
    (read : ptrGetc ⟨.ascii s, index⟩ = (c, ⟨.ascii s, index + units⟩)) :
    mbtowc (fun offset => s.get (index + offset)) 8 = some (c, units) := by
  cases decoded : mbtowc (fun offset => s.get (index + offset)) 8 with
  | none =>
    simp only [ptrGetc, decoded, Prod.mk.injEq, Ptr.mk.injEq] at read
    omega
  | some result =>
    obtain ⟨first, ret⟩ := result
    simp only [ptrGetc, decoded, Prod.mk.injEq, Ptr.mk.injEq] at read
    obtain ⟨rfl, -, same⟩ := read
    rw [Nat.add_left_cancel same]

variable {fieldWidth turns : ℕ}

/-- A turn at the end of the field. -/
theorem walkString_full (full : ¬ index < fieldWidth) :
    walkString s.get fieldWidth turns index = ⟨[], true⟩ := by
  cases turns with
  | zero => rfl
  | succ turns => rw [walkString, if_neg full]

/-- A turn that reads a character. -/
theorem walkString_read (more : index < fieldWidth) (positive : 0 < units)
    (read : ptrGetc ⟨.ascii s, index⟩ = (c, ⟨.ascii s, index + units⟩)) :
    walkString s.get fieldWidth (turns + 1) index =
      let reads := Ptr.reads ⟨.ascii s, index⟩
      if c = 0 then ⟨reads, true⟩
      else
        let rest := walkString s.get fieldWidth turns (index + units)
        ⟨reads ++ rest.reads, rest.ends⟩ := by
  rw [walkString, if_pos more, mbtowc_of_read positive read]
  simp only [beq_iff_eq]
  rfl

/-- A turn at a malformed character. -/
theorem walkString_stuck (more : index < fieldWidth)
    (stuck : ptrGetc ⟨.ascii s, index⟩ = (wide '?', ⟨.ascii s, index⟩)) :
    walkString s.get fieldWidth (turns + 1) index = ⟨Ptr.reads ⟨.ascii s, index⟩, false⟩ := by
  rw [walkString, if_pos more, mbtowc_of_stuck stuck]
  rfl

/-- The walk ends exactly where the printer finds the length of the item. The induction is on the
characters of the text. -/
theorem walkString_ends {scan : Scan} (stands : (Text.ascii s).StandsAt scan index)
    (enough : s.units.length ≤ index + turns) :
    (walkString s.get fieldWidth (turns + 1) index).ends =
      (scan.measure fieldWidth index).isSome := by
  induction scan generalizing index turns with
  | nul =>
    by_cases more : index < fieldWidth
    · have nul := ptrGetc_length (Text.ascii s)
      rw [← show index = (Text.ascii s).length from stands] at nul
      rw [walkString_read more Nat.one_pos nul]
      rfl
    · rw [walkString_full more]
      rfl
  | malformed =>
    by_cases more : index < fieldWidth
    · rw [walkString_stuck more stands.2, Scan.measure, if_pos more]
      rfl
    · rw [walkString_full more, Scan.measure, if_neg more]
      rfl
  | char c units rest ih =>
    obtain ⟨positive, inside, read, behind⟩ := stands
    by_cases more : index < fieldWidth
    · rw [walkString_read more positive read, Scan.measure, if_pos more]
      by_cases zero : c = 0
      · simp only [if_pos zero, Option.isSome_some]
      · -- a character takes one of the turns and at least one of the units
        obtain ⟨turns, rfl⟩ : ∃ fewer, turns = fewer + 1 :=
          ⟨turns - 1, by simp only [Text.length] at inside; omega⟩
        simp only [if_neg zero, Option.isSome_map]
        exact ih behind (by omega)
    · rw [walkString_full more, Scan.measure, if_neg more]
      rfl

/-- The walk over a text whose terminator can be reached. -/
theorem printString_ends (short : s.units.length < noFieldWidth) :
    (printString s.get).ends = ((Text.ascii s).scan.measure noFieldWidth 0).isSome := by
  obtain ⟨turns, enough⟩ : ∃ fewer, noFieldWidth = fewer + 1 := ⟨noFieldWidth - 1, rfl⟩
  rw [printString]
  conv_lhs => arg 1; arg 3; rw [enough]
  exact walkString_ends (Text.scan_stands _) (by omega)

end Walk

section Message

variable {args : ℕ → Argument} {vars : PrintVars}

theorem Rendering.after_ending (rendering : Rendering) (text : List UInt16)
    (attributes : List Bool) : (rendering.after text attributes).ending = rendering.ending := rfl

/-- `%E`: the attribute for errors is never zero. -/
theorem render_errorAttribute (quiet : vars.restoreAttr = 0) (set : vars.attrError ≠ 0)
    (behind : List (UInt16 × ℕ)) :
    (render args (.ofChars ((wide '%', 1) :: (wide 'E', 1) :: behind)) .text vars).ending =
      (render args (.ofChars behind) .text
        { vars.setattr vars.attrError with restoreAttr := 0 }).ending := by
  have switch : directiveSwitch args vars newItem (wide 'E') =
      some ⟨vars, newItem, vars.attrError, none⟩ := rfl
  have nonzero : wide 'E' ≠ 0 := by decide
  have unstarted : startsNumber (wide 'E') = false := by decide
  have sets : (vars.attrError != 0) = true := by simpa using set
  rw [render_percent quiet, Scan.ofChars_cons, render]
  simp only [renderDirective, if_neg nonzero, unstarted, switch, sets]
  rfl

/-- The item that `%*s` makes. -/
def nameItem (name : Terminated UInt8) : Item :=
  { newItem with
    width := peSectionSizeOfShortName
    text := some (.ascii name) }

variable {name : Terminated UInt8}

/-- `%*s` for the name. -/
theorem render_name (quiet : vars.restoreAttr = 0) (first : vars.nextArg = 0)
    (behind : List (UInt16 × ℕ)) :
    (render (illegalVmaArguments name) (.ofChars ((wide '%', 1) :: (wide '*', 1) ::
        (wide 's', 1) :: behind)) .text vars).ending =
      if (itemText (nameItem name) (.ascii name)).isSome then
        (render (illegalVmaArguments name) (.ofChars behind) .text vars.shift.shift).ending
      else .malformedArgument := by
  have star : directiveSwitch (illegalVmaArguments name) vars newItem (wide '*') =
      some ⟨vars.shift, { newItem with width := peSectionSizeOfShortName }, 0, none⟩ := by
    rw [directiveSwitch, first]
    rfl
  have switch : directiveSwitch (illegalVmaArguments name) vars.shift
      { newItem with width := peSectionSizeOfShortName } (wide 's') =
        some ⟨vars.shift.shift, nameItem name, 0, none⟩ := by
    have second : vars.shift.nextArg = 1 := congrArg (· + 1) first
    rw [directiveSwitch, second]
    rfl
  rw [render_percent quiet, Scan.ofChars_cons, render,
    renderDirective_silent (by decide) (by decide) (by decide) star rfl, Scan.ofChars_cons, render]
  cases text : itemText (nameItem name) (.ascii name) with
  | none =>
    have nonzero : wide 's' ≠ 0 := by decide
    have unstarted : startsNumber (wide 's') = false := by decide
    have shown : (nameItem name).text = some (.ascii name) := rfl
    simp only [renderDirective, if_neg nonzero, unstarted, switch, shown, text]
    rfl
  | some printed =>
    have quietly : vars.shift.restoreAttr = 0 := quiet
    rw [renderDirective_item (by decide) (by decide) (by decide) switch rfl text,
      shift_leave quietly]
    rfl

/-- `%N` and the end of the line. Where the attribute is zero the directive goes on, and its next
character is none that it knows. -/
theorem render_lineEnd (quiet : vars.restoreAttr = 0) :
    (render args (.ofChars (unitChars ['%', 'N', '\n'])) .text vars).ending = .complete := by
  have switch : directiveSwitch args vars newItem (wide 'N') =
      some ⟨vars, newItem, vars.attrNorm, none⟩ := rfl
  have nonzero : wide 'N' ≠ 0 := by decide
  have unstarted : startsNumber (wide 'N') = false := by decide
  have chars : unitChars ['%', 'N', '\n'] =
      (wide '%', 1) :: (wide 'N', 1) :: (wide '\n', 1) :: [] := rfl
  rw [chars, render_percent quiet, Scan.ofChars_cons, render]
  cases sets : vars.attrNorm != 0 with
  | true =>
    simp only [renderDirective, if_neg nonzero, unstarted, switch, sets]
    rfl
  | false =>
    have unknown : directiveSwitch args vars newItem (wide '\n') =
        some ⟨vars, newItem.scratch [wide '?'], 0, none⟩ := rfl
    have mark := @itemText_narrow (newItem.scratch [wide '?']) [wide '?'] rfl rfl rfl (by decide)
      (by decide)
    simp only [renderDirective, if_neg nonzero, unstarted, switch, sets]
    change (render args (.ofChars [(wide '\n', 1)]) (.directive newItem) vars).ending = .complete
    rw [Scan.ofChars_cons, render,
      renderDirective_item (by decide) (by decide) (by decide) unknown rfl mark]
    rfl

theorem iprintVars_attrError (modeAttribute : Int32) : (iprintVars modeAttribute).attrError ≠ 0 := by
  intro zero
  have red := congrArg UInt64.toNat zero
  rw [iprintVars, UInt64.toNat_or] at red
  have least := Nat.left_le_or (n := (0x0c : UInt64).toNat)
    (m := ((if modeAttribute != 0 then modeAttribute.toInt64.toUInt64 else 0x07 ||| 0x00) &&&
      0xf0).toNat)
  rw [red] at least
  exact absurd least (by decide)

/-- The message comes to its end exactly where the walk over the name does. -/
theorem printTerminates_illegalVma_iff (short : name.units.length < noFieldWidth)
    (modeAttribute : Int32) (buffer : ℕ → UInt16) :
    PrintTerminates illegalVmaFormat (illegalVmaArguments name) (iprintVars modeAttribute)
        (iprintOutput buffer) ↔
      (printString name.get).ends = true := by
  have letters : unitChars ("ERR: %E".toList ++ "Section %*s has illegal VMA".toList ++
      "%N\n".toList) = unitChars "ERR: ".toList ++ ((wide '%', 1) :: (wide 'E', 1) ::
        (unitChars "Section ".toList ++ ((wide '%', 1) :: (wide '*', 1) :: (wide 's', 1) ::
          (unitChars " has illegal VMA".toList ++ unitChars ['%', 'N', '\n'])))) := by
    decide +kernel
  have scanned : illegalVmaFormat.scan = .ofChars (unitChars ("ERR: %E".toList ++
      "Section %*s has illegal VMA".toList ++ "%N\n".toList)) := scan_letters _
  rw [printTerminates_iff, printString_ends short, PrintState.rendering]
  change (render (illegalVmaArguments name) illegalVmaFormat.scan .text
    (iprintVars modeAttribute)).ending = .complete ↔ _
  rw [scanned, letters, render_letters (mem_of_isPlain rfl), Rendering.after_ending,
    render_errorAttribute rfl (iprintVars_attrError modeAttribute),
    render_letters (mem_of_isPlain rfl), Rendering.after_ending, render_name rfl rfl,
    render_letters (mem_of_isPlain rfl), Rendering.after_ending, render_lineEnd rfl, itemText,
    Option.isSome_map]
  change (if ((Text.ascii name).scan.measure noFieldWidth 0).isSome then _ else _) = _ ↔ _
  split_ifs with measured <;> simp [measured]

end Message

/-- Behind the message about a section the loop goes on exactly where the printer returns. -/
theorem printIllegalVma_ends_iff {file : ByteStore} {offset length : ℕ}
    (nul : file (offset + length) = 0) (short : length < noFieldWidth) (modeAttribute : Int32)
    (buffer : ℕ → UInt16) :
    PrintTerminates illegalVmaFormat (illegalVmaArguments (sectionName file offset length))
        (iprintVars modeAttribute) (iprintOutput buffer) ↔
      (printIllegalVma file offset).ends = true := by
  have size : (sectionName file offset length).units.length < noFieldWidth := by
    simpa [sectionName] using short
  have same : (sectionName file offset length).get = fun index => file (offset + index) :=
    funext (sectionName_get nul)
  rw [printTerminates_illegalVma_iff size, same, printIllegalVma]

/-- An image whose only section lies behind it. Its name takes all the eight bytes, and the size
behind them starts with a byte that begins no character. -/
def unendingImage : ByteStore :=
  smallImage 1 0x2000 0x200 16
    ((0x148, 8, 0x7878787878787878) :: sectionFields 0 0x90 0x9000 0 0 0x60000020)

set_option maxRecDepth 4000 in
example : (peHandleImage defaultBuild smallServices (smallBuffer 0x200)
    ⟨unendingImage, fun _ => 0⟩).outcome = .printing := by decide +kernel

end ZLoader
