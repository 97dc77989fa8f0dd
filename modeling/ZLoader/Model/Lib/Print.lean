import ZLoader.Model.Lib.String
import ZLoader.Model.Lib.PrintText

/-! # The printer

`_print` of `efilib/efiprint.c` with its callers `_iprint` and `vswprintf`. Its nested loops are a
state machine: `Control` says which loop runs, and a step is one turn of that loop with what comes
before the next turn. The format, the arguments and the buffer are memory; a text in memory has its
units, a terminator, and whatever stands behind it.
-/

namespace ZLoader

/-! ## Texts in memory -/

/-- The units of a text; the memory goes on behind the terminator. -/
structure Terminated (α : Type) where
  units : List α
  behind : ℕ → α

/-- The unit at an index. -/
def Terminated.get {α : Type} [OfNat α 0] (s : Terminated α) (index : ℕ) : α :=
  if h : index < s.units.length then s.units[index]
  else if index = s.units.length then 0
  else s.behind (index - s.units.length - 1)

/-- What `struct ptr` points to: `pu` or, if `is_ascii`, `pb`. -/
inductive Text where
  | unicode (s : Terminated UInt16)
  | ascii (s : Terminated UInt8)

/-- The number of units in front of the terminator. -/
def Text.length : Text → ℕ
  | .unicode s => s.units.length
  | .ascii s => s.units.length

/-- `struct ptr`. -/
structure Ptr where
  text : Text
  index : ℕ

/-- `ptr_getc`: a negative result of `mbtowc` leaves the index and the question mark. -/
def ptrGetc (p : Ptr) : UInt16 × Ptr :=
  match p.text with
  | .ascii s =>
      match mbtowc (fun index => s.get (p.index + index)) 8 with
      | some (c, ret) => (c, { p with index := p.index + ret })
      | none => (wide '?', p)
  | .unicode s => (s.get p.index, { p with index := p.index + 1 })

/-! ## Items of narrow characters -/

/-- The first `while` loop of `ptr_item` over narrow characters in memory: the bytes that it
examines, and whether it ends. The second one goes over the same characters. -/
structure StringWalk where
  reads : List ℕ
  ends : Bool
deriving DecidableEq, Repr

/-- The loop from an index on. At a byte where `mbtowc` fails the index stays, so the next turn is
the same one. -/
def walkString (s : ℕ → UInt8) (fieldWidth : ℕ) : ℕ → ℕ → StringWalk
  | 0, _ => ⟨[], true⟩
  | turns + 1, index =>
      if index < fieldWidth then
        let reads := (mbtowcReads (fun offset => s (index + offset)) 8).map (index + ·)
        match mbtowc (fun offset => s (index + offset)) 8 with
        | none => ⟨reads, false⟩
        | some (c, ret) =>
            if c == 0 then ⟨reads, true⟩
            else
              let rest := walkString s fieldWidth turns (index + ret)
              ⟨reads ++ rest.reads, rest.ends⟩
      else ⟨[], true⟩

/-- `(efi_size_t) -1`. -/
def noFieldWidth : ℕ := 2 ^ 64 - 1

/-- `%s` without a field width. A turn advances or is the last one, so there are enough. -/
def printString (s : ℕ → UInt8) : StringWalk := walkString s noFieldWidth noFieldWidth 0

/-! ## Output -/

/-- A call to the console: `output` or `set_attr`. -/
inductive ConsoleCall where
  | outputString (text : List UInt16)
  | setAttribute (attr : UInt64)
deriving DecidableEq, Repr

/-- The output half of `struct print_state`. `pos` and `endPos` count from `buffer`; the stores
into the buffer and the calls are kept in the order in which they happen, the stores backwards. -/
structure Output where
  buffer : ℕ → UInt16
  pos : ℕ
  endPos : ℕ
  len : ℕ
  addCr : Bool
  output : Bool
  setAttr : Bool
  stores : List ℕ
  calls : List ConsoleCall

/-- A store into the buffer. -/
def Output.store (out : Output) (index : ℕ) (c : UInt16) : Output :=
  { out with
    buffer := Function.update out.buffer index c
    stores := index :: out.stores }

/-- The units of the buffer in front of `pos`. -/
def Output.pending (out : Output) : List UInt16 := (List.range out.pos).map out.buffer

/-- `ptr_flush`: the string ends at the first NUL, at the latest where it has just been put. -/
def ptrFlush (out : Output) : Output :=
  if out.output then
    { out.store out.pos 0 with
      calls := out.calls ++ [.outputString (out.pending.takeWhile (· != 0))]
      pos := 0 }
  else out

/-- `ptr_putc` behind the carriage return. -/
def Output.put (out : Output) (c : UInt16) : Output :=
  let stored := { out.store out.pos c with pos := out.pos + 1, len := out.len + 1 }
  if stored.pos ≥ stored.endPos then ptrFlush stored else stored

/-- `ptr_putc`. -/
def ptrPutc (out : Output) (c : UInt16) : Output :=
  (if c == wide '\n' && out.addCr then out.put (wide '\r') else out).put c

/-- A `for` loop that puts one character a number of times. -/
def putTimes (c : UInt16) : ℕ → Output → Output
  | 0, out => out
  | times + 1, out => putTimes c times (ptrPutc out c)

/-- The calls of `ptr_setattr`. -/
def Output.setattr (out : Output) (attr : UInt64) : Output :=
  let flushed := ptrFlush out
  if flushed.setAttr then { flushed with calls := flushed.calls ++ [.setAttribute attr] }
  else flushed

/-! ## Arguments and items -/

/-- An argument of the caller, as `va_arg` reads it at each of the types asked for. A `double` is
given by the text that `float_to_string` makes of it; there is none when its loops do not end. -/
structure Argument where
  word : UInt64
  wideString : Option (Terminated UInt16)
  narrowString : Option (Terminated UInt8)
  guid : Guid
  time : EfiTime
  devicePath : List UInt16
  float : Option (List UInt16)

/-- An argument for a number. The arguments narrower than a word are zero-extended. -/
def Argument.ofWord (word : UInt64) : Argument :=
  { word := word
    wideString := none
    narrowString := none
    guid := ⟨0, 0, 0, fun _ => 0⟩
    time := ⟨0, 0, 0, 0, 0, 0⟩
    devicePath := []
    float := none }

/-- The arguments of a call, behind which there are none. -/
def argumentList (arguments : List Argument) : ℕ → Argument :=
  fun index => arguments.getD index (.ofWord 0)

/-- What `width_parse` points to. -/
inductive WidthParse where
  | width
  | fieldWidth
deriving DecidableEq, Repr

/-- `struct _pitem`; the text is `fmt` once it points somewhere. -/
structure Item where
  text : Option Text
  width : ℕ
  fieldWidth : ℕ
  widthParse : WidthParse
  padChar : UInt16
  padBefore : Bool
  isLong : Bool
  isShort : Bool

/-- The set-up for a new item. -/
def newItem : Item :=
  { text := none
    width := 0
    fieldWidth := noFieldWidth
    widthParse := .width
    padChar := wide ' '
    padBefore := true
    isLong := false
    isShort := false }

/-- `*item.width_parse`. -/
def Item.parsed (item : Item) : ℕ :=
  match item.widthParse with
  | .width => item.width
  | .fieldWidth => item.fieldWidth

def Item.setParsed (item : Item) (value : ℕ) : Item :=
  match item.widthParse with
  | .width => { item with width := value }
  | .fieldWidth => { item with fieldWidth := value }

/-- `*item.width_parse = *item.width_parse * 10 + c - '0'`. -/
def Item.digit (item : Item) (c : UInt16) : Item :=
  item.setParsed ((item.parsed * 10 + (c.toNat - (wide '0').toNat)) % 2 ^ 64)

/-- `item.fmt.pu = item.scratch` with a text in it. -/
def Item.scratch (item : Item) (text : List UInt16) : Item :=
  { item with text := some (.unicode ⟨text, fun _ => 0⟩) }

/-- The length of an item's text settles its widths. -/
def Item.fit (item : Item) (len : ℕ) : Item :=
  { item with
    fieldWidth := if item.fieldWidth = noFieldWidth then len else item.fieldWidth
    width := max item.width len }

/-- The part of `struct print_state` that directives read and change. -/
structure PrintVars where
  nextArg : ℕ
  attr : UInt64
  restoreAttr : UInt64
  attrNorm : UInt64
  attrHighlight : UInt64
  attrError : UInt64

/-- The assignments of `ptr_setattr`. -/
def PrintVars.setattr (vars : PrintVars) (attr : UInt64) : PrintVars :=
  { vars with restoreAttr := vars.attr, attr := attr }

/-- The state after `va_arg`. -/
def PrintVars.shift (vars : PrintVars) : PrintVars := { vars with nextArg := vars.nextArg + 1 }

/-! ## Directives -/

/-- What a turn of the `switch` leaves: the variables, the item, `attr`, and the attribute of its
call of `ptr_setattr`. -/
structure Switched where
  vars : PrintVars
  item : Item
  attr : UInt64
  setattr : Option UInt64

/-- The number that the conversions to decimal read, for the modifiers of the item. -/
def Item.decimal (item : Item) (word : UInt64) : UInt64 :=
  if item.isShort then word.toUInt16.toUInt64
  else if item.isLong then word
  else word.toUInt32.toUInt64

/-- `case 'p'`, `case 'X'`: the width before the hex conversion. -/
def Item.fixedHex (item : Item) (c : UInt16) : Item :=
  { item with
    width :=
      if c == wide 'p' then 16 else if item.isShort then 4 else if item.isLong then 16 else 8
    padChar := wide '0' }

/-- `"(null)"`. -/
def nullText : List Char := ['(', 'n', 'u', 'l', 'l', ')']

/-- `case 's'`. -/
def Item.string (item : Item) (argument : Argument) : Item :=
  if item.isLong then
    { item with
      text := some (.unicode (argument.wideString.getD ⟨nullText.map wide, fun _ => 0⟩)) }
  else
    { item with
      text := some (.ascii (argument.narrowString.getD ⟨nullText.map Char.toUInt8, fun _ => 0⟩)) }

/-- The `switch` over a character that is neither NUL nor a digit from one on; `attr` is zero when
a turn begins. There is no result when `float_to_string` does not return. -/
def directiveSwitch (args : ℕ → Argument) (vars : PrintVars) (item : Item) (c : UInt16) :
    Option Switched :=
  let argument := args vars.nextArg
  if c == wide '%' then some ⟨vars, item.scratch [wide '%'], 0, none⟩
  else if c == wide '0' then some ⟨vars, { item with padChar := wide '0' }, 0, none⟩
  else if c == wide '-' then some ⟨vars, { item with padBefore := false }, 0, none⟩
  else if c == wide '.' then some ⟨vars, { item with widthParse := .fieldWidth }, 0, none⟩
  else if c == wide '*' then some ⟨vars.shift, item.setParsed argument.word.toNat, 0, none⟩
  else if c == wide 's' then some ⟨vars.shift, item.string argument, 0, none⟩
  else if c == wide 'c' then some ⟨vars.shift, item.scratch [argument.word.toUInt16], 0, none⟩
  else if c == wide 'h' then some ⟨vars, { item with isShort := true }, 0, none⟩
  else if c == wide 'l' then some ⟨vars, { item with isLong := true }, 0, none⟩
  else if c == wide 'z' then some ⟨vars, { item with isLong := true }, 0, none⟩
  else if c == wide 'p' || c == wide 'X' then
    some ⟨vars.shift, (item.fixedHex c).scratch
      ((valueToHexString (item.decimal argument.word)).map wide), 0, none⟩
  else if c == wide 'x' then
    some ⟨vars.shift, item.scratch
      ((valueToHexString (item.decimal argument.word)).map wide), 0, none⟩
  else if c == wide 'D' then
    some ⟨vars.shift, item.scratch (devicePathToString argument.devicePath), 0, none⟩
  else if c == wide 'g' then
    some ⟨vars.shift, item.scratch ((guidToString argument.guid).map wide), 0, none⟩
  else if c == wide 'u' || c == wide 'i' || c == wide 'd' then
    some ⟨vars.shift, item.scratch
      ((valueToString (item.decimal argument.word).toInt64).map wide), 0, none⟩
  else if c == wide 'f' then
    argument.float.map fun text => ⟨vars.shift, item.scratch text, 0, none⟩
  else if c == wide 't' then
    some ⟨vars.shift, item.scratch ((timeToString argument.time).map wide), 0, none⟩
  else if c == wide 'r' then
    some ⟨vars.shift, item.scratch ((statusToString argument.word).map wide), 0, none⟩
  else if c == wide 'n' then some ⟨vars.setattr vars.attrNorm, item, 0, some vars.attrNorm⟩
  else if c == wide 'b' then
    some ⟨vars.setattr vars.attrHighlight, item, 0, some vars.attrHighlight⟩
  else if c == wide 'e' then some ⟨vars.setattr vars.attrError, item, 0, some vars.attrError⟩
  else if c == wide 'T' then
    some ⟨vars.shift, item, (argument.word.toUInt32.toUInt64 &&& 0xf) ||| (vars.attr &&& 0xf0),
      none⟩
  else if c == wide 'A' then some ⟨vars.shift, item, argument.word.toUInt32.toUInt64, none⟩
  else if c == wide 'N' then some ⟨vars, item, vars.attrNorm, none⟩
  else if c == wide 'B' then some ⟨vars, item, vars.attrHighlight, none⟩
  else if c == wide 'E' then some ⟨vars, item, vars.attrError, none⟩
  else some ⟨vars, item.scratch [wide '?'], 0, none⟩

/-- The cases `'1'` to `'9'` of the `switch`. -/
def startsNumber (c : UInt16) : Bool := wide '1' ≤ c && c ≤ wide '9'

/-- The condition of the digit loop. -/
def isDigit (c : UInt16) : Bool := wide '0' ≤ c && c ≤ wide '9'

/-! ## The machine -/

/-- The loop that runs, with its variables: the outer loop, the loop over a directive (which goes
on only while `attr` is zero and the item has no text), the digit loop holding its last character,
the loops of `float_to_string`, and the first and the last `while` loop of `ptr_item`. -/
inductive Control where
  | text
  | directive (item : Item)
  | digits (item : Item) (c : UInt16)
  | floating
  | measuring (item : Item) (fmt : Ptr)
  | adding (item : Item) (fmt : Ptr) (len : ℕ)
  | returned

/-- `struct print_state` with the arguments of the call. -/
structure PrintState where
  fmt : Ptr
  args : ℕ → Argument
  vars : PrintVars
  out : Output
  control : Control

/-- `ptr_setattr`. -/
def ptrSetattr (ps : PrintState) (attr : UInt64) : PrintState :=
  { ps with vars := ps.vars.setattr attr, out := ps.out.setattr attr }

/-- What follows the loop over a directive. -/
def leaveDirective (ps : PrintState) : PrintState :=
  { if ps.vars.restoreAttr != 0 then ptrSetattr ps ps.vars.restoreAttr else ps with
    control := .text }

/-- A turn of the outer loop. -/
def textTurn (ps : PrintState) : PrintState :=
  let (c, fmt) := ptrGetc ps.fmt
  if c == 0 then { ps with fmt := fmt, out := ptrFlush ps.out, control := .returned }
  else if c != wide '%' then { ps with fmt := fmt, out := ptrPutc ps.out c }
  else
    { ps with
      fmt := fmt
      vars := { ps.vars with restoreAttr := 0 }
      control := .directive newItem }

/-- A turn of the loop over a directive. -/
def directiveTurn (ps : PrintState) (item : Item) : PrintState :=
  let (c, fmt) := ptrGetc ps.fmt
  let ps := { ps with fmt := fmt }
  if c == 0 then leaveDirective ps
  else if startsNumber c then { ps with control := .digits (item.setParsed 0) c }
  else
    match directiveSwitch ps.args ps.vars item c with
    | none => { ps with control := .floating }
    | some switched =>
        let ps :=
          { ps with
            vars := switched.vars
            out := switched.setattr.elim ps.out ps.out.setattr }
        match switched.item.text with
        | some text => { ps with control := .measuring switched.item ⟨text, 0⟩ }
        | none =>
            if switched.attr != 0 then
              let ps := ptrSetattr ps switched.attr
              leaveDirective { ps with vars := { ps.vars with restoreAttr := 0 } }
            else { ps with control := .directive switched.item }

/-- A turn of the digit loop; the last one steps back. -/
def digitsTurn (ps : PrintState) (item : Item) (c : UInt16) : PrintState :=
  let item := item.digit c
  let (c, fmt) := ptrGetc ps.fmt
  if isDigit c then { ps with fmt := fmt, control := .digits item c }
  else { ps with fmt := { fmt with index := fmt.index - 1 }, control := .directive item }

/-- `ptr_item` between its two `while` loops, where `len` is known. -/
def startItem (ps : PrintState) (item : Item) (fmt : Ptr) : PrintState :=
  let len := fmt.index
  let item := item.fit len
  let out :=
    if item.padBefore then putTimes (wide ' ') (item.fieldWidth - item.width) ps.out else ps.out
  { ps with
    out := putTimes item.padChar (item.width - len) out
    control := .adding item { fmt with index := 0 } len }

/-- A turn of the first `while` loop of `ptr_item`. -/
def measuringTurn (ps : PrintState) (item : Item) (p : Ptr) : PrintState :=
  if p.index < item.fieldWidth then
    let (c, fmt) := ptrGetc p
    if c == 0 then startItem ps item { fmt with index := fmt.index - 1 }
    else { ps with control := .measuring item fmt }
  else startItem ps item p

/-- A turn of the last `while` loop of `ptr_item`, and what follows it. -/
def addingTurn (ps : PrintState) (item : Item) (p : Ptr) (len : ℕ) : PrintState :=
  if p.index < len then
    let (c, fmt) := ptrGetc p
    { ps with out := ptrPutc ps.out c, control := .adding item fmt len }
  else
    leaveDirective
      { ps with
        out :=
          if item.padBefore then ps.out
          else putTimes (wide ' ') (item.fieldWidth - item.width) ps.out }

/-- `_print`, one turn after another; there is none once it has returned. -/
def printTurn (ps : PrintState) : Option PrintState :=
  match ps.control with
  | .text => some (textTurn ps)
  | .directive item => some (directiveTurn ps item)
  | .digits item c => some (digitsTurn ps item c)
  | .floating => some ps
  | .measuring item fmt => some (measuringTurn ps item fmt)
  | .adding item fmt len => some (addingTurn ps item fmt len)
  | .returned => none

/-! ## The callers -/

/-- `_PRINT_STRING_LEN`. -/
def printStringLen : ℕ := 200

/-- The start of `_print`. -/
def printStart (fmt : Text) (args : ℕ → Argument) (vars : PrintVars) (out : Output) : PrintState :=
  { fmt := ⟨fmt, 0⟩
    args := args
    vars := vars
    out := { out with len := 0 }
    control := .text }

/-- The variables for a console with the attribute in its mode. -/
def iprintVars (modeAttribute : Int32) : PrintVars :=
  let attr : UInt64 := if modeAttribute != 0 then modeAttribute.toInt64.toUInt64 else 0x07 ||| 0x00
  { nextArg := 0
    attr := attr
    restoreAttr := 0
    attrNorm := attr &&& 0xff
    attrHighlight := 0x0e ||| (attr &&& 0xf0)
    attrError := 0x0c ||| (attr &&& 0xf0) }

/-- The output of `_iprint`, through its buffer to the console. -/
def iprintOutput (buffer : ℕ → UInt16) : Output :=
  { buffer := buffer
    pos := 0
    endPos := printStringLen - 1
    len := 0
    addCr := true
    output := true
    setAttr := true
    stores := []
    calls := [] }

/-- `_print` as `_iprint` calls it. -/
def iprintStart (modeAttribute : Int32) (buffer : ℕ → UInt16) (fmt : Text)
    (args : ℕ → Argument) : PrintState :=
  printStart fmt args (iprintVars modeAttribute) (iprintOutput buffer)

/-- The variables of `vswprintf`: there are no attributes. -/
def vswprintfVars : PrintVars :=
  { nextArg := 0
    attr := 0
    restoreAttr := 0
    attrNorm := 0
    attrHighlight := 0
    attrError := 0 }

/-- The output of `vswprintf`: the units from `str` on, and no console. -/
def vswprintfOutput (maxlen : ℕ) (str : ℕ → UInt16) : Output :=
  { buffer := str
    pos := 0
    endPos := maxlen - 1
    len := 0
    addCr := false
    output := false
    setAttr := false
    stores := []
    calls := [] }

/-- `_print` as `vswprintf` calls it. -/
def vswprintfStart (maxlen : ℕ) (str : ℕ → UInt16) (fmt : Terminated UInt16)
    (args : ℕ → Argument) : PrintState :=
  printStart (.unicode fmt) args vswprintfVars (vswprintfOutput maxlen str)

/-- `*ps.pos = '\0'`, the last store of `vswprintf`. -/
def vswprintfEnd (ps : PrintState) : Output := ps.out.store ps.out.pos 0

end ZLoader
