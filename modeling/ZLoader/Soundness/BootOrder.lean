import Mathlib.Data.List.Basic
import ZLoader.Soundness.BootEntryReads

/-! # The order of the boot attempts

The boot process that the FIT stub copies starts the entry in `BootNext`, those in `BootOrder` and
then two files; an entry counts when its variable holds an active option with a device path, and
`BootCurrent` names it while its image runs. The stub looks for the variable under a name in lower
case and goes by other things: whether any attribute is set, whether the path list has room for a
node, and what stands behind the description, wherever that ends. It does the same exactly when
these say of every entry that is named what the option in its variable says.
-/

namespace ZLoader

/-! ## What the boot process is -/

/-- The digits of a boot option's name. -/
def upperHexDigits : List Char :=
  ['0', '1', '2', '3', '4', '5', '6', '7', '8', '9', 'A', 'B', 'C', 'D', 'E', 'F']

/-- The variable of a boot option: `Boot` and the number in four upper-case digits. -/
def bootOptionName (number : UInt16) : VariableName :=
  .entry ([12, 8, 4, 0].map fun shift => upperHexDigits.getD (number.toNat / 2 ^ shift % 16) '0')

/-- The variable holds an active option, with a device path that lies in the variable and is not
empty. -/
def startableOption (data : List UInt8) : Bool :=
  let bytes := ByteStore.ofList data fun _ => 0
  EfiLoadOption.attributes bytes &&& loadOptionActive != 0 &&
    match wcslen (EfiLoadOption.description bytes) ((data.length - sizeofEfiLoadOption) / 2) with
    | none => false
    | some length =>
        let path := 2 * (length + 1) + sizeofEfiLoadOption
        sizeofDevicePathNode ≤ (EfiLoadOption.filePathListLength bytes).toNat &&
          path + sizeofDevicePathNode ≤ data.length && !isDevicePathEndNode (.read bytes path)

/-- The entry is to be started. -/
def startable (vars : Variables) (number : UInt16) : Bool :=
  (vars (bootOptionName number)).any startableOption

/-- The numbers in an array of them. -/
def numbersIn : List UInt8 → List UInt16
  | low :: high :: rest => ByteStore.u16 (.ofList [low, high] fun _ => 0) 0 :: numbersIn rest
  | _ => []

/-- The number in `BootNext`, when there is just one. -/
def namedByBootNext (vars : Variables) : List UInt16 :=
  match vars .bootNext with
  | some [low, high] => numbersIn [low, high]
  | _ => []

/-- The entries that are named, in the order in which they are tried. -/
def namedEntries (vars : Variables) : List UInt16 :=
  namedByBootNext vars ++ numbersIn ((vars .bootOrder).getD [])

/-- The images that were tried. -/
def attempts (trace : List FitEvent) : List FitImage :=
  trace.filterMap fun event => match event with
    | .runImage image _ => some image
    | _ => none

/-- What `BootCurrent` is while an image runs. -/
def FitImage.bootCurrent : FitImage → Option (List UInt8)
  | .entry number => some (leBytes 2 number.toNat)
  | .file _ => none

/-- `BootCurrent` names the entry whose image is started, and no entry once one has returned. -/
def FitEvent.Bracketed : FitEvent → Prop
  | .runImage _ _ => True
  | .startImage image _ bootCurrent => bootCurrent = image.bootCurrent
  | .entryReturned _ bootCurrent => bootCurrent = none

/-- Exactly the startable entries are tried, in order, and then the two files; `BootCurrent` holds
the number of an entry exactly while its image runs. -/
structure BootsInOrder (vars : Variables) (trace : List FitEvent) : Prop where
  order : attempts trace =
    ((namedEntries vars).filter (startable vars)).map .entry ++ [.file .boot, .file .shell]
  bracket : ∀ event ∈ trace, event.Bracketed

/-- The firmware does what the boot needs: it has the protocols, memory for what is read, and
variables of at least one byte that fit into memory. -/
structure FirmwareReady (env : FitEnvironment) (vars : Variables) : Prop where
  utilities : efiError env.devicePathUtilities = false
  root : efiError env.rootDevicePath = false
  files : ∀ filename, env.filePool filename = true
  pool : ∀ name, env.pool name ≠ 0
  sized : ∀ name data, vars name = some data → data ≠ [] ∧ data.length < 2 ^ 64

/-- The firmware with other results of the images. -/
def FitEnvironment.withResults (env : FitEnvironment) (results : ℕ → ImageResult) :
    FitEnvironment := { env with results := results }

/-- What the stub starts: some attribute is set, the path list has room for a node, and the node
behind the description does not end the path. -/
structure PassesTests (turns : ℕ) (bytes : ByteStore) : Prop where
  attributes : EfiLoadOption.attributes bytes ≠ 0
  listed : sizeofDevicePathNode ≤ (EfiLoadOption.filePathListLength bytes).toNat
  path : ∃ length < turns, EndsAt (EfiLoadOption.description bytes) length ∧
    isDevicePathEndNode (.read bytes (pathStart length % 2 ^ 64)) = false

/-- What the stub skips: no attribute is set, the path list has no room for a node, or the node
behind the description ends the path. -/
def FailsTests (turns : ℕ) (bytes : ByteStore) : Prop :=
  EfiLoadOption.attributes bytes = 0 ∨
  (EfiLoadOption.filePathListLength bytes).toNat < sizeofDevicePathNode ∨
  ∃ length < turns, EndsAt (EfiLoadOption.description bytes) length ∧
    isDevicePathEndNode (.read bytes (pathStart length % 2 ^ 64)) = true

/-- The variable with the lower-case name passes the tests of the stub when the one with the
upper-case name holds an option to be started; otherwise it is missing or fails them. -/
structure EntryAgrees (env : FitEnvironment) (vars : Variables) (number : UInt16) : Prop where
  passes : startable vars number = true → ∃ data, vars (bootEntryName number) = some data ∧
    PassesTests env.turns (.ofList data env.behind)
  fails : startable vars number = false → ∀ data, vars (bootEntryName number) = some data →
    FailsTests env.turns (.ofList data env.behind)

/-- `BootNext` is not a single byte, the variables of every named entry agree, and `BootCurrent` is
absent unless the first entry replaces it. -/
structure VariablesAgree (env : FitEnvironment) (vars : Variables) : Prop where
  bootNext : ∀ byte, vars .bootNext ≠ some [byte]
  entries : ∀ number ∈ namedEntries vars, EntryAgrees env vars number
  bootCurrent : vars .bootCurrent = none ∨
    ∃ first, (namedEntries vars).head? = some first ∧ startable vars first = true

/-! ## The tests of one entry -/

/-- The entry is run, or else skipped. -/
def EntryDecision.Settled (decision : EntryDecision) (startable : Bool) : Prop :=
  match decision with
  | .run _ => startable = true
  | .skip _ => startable = false
  | .stuck => False

section Tests

/-- The length of the path list is compared as a number. -/
theorem filePathListLength_short_iff (bytes : ByteStore) :
    EfiLoadOption.filePathListLength bytes < UInt16.ofNat sizeofDevicePathNode ↔
      (EfiLoadOption.filePathListLength bytes).toNat < sizeofDevicePathNode :=
  UInt16.lt_iff_toNat_lt

/-- A variable of which nothing is decoded. -/
theorem decodeBootEntry_early {turns : ℕ} {entry : PoolVariable}
    (early : EfiLoadOption.attributes entry.bytes = 0 ∨
      (EfiLoadOption.filePathListLength entry.bytes).toNat < sizeofDevicePathNode) :
    ∃ status, decodeBootEntry turns entry = .skip status := by
  rw [decodeBootEntry]
  split_ifs with unset
  · exact ⟨_, rfl⟩
  · rcases early with attributes | short
    · simp [attributes] at unset
    · rw [bootEntryGetDevicePath, if_pos ((filePathListLength_short_iff _).mpr short)]
      exact ⟨efiUnsupported, rfl⟩

/-- A variable with attributes and a list of nodes goes by what stands behind the description. -/
theorem decodeBootEntry_late {turns : ℕ} {entry : PoolVariable}
    (attributes : EfiLoadOption.attributes entry.bytes ≠ 0)
    (listed : sizeofDevicePathNode ≤ (EfiLoadOption.filePathListLength entry.bytes).toNat) :
    match wcslen (EfiLoadOption.description entry.bytes) turns with
    | none => decodeBootEntry turns entry = .stuck
    | some length => ∃ arguments, decodeBootEntry turns entry =
        if isDevicePathEndNode (.read entry.bytes (pathStart length % 2 ^ 64)) then .skip efiSuccess
        else .run arguments := by
  have long := (filePathListLength_short_iff entry.bytes).not.mpr (Nat.not_lt.mpr listed)
  have active : (!(EfiLoadOption.attributes entry.bytes != 0 && loadOptionActive != 0)) = false := by
    simp [attributes, loadOptionActive]
  rw [decodeBootEntry, active, bootEntryGetDevicePath, if_neg long]
  cases wcslen (EfiLoadOption.description entry.bytes) turns with
  | none => rfl
  | some length =>
    have position : (UInt64.ofNat (2 * (length + 1) + sizeofEfiLoadOption)).toNat =
        pathStart length % 2 ^ 64 := UInt64.toNat_ofNat'
    dsimp only
    rw [position]
    cases isDevicePathEndNode (.read entry.bytes (pathStart length % 2 ^ 64)) with
    | true => exact ⟨⟨0, 0, 0⟩, rfl⟩
    | false => exact ⟨_, rfl⟩

/-- What decoding a variable comes to, by the tests. -/
theorem decodeBootEntry_settled_iff {turns : ℕ} {entry : PoolVariable} (startable : Bool) :
    (decodeBootEntry turns entry).Settled startable ↔
      (startable = true → PassesTests turns entry.bytes) ∧
      (startable = false → FailsTests turns entry.bytes) := by
  by_cases early : EfiLoadOption.attributes entry.bytes = 0 ∨
      (EfiLoadOption.filePathListLength entry.bytes).toNat < sizeofDevicePathNode
  · obtain ⟨status, skipped⟩ := @decodeBootEntry_early turns entry early
    have fails : FailsTests turns entry.bytes := early.imp_right .inl
    have passes : ¬ PassesTests turns entry.bytes := fun passes =>
      early.elim passes.attributes (Nat.not_lt.mpr passes.listed)
    rw [skipped]
    cases startable <;> simp [EntryDecision.Settled, fails, passes]
  · obtain ⟨attributes, listed⟩ := not_or.mp early
    have decoded := @decodeBootEntry_late turns entry attributes (Nat.not_lt.mp listed)
    cases found : wcslen (EfiLoadOption.description entry.bytes) turns with
    | none =>
      rw [found] at decoded
      have endless : ∀ length < turns, ¬ EndsAt (EfiLoadOption.description entry.bytes) length :=
        fun length bound ends => by
          rw [wcslen_eq_some_iff.mpr ⟨bound, ends⟩] at found
          cases found
      have passes : ¬ PassesTests turns entry.bytes := fun ⟨_, _, length, bound, ends, _⟩ =>
        endless length bound ends
      have fails : ¬ FailsTests turns entry.bytes := fun fails => by
        rcases fails with unset | short | ⟨length, bound, ends, _⟩
        · exact attributes unset
        · exact listed short
        · exact endless length bound ends
      rw [decoded]
      cases startable <;> simp [EntryDecision.Settled, fails, passes]
    | some length =>
      rw [found] at decoded
      obtain ⟨bound, ends⟩ := wcslen_eq_some_iff.mp found
      have passes : PassesTests turns entry.bytes ↔
          isDevicePathEndNode (.read entry.bytes (pathStart length % 2 ^ 64)) = false := by
        refine ⟨fun ⟨_, _, other, _, also, more⟩ => ?_, fun more =>
          ⟨attributes, Nat.not_lt.mp listed, length, bound, ends, more⟩⟩
        rwa [ends.unique also]
      have fails : FailsTests turns entry.bytes ↔
          isDevicePathEndNode (.read entry.bytes (pathStart length % 2 ^ 64)) = true := by
        refine ⟨fun fails => ?_, fun last => .inr (.inr ⟨length, bound, ends, last⟩)⟩
        rcases fails with unset | short | ⟨other, _, also, last⟩
        · exact absurd unset attributes
        · exact absurd short listed
        · rwa [ends.unique also]
      obtain ⟨arguments, decoded⟩ := decoded
      rw [passes, fails, decoded]
      cases isDevicePathEndNode (.read entry.bytes (pathStart length % 2 ^ 64)) <;>
        cases startable <;> simp [EntryDecision.Settled]

/-- The decision about an entry is the one its option asks for exactly when the variables agree. -/
theorem settled_iff_entryAgrees {env : FitEnvironment} {vars : Variables}
    (ready : FirmwareReady env vars) (number : UInt16) :
    (entryDecision env vars number).Settled (startable vars number) ↔
      EntryAgrees env vars number := by
  rw [entryDecision, efiVarGetPool]
  cases stored : vars (bootEntryName number) with
  | none =>
    dsimp only
    refine ⟨fun unstartable => ⟨fun starts => ?_, fun _ data other => ?_⟩, fun agrees => ?_⟩
    · rw [EntryDecision.Settled, starts] at unstartable
      cases unstartable
    · rw [stored] at other
      cases other
    · cases starts : startable vars number with
      | false => rfl
      | true =>
        obtain ⟨data, other, -⟩ := agrees.passes starts
        rw [stored] at other
        cases other
  | some data =>
    have kept : (data.isEmpty || env.pool (bootEntryName number) == 0) = false := by
      simp [(ready.sized _ _ stored).1, ready.pool]
    dsimp only
    rw [kept, if_neg Bool.false_ne_true]
    dsimp only
    rw [decodeBootEntry_settled_iff]
    refine ⟨?_, fun agrees => ⟨fun starts => ?_, fun starts => agrees.fails starts data stored⟩⟩
    · rintro ⟨passes, fails⟩
      refine ⟨fun starts => ⟨data, stored, passes starts⟩, fun starts other same => ?_⟩
      rw [stored] at same
      cases same
      exact fails starts
    · obtain ⟨other, same, passes⟩ := agrees.passes starts
      rw [stored] at same
      cases same
      exact passes

end Tests

/-! ## Entries in a row -/

/-- The decision is to run an image. -/
def EntryDecision.runs : EntryDecision → Bool
  | .run _ => true
  | _ => false

/-- A variable state that differs from another one in `BootCurrent` at most. -/
def KeepsEntries (vars start : Variables) : Prop :=
  ∀ name, name ≠ .bootCurrent → vars name = start name

theorem KeepsEntries.refl (vars : Variables) : KeepsEntries vars vars := fun _ _ => rfl

theorem KeepsEntries.setBootCurrent {vars start : Variables} (keeps : KeepsEntries vars start)
    (data : List UInt8) : KeepsEntries (vars.set .bootCurrent data) start := fun name other => by
  rw [Variables.set_of_ne _ _ other, keeps name other]

theorem KeepsEntries.entryDecision (env : FitEnvironment) {vars start : Variables}
    (keeps : KeepsEntries vars start) (number : UInt16) :
    entryDecision env vars number = entryDecision env start number := by
  unfold ZLoader.entryDecision efiVarGetPool
  rw [keeps (bootEntryName number) (by simp [bootEntryName])]

@[simp] theorem runs_run (arguments : RunImage) : (EntryDecision.run arguments).runs = true := rfl
@[simp] theorem runs_skip (status : EfiStatus) : (EntryDecision.skip status).runs = false := rfl

@[simp] theorem attempts_entryReturned (number : UInt16) (bootCurrent : Option (List UInt8)) :
    attempts [.entryReturned number bootCurrent] = [] := rfl

@[simp] theorem attempts_append (first second : List FitEvent) :
    attempts (first ++ second) = attempts first ++ attempts second := List.filterMap_append

@[simp] theorem attempts_imageTrace (result : ImageResult) (image : FitImage)
    (arguments : RunImage) (bootCurrent : Option (List UInt8)) :
    attempts (imageTrace result image arguments bootCurrent) = [image] := by
  unfold attempts imageTrace
  cases result.starts <;> rfl

/-- The events of an image are bracketed when it finds what it should in `BootCurrent`. -/
theorem imageTrace_bracketed {result : ImageResult} (image : FitImage) {arguments : RunImage}
    {event : FitEvent} (member : event ∈ imageTrace result image arguments image.bootCurrent) :
    event.Bracketed := by
  unfold imageTrace at member
  cases starts : result.starts with
  | true =>
    simp only [starts, if_true, List.mem_cons, List.not_mem_nil, or_false] at member
    rcases member with rfl | rfl
    · trivial
    · rfl
  | false =>
    simp only [starts, Bool.false_eq_true, if_false, List.mem_singleton] at member
    obtain rfl := member
    trivial

section Entries

variable {env : FitEnvironment} {start : Variables}

theorem bootEntries_cons_skip {number : UInt16} {numbers : List UInt16} (st : FitState)
    {status : EfiStatus} (decided : entryDecision env st.vars number = .skip status) :
    bootEntries env (number :: numbers) st =
      bootEntries env numbers (st.log (.entryReturned number (st.vars .bootCurrent))) := by
  rw [bootEntries, bootEntry_skip decided]

theorem bootEntries_cons_stuck {number : UInt16} {numbers : List UInt16} {st : FitState}
    (decided : entryDecision env st.vars number = .stuck) :
    bootEntries env (number :: numbers) st = (false, st) := by
  rw [bootEntries, bootEntry_stuck decided]

/-- The state after an entry that is run. -/
def afterEntry (env : FitEnvironment) (number : UInt16) (arguments : RunImage) (st : FitState) :
    FitState :=
  ⟨st.vars.set .bootCurrent [], st.tried + 1, st.trace ++
    (imageTrace (env.results st.tried) (.entry number) arguments
      (FitImage.entry number).bootCurrent ++ [.entryReturned number none])⟩

theorem afterEntry_bootCurrent (number : UInt16) (arguments : RunImage) (st : FitState) :
    (afterEntry env number arguments st).vars .bootCurrent = none := by
  simp [afterEntry]

theorem attempts_afterEntry (number : UInt16) (arguments : RunImage) (st : FitState) :
    attempts (afterEntry env number arguments st).trace = attempts st.trace ++ [.entry number] := by
  simp [afterEntry]

theorem bootEntries_cons_run {number : UInt16} {numbers : List UInt16} {st : FitState}
    {arguments : RunImage} (decided : entryDecision env st.vars number = .run arguments) :
    bootEntries env (number :: numbers) st =
      bootEntries env numbers (afterEntry env number arguments st) := by
  obtain ⟨⟨status, returned⟩, left⟩ := bootEntry_run decided
  have current : (st.vars.set .bootCurrent []) .bootCurrent = none := Variables.set_same ..
  have pair : bootEntry env number st = (some status, (bootEntry env number st).2) :=
    Prod.ext returned rfl
  rw [bootEntries, pair, left]
  dsimp only
  rw [FitState.log, current, List.append_assoc]
  rfl

/-- Entries that return: the trace grows, and the images tried are those of the entries that are
run. -/
theorem bootEntries_settled {numbers : List UInt16} (st : FitState)
    (keeps : KeepsEntries st.vars start)
    (returns : ∀ number ∈ numbers, entryDecision env start number ≠ .stuck) :
    (bootEntries env numbers st).1 = true ∧
      KeepsEntries (bootEntries env numbers st).2.vars start ∧
      attempts (bootEntries env numbers st).2.trace = attempts st.trace ++
        (numbers.filter fun number => (entryDecision env start number).runs).map .entry := by
  induction numbers generalizing st with
  | nil => exact ⟨rfl, keeps, by simp [bootEntries]⟩
  | cons number numbers ih =>
    have later := fun other member => returns other (List.mem_cons_of_mem number member)
    have same := keeps.entryDecision env number
    cases decided : entryDecision env start number with
    | stuck => exact absurd decided (returns number List.mem_cons_self)
    | skip status =>
      rw [bootEntries_cons_skip _ (same.trans decided)]
      obtain ⟨done, kept, tried⟩ := ih (st.log _) keeps later
      exact ⟨done, kept, by simp [tried, decided]⟩
    | run arguments =>
      rw [bootEntries_cons_run (same.trans decided)]
      obtain ⟨done, kept, tried⟩ := ih (afterEntry env number arguments st)
        (keeps.setBootCurrent []) later
      exact ⟨done, kept, by simp [tried, attempts_afterEntry, decided]⟩

/-- An entry that does not return ends the boot before any file is tried. -/
theorem bootEntries_stuck {numbers : List UInt16} (st : FitState)
    (keeps : KeepsEntries st.vars start) {number : UInt16} (named : number ∈ numbers)
    (stuck : entryDecision env start number = .stuck)
    (entries : ∀ file, FitImage.file file ∉ attempts st.trace) :
    (bootEntries env numbers st).1 = false ∧
      ∀ file, FitImage.file file ∉ attempts (bootEntries env numbers st).2.trace := by
  induction numbers generalizing st with
  | nil => contradiction
  | cons first numbers ih =>
    have same := keeps.entryDecision env first
    have later : entryDecision env start first ≠ .stuck → number ∈ numbers := by
      intro returns
      rcases List.mem_cons.mp named with rfl | behind
      · exact absurd stuck returns
      · exact behind
    cases decided : entryDecision env start first with
    | stuck =>
      rw [bootEntries_cons_stuck (same.trans decided)]
      exact ⟨rfl, entries⟩
    | skip status =>
      rw [bootEntries_cons_skip _ (same.trans decided)]
      rw [decided] at later
      exact ih (st.log _) keeps (later (by simp)) (by simpa using entries)
    | run arguments =>
      rw [bootEntries_cons_run (same.trans decided)]
      rw [decided] at later
      exact ih (afterEntry env first arguments st) (keeps.setBootCurrent []) (later (by simp))
        (by simpa [attempts_afterEntry] using entries)

/-- `BootCurrent` is bracketed once it is absent, or the first entry is run. -/
theorem bootEntries_bracketed {numbers : List UInt16} (st : FitState)
    (keeps : KeepsEntries st.vars start)
    (returns : ∀ number ∈ numbers, entryDecision env start number ≠ .stuck)
    (current : st.vars .bootCurrent = none ∨ ∃ first, numbers.head? = some first ∧
      (entryDecision env start first).runs = true)
    (bracketed : ∀ event ∈ st.trace, event.Bracketed) :
    (bootEntries env numbers st).2.vars .bootCurrent = none ∧
      ∀ event ∈ (bootEntries env numbers st).2.trace, event.Bracketed := by
  induction numbers generalizing st with
  | nil => exact ⟨by simpa [bootEntries] using current, bracketed⟩
  | cons number numbers ih =>
    have later := fun other member => returns other (List.mem_cons_of_mem number member)
    have same := keeps.entryDecision env number
    cases decided : entryDecision env start number with
    | stuck => exact absurd decided (returns number List.mem_cons_self)
    | skip status =>
      rw [bootEntries_cons_skip _ (same.trans decided)]
      have absent : st.vars .bootCurrent = none := by
        rcases current with absent | ⟨first, head, runs⟩
        · exact absent
        · obtain rfl := Option.some.inj head
          rw [decided] at runs
          contradiction
      apply ih (st.log _) keeps later (.inl absent)
      intro event member
      rcases List.mem_append.mp member with old | new
      · exact bracketed event old
      · obtain rfl := List.mem_singleton.mp new
        exact absent
    | run arguments =>
      rw [bootEntries_cons_run (same.trans decided)]
      refine ih (afterEntry env number arguments st) (keeps.setBootCurrent []) later
        (.inl (afterEntry_bootCurrent number arguments st)) fun event member => ?_
      rcases List.mem_append.mp member with old | new
      · exact bracketed event old
      · rcases List.mem_append.mp new with image | last
        · exact imageTrace_bracketed _ image
        · obtain rfl := List.mem_singleton.mp last
          rfl

/-- The entries keep the variables that name them, and the trace only grows. -/
theorem bootEntries_grows (env : FitEnvironment) (numbers : List UInt16) (st : FitState)
    (keeps : KeepsEntries st.vars start) :
    KeepsEntries (bootEntries env numbers st).2.vars start ∧
      st.trace <+: (bootEntries env numbers st).2.trace := by
  induction numbers generalizing st with
  | nil => exact ⟨keeps, List.prefix_rfl⟩
  | cons number numbers ih =>
    cases decided : entryDecision env st.vars number with
    | stuck =>
      rw [bootEntries_cons_stuck decided]
      exact ⟨keeps, List.prefix_rfl⟩
    | skip status =>
      rw [bootEntries_cons_skip _ decided]
      obtain ⟨kept, grown⟩ := ih (st.log _) keeps
      exact ⟨kept, List.IsPrefix.trans (List.prefix_append st.trace _) grown⟩
    | run arguments =>
      rw [bootEntries_cons_run decided]
      obtain ⟨kept, grown⟩ := ih (afterEntry env number arguments st) (keeps.setBootCurrent [])
      exact ⟨kept, List.IsPrefix.trans (List.prefix_append st.trace _) grown⟩

/-- Two rows of entries are one row. -/
theorem bootEntries_append (first second : List UInt16) (st : FitState) :
    bootEntries env (first ++ second) st =
      if (bootEntries env first st).1 then bootEntries env second (bootEntries env first st).2
      else (false, (bootEntries env first st).2) := by
  induction first generalizing st with
  | nil => rfl
  | cons number numbers ih =>
    rw [List.cons_append, bootEntries, bootEntries]
    rcases bootEntry env number st with ⟨status, next⟩
    cases status with
    | none => rfl
    | some status => exact ih _

end Entries

/-! ## The whole boot -/

/-- The array that the stub goes through is the one in the variable. -/
theorem numbersIn_eq (data : List UInt8) (behind : ByteStore) :
    (List.range (data.length / 2)).map (fun index => (ByteStore.ofList data behind).u16 (2 * index)) =
      numbersIn data := by
  induction data using numbersIn.induct with
  | case1 low high rest ih =>
    have count : (low :: high :: rest).length / 2 = rest.length / 2 + 1 := by
      simp only [List.length_cons]
      omega
    have shifted := ByteStore.ofList_append_from [low, high] rest behind
    rw [count, List.range_succ_eq_map, List.map_cons, List.map_map, numbersIn, ← ih]
    congr 1
    apply List.map_congr_left
    intro index _
    rw [← shifted, ByteStore.u16, ByteStore.readLE_from,
      show [low, high].length + 2 * index = 2 * (index + 1) by simp; omega]
    rfl
  | case2 data short =>
    have few : data.length / 2 = 0 := by
      rcases data with _ | ⟨low, _ | ⟨high, rest⟩⟩
      · rfl
      · simp
      · exact absurd rfl (short low high rest)
    rw [few, List.range_zero, List.map_nil, numbersIn]
    exact short

/-- With memory for it, the order read is the order in the variable. -/
theorem readBootOrder_eq {env : FitEnvironment} {vars start : Variables}
    (ready : FirmwareReady env start) (keeps : KeepsEntries vars start) :
    readBootOrder env vars = numbersIn ((start .bootOrder).getD []) := by
  unfold readBootOrder efiVarGetPool
  rw [keeps .bootOrder (by simp)]
  cases stored : start .bootOrder with
  | none => rfl
  | some data =>
    obtain ⟨nonempty, bound⟩ := ready.sized _ _ stored
    have empty : (data.isEmpty || env.pool .bootOrder == 0) = false := by
      simp [nonempty, ready.pool]
    have count : (UInt64.ofNat data.length / 2).toNat = data.length / 2 := by
      rw [UInt64.toNat_div, UInt64.toNat_ofNat', Nat.mod_eq_of_lt bound]
      rfl
    simp only [empty, Bool.false_eq_true, if_false, count, Option.getD_some]
    exact numbersIn_eq data env.behind

theorem readBootNext_undefined_iff (vars : Variables) :
    readBootNext vars = .undefined ↔ ∃ byte, vars .bootNext = some [byte] := by
  unfold readBootNext
  match vars .bootNext with
  | none | some [] | some [_] | some [_, _] | some (_ :: _ :: _ :: _) => simp

theorem namedByBootNext_eq (vars : Variables) :
    namedByBootNext vars = match readBootNext vars with
      | .number next => [next]
      | _ => [] := by
  unfold namedByBootNext readBootNext
  match vars .bootNext with
  | none | some [] | some [_] | some [_, _] | some (_ :: _ :: _ :: _) => rfl

/-- The stub goes through the named entries and then the files. -/
theorem fitMain_eq {env : FitEnvironment} {vars : Variables} (ready : FirmwareReady env vars)
    (defined : readBootNext vars ≠ .undefined) :
    fitMain env vars = bootAll env (namedEntries vars) ⟨vars, 0, []⟩ := by
  unfold fitMain namedEntries
  rw [ready.utilities, namedByBootNext_eq]
  dsimp only
  cases known : readBootNext vars with
  | undefined => exact absurd known defined
  | absent =>
    dsimp only
    rw [readBootOrder_eq ready (.refl vars)]
    rfl
  | number next =>
    obtain ⟨kept, _⟩ := bootEntries_grows env [next] ⟨vars, 0, []⟩ (.refl vars)
    have order := readBootOrder_eq ready kept
    dsimp only
    unfold bootAll
    rw [bootEntries_append, ← order]
    generalize bootEntries env [next] ⟨vars, 0, []⟩ = outcome
    obtain ⟨done, st⟩ := outcome
    cases done <;> rfl

/-- Entries that all return are followed by the files. -/
theorem bootAll_done {env : FitEnvironment} {numbers : List UInt16} {st : FitState}
    (done : (bootEntries env numbers st).1 = true) :
    (bootAll env numbers st).2 = (bootFiles env (bootEntries env numbers st).2).2 := by
  unfold bootAll
  generalize bootEntries env numbers st = outcome at done
  obtain ⟨_, next⟩ := outcome
  cases done
  rfl

theorem bootAll_stuck {env : FitEnvironment} {numbers : List UInt16} {st : FitState}
    (stuck : (bootEntries env numbers st).1 = false) :
    (bootAll env numbers st).2 = (bootEntries env numbers st).2 := by
  unfold bootAll
  generalize bootEntries env numbers st = outcome at stuck
  obtain ⟨_, next⟩ := outcome
  cases stuck
  rfl

/-- The trace of the files. -/
theorem bootFiles_trace {env : FitEnvironment} {vars : Variables} (ready : FirmwareReady env vars)
    (st : FitState) :
    ∃ boot shell, (bootFiles env st).2.trace = st.trace ++
      (imageTrace (env.results st.tried) (.file .boot) boot (st.vars .bootCurrent) ++
        imageTrace (env.results (st.tried + 1)) (.file .shell) shell (st.vars .bootCurrent)) := by
  refine ⟨⟨env.appendNode (BootFile.boot.filename env.arch), 0, 0⟩,
    ⟨env.appendNode (BootFile.shell.filename env.arch), 0, 0⟩, ?_⟩
  unfold bootFiles bootFile
  simp only [ready.root, ready.files, Bool.false_eq_true, if_false, Bool.not_true]
  rw [runImageFromFile_state, runImageFromFile_state, List.append_assoc]

/-- Numbers pass two tests alike exactly when the same ones are left. -/
theorem filter_eq_filter_iff {α : Type} {first second : α → Bool} {items : List α} :
    items.filter first = items.filter second ↔ ∀ item ∈ items, first item = second item := by
  refine ⟨fun same item member => ?_, List.filter_congr⟩
  have both : item ∈ items.filter first ↔ item ∈ items.filter second := by rw [same]
  rw [List.mem_filter, List.mem_filter] at both
  rw [Bool.eq_iff_iff]
  simpa [member] using both

theorem settled_iff {decision : EntryDecision} {startable : Bool} :
    decision.Settled startable ↔ decision ≠ .stuck ∧ decision.runs = startable := by
  cases decision <;> simp [EntryDecision.Settled, EntryDecision.runs, eq_comm]

/-- What the files add to the images tried and to the bracket. -/
theorem bootAll_trace {env : FitEnvironment} {vars : Variables} (ready : FirmwareReady env vars)
    {numbers : List UInt16} {st : FitState} (done : (bootEntries env numbers st).1 = true) :
    attempts (bootAll env numbers st).2.trace =
        attempts (bootEntries env numbers st).2.trace ++ [.file .boot, .file .shell] ∧
      ((bootEntries env numbers st).2.vars .bootCurrent = none →
        (∀ event ∈ (bootEntries env numbers st).2.trace, event.Bracketed) →
          ∀ event ∈ (bootAll env numbers st).2.trace, event.Bracketed) := by
  rw [bootAll_done done]
  obtain ⟨boot, shell, files⟩ := bootFiles_trace ready (bootEntries env numbers st).2
  rw [files]
  refine ⟨by simp, fun absent bracketed event member => ?_⟩
  rw [absent] at member
  rcases List.mem_append.mp member with entry | member
  · exact bracketed event entry
  · rcases List.mem_append.mp member with member | member
    · exact imageTrace_bracketed (.file .boot) member
    · exact imageTrace_bracketed (.file .shell) member

/-- Variables that agree are booted in order. -/
theorem VariablesAgree.bootsInOrder {env : FitEnvironment} {vars : Variables}
    (ready : FirmwareReady env vars) (agree : VariablesAgree env vars) :
    BootsInOrder vars (fitMain env vars).2.trace := by
  have settled := fun number member =>
    settled_iff.mp ((settled_iff_entryAgrees ready number).mpr (agree.entries number member))
  have defined : readBootNext vars ≠ .undefined := fun undefined => by
    obtain ⟨byte, single⟩ := (readBootNext_undefined_iff vars).mp undefined
    exact agree.bootNext byte single
  have returns := fun number member => (settled number member).1
  obtain ⟨done, _, tried⟩ := bootEntries_settled ⟨vars, 0, []⟩ (.refl vars) returns
  have current : vars .bootCurrent = none ∨ ∃ first, (namedEntries vars).head? = some first ∧
      (entryDecision env vars first).runs = true := by
    refine agree.bootCurrent.imp_right fun ⟨first, head, starts⟩ => ⟨first, head, ?_⟩
    rw [(settled first (List.mem_of_head? head)).2, starts]
  obtain ⟨absent, bracketed⟩ := bootEntries_bracketed ⟨vars, 0, []⟩ (.refl vars) returns current
    fun event member => by contradiction
  obtain ⟨order, bracket⟩ := bootAll_trace ready done
  rw [fitMain_eq ready defined]
  refine ⟨?_, bracket absent bracketed⟩
  rw [order, tried, filter_eq_filter_iff.mpr fun number member => (settled number member).2]
  rfl

/-- A boot in order needs a number in `BootNext`, and entries that return and are run when they are
startable. -/
theorem BootsInOrder.entries {env : FitEnvironment} {vars : Variables}
    (ready : FirmwareReady env vars) (boots : BootsInOrder vars (fitMain env vars).2.trace) :
    readBootNext vars ≠ .undefined ∧ ∀ number ∈ namedEntries vars,
      (entryDecision env vars number).Settled (startable vars number) := by
  have defined : readBootNext vars ≠ .undefined := by
    intro undefined
    have order := boots.order
    unfold fitMain at order
    rw [ready.utilities, undefined] at order
    simp [attempts] at order
  have order := boots.order
  rw [fitMain_eq ready defined] at order
  have returns : ∀ number ∈ namedEntries vars, entryDecision env vars number ≠ .stuck := by
    intro number named stuck
    obtain ⟨ended, entries⟩ := bootEntries_stuck ⟨vars, 0, []⟩ (.refl vars) named stuck (by
      simp [attempts])
    rw [bootAll_stuck ended] at order
    exact entries .boot (by simp [order])
  obtain ⟨done, _, tried⟩ := bootEntries_settled ⟨vars, 0, []⟩ (.refl vars) returns
  rw [(bootAll_trace ready done).1, tried] at order
  have same := List.map_injective_iff.mpr (fun _ _ => FitImage.entry.inj)
    (List.append_cancel_right order)
  exact ⟨defined, fun number named =>
    settled_iff.mpr ⟨returns number named, filter_eq_filter_iff.mp same number named⟩⟩

/-- With images that all succeed, a `BootCurrent` that is present has to be replaced by the first
entry. -/
theorem BootsInOrder.bootCurrent {env : FitEnvironment} {vars : Variables}
    (ready : FirmwareReady env vars) (boots : BootsInOrder vars (fitMain env vars).2.trace)
    (succeed : ∀ index, (env.results index).starts = true) :
    vars .bootCurrent = none ∨
      ∃ first, (namedEntries vars).head? = some first ∧ startable vars first = true := by
  obtain ⟨defined, settled⟩ := boots.entries ready
  have bracket := boots.bracket
  rw [fitMain_eq ready defined] at bracket
  have returns := fun number member => (settled_iff.mp (settled number member)).1
  obtain ⟨done, _, _⟩ := bootEntries_settled ⟨vars, 0, []⟩ (.refl vars) returns
  rw [bootAll_done done] at bracket
  obtain ⟨boot, shell, files⟩ := bootFiles_trace ready
    (bootEntries env (namedEntries vars) ⟨vars, 0, []⟩).2
  rw [files] at bracket
  cases named : namedEntries vars with
  | nil =>
    refine .inl (bracket (.startImage (.file .boot) boot.loadOptions (vars .bootCurrent)) ?_)
    simp [named, bootEntries, imageTrace, succeed]
  | cons first rest =>
    cases starts : startable vars first with
    | true => exact .inr ⟨first, rfl, starts⟩
    | false =>
      have decided := settled_iff.mp (settled first (by simp [named]))
      rw [starts] at decided
      cases decision : entryDecision env vars first with
      | stuck => exact absurd decision decided.1
      | run arguments => simp [decision] at decided
      | skip status =>
        refine .inl (bracket (.entryReturned first (vars .bootCurrent)) ?_)
        rw [named, bootEntries_cons_skip ⟨vars, 0, []⟩ decision]
        refine List.mem_append_left _ ((bootEntries_grows env rest _ (.refl _)).2.subset ?_)
        simp

/-- Whatever the images return, the stub tries exactly the startable entries in order and then the
files, with `BootCurrent` around each entry, if and only if the variables agree. -/
theorem bootsInOrder_iff {env : FitEnvironment} {vars : Variables}
    (ready : FirmwareReady env vars) :
    (∀ results, BootsInOrder vars (fitMain (env.withResults results) vars).2.trace) ↔
      VariablesAgree env vars := by
  have readyWith : ∀ results, FirmwareReady (env.withResults results) vars := fun results =>
    ⟨ready.utilities, ready.root, ready.files, ready.pool, ready.sized⟩
  constructor
  · intro boots
    have success := boots fun _ => ⟨efiSuccess, efiSuccess, efiSuccess⟩
    obtain ⟨defined, entries⟩ := success.entries (readyWith _)
    refine ⟨fun byte single => ?_, fun number named => ?_, success.bootCurrent (readyWith _) fun _ => rfl⟩
    · exact defined ((readBootNext_undefined_iff vars).mpr ⟨byte, single⟩)
    · exact (settled_iff_entryAgrees ready number).mp (entries number named)
  · intro agree results
    exact VariablesAgree.bootsInOrder (readyWith results)
      ⟨agree.bootNext, fun number named => ⟨(agree.entries number named).passes,
        (agree.entries number named).fails⟩, agree.bootCurrent⟩

theorem firmwareReady_small (option : LoadOption) (size : option.encode.length < 2 ^ 64) :
    FirmwareReady smallEnvironment (smallVariables option) where
  utilities := by decide
  root := by decide
  files _ := rfl
  pool _ := show (0x10000 : UInt64) ≠ 0 by decide
  sized name data stored := by
    unfold smallVariables at stored
    split_ifs at stored
    · obtain rfl := Option.some.inj stored
      refine ⟨fun empty => ?_, size⟩
      have header := option.header_le_encode
      rw [option.header_length, empty] at header
      exact absurd header (by simp [sizeofEfiLoadOption])
    · obtain rfl := Option.some.inj stored
      exact ⟨by simp, by decide⟩

/-- An option as it is written is to be started when it is active and can be booted. -/
theorem startableOption_encode_iff (option : LoadOption) :
    startableOption option.encode = true ↔
      option.attributes &&& loadOptionActive ≠ 0 ∧ option.Bootable := by
  have total : option.encode.length =
      option.header.length + option.filePathList.length + option.optionalData.length := by
    rw [LoadOption.encode, List.length_append, List.length_append]
  have header := option.header_length
  have enough : option.description.length < (option.encode.length - sizeofEfiLoadOption) / 2 := by
    rw [total, header]
    omega
  have bounded := option.bounded
  rw [startableOption]
  dsimp only
  rw [option.attributes_encode, option.wcslen_encode _ enough, option.filePathListLength_encode,
    UInt16.toNat_ofNat', Nat.mod_eq_of_lt (by omega)]
  dsimp only
  rw [← header, Bool.and_eq_true, Bool.and_eq_true, Bool.and_eq_true, bne_iff_ne, decide_eq_true_iff,
    decide_eq_true_iff, Bool.not_eq_true', LoadOption.Bootable]
  constructor
  · rintro ⟨active, ⟨listed, -⟩, more⟩
    refine ⟨active, fun unset => active (by rw [unset]; rfl), listed, fun last => ?_⟩
    rw [(option.isDevicePathEndNode_encode _ listed).mpr last] at more
    cases more
  · rintro ⟨active, -, listed, more⟩
    refine ⟨active, ⟨listed, by omega⟩, Bool.eq_false_iff.mpr fun last => ?_⟩
    exact more ((option.isDevicePathEndNode_encode _ listed).mp last)

/-- And it passes the tests of the stub when it can be booted, active or not. -/
theorem tests_encode (option : LoadOption) (behind : ByteStore) {turns : ℕ}
    (enough : option.description.length < turns) (size : option.encode.length < 2 ^ 64) :
    (PassesTests turns (.ofList option.encode behind) ↔ option.Bootable) ∧
      (FailsTests turns (.ofList option.encode behind) ↔ ¬ option.Bootable) := by
  obtain ⟨decoded, skipped⟩ := option.decodeBootEntry_encode behind enough size 0
  have passes := @decodeBootEntry_settled_iff turns (option.pooled behind 0) true
  have fails := @decodeBootEntry_settled_iff turns (option.pooled behind 0) false
  simp only [true_implies, Bool.true_eq_false, Bool.false_eq_true, false_implies, and_true,
    true_and] at passes fails
  change _ ↔ PassesTests turns (.ofList option.encode behind) at passes
  change _ ↔ FailsTests turns (.ofList option.encode behind) at fails
  rw [← passes, ← fails]
  by_cases bootable : option.Bootable
  · simp [decoded bootable, bootable, EntryDecision.Settled]
  · obtain ⟨status, skip⟩ := skipped bootable
    simp [skip, bootable, EntryDecision.Settled]

/-- Options that are the same under both names, written as options are, agree when each that could
be booted is active. -/
theorem entryAgrees_encode_iff {env : FitEnvironment} {vars : Variables} {number : UInt16}
    {option : LoadOption} (upper : vars (bootOptionName number) = some option.encode)
    (lower : vars (bootEntryName number) = some option.encode)
    (enough : option.description.length < env.turns) (size : option.encode.length < 2 ^ 64) :
    EntryAgrees env vars number ↔
      (option.Bootable → option.attributes &&& loadOptionActive ≠ 0) := by
  obtain ⟨passes, fails⟩ := tests_encode option env.behind enough size
  have starts : startable vars number = true ↔
      option.attributes &&& loadOptionActive ≠ 0 ∧ option.Bootable := by
    rw [startable, upper, Option.any_some, startableOption_encode_iff]
  constructor
  · intro agrees bootable
    by_contra inactive
    have unstartable : startable vars number = false :=
      Bool.eq_false_iff.mpr fun started => (starts.mp started).1 inactive
    exact fails.mp (agrees.fails unstartable _ lower) bootable
  · intro active
    refine ⟨fun started => ⟨_, lower, passes.mpr (starts.mp started).2⟩, fun unstarted data same => ?_⟩
    rw [lower] at same
    cases same
    refine fails.mpr fun bootable => ?_
    rw [starts.mpr ⟨active bootable, bootable⟩] at unstarted
    cases unstarted

theorem bootsInOrder_activeEntry :
    BootsInOrder (smallVariables (smallOption 1 []))
      (fitMain smallEnvironment (smallVariables (smallOption 1 []))).2.trace := by
  refine (bootsInOrder_iff (firmwareReady_small _ (by decide))).mpr
    ⟨fun byte single => ?_, ?_, .inl rfl⟩ smallEnvironment.results
  · have absent : smallVariables (smallOption 1 []) .bootNext = none := by decide
    rw [absent] at single
    cases single
  · have named : namedEntries (smallVariables (smallOption 1 [])) = [1] := by decide
    rw [named]
    intro number member
    obtain rfl := List.mem_singleton.mp member
    exact (entryAgrees_encode_iff (if_pos (by decide)) (if_pos rfl) (by decide) (by decide)).mpr
      fun _ => by decide

/-- An entry with attributes other than `LOAD_OPTION_ACTIVE` is started. -/
theorem not_bootsInOrder_inactiveEntry :
    ¬ ∀ (env : FitEnvironment) (vars : Variables), FirmwareReady env vars →
      ∀ results, BootsInOrder vars (fitMain (env.withResults results) vars).2.trace := by
  intro claim
  have boots := claim smallEnvironment (smallVariables (smallOption 2 []))
    (firmwareReady_small _ (by decide)) smallEnvironment.results
  have order := boots.order
  revert order
  decide

end ZLoader
