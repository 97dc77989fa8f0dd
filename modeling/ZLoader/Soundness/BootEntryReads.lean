import Mathlib.Data.Nat.Find
import ZLoader.Soundness.LoadOptionDecoding

/-! # What one boot entry reads

`boot_entry` takes the length of the device path list and the end of the description from the
variable and goes where they lead. The scan for the end of the description has no limit, and the
length of the variable is used only to compute the length of the optional data, with the wrong sign.
-/

namespace ZLoader

/-! ## The reads -/

/-- The units that `wcslen` looks at. -/
def wcslenReads (s : ℕ → UInt16) : ℕ → List ℕ
  | 0 => []
  | turns + 1 =>
      0 :: if s 0 == 0 then [] else (wcslenReads (fun index => s (index + 1)) turns).map (· + 1)

/-- What `IsDevicePathEndNode` looks at: the subtype only when the type is right. -/
def endNodeReads (bytes : ByteStore) (pos : ℕ) : List Window :=
  ⟨pos, 1⟩ :: if bytes pos == endDevicePathType then [⟨pos + 1, 1⟩] else []

/-- Where the device path starts behind a description of so many units. -/
def pathStart (length : ℕ) : ℕ := 2 * (length + 1) + sizeofEfiLoadOption

/-- What `boot_entry_get_device_path` looks at. -/
def devicePathReads (turns : ℕ) (bytes : ByteStore) : List Window :=
  ⟨4, 2⟩ ::
    if EfiLoadOption.filePathListLength bytes < UInt16.ofNat sizeofDevicePathNode then []
    else
      (wcslenReads (EfiLoadOption.description bytes) turns).map
          (fun index => ⟨sizeofEfiLoadOption + 2 * index, 2⟩) ++
        match wcslen (EfiLoadOption.description bytes) turns with
        | none => []
        | some length => endNodeReads bytes (UInt64.ofNat (pathStart length)).toNat

/-- What `boot_entry` looks at in the copy of the variable. -/
def bootEntryReads (turns : ℕ) (entry : PoolVariable) : List Window :=
  ⟨0, 4⟩ ::
    if !(EfiLoadOption.attributes entry.bytes != 0 && loadOptionActive != 0) then []
    else
      devicePathReads turns entry.bytes ++
        match decodeBootEntry turns entry with
        | .run _ => [⟨4, 2⟩]
        | .skip _ | .stuck => []

/-- The first terminator. -/
structure EndsAt (s : ℕ → UInt16) (n : ℕ) : Prop where
  units : ∀ index < n, s index ≠ 0
  terminator : s n = 0

section Scan

variable {s : ℕ → UInt16}

theorem EndsAt.unique {first second : ℕ} (ends : EndsAt s first) (other : EndsAt s second) :
    first = second := by
  rcases Nat.lt_trichotomy first second with before | same | behind
  · exact absurd ends.terminator (other.units first before)
  · exact same
  · exact absurd other.terminator (ends.units second behind)

theorem endsAt_succ_iff {n : ℕ} (more : s 0 ≠ 0) :
    EndsAt s (n + 1) ↔ EndsAt (fun index => s (index + 1)) n := by
  constructor
  · rintro ⟨units, terminator⟩
    exact ⟨fun index bound => units (index + 1) (Nat.succ_lt_succ bound), terminator⟩
  · rintro ⟨units, terminator⟩
    refine ⟨fun index bound => ?_, terminator⟩
    cases index with
    | zero => exact more
    | succ index => exact units index (Nat.lt_of_succ_lt_succ bound)

/-- `wcslen` finds the first terminator when it has turns enough to get there. -/
theorem wcslen_eq_some_iff {turns n : ℕ} : wcslen s turns = some n ↔ n < turns ∧ EndsAt s n := by
  induction turns generalizing s n with
  | zero => simp [wcslen]
  | succ turns ih =>
    rw [wcslen]
    split_ifs with last
    · have first : s 0 = 0 := by simpa using last
      constructor
      · intro found
        obtain rfl := Option.some.inj found
        exact ⟨Nat.succ_pos _, fun index bound => absurd bound (Nat.not_lt_zero _), first⟩
      · rintro ⟨-, units, -⟩
        cases n with
        | zero => rfl
        | succ n => exact absurd first (units 0 (Nat.succ_pos _))
    · have more : s 0 ≠ 0 := by simpa using last
      cases n with
      | zero =>
        have no : ¬ EndsAt s 0 := fun ends => more ends.terminator
        simp [no]
      | succ n =>
        rw [endsAt_succ_iff more, Nat.succ_lt_succ_iff, ← ih]
        simp

/-- The scan looks at a unit when all units in front of it are none. -/
theorem mem_wcslenReads {turns k : ℕ} :
    k ∈ wcslenReads s turns ↔ k < turns ∧ ∀ index < k, s index ≠ 0 := by
  induction turns generalizing s k with
  | zero => simp [wcslenReads]
  | succ turns ih =>
    rw [wcslenReads, List.mem_cons]
    split_ifs with last
    · have first : s 0 = 0 := by simpa using last
      constructor
      · rintro (rfl | none)
        · exact ⟨Nat.succ_pos _, fun index bound => absurd bound (Nat.not_lt_zero _)⟩
        · cases none
      · rintro ⟨-, units⟩
        refine .inl (Nat.eq_zero_of_not_pos fun positive => ?_)
        exact units 0 positive first
    · have more : s 0 ≠ 0 := by simpa using last
      cases k with
      | zero => simp
      | succ k =>
        rw [Nat.succ_lt_succ_iff, Nat.forall_lt_succ_left, and_iff_right more, ← ih]
        simp

/-- The scan looks at the first terminator, and at nothing behind it. -/
theorem EndsAt.read_le {n turns k : ℕ} (ends : EndsAt s n) (member : k ∈ wcslenReads s turns) :
    k ≤ n := by
  obtain ⟨-, units⟩ := mem_wcslenReads.mp member
  by_contra beyond
  exact units n (Nat.lt_of_not_le beyond) ends.terminator

/-- A scan that never leaves some units ends within them. -/
theorem endsAt_of_reads {limit : ℕ}
    (inside : ∀ turns, ∀ k ∈ wcslenReads s turns, k < limit) : ∃ n < limit, EndsAt s n := by
  have found : ∃ n, s n = 0 := by
    by_contra never
    rw [not_exists] at never
    exact Nat.lt_irrefl _ (inside (limit + 1) limit
      (mem_wcslenReads.mpr ⟨Nat.lt_succ_self _, fun index _ => never index⟩))
  have ends : EndsAt s (Nat.find found) :=
    ⟨fun index bound => Nat.find_min found bound, Nat.find_spec found⟩
  refine ⟨_, inside (Nat.find found + 1) _ ?_, ends⟩
  exact mem_wcslenReads.mpr ⟨Nat.lt_succ_self _, ends.units⟩

end Scan

/-! ## The entry -/

/-- The description and the device path list of the given length lie in the variable. -/
def HoldsPath (bytes : ByteStore) (size : ℕ) : Prop :=
  ∃ length, EndsAt (EfiLoadOption.description bytes) length ∧
    pathStart length + (EfiLoadOption.filePathListLength bytes).toNat ≤ size

/-- What an entry that is looked at must contain: as much as `boot_entry` gets to see before it
decides to skip it, or the whole description and path list, and no optional data. -/
def EntryFits (bytes : ByteStore) (size : ℕ) : Prop :=
  4 ≤ size ∧ (EfiLoadOption.attributes bytes = 0 ∨
    6 ≤ size ∧ ((EfiLoadOption.filePathListLength bytes).toNat < sizeofDevicePathNode ∨
      ∃ length, EndsAt (EfiLoadOption.description bytes) length ∧
        if isDevicePathEndNode (.read bytes (pathStart length)) then pathStart length + 2 ≤ size
        else ∃ rest, size =
            pathStart length + (EfiLoadOption.filePathListLength bytes).toNat + rest ∧
          (rest = 0 ∨ 2 ^ 63 ≤ rest)))

/-- What is handed on lies in the variable: the device path, and the optional data. -/
structure ArgumentsInside (entry : PoolVariable) (arguments : RunImage) : Prop where
  devicePath : (arguments.devicePath - entry.address).toNat +
    (EfiLoadOption.filePathListLength entry.bytes).toNat ≤ entry.length.toNat
  options : (arguments.options - entry.address).toNat + arguments.optionsLength.toNat ≤
    entry.length.toNat

/-- The start of an image. -/
def FitEvent.starts : FitEvent → Bool
  | .startImage .. => true
  | _ => false

/-- `boot_entry` keeps inside of the copy of a variable, in however many turns, and returns without
starting an image when the description or the path list does not. -/
structure KeepsInside (env : FitEnvironment) (number : UInt16) (st : FitState)
    (entry : PoolVariable) : Prop where
  reads : ∀ turns, ∀ window ∈ bootEntryReads turns entry, window.Within entry.length.toNat
  arguments : ∀ turns arguments, decodeBootEntry turns entry = .run arguments →
    ArgumentsInside entry arguments
  short : ¬ HoldsPath entry.bytes entry.length.toNat → ∃ enough, ∀ turns ≥ enough,
    ∃ status after, bootEntry { env with turns := turns } number st = (some status, after) ∧
      after.trace.countP FitEvent.starts = st.trace.countP FitEvent.starts

section Entry

variable {entry : PoolVariable}

theorem filePathListLength_lt (bytes : ByteStore) :
    EfiLoadOption.filePathListLength bytes < UInt16.ofNat sizeofDevicePathNode ↔
      (EfiLoadOption.filePathListLength bytes).toNat < sizeofDevicePathNode :=
  UInt16.lt_iff_toNat_lt

/-- An inactive entry is not looked at any further. -/
theorem bootEntryReads_inactive (turns : ℕ) (inactive : EfiLoadOption.attributes entry.bytes = 0) :
    bootEntryReads turns entry = [⟨0, 4⟩] ∧ decodeBootEntry turns entry = .skip efiSuccess := by
  simp [bootEntryReads, decodeBootEntry, inactive]

/-- Nor is one without a path list. -/
theorem bootEntryReads_unlisted (turns : ℕ) (active : EfiLoadOption.attributes entry.bytes ≠ 0)
    (unlisted : (EfiLoadOption.filePathListLength entry.bytes).toNat < sizeofDevicePathNode) :
    bootEntryReads turns entry = [⟨0, 4⟩, ⟨4, 2⟩] ∧
      decodeBootEntry turns entry = .skip efiUnsupported := by
  have short := (filePathListLength_lt entry.bytes).mpr unlisted
  have decided : decodeBootEntry turns entry = .skip efiUnsupported := by
    have distinct : efiUnsupported ≠ efiNotFound := by decide
    have error : efiError efiUnsupported = true := by decide
    simp [decodeBootEntry, active, loadOptionActive, bootEntryGetDevicePath, short, distinct, error]
  refine ⟨?_, decided⟩
  rw [bootEntryReads, decided]
  simp [active, loadOptionActive, devicePathReads, short]

section Listed

variable (active : EfiLoadOption.attributes entry.bytes ≠ 0)
  (listed : ¬ (EfiLoadOption.filePathListLength entry.bytes).toNat < sizeofDevicePathNode)

include active listed

/-- An entry with a path list is looked at up to the first node behind its description. -/
theorem mem_bootEntryReads_iff {turns : ℕ} {window : Window} :
    window ∈ bootEntryReads turns entry ↔ window = ⟨0, 4⟩ ∨ window = ⟨4, 2⟩ ∨
      (∃ k ∈ wcslenReads (EfiLoadOption.description entry.bytes) turns,
        ⟨sizeofEfiLoadOption + 2 * k, 2⟩ = window) ∨
      ∃ length, wcslen (EfiLoadOption.description entry.bytes) turns = some length ∧
        window ∈ endNodeReads entry.bytes (UInt64.ofNat (pathStart length)).toNat := by
  have long := mt (filePathListLength_lt entry.bytes).mp listed
  have node : window ∈ (match wcslen (EfiLoadOption.description entry.bytes) turns with
      | none => []
      | some length => endNodeReads entry.bytes (UInt64.ofNat (pathStart length)).toNat) ↔
      ∃ length, wcslen (EfiLoadOption.description entry.bytes) turns = some length ∧
        window ∈ endNodeReads entry.bytes (UInt64.ofNat (pathStart length)).toNat := by
    cases wcslen (EfiLoadOption.description entry.bytes) turns with
    | none => simp
    | some length => simp
  have again : window ∈ (match decodeBootEntry turns entry with
      | .run _ => [⟨4, 2⟩]
      | .skip _ | .stuck => [] : List Window) → window = ⟨4, 2⟩ := by
    cases decodeBootEntry turns entry with
    | run arguments => exact List.mem_singleton.mp
    | skip status => exact fun none => by cases none
    | stuck => exact fun none => by cases none
  rw [bootEntryReads, if_neg (by simp [active, loadOptionActive]), devicePathReads, if_neg long,
    List.mem_cons, List.mem_append, List.mem_cons, List.mem_append, List.mem_map, node]
  constructor
  · rintro (first | (second | scanned | ended) | repeated)
    · exact .inl first
    · exact .inr (.inl second)
    · exact .inr (.inr (.inl scanned))
    · exact .inr (.inr (.inr ended))
    · exact .inr (.inl (again repeated))
  · rintro (first | second | scanned | ended)
    · exact .inl first
    · exact .inr (.inl (.inl second))
    · exact .inr (.inl (.inr (.inl scanned)))
    · exact .inr (.inl (.inr (.inr ended)))

/-- It is run unless its description does not end or its path does at once. -/
theorem decodeBootEntry_listed (turns : ℕ) :
    decodeBootEntry turns entry =
      match wcslen (EfiLoadOption.description entry.bytes) turns with
      | none => .stuck
      | some length =>
          if isDevicePathEndNode (.read entry.bytes (UInt64.ofNat (pathStart length)).toNat) then
            .skip efiSuccess
          else
            let dp := entry.address + UInt64.ofNat (pathStart length)
            let options := dp + (EfiLoadOption.filePathListLength entry.bytes).toUInt64
            .run ⟨dp, options, options - (entry.address + entry.length)⟩ := by
  have long := mt (filePathListLength_lt entry.bytes).mp listed
  have distinct : efiSuccess ≠ efiNotFound := by decide
  have fine : efiError efiSuccess = false := by decide
  have path : bootEntryGetDevicePath turns entry.bytes =
      (wcslen (EfiLoadOption.description entry.bytes) turns).map fun length =>
        let pos := UInt64.ofNat (pathStart length)
        if isDevicePathEndNode (.read entry.bytes pos.toNat) then (efiNotFound, pos)
        else (efiSuccess, pos) := by
    rw [bootEntryGetDevicePath, if_neg long]
    cases wcslen (EfiLoadOption.description entry.bytes) turns with
    | none => rfl
    | some length =>
      dsimp only [Option.map_some, pathStart]
      split_ifs
      · rfl
      · rfl
  rw [decodeBootEntry, if_neg (by simp [active, loadOptionActive]), path]
  cases wcslen (EfiLoadOption.description entry.bytes) turns with
  | none => rfl
  | some length =>
    simp only [Option.map_some]
    split_ifs <;> simp_all

end Listed

/-- The arguments for a path that starts at an offset. -/
def PoolVariable.arguments (entry : PoolVariable) (start : UInt64) : RunImage :=
  let dp := entry.address + start
  let options := dp + (EfiLoadOption.filePathListLength entry.bytes).toUInt64
  ⟨dp, options, options - (entry.address + entry.length)⟩

/-- The length of the optional data is computed as its negative, so the range that is handed on lies
in the variable when there are none, or more than half a word of them. -/
theorem argumentsInside_iff {start : ℕ} (bound : start < 2 ^ 64) :
    ArgumentsInside entry (entry.arguments (UInt64.ofNat start)) ↔ ∃ rest, entry.length.toNat =
      start + (EfiLoadOption.filePathListLength entry.bytes).toNat + rest ∧
        (rest = 0 ∨ 2 ^ 63 ≤ rest) := by
  set list := EfiLoadOption.filePathListLength entry.bytes with known
  have devicePath : (entry.arguments (UInt64.ofNat start)).devicePath - entry.address =
      UInt64.ofNat start := by
    rw [PoolVariable.arguments]
    grind
  have options : (entry.arguments (UInt64.ofNat start)).options - entry.address =
      UInt64.ofNat start + list.toUInt64 := by
    rw [PoolVariable.arguments]
    grind
  have optionsLength : (entry.arguments (UInt64.ofNat start)).optionsLength =
      UInt64.ofNat start + list.toUInt64 - entry.length := by
    rw [PoolVariable.arguments]
    grind
  have position : (UInt64.ofNat start).toNat = start := by
    rw [UInt64.toNat_ofNat', Nat.mod_eq_of_lt bound]
  have total : (UInt64.ofNat start + list.toUInt64).toNat = (start + list.toNat) % 2 ^ 64 := by
    rw [UInt64.toNat_add, position, UInt16.toNat_toUInt64]
  have size := entry.length.toNat_lt
  constructor
  · rintro ⟨path, data⟩
    rw [devicePath, position, ← known] at path
    rw [options, optionsLength, UInt64.toNat_sub, total] at data
    exact ⟨entry.length.toNat - (start + list.toNat), by omega, by omega⟩
  · rintro ⟨rest, length, few⟩
    refine ⟨?_, ?_⟩
    · rw [devicePath, position, ← known]
      omega
    · rw [options, optionsLength, UInt64.toNat_sub, total]
      omega

theorem within_of_mem {turns start length : ℕ}
    (reads : ∀ turns, ∀ window ∈ bootEntryReads turns entry, window.Within entry.length.toNat)
    (positive : 0 < length) (member : ⟨start, length⟩ ∈ bootEntryReads turns entry) :
    start + length ≤ entry.length.toNat :=
  (Window.within_iff_of_pos positive).mp (reads turns _ member)

/-- An entry that is read inside of the variable, and handed on so, is one of those that fit. -/
theorem entryFits_of_inside
    (reads : ∀ turns, ∀ window ∈ bootEntryReads turns entry, window.Within entry.length.toNat)
    (arguments : ∀ turns arguments, decodeBootEntry turns entry = .run arguments →
      ArgumentsInside entry arguments) : EntryFits entry.bytes entry.length.toNat := by
  refine ⟨within_of_mem reads (by decide) (List.mem_cons_self : _ ∈ bootEntryReads 0 entry), ?_⟩
  by_cases active : EfiLoadOption.attributes entry.bytes = 0
  · exact .inl active
  refine .inr ?_
  by_cases unlisted : (EfiLoadOption.filePathListLength entry.bytes).toNat < sizeofDevicePathNode
  · have looked := (bootEntryReads_unlisted 0 active unlisted).1
    have member : ⟨4, 2⟩ ∈ bootEntryReads 0 entry := by
      rw [looked]
      exact List.mem_cons_of_mem _ (List.mem_singleton_self _)
    exact ⟨within_of_mem reads (by decide) member, .inl unlisted⟩
  have member {turns : ℕ} {window : Window} := @mem_bootEntryReads_iff entry active unlisted turns window
  have six : 6 ≤ entry.length.toNat :=
    @within_of_mem entry 0 4 2 reads (by decide) (member.mpr (.inr (.inl rfl)))
  refine ⟨six, .inr ?_⟩
  -- every unit that the scan looks at lies in the variable, so its end does
  have scanned : ∀ turns, ∀ k ∈ wcslenReads (EfiLoadOption.description entry.bytes) turns,
      sizeofEfiLoadOption + 2 * k + 2 ≤ entry.length.toNat := fun turns k looked =>
    within_of_mem reads (by decide) (member.mpr (.inr (.inr (.inl ⟨k, looked, rfl⟩))))
  obtain ⟨length, -, ends⟩ := @endsAt_of_reads _ entry.length.toNat fun turns k looked => by
    have bound := scanned turns k looked
    omega
  have found : wcslen (EfiLoadOption.description entry.bytes) (length + 1) = some length :=
    wcslen_eq_some_iff.mpr ⟨Nat.lt_succ_self _, ends⟩
  have room : pathStart length ≤ entry.length.toNat := by
    have last := scanned (length + 1) length (mem_wcslenReads.mpr ⟨Nat.lt_succ_self _, ends.units⟩)
    rw [pathStart]
    omega
  have bound : pathStart length < 2 ^ 64 := Nat.lt_of_le_of_lt room entry.length.toNat_lt
  have position : (UInt64.ofNat (pathStart length)).toNat = pathStart length := by
    rw [UInt64.toNat_ofNat', Nat.mod_eq_of_lt bound]
  refine ⟨length, ends, ?_⟩
  split_ifs with atEnd
  · have type : entry.bytes (pathStart length) = endDevicePathType := by
      rw [isDevicePathEndNode, Bool.and_eq_true, beq_iff_eq] at atEnd
      exact atEnd.1
    have looked : ⟨pathStart length + 1, 1⟩ ∈ bootEntryReads (length + 1) entry := by
      refine member.mpr (.inr (.inr (.inr ⟨length, found, ?_⟩)))
      simp [endNodeReads, position, type]
    have last := within_of_mem reads (by decide) looked
    omega
  · refine (argumentsInside_iff bound).mp (arguments (length + 1) _ ?_)
    rw [decodeBootEntry_listed active unlisted, found]
    dsimp only
    rw [if_neg (by rwa [position])]
    rfl

/-- The decision about an entry that fits, given turns enough: it is skipped, or handed on with its
description and its path list inside of the variable. -/
inductive FitsDecision (entry : PoolVariable) : EntryDecision → Prop where
  | skip (status : EfiStatus) : FitsDecision entry (.skip status)
  | run {arguments : RunImage} (holds : HoldsPath entry.bytes entry.length.toNat)
      (inside : ArgumentsInside entry arguments) : FitsDecision entry (.run arguments)

/-- An entry that fits is read inside of the variable, and decided so once the scan has ended. -/
theorem inside_of_entryFits (fits : EntryFits entry.bytes entry.length.toNat) :
    (∀ turns, ∀ window ∈ bootEntryReads turns entry, window.Within entry.length.toNat) ∧
      ∃ enough, ∀ turns, if turns < enough then decodeBootEntry turns entry = .stuck
        else FitsDecision entry (decodeBootEntry turns entry) := by
  obtain ⟨four, rest⟩ := fits
  have header : (Window.mk 0 4).Within entry.length.toNat :=
    (Window.within_iff_of_pos (by decide)).mpr four
  by_cases active : EfiLoadOption.attributes entry.bytes = 0
  · refine ⟨fun turns window member => ?_, 0, fun turns => ?_⟩
    · rw [(bootEntryReads_inactive turns active).1] at member
      rwa [List.mem_singleton.mp member]
    · rw [if_neg (Nat.not_lt_zero turns), (bootEntryReads_inactive turns active).2]
      exact .skip _
  obtain ⟨six, rest⟩ := rest.resolve_left active
  have size : (Window.mk 4 2).Within entry.length.toNat :=
    (Window.within_iff_of_pos (by decide)).mpr six
  by_cases unlisted : (EfiLoadOption.filePathListLength entry.bytes).toNat < sizeofDevicePathNode
  · refine ⟨fun turns window member => ?_, 0, fun turns => ?_⟩
    · rw [(bootEntryReads_unlisted turns active unlisted).1] at member
      simp only [List.mem_cons, List.not_mem_nil, or_false] at member
      rcases member with rfl | rfl
      · exact header
      · exact size
    · rw [if_neg (Nat.not_lt_zero turns), (bootEntryReads_unlisted turns active unlisted).2]
      exact .skip _
  obtain ⟨length, ends, path⟩ := rest.resolve_left unlisted
  have room : pathStart length + 2 ≤ entry.length.toNat := by
    have listed : 4 ≤ (EfiLoadOption.filePathListLength entry.bytes).toNat := Nat.not_lt.mp unlisted
    split_ifs at path
    · exact path
    · obtain ⟨_, same, -⟩ := path
      omega
  have bound : pathStart length < 2 ^ 64 := by
    have limit := entry.length.toNat_lt
    omega
  have position : (UInt64.ofNat (pathStart length)).toNat = pathStart length := by
    rw [UInt64.toNat_ofNat', Nat.mod_eq_of_lt bound]
  refine ⟨fun turns window member => ?_, length + 1, fun turns => ?_⟩
  · rcases (mem_bootEntryReads_iff active unlisted).mp member with
      rfl | rfl | ⟨k, looked, rfl⟩ | ⟨found, scanned, node⟩
    · exact header
    · exact size
    · have before := ends.read_le looked
      rw [Window.within_iff_of_pos (by decide)]
      rw [pathStart] at room
      omega
    · obtain ⟨-, ends'⟩ := wcslen_eq_some_iff.mp scanned
      obtain rfl : found = length := ends'.unique ends
      rw [endNodeReads, position, List.mem_cons] at node
      rcases node with rfl | node
      · rw [Window.within_iff_of_pos (by decide)]
        omega
      · split_ifs at node
        · rw [List.mem_singleton.mp node, Window.within_iff_of_pos (by decide)]
          omega
        · cases node
  · rw [decodeBootEntry_listed active unlisted]
    split_ifs with few
    · have none : wcslen (EfiLoadOption.description entry.bytes) turns = none := by
        rw [Option.eq_none_iff_forall_ne_some]
        intro found scanned
        obtain ⟨within, ends'⟩ := wcslen_eq_some_iff.mp scanned
        rw [ends'.unique ends] at within
        omega
      rw [none]
    · rw [wcslen_eq_some_iff.mpr ⟨by omega, ends⟩]
      dsimp only
      rw [position]
      split_ifs at path ⊢ with atEnd
      · exact .skip _
      · refine .run ⟨length, ends, ?_⟩ ((argumentsInside_iff bound).mpr path)
        obtain ⟨_, same, -⟩ := path
        omega

end Entry

/-! ## Nothing else is read -/

section Complete

theorem wcslen_congr {s other : ℕ → UInt16} {turns : ℕ}
    (same : ∀ k ∈ wcslenReads s turns, other k = s k) : wcslen other turns = wcslen s turns := by
  induction turns generalizing s other with
  | zero => rfl
  | succ turns ih =>
    rw [wcslenReads, List.forall_mem_cons] at same
    rw [wcslen, wcslen, same.1]
    split_ifs at same ⊢
    · rfl
    · rw [ih fun k member => same.2 (k + 1) (List.mem_map_of_mem member)]

theorem isDevicePathEndNode_congr {bytes other : ByteStore} {pos : ℕ}
    (same : ∀ window ∈ endNodeReads bytes pos, ∀ offset, window.Contains offset →
      other offset = bytes offset) :
    isDevicePathEndNode (.read other pos) = isDevicePathEndNode (.read bytes pos) := by
  rw [endNodeReads, List.forall_mem_cons] at same
  have type : other pos = bytes pos := same.1 pos ⟨Nat.le_refl _, Nat.lt_succ_self _⟩
  simp only [isDevicePathEndNode, DevicePathNode.read, type]
  cases right : bytes pos == endDevicePathType with
  | false => rfl
  | true =>
    rw [if_pos right, List.forall_mem_singleton] at same
    rw [same.2 (pos + 1) ⟨Nat.le_refl _, Nat.lt_succ_self _⟩]

/-- The decision depends on nothing but the bytes that are looked at. -/
theorem decodeBootEntry_congr {turns : ℕ} {entry : PoolVariable} {other : ByteStore}
    (same : ∀ window ∈ bootEntryReads turns entry, ∀ offset, window.Contains offset →
      other offset = entry.bytes offset) :
    decodeBootEntry turns { entry with bytes := other } = decodeBootEntry turns entry := by
  have field {start width : ℕ} (member : ⟨start, width⟩ ∈ bootEntryReads turns entry) :
      other.readLE start width = entry.bytes.readLE start width :=
    @ByteStore.Keeps.readLE (Window.mk start width).Contains _ _ (same _ member) start width
      fun _ lower upper => ⟨lower, upper⟩
  have attributes : EfiLoadOption.attributes other = EfiLoadOption.attributes entry.bytes := by
    rw [EfiLoadOption.attributes, ByteStore.u32, field List.mem_cons_self]
    rfl
  by_cases active : EfiLoadOption.attributes entry.bytes = 0
  · simp [decodeBootEntry, attributes, active]
  have list : EfiLoadOption.filePathListLength other =
      EfiLoadOption.filePathListLength entry.bytes := by
    rw [EfiLoadOption.filePathListLength, ByteStore.u16, field]
    · rfl
    · simp [bootEntryReads, devicePathReads, active, loadOptionActive]
  by_cases unlisted : (EfiLoadOption.filePathListLength entry.bytes).toNat < sizeofDevicePathNode
  · rw [(bootEntryReads_unlisted turns active unlisted).2]
    have active' : EfiLoadOption.attributes other ≠ 0 := attributes.trans_ne active
    rw [← list] at unlisted
    exact (@bootEntryReads_unlisted { entry with bytes := other } turns active' unlisted).2
  have member {window : Window} := @mem_bootEntryReads_iff entry active unlisted turns window
  have units : wcslen (EfiLoadOption.description other) turns =
      wcslen (EfiLoadOption.description entry.bytes) turns := by
    apply wcslen_congr
    intro k looked
    rw [EfiLoadOption.description, ByteStore.u16, field]
    · rfl
    · exact member.mpr (.inr (.inr (.inl ⟨k, looked, rfl⟩)))
  have active' : EfiLoadOption.attributes other ≠ 0 := attributes.trans_ne active
  have listed' : ¬ (EfiLoadOption.filePathListLength other).toNat < sizeofDevicePathNode := by
    rwa [list]
  rw [decodeBootEntry_listed active unlisted,
    @decodeBootEntry_listed { entry with bytes := other } active' listed', units]
  cases found : wcslen (EfiLoadOption.description entry.bytes) turns with
  | none => rfl
  | some length =>
    have node := @isDevicePathEndNode_congr entry.bytes other
      (UInt64.ofNat (pathStart length)).toNat fun window looked =>
        same window (member.mpr (.inr (.inr (.inr ⟨length, found, looked⟩))))
    simp only [node, list]

end Complete

/-- The copy of a variable in pool memory. -/
def variableCopy (env : FitEnvironment) (number : UInt16) (data : List UInt8) : PoolVariable :=
  ⟨env.pool (bootEntryName number), UInt64.ofNat data.length, .ofList data env.behind⟩

/-- `boot_entry` keeps inside of a variable exactly when what it looks at, and hands on, is there. -/
theorem keepsInside_iff {env : FitEnvironment} {number : UInt16} {st : FitState} {data : List UInt8}
    (stored : st.vars (bootEntryName number) = some data) (nonempty : data ≠ [])
    (allocated : env.pool (bootEntryName number) ≠ 0) (size : data.length < 2 ^ 64) :
    KeepsInside env number st (variableCopy env number data) ↔
      EntryFits (.ofList data env.behind) data.length := by
  have length : (variableCopy env number data).length.toNat = data.length := by
    rw [variableCopy, UInt64.toNat_ofNat', Nat.mod_eq_of_lt size]
  have decided : ∀ turns, entryDecision { env with turns := turns } st.vars number =
      decodeBootEntry turns (variableCopy env number data) := by
    intro turns
    have some_ : data.isEmpty = false := List.isEmpty_eq_false_iff.mpr nonempty
    simp [entryDecision, efiVarGetPool, stored, some_, allocated, variableCopy]
  rw [← length]
  constructor
  · intro keeps
    exact entryFits_of_inside keeps.reads keeps.arguments
  · intro fits
    obtain ⟨reads, enough, decision⟩ := @inside_of_entryFits (variableCopy env number data) fits
    refine ⟨reads, fun turns arguments run => ?_, fun short => ⟨enough, fun turns many => ?_⟩⟩
    · have known := decision turns
      rw [run] at known
      split_ifs at known with few
      cases known with
      | run holds inside => exact inside
    · have known := decision turns
      rw [if_neg (Nat.not_lt.mpr many)] at known
      cases skipped : decodeBootEntry turns (variableCopy env number data) with
      | stuck =>
        rw [skipped] at known
        cases known
      | run arguments =>
        rw [skipped] at known
        cases known with
        | run holds inside => exact absurd holds short
      | skip status =>
        have returned := bootEntry_skip ((decided turns).trans skipped)
        exact ⟨status, st, returned, rfl⟩

/-- An entry without optional data is read inside of its variable. -/
theorem keepsInside_smallOption :
    KeepsInside smallEnvironment 1 ⟨smallVariables (smallOption 1 []), 0, []⟩
      (variableCopy smallEnvironment 1 (smallOption 1 []).encode) := by
  have stored : smallVariables (smallOption 1 []) (bootEntryName 1) =
    some (smallOption 1 []).encode := if_pos rfl
  refine (keepsInside_iff stored (by decide) (by decide) (by decide)).mpr ⟨by decide, .inr ?_⟩
  refine ⟨by decide, .inr ⟨1, ⟨?_, by decide⟩, ?_⟩⟩
  · decide
  · rw [if_neg (by decide)]
    exact ⟨0, by decide, .inl rfl⟩

/-- Six bytes that promise a path list: the scan starts behind them. -/
theorem not_keepsInside_headerOnly :
    ¬ ∀ (env : FitEnvironment) (number : UInt16) (st : FitState) (data : List UInt8),
      st.vars (bootEntryName number) = some data → data ≠ [] →
        env.pool (bootEntryName number) ≠ 0 → data.length < 2 ^ 64 →
          KeepsInside env number st (variableCopy env number data) := by
  intro claim
  have keeps := claim smallEnvironment 1 ⟨fun _ => some [1, 0, 0, 0, 4, 0], 0, []⟩ _ rfl (by decide)
    (by decide) (by decide)
  have read := keeps.reads 1 ⟨6, 2⟩ (by decide)
  revert read
  decide

end ZLoader
