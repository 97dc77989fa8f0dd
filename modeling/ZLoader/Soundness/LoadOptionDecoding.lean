import ZLoader.Soundness.BootEntry

/-! # Decoding a load option

A load option is laid out as attributes, the length of the device path list, the description with
its terminator, the device path list and optional data. The FIT stub finds the path list and the
optional data again, but subtracts the end of the variable from the start of the data, so the length
it hands on is the negative of the length of the data.
-/

namespace ZLoader

/-- The content of a load option variable. -/
structure LoadOption where
  attributes : UInt32
  description : List UInt16
  filePathList : List UInt8
  optionalData : List UInt8
  terminated : ∀ unit ∈ description, unit ≠ 0
  bounded : filePathList.length < 2 ^ 16

namespace LoadOption

/-- Wide characters in memory. -/
def unitBytes (units : List UInt16) : List UInt8 := units.flatMap fun unit => leBytes 2 unit.toNat

/-- The fixed fields and the description with its terminator. -/
def header (option : LoadOption) : List UInt8 :=
  leBytes 4 option.attributes.toNat ++ leBytes 2 option.filePathList.length ++
    unitBytes (option.description ++ [0])

/-- The variable that holds the option. -/
def encode (option : LoadOption) : List UInt8 :=
  option.header ++ option.filePathList ++ option.optionalData

/-- `boot_entry` does not skip the option: it has attributes, and its path list has a first node that
does not end the path. -/
def Bootable (option : LoadOption) : Prop :=
  option.attributes ≠ 0 ∧ sizeofDevicePathNode ≤ option.filePathList.length ∧
    option.filePathList.take 2 ≠ [endDevicePathType, endEntireDevicePathSubtype]

instance (option : LoadOption) : Decidable option.Bootable :=
  inferInstanceAs (Decidable (_ ∧ _ ∧ _))

theorem unitBytes_length (units : List UInt16) : (unitBytes units).length = 2 * units.length := by
  induction units with
  | nil => rfl
  | cons unit units ih =>
    rw [unitBytes, List.flatMap_cons, List.length_append, leBytes_length, ← unitBytes, ih,
      List.length_cons]
    omega

theorem header_length (option : LoadOption) :
    option.header.length = 2 * (option.description.length + 1) + sizeofEfiLoadOption := by
  simp only [header, List.length_append, leBytes_length, unitBytes_length, List.length_cons,
    List.length_nil, sizeofEfiLoadOption]
  omega

/-- The wide characters are read back one by one. -/
theorem u16_unitBytes (units : List UInt16) (rest : List UInt8) (behind : ByteStore) {index : ℕ}
    (bound : index < units.length) :
    (ByteStore.ofList (unitBytes units ++ rest) behind).u16 (2 * index) = units[index] := by
  induction units generalizing index with
  | nil => exact absurd bound (Nat.not_lt_zero _)
  | cons unit units ih =>
    have split : unitBytes (unit :: units) ++ rest =
        leBytes 2 unit.toNat ++ (unitBytes units ++ rest) := by
      rw [unitBytes, List.flatMap_cons, List.append_assoc]
      rfl
    rw [split]
    cases index with
    | zero =>
      rw [ByteStore.u16, Nat.mul_zero, ByteStore.readLE_ofList_leBytes,
        Nat.mod_eq_of_lt (by simpa using unit.toNat_lt)]
      exact UInt16.ofNat_toNat
    | succ index =>
      have next := ih (Nat.lt_of_succ_lt_succ bound)
      rw [← ByteStore.ofList_append_from (leBytes 2 unit.toNat), leBytes_length, ByteStore.u16,
        ByteStore.readLE_from] at next
      rw [ByteStore.u16, show 2 * (index + 1) = 2 + 2 * index by omega, next]
      rfl

end LoadOption

/-- A terminated string has the length that `wcslen` finds, given turns for its characters. -/
theorem wcslen_eq {s : ℕ → UInt16} {units : List UInt16} {turns : ℕ}
    (characters : ∀ (index : ℕ) (bound : index < units.length), s index = units[index])
    (nonzero : ∀ unit ∈ units, unit ≠ 0) (terminator : s units.length = 0)
    (enough : units.length < turns) : wcslen s turns = some units.length := by
  induction units generalizing s turns with
  | nil =>
    obtain ⟨turns, rfl⟩ := Nat.exists_eq_succ_of_ne_zero (Nat.ne_of_gt enough)
    have zero : s 0 = 0 := terminator
    simp [wcslen, zero]
  | cons unit units ih =>
    obtain ⟨turns, rfl⟩ : ∃ rest, turns = rest + 1 := ⟨turns - 1, by omega⟩
    have head : s 0 ≠ 0 := by
      rw [characters 0 (Nat.succ_pos _)]
      exact nonzero _ List.mem_cons_self
    have tail := ih (s := fun index => s (index + 1))
      (fun index bound => characters (index + 1) (Nat.succ_lt_succ bound))
      (fun other member => nonzero other (List.mem_cons_of_mem _ member)) terminator
      (Nat.lt_of_succ_lt_succ enough)
    simp [wcslen, head, tail]

namespace LoadOption

variable (option : LoadOption) (behind : ByteStore)

theorem attributes_encode :
    EfiLoadOption.attributes (.ofList option.encode behind) = option.attributes := by
  have bound : option.attributes.toNat < 256 ^ 4 := option.attributes.toNat_lt
  rw [EfiLoadOption.attributes, ByteStore.u32, encode, header]
  simp only [List.append_assoc]
  rw [ByteStore.readLE_ofList_leBytes, Nat.mod_eq_of_lt bound]
  exact UInt32.ofNat_toNat

/-- Past the attributes. -/
theorem filePathListLength_encode :
    EfiLoadOption.filePathListLength (.ofList option.encode behind) =
      UInt16.ofNat option.filePathList.length := by
  have read := ByteStore.readLE_ofList_leBytes 2 option.filePathList.length
    (unitBytes (option.description ++ [0]) ++ (option.filePathList ++ option.optionalData)) behind
  rw [← ByteStore.ofList_append_from (leBytes 4 option.attributes.toNat), leBytes_length,
    ByteStore.readLE_from, Nat.mod_eq_of_lt (by simpa using option.bounded)] at read
  rw [EfiLoadOption.filePathListLength, ByteStore.u16, encode, header]
  simp only [List.append_assoc] at read ⊢
  rw [read]

/-- Past the fixed fields stands the description. -/
theorem description_encode {index : ℕ} (bound : index < (option.description ++ [0]).length) :
    EfiLoadOption.description (.ofList option.encode behind) index =
      (option.description ++ [0])[index] := by
  have read := u16_unitBytes (option.description ++ [0])
    (option.filePathList ++ option.optionalData) behind bound
  rw [← ByteStore.ofList_append_from
      (leBytes 4 option.attributes.toNat ++ leBytes 2 option.filePathList.length), List.length_append,
    leBytes_length, leBytes_length, ByteStore.u16, ByteStore.readLE_from] at read
  rw [← read, EfiLoadOption.description, ByteStore.u16, encode, header]
  simp only [List.append_assoc]
  rfl

theorem wcslen_encode {turns : ℕ} (enough : option.description.length < turns) :
    wcslen (EfiLoadOption.description (.ofList option.encode behind)) turns =
      some option.description.length := by
  refine wcslen_eq (fun index bound => ?_) option.terminated ?_ enough
  · rw [description_encode option behind (by simp; omega), List.getElem_append_left bound]
  · rw [description_encode option behind (by simp)]
    simp

/-- The first node of the path list, when the list is long enough for one. -/
theorem isDevicePathEndNode_encode (long : sizeofDevicePathNode ≤ option.filePathList.length) :
    isDevicePathEndNode (.read (.ofList option.encode behind) option.header.length) = true ↔
      option.filePathList.take 2 = [endDevicePathType, endEntireDevicePathSubtype] := by
  obtain ⟨type, subtype, rest, split⟩ : ∃ type subtype rest,
      option.filePathList = type :: subtype :: rest := by
    match known : option.filePathList with
    | [] => simp [known, sizeofDevicePathNode] at long
    | [_] => simp [known, sizeofDevicePathNode] at long
    | type :: subtype :: rest => exact ⟨type, subtype, rest, rfl⟩
  have shifted := ByteStore.ofList_append_from option.header
    (option.filePathList ++ option.optionalData) behind
  rw [← List.append_assoc, split] at shifted
  have first : ByteStore.ofList option.encode behind option.header.length = type := by
    rw [encode, split]
    exact congrFun shifted 0
  have second : ByteStore.ofList option.encode behind (option.header.length + 1) = subtype := by
    rw [encode, split]
    exact congrFun shifted 1
  simp [isDevicePathEndNode, DevicePathNode.read, first, second, split]

/-- The arguments that the decoding comes to. -/
def arguments (address : UInt64) : RunImage :=
  let dp := address + UInt64.ofNat option.header.length
  let options := dp + UInt64.ofNat option.filePathList.length
  ⟨dp, options, options - (address + UInt64.ofNat option.encode.length)⟩

/-- The option in pool memory. -/
def pooled (address : UInt64) : PoolVariable :=
  ⟨address, UInt64.ofNat option.encode.length, .ofList option.encode behind⟩

theorem filePathListLength_lt_iff :
    UInt16.ofNat option.filePathList.length < UInt16.ofNat sizeofDevicePathNode ↔
      option.filePathList.length < sizeofDevicePathNode := by
  rw [UInt16.lt_iff_toNat_lt, UInt16.toNat_ofNat', UInt16.toNat_ofNat',
    Nat.mod_eq_of_lt (by simpa using option.bounded)]
  rfl

theorem header_le_encode : option.header.length ≤ option.encode.length := by
  rw [encode, List.length_append, List.length_append]
  omega

/-- `boot_entry` decodes a bootable option to its arguments and skips every other one. -/
theorem decodeBootEntry_encode {turns : ℕ} (enough : option.description.length < turns)
    (size : option.encode.length < 2 ^ 64) (address : UInt64) :
    (option.Bootable → decodeBootEntry turns (option.pooled behind address) =
      .run (option.arguments address)) ∧
    (¬ option.Bootable → ∃ status, decodeBootEntry turns (option.pooled behind address) =
      .skip status) := by
  have header := Nat.lt_of_le_of_lt option.header_le_encode size
  have position : (UInt64.ofNat option.header.length).toNat = option.header.length := by
    rw [UInt64.toNat_ofNat', Nat.mod_eq_of_lt header]
  have length : (UInt16.ofNat option.filePathList.length).toUInt64 =
      UInt64.ofNat option.filePathList.length := by
    apply UInt64.toNat_inj.mp
    have bound := option.bounded
    rw [UInt16.toNat_toUInt64, UInt16.toNat_ofNat', UInt64.toNat_ofNat', Nat.mod_eq_of_lt bound,
      Nat.mod_eq_of_lt (by omega)]
  unfold Bootable decodeBootEntry bootEntryGetDevicePath pooled
  simp only [attributes_encode, filePathListLength_encode, filePathListLength_lt_iff,
    wcslen_encode option behind enough, ← header_length, position]
  by_cases attributes : option.attributes = 0
  · simp [attributes]
  · by_cases short : option.filePathList.length < sizeofDevicePathNode
    · simp [attributes, short, loadOptionActive, Nat.not_le.mpr short,
        show efiUnsupported ≠ efiNotFound by decide, show efiError efiUnsupported = true by decide]
    · have ends := isDevicePathEndNode_encode option behind (Nat.le_of_not_lt short)
      by_cases empty : option.filePathList.take 2 = [endDevicePathType, endEntireDevicePathSubtype]
      · simp [attributes, short, loadOptionActive, ends, empty]
      · simp [attributes, short, loadOptionActive, ends, empty, arguments, length,
          Nat.le_of_not_lt short, show efiSuccess ≠ efiNotFound by decide,
          show efiError efiSuccess = false by decide]

end LoadOption

/-- The arguments of the calls of `run_image_from_file` so far. -/
def handedArguments (trace : List FitEvent) : List RunImage :=
  trace.filterMap fun event => match event with
    | .runImage _ arguments => some arguments
    | _ => none

/-- The pointers lead to the path list and the optional data, and the length is the number of bytes
of the optional data. -/
structure DecodesTo (option : LoadOption) (entry : PoolVariable) (arguments : RunImage) : Prop where
  filePathList : entry.bytes.bytesAt (arguments.devicePath - entry.address).toNat
    option.filePathList.length = option.filePathList
  optionalData : entry.bytes.bytesAt (arguments.options - entry.address).toNat
    option.optionalData.length = option.optionalData
  optionsLength : arguments.optionsLength.toNat = option.optionalData.length

/-- The variable of the entry holds the option, and there is memory for a copy of it. -/
structure HoldsOption (env : FitEnvironment) (number : UInt16) (st : FitState)
    (option : LoadOption) : Prop where
  stored : st.vars (bootEntryName number) = some option.encode
  pool : env.pool (bootEntryName number) ≠ 0
  enough : option.description.length < env.turns
  size : option.encode.length < 2 ^ 64

/-- `boot_entry` hands a bootable option over once, decoded, and no other option at all. -/
def HandsOverOption (env : FitEnvironment) (number : UInt16) (st : FitState)
    (option : LoadOption) : Prop :=
  let handed := handedArguments (bootEntry env number st).2.trace
  if option.Bootable then
    ∃ arguments, handed = handedArguments st.trace ++ [arguments] ∧
      DecodesTo option (option.pooled env.behind (env.pool (bootEntryName number))) arguments
  else handed = handedArguments st.trace

theorem handedArguments_image (trace : List FitEvent) (result : ImageResult) (image : FitImage)
    (arguments : RunImage) (bootCurrent : Option (List UInt8)) :
    handedArguments (trace ++ imageTrace result image arguments bootCurrent) =
      handedArguments trace ++ [arguments] := by
  unfold handedArguments imageTrace
  rw [List.filterMap_append]
  cases result.starts <;> rfl

/-- The decision about an option is the decoding of its copy. -/
theorem entryDecision_of_holds {env : FitEnvironment} {number : UInt16} {st : FitState}
    {option : LoadOption} (holds : HoldsOption env number st option) :
    entryDecision env st.vars number =
      decodeBootEntry env.turns (option.pooled env.behind (env.pool (bootEntryName number))) := by
  have nonempty : option.encode.isEmpty = false := by
    have header := option.header_le_encode
    rw [option.header_length] at header
    rw [List.isEmpty_eq_false_iff, ← List.length_pos_iff]
    omega
  unfold entryDecision efiVarGetPool
  simp [holds.stored, nonempty, holds.pool, LoadOption.pooled]

/-- The negative of a length is the length only when it is zero or half of the word size. -/
theorem neg_length_iff {length : ℕ} (bound : length < 2 ^ 64) :
    (0 - UInt64.ofNat length).toNat = length ↔ length = 0 ∨ length = 2 ^ 63 := by
  rw [UInt64.toNat_sub, UInt64.toNat_ofNat', Nat.mod_eq_of_lt bound]
  change (2 ^ 64 - length + 0) % 2 ^ 64 = length ↔ _
  omega

/-- The pointers of the decoding are right; its length is the negative of the right one. -/
theorem decodesTo_arguments_iff (option : LoadOption) (behind : ByteStore) (address : UInt64)
    (size : option.encode.length < 2 ^ 64) :
    DecodesTo option (option.pooled behind address) (option.arguments address) ↔
      option.optionalData.length = 0 ∨ option.optionalData.length = 2 ^ 63 := by
  have total : option.encode.length =
      option.header.length + option.filePathList.length + option.optionalData.length := by
    rw [LoadOption.encode, List.length_append, List.length_append]
  have devicePath : (option.arguments address).devicePath - address =
      UInt64.ofNat option.header.length := by
    unfold LoadOption.arguments
    grind
  have options : (option.arguments address).options - address =
      UInt64.ofNat (option.header ++ option.filePathList).length := by
    unfold LoadOption.arguments
    rw [List.length_append, UInt64.ofNat_add]
    grind
  have optionsLength : (option.arguments address).optionsLength =
      0 - UInt64.ofNat option.optionalData.length := by
    unfold LoadOption.arguments
    rw [total, UInt64.ofNat_add, UInt64.ofNat_add]
    grind
  rw [← neg_length_iff (by omega), ← optionsLength]
  refine ⟨fun decodes => decodes.optionsLength, fun same => ⟨?_, ?_, same⟩⟩
  · change (ByteStore.ofList option.encode behind).bytesAt
      ((option.arguments address).devicePath - address).toNat _ = _
    rw [devicePath, UInt64.toNat_ofNat', Nat.mod_eq_of_lt (by omega)]
    exact ByteStore.bytesAt_ofList option.header option.filePathList option.optionalData behind
  · change (ByteStore.ofList option.encode behind).bytesAt
      ((option.arguments address).options - address).toNat _ = _
    rw [options, UInt64.toNat_ofNat', Nat.mod_eq_of_lt (by rw [List.length_append]; omega)]
    have last := ByteStore.bytesAt_ofList (option.header ++ option.filePathList) option.optionalData
      [] behind
    rwa [List.append_nil] at last

/-- A load option is decoded exactly when it has no optional data, or half a word of it. -/
theorem handsOverOption_iff {env : FitEnvironment} {number : UInt16} {st : FitState}
    {option : LoadOption} (holds : HoldsOption env number st option) :
    HandsOverOption env number st option ↔
      (option.Bootable →
        option.optionalData.length = 0 ∨ option.optionalData.length = 2 ^ 63) := by
  obtain ⟨decoded, skipped⟩ := option.decodeBootEntry_encode env.behind holds.enough holds.size
    (env.pool (bootEntryName number))
  rw [← entryDecision_of_holds holds] at decoded skipped
  unfold HandsOverOption
  dsimp only
  by_cases bootable : option.Bootable
  · rw [if_pos bootable, (bootEntry_run (decoded bootable)).2, handedArguments_image]
    simp only [bootable, true_implies, List.append_cancel_left_eq, List.cons.injEq, and_true,
      exists_eq_left']
    exact decodesTo_arguments_iff option env.behind _ holds.size
  · obtain ⟨status, decision⟩ := skipped bootable
    rw [if_neg bootable, bootEntry_skip decision]
    simp [bootable]

/-! ## A small entry

Number 1, with a one-letter description, a path list of one media node and its end, and the optional
data that is asked for. -/

def smallOption (attributes : UInt32) (optionalData : List UInt8) : LoadOption :=
  ⟨attributes, [0x61], [0x04, 0x04, 0x04, 0x00, 0x7f, 0xff, 0x04, 0x00], optionalData, by simp,
    by simp⟩

/-- The variables of a firmware that knows this entry only. -/
def smallVariables (option : LoadOption) : Variables := fun name =>
  if name = bootEntryName 1 then some option.encode
  else if name = .bootOrder then some [1, 0]
  else none

/-- A firmware on which everything succeeds. -/
def smallEnvironment : FitEnvironment :=
  { arch := .aarch64
    results := fun _ => ⟨efiSuccess, efiSuccess, efiSuccess⟩
    pool := fun _ => 0x10000
    behind := fun _ => 0
    turns := 8
    devicePathUtilities := efiSuccess
    rootDevicePath := efiSuccess
    filePool := fun _ => true
    appendNode := fun _ => 0x20000 }

theorem holdsOption_small (option : LoadOption) (enough : option.description.length < 8)
    (size : option.encode.length < 2 ^ 64) :
    HoldsOption smallEnvironment 1 ⟨smallVariables option, 0, []⟩ option :=
  ⟨show smallVariables option (bootEntryName 1) = _ from if_pos rfl, by decide, enough, size⟩

theorem handsOverOption_smallOption :
    HandsOverOption smallEnvironment 1 ⟨smallVariables (smallOption 1 []), 0, []⟩
      (smallOption 1 []) :=
  (handsOverOption_iff (holdsOption_small _ (by decide) (by decide))).mpr fun _ => .inl rfl

/-- One byte of optional data is handed over with a length of `2 ^ 64 - 1`. -/
theorem not_handsOverOption_smallOption :
    ¬ ∀ (env : FitEnvironment) (number : UInt16) (st : FitState) (option : LoadOption),
      HoldsOption env number st option → HandsOverOption env number st option := by
  intro claim
  have handsOver := claim smallEnvironment 1 ⟨smallVariables (smallOption 1 [0x61]), 0, []⟩ _
    (holdsOption_small (smallOption 1 [0x61]) (by decide) (by decide))
  unfold HandsOverOption at handsOver
  rw [if_pos (by decide)] at handsOver
  obtain ⟨arguments, handed, decodes⟩ := handsOver
  have computed : [RunImage.mk 0x1000a 0x10012 (0 - 1)] = [arguments] :=
    Eq.trans (by decide) handed
  obtain rfl := List.singleton_inj.mp computed
  have length := decodes.optionsLength
  revert length
  decide

end ZLoader
