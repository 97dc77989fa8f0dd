import ZLoader.Soundness.AppendedSections
import ZLoader.Soundness.PatchedFile

/-! # Patching a file again

The second run finds the header fields as it would write them. What it reads otherwise is what the
first one read, with two exceptions that the checks allow: the fields may lie over the offset of the
PE header, and the size of the image over the section table.
-/

namespace ZLoader

/-! ## Runs that complete -/

/-- The checks of a run that completes. -/
structure FixupCompletes (arguments : FixupArguments) (file : InputFile) : Prop where
  accepted : HeadersAccepted file.size file.mapped
  magic : MagicAccepted file.mapped (peOffset file.mapped)
  within : TableWithin (mappedLimit file.size) arguments file.mapped (peOffset file.mapped)
  passes : PassesSections (mappedLimit file.size) arguments file.mapped (peOffset file.mapped)

/-- The headers when the section table is looked at. -/
def InputFile.headers (file : InputFile) (arguments : FixupArguments) : ByteStore :=
  fixedHeaders arguments file.mapped (peOffset file.mapped)

/-- The file as a run leaves it that completes. -/
def InputFile.patched (file : InputFile) (arguments : FixupArguments) : InputFile :=
  ⟨file.size, patchImageSize (file.headers arguments) (peOffset file.mapped)⟩

section Complete

variable {options : List FixupOption} {system : FixupSystem} {file : InputFile}
  {arguments : FixupArguments}

theorem FixupCompletes.room (completes : FixupCompletes arguments file) :
    peOffset file.mapped + 24 ≤ file.size.toNat := by
  have optional := completes.accepted.optionalHeader
  rw [peTable, sizeofPeCoffHeader] at optional
  omega

/-- A run completes when all checks pass. -/
theorem completed_iff (starts : FixupStarts options system file arguments) :
    (peFixup options system file).exit = .completed ↔ FixupCompletes arguments file := by
  have mapped : file.size.toNat ≤ mappedLimit file.size := le_roundUp (by decide) _
  have ends : (peFixup options system file).exit ≠ .completed ↔
      (peFixup options system file).Ends fun exit _ => exit ≠ .completed := Iff.rfl
  rw [← not_iff_not, ← ne_eq, ends, ends_peFixup_iff (by simp) (by simp)]
  constructor
  · intro all completes
    have changed := all arguments starts completes.accepted
    rw [ends_changed_iff (by simp) (completes.room.trans mapped)] at changed
    have subsystem := completes.within.subsystem
    exact ((changed (by omega)).2 completes.magic completes.within).2 completes.passes rfl
  · intro refused other starts' accepted
    obtain rfl := starts.unique starts'
    have optional := accepted.optionalHeader
    rw [ends_changed_iff (by simp) (by rw [peTable, sizeofPeCoffHeader] at optional; omega)]
    refine fun _ => ⟨by simp, fun magic within => ⟨by simp, fun passes => ?_⟩⟩
    exact absurd ⟨accepted, magic, within, passes⟩ refused

/-- What it leaves. -/
theorem FixupCompletes.memory (starts : FixupStarts options system file arguments)
    (completes : FixupCompletes arguments file) :
    (peFixup options system file).memory = (file.patched arguments).bytes := by
  rw [peFixup_completed ((completed_iff starts).mpr completes), fixedFile, starts.parsed]
  rfl

end Complete

/-! ## Writing again -/

section Again

/-- Two runs of the same writes: each byte is the same behind both, or kept by both. -/
def SameWrites (first firstAfter again againAfter : ByteStore) : Prop := ∀ offset,
  againAfter offset = firstAfter offset ∨
    againAfter offset = again offset ∧ firstAfter offset = first offset

theorem SameWrites.refl (first again : ByteStore) : SameWrites first first again again :=
  fun _ => .inr ⟨rfl, rfl⟩

theorem SameWrites.trans {first firstMiddle firstAfter again againMiddle againAfter : ByteStore}
    (early : SameWrites first firstMiddle again againMiddle)
    (late : SameWrites firstMiddle firstAfter againMiddle againAfter) :
    SameWrites first firstAfter again againAfter := by
  intro offset
  rcases late offset with same | ⟨kept, kept'⟩
  · exact .inl same
  · rw [kept, kept']
    exact early offset

theorem sameWrites_writeLE (first again : ByteStore) (start width value : ℕ) :
    SameWrites first (first.writeLE start width value) again (again.writeLE start width value) := by
  intro offset
  by_cases inside : (Window.mk start width).Contains offset
  · left
    rw [ByteStore.writeLE, ByteStore.writeLE, if_pos inside, if_pos inside]
  · exact .inr ⟨again.writeLE_outside value inside, first.writeLE_outside value inside⟩

theorem sameWrites_writeVersion (first again : ByteStore) (offset : ℕ)
    (version : UInt16 × UInt16) :
    SameWrites first (writeVersion first offset version) again
      (writeVersion again offset version) :=
  (sameWrites_writeLE first again offset 2 _).trans (sameWrites_writeLE _ _ (offset + 2) 2 _)

/-- The changes of an EFI application are the same for two files that are one. -/
theorem sameWrites_patchSubsystem {first again : ByteStore} {pe : ℕ} (arguments : FixupArguments)
    (same : IsEfiApplication again pe ↔ IsEfiApplication first pe) :
    SameWrites first (patchSubsystem arguments first pe) again
      (patchSubsystem arguments again pe) := by
  rw [patchSubsystem, patchSubsystem, if_congr same rfl rfl]
  split_ifs
  · cases arguments.efiVersion with
    | none => exact sameWrites_writeLE _ _ _ _ _
    | some version =>
      exact ((sameWrites_writeVersion first again (pe + 72) version).trans
        (sameWrites_writeVersion _ _ (pe + 64) version)).trans (sameWrites_writeLE _ _ _ _ _)
  · exact .refl _ _

/-- A field is zero when its bytes are. -/
theorem u32_eq_zero_iff {store : ByteStore} {offset : ℕ} :
    store.u32 offset = 0 ↔ ∀ index < 4, store (offset + index) = 0 := by
  constructor
  · intro zero index bound
    have small : store.readLE offset 4 < 2 ^ 32 := store.readLE_lt offset 4
    rw [ByteStore.u32, ← UInt32.toNat_inj, UInt32.toNat_ofNat', Nat.mod_eq_of_lt small] at zero
    exact ByteStore.byte_eq_zero bound zero
  · intro bytes
    have none : ByteStore.Keeps (Window.mk offset 4).Contains (fun _ => 0) store := by
      rintro at_ ⟨lower, upper⟩
      obtain ⟨index, rfl⟩ := Nat.exists_eq_add_of_le lower
      exact bytes index (Nat.lt_of_add_lt_add_left upper)
    exact (none.u32 fun at_ lower upper => ⟨lower, upper⟩).trans rfl

/-- The default of a field that is zero. -/
def patchDefault (memory : ByteStore) (offset value : ℕ) : ByteStore :=
  if memory.u32 offset == 0 then memory.writeLE offset 4 value else memory

theorem patchFileAlignment_eq (memory : ByteStore) (pe : ℕ) :
    patchFileAlignment memory pe = patchDefault memory (pe + 60) 0x200 := rfl

theorem patchSectionAlignment_eq (memory : ByteStore) (pe : ℕ) :
    patchSectionAlignment memory pe = patchDefault memory (pe + 56) 0x1000 := rfl

/-- A default of two bytes, the lower of which is zero, is found or written again, also when the
file ends in the field. -/
theorem patchDefault_again {first again : ByteStore} {size offset value : ℕ}
    (low : value % 256 = 0) (high : value / 256 % 256 ≠ 0) (small : value < 256 ^ 2)
    (tail : ∀ at_, (Window.mk offset 4).Contains at_ → size ≤ at_ → first at_ = 0)
    (left : ∀ at_, (Window.mk offset 4).Contains at_ →
      again at_ = if at_ < size then patchDefault first offset value at_ else 0)
    {at_ : ℕ} (inside : (Window.mk offset 4).Contains at_) :
    patchDefault again offset value at_ = patchDefault first offset value at_ := by
  obtain ⟨index, rfl⟩ : ∃ index, at_ = offset + index := Nat.exists_eq_add_of_le inside.1
  have bound : index < 4 := Nat.lt_of_add_lt_add_left inside.2
  have window {other : ℕ} (below : other < 4) : (Window.mk offset 4).Contains (offset + other) :=
    ⟨Nat.le_add_right _ _, Nat.add_lt_add_left below _⟩
  by_cases zero : first.u32 offset = 0
  · have written {other : ℕ} (below : other < 4) :
        patchDefault first offset value (offset + other) = UInt8.ofNat (value / 256 ^ other) := by
      rw [patchDefault, if_pos (beq_iff_eq.mpr zero), first.writeLE_inside value below]
    rcases Nat.lt_or_ge (offset + 1) size with reached | short
    · have found : again.u32 offset ≠ 0 := by
        rw [Ne, u32_eq_zero_iff, not_forall₂]
        refine ⟨1, by decide, ?_⟩
        rw [left _ (window (by decide)), if_pos reached, written (by decide), Nat.pow_one,
          ← UInt8.toNat_inj, UInt8.toNat_ofNat']
        exact high
      rw [patchDefault, if_neg (mt beq_iff_eq.mp found), left _ inside]
      split_ifs with below
      · rfl
      · have upper : 2 ≤ index := by omega
        have none : value / 256 ^ index = 0 :=
          Nat.div_eq_of_lt (small.trans_le (Nat.pow_le_pow_right (by decide) upper))
        rw [written bound, none]
        rfl
    · have found : again.u32 offset = 0 := by
        apply u32_eq_zero_iff.mpr
        intro other below
        rw [left _ (window below)]
        split_ifs with reached
        · obtain rfl : other = 0 := by omega
          rw [written below, Nat.pow_zero, Nat.div_one, ← UInt8.toNat_inj, UInt8.toNat_ofNat']
          exact low
        · rfl
      rw [patchDefault, if_pos (beq_iff_eq.mpr found), again.writeLE_inside value bound,
        written bound]
  · have kept : patchDefault first offset value = first :=
      if_neg (mt beq_iff_eq.mp zero)
    rw [kept] at left ⊢
    have same {other : ℕ} (contained : (Window.mk offset 4).Contains other) :
        again other = first other := by
      rw [left other contained]
      split_ifs with below
      · rfl
      · exact (tail other contained (Nat.le_of_not_lt below)).symm
    have found : again.u32 offset = first.u32 offset :=
      ByteStore.Keeps.u32 (fun other => same) fun other lower upper => ⟨lower, upper⟩
    rw [patchDefault, found, if_neg (mt beq_iff_eq.mp zero), same inside]

end Again

/-! ## The headers of the second run -/

section Patched

variable (file : InputFile) (arguments : FixupArguments)

/-- The headers with the new size of the image in them, as far as the file goes. -/
def InputFile.resized : ByteStore := fun offset =>
  if offset < file.size.toNat then (file.patched arguments).bytes offset
  else file.headers arguments offset

variable {file arguments}

theorem mapped_of_le {offset : ℕ} (beyond : file.size.toNat ≤ offset) : file.mapped offset = 0 :=
  if_neg (Nat.not_lt.mpr beyond)

/-- Outside of the size of the image a run leaves the headers. -/
theorem patched_bytes {offset : ℕ}
    (outside : offset < peOffset file.mapped + 80 ∨ peOffset file.mapped + 84 ≤ offset) :
    (file.patched arguments).bytes offset = file.headers arguments offset :=
  @ByteStore.keeps_writeLE (fun at_ => at_ < peOffset file.mapped + 80 ∨
    peOffset file.mapped + 84 ≤ at_) _ _ _ _ (fun _ apart => apart) offset outside

theorem patched_mapped {offset : ℕ}
    (outside : offset < peOffset file.mapped + 80 ∨ peOffset file.mapped + 84 ≤ offset) :
    (file.patched arguments).mapped offset =
      if offset < file.size.toNat then file.headers arguments offset else 0 := by
  rw [← patched_bytes outside]
  rfl

theorem resized_eq {offset : ℕ}
    (outside : offset < peOffset file.mapped + 80 ∨ peOffset file.mapped + 84 ≤ offset) :
    file.resized arguments offset = file.headers arguments offset := by
  rw [InputFile.resized, patched_bytes outside, ite_self]

/-- Where no header field is changed the second run finds the headers with the new size. -/
theorem patched_mapped_unpatched {offset : ℕ} (unpatched : Unpatched (peOffset file.mapped) offset) :
    (file.patched arguments).mapped offset = file.resized arguments offset := by
  change (if offset < file.size.toNat then _ else _) = if offset < file.size.toNat then _ else _
  split_ifs with inside
  · rfl
  · rw [InputFile.headers, fixedHeaders_keeps _ _ arguments offset unpatched,
      mapped_of_le (Nat.le_of_not_lt inside)]

/-- Where nothing is changed at all it finds what the first one found. -/
theorem patched_mapped_kept {offset : ℕ} (unpatched : Unpatched (peOffset file.mapped) offset)
    (outside : offset < peOffset file.mapped + 80 ∨ peOffset file.mapped + 84 ≤ offset) :
    (file.patched arguments).mapped offset = file.mapped offset := by
  rw [patched_mapped_unpatched unpatched, resized_eq outside, InputFile.headers,
    fixedHeaders_keeps _ _ arguments offset unpatched]

theorem isEfiApplication_again :
    IsEfiApplication (file.patched arguments).mapped (peOffset file.mapped) ↔
      IsEfiApplication file.mapped (peOffset file.mapped) := by
  have keeps : ByteStore.Keeps (Window.mk (peOffset file.mapped + 92) 2).Contains file.mapped
      (file.patched arguments).mapped := by
    rintro offset ⟨lower, upper⟩
    dsimp only at lower upper
    exact patched_mapped_kept (by rw [Unpatched]; omega) (by omega)
  have subsystem : PeImageHeaders.subsystem (file.patched arguments).mapped (peOffset file.mapped) =
      PeImageHeaders.subsystem file.mapped (peOffset file.mapped) :=
    keeps.u16 fun _ lower upper => ⟨lower, upper⟩
  rw [IsEfiApplication, IsEfiApplication, subsystem]

/-- The flags in the headers are those of the first change. -/
theorem headers_flags {offset : ℕ} (lower : peOffset file.mapped + 22 ≤ offset)
    (upper : offset < peOffset file.mapped + 24) :
    file.headers arguments offset =
      patchCharacteristics file.mapped (peOffset file.mapped) offset := by
  rw [InputFile.headers, fixedHeaders, patchSectionAlignment_keeps _ _ offset (by omega),
    patchFileAlignment_keeps _ _ offset (by omega), patchSubsystem_keeps _ _ _ offset (by omega)]

/-- The second run finds the flags set. -/
theorem characteristics_again (room : peOffset file.mapped + 24 ≤ file.size.toNat) :
    PeImageHeaders.characteristics (file.patched arguments).mapped (peOffset file.mapped) =
      PeImageHeaders.characteristics file.mapped (peOffset file.mapped) ||| fixupFlags := by
  have keeps : ByteStore.Keeps (Window.mk (peOffset file.mapped + 22) 2).Contains
      (patchCharacteristics file.mapped (peOffset file.mapped)) (file.patched arguments).mapped := by
    rintro offset ⟨lower, upper⟩
    dsimp only at lower upper
    rw [patched_mapped (by omega), if_pos (by omega), headers_flags lower (by omega)]
  exact (keeps.u16 fun _ lower upper => ⟨lower, upper⟩).trans (ByteStore.u16_writeLE _ _ _)

theorem patchCharacteristics_again (room : peOffset file.mapped + 24 ≤ file.size.toNat) :
    patchCharacteristics (file.patched arguments).mapped (peOffset file.mapped) =
      (file.patched arguments).mapped := by
  apply ByteStore.writeLE_readLE
  rw [← u16_eq_iff, ← PeImageHeaders.characteristics, characteristics_again room, UInt16.or_assoc,
    UInt16.or_self]

/-- The default of an alignment is found or written again. -/
theorem alignment_again {offset value : ℕ} {first again : ByteStore}
    (low : value % 256 = 0) (high : value / 256 % 256 ≠ 0) (small : value < 256 ^ 2)
    (before : ∀ at_, (Window.mk offset 4).Contains at_ → first at_ = file.mapped at_)
    (found : ∀ at_, (Window.mk offset 4).Contains at_ →
      again at_ = (file.patched arguments).mapped at_)
    (apart : offset + 4 ≤ peOffset file.mapped + 80)
    (behind : ∀ at_, (Window.mk offset 4).Contains at_ →
      file.headers arguments at_ = patchDefault first offset value at_)
    {at_ : ℕ} (inside : (Window.mk offset 4).Contains at_) :
    patchDefault again offset value at_ = file.headers arguments at_ := by
  have tail : ∀ at_, (Window.mk offset 4).Contains at_ → file.size.toNat ≤ at_ → first at_ = 0 :=
    fun other contained beyond => (before other contained).trans (mapped_of_le beyond)
  have left : ∀ at_, (Window.mk offset 4).Contains at_ → again at_ =
      if at_ < file.size.toNat then patchDefault first offset value at_ else 0 := by
    rintro other ⟨lower, upper⟩
    dsimp only at lower upper
    rw [found other ⟨lower, upper⟩, patched_mapped (by omega), behind other ⟨lower, upper⟩]
  rw [patchDefault_again low high small tail left inside, behind at_ inside]

theorem fileAlignment_again {offset : ℕ} (lower : peOffset file.mapped + 60 ≤ offset)
    (upper : offset < peOffset file.mapped + 64) :
    patchFileAlignment (patchSubsystem arguments (file.patched arguments).mapped
      (peOffset file.mapped)) (peOffset file.mapped) offset = file.headers arguments offset := by
  rw [patchFileAlignment_eq]
  refine @alignment_again file arguments (peOffset file.mapped + 60) 0x200
    (patchSubsystem arguments (patchCharacteristics file.mapped (peOffset file.mapped))
      (peOffset file.mapped)) _ (by decide) (by decide) (by decide) ?_ ?_ (by omega) ?_ _
      ⟨lower, upper⟩
  all_goals
    rintro at_ ⟨lower, upper⟩
    dsimp only at lower upper
  · rw [patchSubsystem_keeps _ _ _ at_ (by omega), patchCharacteristics_keeps _ _ at_ (by omega)]
  · exact patchSubsystem_keeps _ _ _ at_ (by omega)
  · rw [InputFile.headers, fixedHeaders, patchSectionAlignment_keeps _ _ at_ (by omega),
      patchFileAlignment_eq]

theorem sectionAlignment_again {offset : ℕ} (lower : peOffset file.mapped + 56 ≤ offset)
    (upper : offset < peOffset file.mapped + 60) :
    patchSectionAlignment (patchFileAlignment (patchSubsystem arguments
      (file.patched arguments).mapped (peOffset file.mapped)) (peOffset file.mapped))
      (peOffset file.mapped) offset = file.headers arguments offset := by
  rw [patchSectionAlignment_eq]
  refine @alignment_again file arguments (peOffset file.mapped + 56) 0x1000
    (patchFileAlignment (patchSubsystem arguments (patchCharacteristics file.mapped
      (peOffset file.mapped)) (peOffset file.mapped)) (peOffset file.mapped)) _ (by decide)
      (by decide) (by decide) ?_ ?_ (by omega) ?_ _ ⟨lower, upper⟩
  all_goals
    rintro at_ ⟨lower, upper⟩
    dsimp only at lower upper
  · rw [patchFileAlignment_keeps _ _ at_ (by omega), patchSubsystem_keeps _ _ _ at_ (by omega),
      patchCharacteristics_keeps _ _ at_ (by omega)]
  · rw [patchFileAlignment_keeps _ _ at_ (by omega), patchSubsystem_keeps _ _ _ at_ (by omega)]
  · rw [InputFile.headers, fixedHeaders, patchSectionAlignment_eq]

/-- The fields of an EFI application are written again, or never. -/
theorem subsystem_again {offset : ℕ} (lower : peOffset file.mapped + 64 ≤ offset)
    (outside : offset < peOffset file.mapped + 80 ∨ peOffset file.mapped + 84 ≤ offset) :
    patchSubsystem arguments (file.patched arguments).mapped (peOffset file.mapped) offset =
      file.headers arguments offset := by
  have headers : file.headers arguments offset = patchSubsystem arguments
      (patchCharacteristics file.mapped (peOffset file.mapped)) (peOffset file.mapped) offset := by
    rw [InputFile.headers, fixedHeaders, patchSectionAlignment_keeps _ _ offset (by omega),
      patchFileAlignment_keeps _ _ offset (by omega)]
  have same := (@isEfiApplication_again file arguments).trans isEfiApplication_patched.symm
  rcases sameWrites_patchSubsystem arguments same offset with written | ⟨again, first⟩
  · rw [headers, written]
  · rw [patchCharacteristics_keeps _ _ offset (by omega)] at first
    rw [again, patched_mapped outside, headers, first]
    split_ifs with inside
    · rfl
    · exact (mapped_of_le (Nat.le_of_not_lt inside)).symm

/-- The second run changes the header fields to what they are. -/
theorem fixedHeaders_again (room : peOffset file.mapped + 24 ≤ file.size.toNat) :
    fixedHeaders arguments (file.patched arguments).mapped (peOffset file.mapped) =
      file.resized arguments := by
  funext offset
  rcases Classical.em (Unpatched (peOffset file.mapped) offset) with unpatched | patched
  · rw [fixedHeaders_keeps _ _ arguments offset unpatched, patched_mapped_unpatched unpatched]
  · rw [Unpatched] at patched
    rw [resized_eq (by omega), fixedHeaders, patchCharacteristics_again room]
    rcases Nat.lt_or_ge offset (peOffset file.mapped + 24) with flags | behind
    · rw [patchSectionAlignment_keeps _ _ offset (by omega),
        patchFileAlignment_keeps _ _ offset (by omega), patchSubsystem_keeps _ _ _ offset (by omega),
        patched_mapped (by omega), if_pos (by omega)]
    rcases Nat.lt_or_ge offset (peOffset file.mapped + 60) with section_ | behind
    · exact sectionAlignment_again (by omega) section_
    rw [patchSectionAlignment_keeps _ _ offset (by omega)]
    rcases Nat.lt_or_ge offset (peOffset file.mapped + 64) with file_ | behind
    · exact fileAlignment_again (by omega) file_
    · rw [patchFileAlignment_keeps _ _ offset (by omega)]
      exact subsystem_again behind (by omega)

end Patched

/-! ## The second run -/

/-- A file that has all values which a run would give it. -/
structure FixedUp (arguments : FixupArguments) (file : InputFile) : Prop where
  completes : FixupCompletes arguments file
  headers : HeadersFixed file.size.toNat arguments file.mapped (peOffset file.mapped)
  size : ∀ index < 4, peOffset file.mapped + 80 + index < file.size.toNat →
    file.mapped (peOffset file.mapped + 80 + index) = UInt8.ofNat
      ((imageEnd (file.headers arguments) (peOffset file.mapped)).toNat / 256 ^ index)

/-- With the new size of the image in it, the section table has no empty section, and the image ends
in it where it did, as far as the file goes. -/
structure SectionsSettle (arguments : FixupArguments) (file : InputFile) : Prop where
  filled : ∀ index < (PeImageHeaders.numberOfSections file.mapped (peOffset file.mapped)).toNat,
    ¬ IsEmptySection (file.resized arguments)
      (sectionAt (peTable file.mapped (peOffset file.mapped)) index)
  size : ∀ index < 4, peOffset file.mapped + 80 + index < file.size.toNat →
    UInt8.ofNat ((imageEnd (file.resized arguments) (peOffset file.mapped)).toNat / 256 ^ index) =
      UInt8.ofNat ((imageEnd (file.headers arguments) (peOffset file.mapped)).toNat / 256 ^ index)

/-- The header fields are not changed where the offset of the PE header stands, and the section table
settles; or they are, and the file has other headers at the new offset with all their values. -/
structure StaysFixed (arguments : FixupArguments) (file : InputFile) : Prop where
  kept : peOffset (file.headers arguments) = peOffset file.mapped → SectionsSettle arguments file
  moved : peOffset (file.headers arguments) ≠ peOffset file.mapped →
    FixedUp arguments (file.patched arguments)

/-- The file behind a run. -/
def InputFile.behind (file : InputFile) (run : FixupRun) : InputFile := ⟨file.size, run.memory⟩

/-- A second run completes and leaves the file as the first one did. -/
structure Repeats (options : List FixupOption) (system : FixupSystem) (file : InputFile) : Prop where
  completed : (peFixup options system
    (file.behind (peFixup options system file))).exit = .completed
  unchanged : ByteStore.Keeps (· < file.size.toNat) (peFixup options system file).memory
    (peFixup options system (file.behind (peFixup options system file))).memory

section Second

variable {options : List FixupOption} {system : FixupSystem} {file : InputFile}
  {arguments : FixupArguments}

/-- Inside of a region the bytes of a field decide whether a write keeps it. -/
theorem keeps_writeLE_bytes_iff {size offset width value : ℕ} {store : ByteStore} :
    ByteStore.Keeps (· < size) store (store.writeLE offset width value) ↔
      ∀ index < width, offset + index < size →
        store (offset + index) = UInt8.ofNat (value / 256 ^ index) := by
  constructor
  · intro keeps index bound inside
    rw [← keeps _ inside, store.writeLE_inside value bound]
  · intro bytes at_ inside
    rcases Classical.em ((Window.mk offset width).Contains at_) with contained | outside
    · obtain ⟨index, rfl⟩ : ∃ index, at_ = offset + index := Nat.exists_eq_add_of_le contained.1
      have bound : index < width := Nat.lt_of_add_lt_add_left contained.2
      rw [store.writeLE_inside value bound, bytes index bound inside]
    · exact store.writeLE_outside value outside

/-- A run completes and changes nothing exactly for a file with all values. -/
theorem fixedUp_iff (starts : FixupStarts options system file arguments) :
    (peFixup options system file).exit = .completed ∧
        ByteStore.Keeps (· < file.size.toNat) file.bytes (peFixup options system file).memory ↔
      FixedUp arguments file := by
  rw [completed_iff starts]
  have unchanged (completes : FixupCompletes arguments file) :
      ByteStore.Keeps (· < file.size.toNat) file.bytes (peFixup options system file).memory ↔
        HeadersFixed file.size.toNat arguments file.mapped (peOffset file.mapped) ∧
          ∀ index < 4, peOffset file.mapped + 80 + index < file.size.toNat →
            file.mapped (peOffset file.mapped + 80 + index) = UInt8.ofNat
              ((imageEnd (file.headers arguments) (peOffset file.mapped)).toNat / 256 ^ index) := by
    have untouched : ByteStore.Keeps (Window.mk (peOffset file.mapped + 80) 4).Contains file.mapped
        (file.headers arguments) := by
      rintro offset ⟨lower, upper⟩
      dsimp only at lower upper
      exact fixedHeaders_keeps _ _ arguments offset (by rw [Unpatched]; omega)
    rw [completes.memory starts, keeps_mapped_iff, InputFile.patched, patchImageSize,
      ByteStore.keeps_writeLE_iff untouched, keeps_writeLE_bytes_iff, InputFile.headers,
      fixedHeaders_keeps_iff completes.room fun application => application.inside]
  constructor
  · rintro ⟨completes, keeps⟩
    obtain ⟨headers, size⟩ := (unchanged completes).mp keeps
    exact ⟨completes, headers, size⟩
  · rintro ⟨completes, headers, size⟩
    exact ⟨completes, (unchanged completes).mpr ⟨headers, size⟩⟩

/-- The second run starts as the first one did. -/
theorem FixupStarts.again (starts : FixupStarts options system file arguments) :
    FixupStarts options system (file.patched arguments) arguments :=
  ⟨starts.parsed, starts.filename, starts.openat, starts.statx, starts.mmap, starts.nonempty⟩

theorem repeats_iff_fixedUp (starts : FixupStarts options system file arguments)
    (completes : FixupCompletes arguments file) :
    Repeats options system file ↔ FixedUp arguments (file.patched arguments) := by
  have behind : file.behind (peFixup options system file) = file.patched arguments := by
    rw [InputFile.behind, completes.memory starts]
    rfl
  rw [← fixedUp_iff starts.again]
  constructor
  · rintro ⟨completed, unchanged⟩
    rw [behind] at completed unchanged
    rw [completes.memory starts] at unchanged
    exact ⟨completed, unchanged⟩
  · rintro ⟨completed, unchanged⟩
    refine ⟨?_, ?_⟩
    · rw [behind]
      exact completed
    · rw [behind, completes.memory starts]
      exact unchanged

/-- The flags are none of those that are checked. -/
theorem or_and_of_apart {flags set_ mask : UInt16} (apart : set_ &&& mask = 0) :
    (flags ||| set_) &&& mask = flags &&& mask := by
  apply UInt16.toBitVec_inj.mp
  rw [← UInt16.toBitVec_inj, UInt16.toBitVec_and] at apart
  rw [UInt16.toBitVec_and, UInt16.toBitVec_or, BitVec.and_or_distrib_right, apart,
    UInt16.toBitVec_and]
  exact BitVec.or_zero

/-- The region that neither run changes. -/
theorem patched_keeps : ByteStore.Keeps (fun offset => Unpatched (peOffset file.mapped) offset ∧
    (offset < peOffset file.mapped + 80 ∨ peOffset file.mapped + 84 ≤ offset)) file.mapped
    (file.patched arguments).mapped :=
  fun _ region => patched_mapped_kept region.1 region.2

/-- The offset of the PE header that the second run reads. -/
theorem peOffset_patched (completes : FixupCompletes arguments file) :
    peOffset (file.patched arguments).mapped = peOffset (file.headers arguments) := by
  have dosSize := completes.accepted.dosSize
  have location : dosPeOffsetLocation = 60 := rfl
  have keeps : ByteStore.Keeps (fun offset => offset < 64) (file.headers arguments)
      (file.patched arguments).mapped := by
    intro offset below
    rw [patched_mapped (by omega), if_pos (by omega)]
  rw [peOffset, peOffset, keeps.u32 (by omega)]

/-- The second run finds what the checks ask for. -/
theorem FixupCompletes.accepted_again (completes : FixupCompletes arguments file)
    (kept : peOffset (file.patched arguments).mapped = peOffset file.mapped) :
    HeadersAccepted (file.patched arguments).size (file.patched arguments).mapped := by
  have accepted := completes.accepted
  have keeps := @patched_keeps file arguments
  have sections : PeImageHeaders.numberOfSections (file.patched arguments).mapped
      (peOffset file.mapped) = PeImageHeaders.numberOfSections file.mapped (peOffset file.mapped) :=
    keeps.u16 fun at_ lower upper => by rw [Unpatched]; omega
  have length : PeImageHeaders.sizeOfOptionalHeader (file.patched arguments).mapped
      (peOffset file.mapped) =
        PeImageHeaders.sizeOfOptionalHeader file.mapped (peOffset file.mapped) :=
    keeps.u16 fun at_ lower upper => by rw [Unpatched]; omega
  have offset : (file.patched arguments).mapped.u32 dosPeOffsetLocation =
      file.mapped.u32 dosPeOffsetLocation := UInt32.toNat_inj.mp kept
  have flags := @characteristics_again file arguments completes.room
  refine ⟨?_, accepted.dosSize, ?_, ?_, ?_, ?_, ?_, ?_⟩
  · rw [keeps.u16 fun at_ lower upper => by rw [Unpatched]; omega]
    exact accepted.dos
  · rw [offset]
    exact accepted.offset
  · rw [kept, keeps.u32 fun at_ lower upper => by rw [Unpatched]; omega]
    exact accepted.signature
  · rw [kept, sections]
    exact accepted.sections
  · rw [kept, flags, or_and_of_apart (by decide)]
    exact accepted.relocs
  · rw [kept, flags, or_and_of_apart (by decide)]
    exact accepted.reversed
  · rw [kept, peTable, length]
    exact accepted.optionalHeader

/-- The second run completes where no section is empty. -/
theorem completes_again_iff (completes : FixupCompletes arguments file)
    (kept : peOffset (file.patched arguments).mapped = peOffset file.mapped) :
    FixupCompletes arguments (file.patched arguments) ↔
      ∀ index < (PeImageHeaders.numberOfSections file.mapped (peOffset file.mapped)).toNat,
        ¬ IsEmptySection (file.resized arguments)
          (sectionAt (peTable file.mapped (peOffset file.mapped)) index) := by
  have keeps := @patched_keeps file arguments
  have sections : PeImageHeaders.numberOfSections (file.patched arguments).mapped
      (peOffset file.mapped) = PeImageHeaders.numberOfSections file.mapped (peOffset file.mapped) :=
    keeps.u16 fun at_ lower upper => by rw [Unpatched]; omega
  have table : peTable (file.patched arguments).mapped (peOffset file.mapped) =
      peTable file.mapped (peOffset file.mapped) := by
    rw [peTable, peTable, PeImageHeaders.sizeOfOptionalHeader, PeImageHeaders.sizeOfOptionalHeader,
      keeps.u16 fun at_ lower upper => by rw [Unpatched]; omega]
  have magic : PeImageHeaders.magic (file.patched arguments).mapped (peOffset file.mapped) =
      PeImageHeaders.magic file.mapped (peOffset file.mapped) :=
    keeps.u16 fun at_ lower upper => by rw [Unpatched]; omega
  have passes : PassesSections (mappedLimit file.size) arguments (file.patched arguments).mapped
      (peOffset file.mapped) ↔
        ∀ index < (PeImageHeaders.numberOfSections file.mapped (peOffset file.mapped)).toNat,
          ¬ IsEmptySection (file.resized arguments)
            (sectionAt (peTable file.mapped (peOffset file.mapped)) index) := by
    rw [PassesSections, sections, table, fixedHeaders_again completes.room]
    refine forall₂_congr fun index bound => and_iff_left ?_
    exact (completes.passes index bound).2
  rw [← passes]
  constructor
  · intro again
    have passed := again.passes
    rwa [kept] at passed
  · intro passed
    refine ⟨completes.accepted_again kept, ?_, ?_, ?_⟩
    · rw [kept, MagicAccepted, magic]
      exact completes.magic
    · have within := completes.within
      rw [kept]
      refine ⟨within.subsystem, fun application => within.efi (isEfiApplication_again.mp application),
        within.prints, ?_⟩
      rw [sections, table]
      exact within.addresses
    · rw [kept]
      exact passed

/-- Where the offset of the PE header stays, the section table is all that matters. -/
theorem fixedUp_patched_iff (completes : FixupCompletes arguments file)
    (kept : peOffset (file.patched arguments).mapped = peOffset file.mapped) :
    FixedUp arguments (file.patched arguments) ↔ SectionsSettle arguments file := by
  have headers : (file.patched arguments).headers arguments = file.resized arguments := by
    rw [InputFile.headers, kept, fixedHeaders_again completes.room]
  have found : ByteStore.Keeps (· < file.size.toNat) (file.patched arguments).mapped
      (file.resized arguments) := by
    intro offset inside
    exact (if_pos inside).trans (if_pos inside).symm
  have written {index : ℕ} (bound : index < 4)
      (inside : peOffset file.mapped + 80 + index < file.size.toNat) :
      (file.patched arguments).mapped (peOffset file.mapped + 80 + index) = UInt8.ofNat
        ((imageEnd (file.headers arguments) (peOffset file.mapped)).toNat / 256 ^ index) :=
    (if_pos inside).trans (ByteStore.writeLE_inside _ _ bound)
  constructor
  · rintro ⟨again, -, size⟩
    refine ⟨(completes_again_iff completes kept).mp again, fun index bound inside => ?_⟩
    rw [kept, headers] at size
    rw [← written bound inside, size index bound inside]
  · rintro ⟨filled, size⟩
    have again := (completes_again_iff completes kept).mpr filled
    refine ⟨again, ?_, ?_⟩
    · rw [← fixedHeaders_keeps_iff again.room fun application => application.inside, kept,
        fixedHeaders_again completes.room]
      exact found
    · rw [kept, headers]
      intro index bound inside
      rw [written bound inside, size index bound inside]

/-- A second run changes nothing exactly where the file stays fixed. -/
theorem repeats_iff_staysFixed (completed : (peFixup options system file).exit = .completed) :
    Repeats options system file ↔ ∀ arguments, FixupStarts options system file arguments →
      StaysFixed arguments file := by
  obtain ⟨arguments, starts⟩ : ∃ arguments, FixupStarts options system file arguments := by
    by_contra never
    obtain ⟨text, run⟩ := peFixup_unstarted (not_exists.mp never)
    rw [run] at completed
    cases completed
  have completes := (completed_iff starts).mp completed
  rw [repeats_iff_fixedUp starts completes]
  have offset := peOffset_patched completes
  constructor
  · intro fixed other starts'
    obtain rfl := starts.unique starts'
    exact ⟨fun kept => (fixedUp_patched_iff completes (offset.trans kept)).mp fixed, fun _ => fixed⟩
  · intro stays
    obtain ⟨kept, moved⟩ := stays arguments starts
    rcases eq_or_ne (peOffset (file.headers arguments)) (peOffset file.mapped) with same | other
    · exact (fixedUp_patched_iff completes (offset.trans same)).mpr (kept same)
    · exact moved other

end Second

/-! ## Fields that lie apart -/

/-- The fields of a section header that the tool goes by: its sizes and its address. -/
def sectionSizes (section_ : ℕ) : Window := ⟨section_ + 8, 12⟩

/-- No field that is changed lies over a field that the tool goes by: over the offset of the PE
header those do not that change, and over the sections the size of the image does not. -/
structure FieldsApart (memory : ByteStore) : Prop where
  flags : peOffset memory < 37 ∨ 41 < peOffset memory
  fileAlignment : peOffset memory ≤ 2 → PeImageHeaders.fileAlignment memory (peOffset memory) ≠ 0
  sectionAlignment : peOffset memory = 5 ∨ peOffset memory = 6 →
    PeImageHeaders.sectionAlignment memory (peOffset memory) ≠ 0
  table : ∀ index < (PeImageHeaders.numberOfSections memory (peOffset memory)).toNat,
    Window.Disjoint ⟨peOffset memory + 80, 4⟩
      (sectionSizes (sectionAt (peTable memory (peOffset memory)) index))

section Apart

variable {memory first second : ByteStore} {options : List FixupOption} {system : FixupSystem}
  {file : InputFile} {arguments : FixupArguments}

/-- A default keeps a field that is not zero, and the lowest byte of every field. -/
theorem patchDefault_byte {offset value at_ : ℕ} (low : value % 256 = 0)
    (kept : at_ = offset ∨ memory.u32 offset ≠ 0) :
    patchDefault memory offset value at_ = memory at_ := by
  rw [patchDefault]
  split_ifs with zero
  · rw [beq_iff_eq] at zero
    obtain rfl := kept.resolve_right fun filled => filled zero
    have empty := u32_eq_zero_iff.mp zero 0 (by decide)
    have written : memory.writeLE at_ 4 value (at_ + 0) = UInt8.ofNat (value / 256 ^ 0) :=
      memory.writeLE_inside value (by decide)
    rw [Nat.add_zero] at empty written
    rw [written, empty, Nat.pow_zero, Nat.div_one, ← UInt8.toNat_inj, UInt8.toNat_ofNat']
    exact low
  · rfl

/-- A small offset of the PE header is the lowest byte of its field. -/
theorem peOffset_byte (small : peOffset memory < 256) :
    (memory dosPeOffsetLocation).toNat = peOffset memory := by
  have field : peOffset memory = memory.readLE dosPeOffsetLocation 4 := by
    rw [peOffset, ByteStore.u32, UInt32.toNat_ofNat']
    exact Nat.mod_eq_of_lt (memory.readLE_lt _ 4)
  have digit := memory.readLE_digit dosPeOffsetLocation (show 0 < 4 by decide)
  rw [Nat.pow_zero, Nat.div_one, ← field, Nat.mod_eq_of_lt small, Nat.add_zero] at digit
  exact digit.symm

/-- The section alignment that is written leaves the bytes of the offset of the PE header. -/
theorem FieldsApart.sectionAlignment_byte (apart : FieldsApart memory) {at_ : ℕ}
    (inside : (Window.mk (peOffset memory + 56) 4).Contains at_)
    (location : (Window.mk dosPeOffsetLocation 4).Contains at_) :
    fixedHeaders arguments memory (peOffset memory) at_ = memory at_ := by
  have same : ByteStore.Keeps (Window.mk (peOffset memory + 56) 4).Contains memory
      (patchFileAlignment (patchSubsystem arguments (patchCharacteristics memory
        (peOffset memory)) (peOffset memory)) (peOffset memory)) := by
    rintro other ⟨lower, upper⟩
    dsimp only at lower upper
    rw [patchFileAlignment_keeps _ _ other (by omega), patchSubsystem_keeps _ _ _ other (by omega),
      patchCharacteristics_keeps _ _ other (by omega)]
  have kept : at_ = peOffset memory + 56 ∨ memory.u32 (peOffset memory + 56) ≠ 0 := by
    rw [Window.contains_mk] at inside location
    rw [show dosPeOffsetLocation = 60 from rfl] at location
    rcases Nat.lt_or_ge 6 (peOffset memory) with above | below
    · left
      omega
    · right
      rcases Nat.lt_or_ge 4 (peOffset memory) with middle | low
      · exact apart.sectionAlignment (by omega)
      -- here the field holds the lowest byte of the offset, which is not zero
      · intro zero
        obtain ⟨index, lowest⟩ := Nat.exists_eq_add_of_le (show peOffset memory + 56 ≤ 60 by omega)
        have byte := u32_eq_zero_iff.mp zero index (by omega)
        have offset := @peOffset_byte memory (by omega)
        rw [show dosPeOffsetLocation = 60 from rfl, lowest, byte] at offset
        have none : peOffset memory = 0 := offset.symm
        apply apart.fileAlignment (by omega)
        rw [PeImageHeaders.fileAlignment, none]
        exact UInt32.toNat_inj.mp none
  rw [fixedHeaders, patchSectionAlignment_eq, patchDefault_byte (by decide), same at_ inside]
  rwa [same.u32 fun _ lower upper => ⟨lower, upper⟩]

/-- So does the file alignment. -/
theorem FieldsApart.fileAlignment_byte (apart : FieldsApart memory) {at_ : ℕ}
    (inside : (Window.mk (peOffset memory + 60) 4).Contains at_)
    (location : (Window.mk dosPeOffsetLocation 4).Contains at_) :
    fixedHeaders arguments memory (peOffset memory) at_ = memory at_ := by
  have same : ByteStore.Keeps (Window.mk (peOffset memory + 60) 4).Contains memory
      (patchSubsystem arguments (patchCharacteristics memory (peOffset memory))
        (peOffset memory)) := by
    rintro other ⟨lower, upper⟩
    dsimp only at lower upper
    rw [patchSubsystem_keeps _ _ _ other (by omega), patchCharacteristics_keeps _ _ other (by omega)]
  have kept : at_ = peOffset memory + 60 ∨ memory.u32 (peOffset memory + 60) ≠ 0 := by
    rw [Window.contains_mk] at inside location
    rw [show dosPeOffsetLocation = 60 from rfl] at location
    rcases Nat.lt_or_ge 2 (peOffset memory) with above | below
    · left
      omega
    · exact .inr (apart.fileAlignment below)
  obtain ⟨lower, upper⟩ := Window.contains_mk.mp inside
  rw [fixedHeaders, patchSectionAlignment_keeps _ _ at_ (by omega), patchFileAlignment_eq,
    patchDefault_byte (by decide), same at_ inside]
  rwa [same.u32 fun _ lower upper => ⟨lower, upper⟩]

/-- The changed fields leave the offset of the PE header. -/
theorem FieldsApart.peOffset_eq (apart : FieldsApart memory) :
    peOffset (fixedHeaders arguments memory (peOffset memory)) = peOffset memory := by
  have flags := apart.flags
  have keeps : ByteStore.Keeps (Window.mk dosPeOffsetLocation 4).Contains memory
      (fixedHeaders arguments memory (peOffset memory)) := by
    intro at_ location
    rcases Classical.em (Unpatched (peOffset memory) at_) with unpatched | patched
    · exact fixedHeaders_keeps _ _ arguments at_ unpatched
    · have bounds := Window.contains_mk.mp location
      rw [show dosPeOffsetLocation = 60 from rfl] at bounds
      rw [Unpatched] at patched
      rcases Nat.lt_or_ge at_ (peOffset memory + 60) with section_ | file_
      · exact apart.sectionAlignment_byte (Window.contains_mk.mpr (by omega)) location
      · exact apart.fileAlignment_byte (Window.contains_mk.mpr (by omega)) location
  rw [peOffset, keeps.u32 fun _ lower upper => ⟨lower, upper⟩, peOffset]

/-- Equal sizes and addresses make equal ends. -/
theorem largestVma_congr {count table : ℕ}
    (same : ∀ index < count,
      ByteStore.Keeps (sectionSizes (sectionAt table index)).Contains first second) :
    largestVma (sectionHeaders second table count) =
      largestVma (sectionHeaders first table count) := by
  rw [largestVma, largestVma, sectionHeaders, sectionHeaders, List.foldl_map, List.foldl_map]
  apply List.foldl_ext
  intro largest index member
  have keeps := same index (List.mem_range.mp member)
  have address : second.u32 (table + sizeofPeSectionHeader * index + 12) =
      first.u32 (table + sizeofPeSectionHeader * index + 12) :=
    keeps.u32 fun _ lower upper => by
      rw [sectionSizes, sectionAt, Window.contains_mk]
      omega
  have size : second.u32 (table + sizeofPeSectionHeader * index + 8) =
      first.u32 (table + sizeofPeSectionHeader * index + 8) :=
    keeps.u32 fun _ lower upper => by
      rw [sectionSizes, sectionAt, Window.contains_mk]
      omega
  rw [PeSectionHeader.read, PeSectionHeader.read, address, size]

/-- A file stays fixed whose changed fields lie apart from those that the tool goes by. -/
theorem staysFixed_of_apart (completes : FixupCompletes arguments file)
    (apart : FieldsApart file.mapped) : StaysFixed arguments file := by
  have sizes (index : ℕ) (bound : index < (PeImageHeaders.numberOfSections file.mapped
      (peOffset file.mapped)).toNat) :
      ByteStore.Keeps (sectionSizes (sectionAt (peTable file.mapped (peOffset file.mapped))
        index)).Contains (file.headers arguments) (file.resized arguments) := by
    intro offset inside
    apply resized_eq
    by_contra within
    exact apart.table index bound offset (by
      rw [Window.contains_mk]
      omega) inside
  have keeps : ByteStore.Keeps (· < peOffset file.mapped + 80) (file.headers arguments)
      (file.resized arguments) := fun offset before => resized_eq (.inl before)
  obtain ⟨tableKept, sectionsKept⟩ :=
    @fixedHeaders_table (peOffset file.mapped) file.mapped arguments
  refine ⟨fun _ => ⟨fun index bound => ?_, ?_⟩, fun moved => absurd apart.peOffset_eq moved⟩
  · have filled := (completes.passes index bound).1
    rw [IsEmptySection] at filled ⊢
    have size : (file.resized arguments).u32
        (sectionAt (peTable file.mapped (peOffset file.mapped)) index + 16) =
          (file.headers arguments).u32
            (sectionAt (peTable file.mapped (peOffset file.mapped)) index + 16) :=
      (sizes index bound).u32 fun _ lower upper => by
        rw [sectionSizes, Window.contains_mk]
        omega
    rw [PeSectionHeader.read, size]
    exact filled
  · have length : peTable (file.resized arguments) (peOffset file.mapped) =
        peTable (file.headers arguments) (peOffset file.mapped) := by
      rw [peTable, peTable, PeImageHeaders.sizeOfOptionalHeader,
        PeImageHeaders.sizeOfOptionalHeader, keeps.u16 fun _ _ _ => by omega]
    have count : PeImageHeaders.numberOfSections (file.resized arguments) (peOffset file.mapped) =
        PeImageHeaders.numberOfSections (file.headers arguments) (peOffset file.mapped) :=
      keeps.u16 fun _ _ _ => by omega
    have alignment : PeImageHeaders.sectionAlignment (file.resized arguments)
        (peOffset file.mapped) =
          PeImageHeaders.sectionAlignment (file.headers arguments) (peOffset file.mapped) :=
      keeps.u32 fun _ _ _ => by omega
    have stands : peTable (file.headers arguments) (peOffset file.mapped) =
        peTable file.mapped (peOffset file.mapped) := tableKept
    have listed : PeImageHeaders.numberOfSections (file.headers arguments) (peOffset file.mapped) =
        PeImageHeaders.numberOfSections file.mapped (peOffset file.mapped) := sectionsKept
    have ends : imageEnd (file.resized arguments) (peOffset file.mapped) =
        imageEnd (file.headers arguments) (peOffset file.mapped) := by
      rw [imageEnd, imageEnd, peSections, peSections, length, count, alignment, stands, listed,
        largestVma_congr sizes]
    exact fun index _ _ => by rw [ends]

/-- A second run changes nothing where the changed fields lie apart from those that the tool goes
by; elsewhere it does exactly where what is written over them happens to leave the file fixed. -/
theorem repeats_iff (completed : (peFixup options system file).exit = .completed) :
    (FieldsApart file.mapped → Repeats options system file) ∧
      (¬ FieldsApart file.mapped → (Repeats options system file ↔ ∀ arguments,
        FixupStarts options system file arguments → StaysFixed arguments file)) := by
  refine ⟨fun apart => ?_, fun _ => repeats_iff_staysFixed completed⟩
  apply (repeats_iff_staysFixed completed).mpr
  intro arguments starts
  exact staysFixed_of_apart ((completed_iff starts).mp completed) apart

instance (memory : ByteStore) : Decidable (FieldsApart memory) :=
  decidable_of_iff (_ ∧ _ ∧ _ ∧ _)
    ⟨fun ⟨flags, file, section_, table⟩ => ⟨flags, file, section_, table⟩,
      fun apart => ⟨apart.flags, apart.fileAlignment, apart.sectionAlignment, apart.table⟩⟩

/-- An ordinary executable is patched twice. -/
theorem repeats_smallExecutable :
    Repeats smallOptions smallSystem (smallExecutable [0x1000, 0x4000]) :=
  (repeats_iff (by decide +kernel)).1 (by decide +kernel)

/-- An executable with an optional header of 48 bytes, so that the size of the image is the size of
its section. -/
def overlaidExecutable : InputFile :=
  ⟨0x800, smallImage 1 0x1000 0x1000 0 [(0x54, 2, 48), (0x98, 4, 0x200), (0x9c, 4, 0x400)]⟩

/-- Its section is longer for the second run. -/
theorem not_repeats_overlaid :
    ¬ ∀ (options : List FixupOption) (system : FixupSystem) (file : InputFile),
      (peFixup options system file).exit = .completed → Repeats options system file := by
  intro claim
  have repeats := claim smallOptions smallSystem overlaidExecutable (by decide +kernel)
  have size := repeats.unchanged 0x91 (by decide)
  revert size
  decide +kernel

/-- An executable with an optional header of a length. The first section header that reaches behind
the start of the size of the image has the given size and address, and one in front of it none. -/
def overlapExecutable (length virtualSize virtualAddress : ℕ) : InputFile :=
  let index := if length < 16 then 1 else 0
  let section_ := sectionAt (0x58 + length) index
  ⟨0x800, .ofFields [(0, 2, 0x5a4d), (0x3c, 4, 0x40), (0x40, 4, 0x4550), (0x46, 2, index + 1),
    (0x54, 2, length), (0x58, 2, 0x20b), (0x78, 4, 0x1000), (0x7c, 4, 0x200),
    (0x58 + length + 16, 4, 0x1000000), (section_ + 8, 4, virtualSize),
    (section_ + 12, 4, virtualAddress), (section_ + 16, 4, 0x1000000)]⟩

/-- Wherever the size of the image lies over the sizes of a section, there is a file for which the
second run does not repeat the first one. -/
theorem exists_not_repeats {length index : ℕ}
    (overlaid : ¬ Window.Disjoint ⟨80, 4⟩ (sectionSizes (sectionAt (24 + length) index))) :
    ∃ file, (peFixup smallOptions smallSystem file).exit = .completed ∧
      PeImageHeaders.sizeOfOptionalHeader file.mapped (peOffset file.mapped) =
        UInt16.ofNat length ∧ ¬ Repeats smallOptions smallSystem file := by
  have short : length < 52 ∧ index < 2 := by
    rw [Window.disjoint_iff, sectionSizes, sectionAt, sizeofPeSectionHeader] at overlaid
    dsimp only at overlaid
    omega
  have differs : ∀ index < 2, ∀ length < 52,
      ¬ Window.Disjoint ⟨80, 4⟩ (sectionSizes (sectionAt (24 + length) index)) →
      ∃ sizes ∈ [(0x1000, 0x1000000), (0xfefefeff, 0x1010101)],
        let file := overlapExecutable length sizes.1 sizes.2
        let run := peFixup smallOptions smallSystem file
        run.exit = .completed ∧
          PeImageHeaders.sizeOfOptionalHeader file.mapped (peOffset file.mapped) =
            UInt16.ofNat length ∧
          ((peFixup smallOptions smallSystem (file.behind run)).exit ≠ .completed ∨
            ∃ at_ < 4, (peFixup smallOptions smallSystem (file.behind run)).memory (0x90 + at_) ≠
              run.memory (0x90 + at_)) := by
    decide +kernel
  obtain ⟨sizes, -, completed, optional, again⟩ := differs index short.2 length short.1 overlaid
  refine ⟨_, completed, optional, fun repeats => ?_⟩
  rcases again with refused | ⟨at_, bound, changed⟩
  · exact refused repeats.completed
  · refine changed (repeats.unchanged (0x90 + at_) ?_)
    have size : (overlapExecutable length sizes.1 sizes.2).size.toNat = 0x800 := rfl
    rw [size]
    omega

end Apart

end ZLoader
