import Mathlib.Algebra.Order.BigOperators.Group.List
import Mathlib.Algebra.Order.Group.Nat
import Mathlib.Data.List.Basic
import ZLoader.Model.Tools.AssertedBuild
import ZLoader.Soundness.BuildTurns
import ZLoader.Soundness.VirtualLayout

/-! # The assertion on the size of the file

The mapping is as long as the stub with all rounded files, and so is the file once the last section
has been added: the assertion that it is shorter fails in every run, unless the size that is added
for a section is not the one that was computed for the mapping.
-/

namespace ZLoader

/-! ## What a build with assertions adds -/

theorem assert_eq_ok_iff {condition : Bool} {text : String} :
    assert_ condition text = .ok () ↔ condition = true := by
  cases condition with
  | false => exact iff_of_false nofun nofun
  | true => exact iff_of_true rfl rfl

namespace BuildInput

variable (input : BuildInput)

/-- A kernel that is a PE file passes its assertion. -/
def KernelLonger : Prop :=
  ∀ kernel, inspectPe input.linux = some kernel → input.linux.size.toUInt32 < kernel.imageSize

/-- The turns of the loop that adds the sections. -/
def turns : List (SectionVma × BuildState) :=
  buildTurns input.mappedPe input.fileAlignment input.sectionAlignment input.vmas input.start

variable {input}

theorem assertKernel_iff : (∀ id ∈ sectionDataIds, ∀ file, input.file id = some file →
    assertKernel id file = .ok ()) ↔ input.KernelLonger := by
  constructor
  · intro passes kernel inspected
    have linux := passes .linux (by decide) input.linux rfl
    rw [assertKernel, if_pos rfl, inspected] at linux
    simpa using assert_eq_ok_iff.mp linux
  · intro longer id _ file given
    by_cases linux : id = .linux
    · subst linux
      obtain rfl := Option.some.inj given
      rw [assertKernel, if_pos rfl]
      cases inspected : inspectPe input.linux with
      | none => rfl
      | some kernel => exact assert_eq_ok_iff.mpr (by simpa using longer kernel inspected)
    · rw [assertKernel, if_neg linux]

end BuildInput

theorem openSectionsAsserted_eq_ok_iff {input : BuildInput} {architecture : UInt16}
    {fileAlignment sectionAlignment : UInt32} {ids : List SectionDataId} {filesize : UInt64}
    {opened : OpenedSections} :
    openSectionsAsserted input architecture fileAlignment ids sectionAlignment filesize =
        .ok opened ↔
      openSections input architecture fileAlignment ids sectionAlignment filesize = .ok opened ∧
        ∀ id ∈ ids, ∀ file, input.file id = some file → assertKernel id file = .ok () := by
  induction ids generalizing sectionAlignment filesize opened with
  | nil =>
    rw [openSectionsAsserted, openSections]
    simp
  | cons id ids ih =>
    rw [openSectionsAsserted, openSections, List.forall_mem_cons]
    cases given : input.file id with
    | none => simpa using ih
    | some file =>
      have head : (∀ other, some file = some other → assertKernel id other = .ok ()) ↔
          assertKernel id file = .ok () := by
        simp
      rw [head]
      simp only [bind_eq_ok_iff, map_eq_ok_iff, mapError_eq_ok_iff]
      constructor
      · rintro ⟨⟨⟩, passed, first, plain, rest, tail, result⟩
        obtain ⟨same, passes⟩ := ih.mp tail
        exact ⟨⟨first, plain, rest, same, result⟩, passed, passes⟩
      · rintro ⟨⟨first, plain, rest, same, result⟩, passed, passes⟩
        exact ⟨(), passed, first, plain, rest, ih.mpr ⟨same, passes⟩, result⟩

/-- The loop passes its assertion in every turn. -/
theorem appendSectionsAsserted_eq_ok_iff {memSize : UInt64} {limit pe : ℕ}
    {fileAlignment sectionAlignment : UInt32} {vmas : List SectionVma} {st last : BuildState} :
    appendSectionsAsserted memSize limit pe fileAlignment sectionAlignment vmas st = .ok last ↔
      appendSections limit pe fileAlignment sectionAlignment vmas st = .ok last ∧
        ∀ turn ∈ buildTurns pe fileAlignment sectionAlignment vmas st,
          (turn.2.after pe fileAlignment sectionAlignment turn.1).filesize < memSize := by
  induction vmas generalizing st with
  | nil =>
    rw [appendSectionsAsserted, appendSections, buildTurns]
    simp
  | cons vma rest ih =>
    rw [appendSectionsAsserted, appendSections, buildTurns, List.forall_mem_cons]
    simp only [bind_eq_ok_iff, mapError_eq_ok_iff]
    constructor
    · rintro ⟨next, first, ⟨⟩, below, later⟩
      obtain ⟨-, rfl⟩ := appendSection_eq_ok_iff.mp first
      obtain ⟨appended, others⟩ := ih.mp later
      exact ⟨⟨_, first, appended⟩, of_decide_eq_true (assert_eq_ok_iff.mp below), others⟩
    · rintro ⟨⟨next, first, appended⟩, below, others⟩
      obtain ⟨-, rfl⟩ := appendSection_eq_ok_iff.mp first
      exact ⟨_, first, (), assert_eq_ok_iff.mpr (decide_eq_true below),
        ih.mpr ⟨appended, others⟩⟩

theorem map_appendSectionsAsserted_iff {memSize : UInt64} {limit pe : ℕ}
    {fileAlignment sectionAlignment : UInt32} {vmas : List SectionVma} {st : BuildState}
    {finish : BuildState → InputFile} {out : InputFile} :
    (appendSectionsAsserted memSize limit pe fileAlignment sectionAlignment vmas st).map finish =
        .ok out ↔
      (appendSections limit pe fileAlignment sectionAlignment vmas st).map finish = .ok out ∧
        ∀ turn ∈ buildTurns pe fileAlignment sectionAlignment vmas st,
          (turn.2.after pe fileAlignment sectionAlignment turn.1).filesize < memSize := by
  rw [map_eq_ok_iff, map_eq_ok_iff]
  constructor
  · rintro ⟨last, asserted, finished⟩
    obtain ⟨appended, below⟩ := appendSectionsAsserted_eq_ok_iff.mp asserted
    exact ⟨⟨last, appended, finished⟩, below⟩
  · rintro ⟨⟨last, appended, finished⟩, below⟩
    exact ⟨last, appendSectionsAsserted_eq_ok_iff.mpr ⟨appended, below⟩, finished⟩

theorem assembleAsserted_eq_ok_iff {input : BuildInput} {out : InputFile} :
    assembleAsserted input input.fileAlignment
          ⟨input.vmas, input.sectionAlignment, input.mappedSize⟩ = .ok out ↔
      assemble input input.fileAlignment
          ⟨input.vmas, input.sectionAlignment, input.mappedSize⟩ = .ok out ∧
        ∀ turn ∈ input.turns, (turn.2.after input.mappedPe input.fileAlignment
          input.sectionAlignment turn.1).filesize < input.mappedSize := by
  rw [assembleAsserted, assemble]
  dsimp only
  cases checked : checkStub (mappedMemory input input.mappedSize) input.mappedSize with
  | some text => exact iff_of_false (by rintro ⟨⟩) (by rintro ⟨⟨⟩, -⟩)
  | none =>
    dsimp only
    split_ifs with within
    · exact map_appendSectionsAsserted_iff
    · exact iff_of_false (by rintro ⟨⟩) (by rintro ⟨⟨⟩, -⟩)

/-- A build with assertions does the same as one without when all of them hold. -/
theorem buildImageAsserted_eq_ok_iff {input : BuildInput} {out : InputFile} :
    buildImageAsserted input = .ok out ↔ buildImage input = .ok out ∧ input.KernelLonger ∧
      ∀ turn ∈ input.turns, (turn.2.after input.mappedPe input.fileAlignment
        input.sectionAlignment turn.1).filesize < input.mappedSize := by
  rw [buildImageAsserted, buildImage]
  cases inspected : inspectPe input.stub with
  | none => exact iff_of_false (by rintro ⟨⟩) (by rintro ⟨⟨⟩, -⟩)
  | some stub =>
    obtain ⟨⟨stubSize, -⟩, rfl⟩ := inspectPe_eq_some inspected
    have nonempty : 0 < input.stub.size := by
      have header : peHeaderSize = 4098 := rfl
      exact UInt64.lt_iff_toNat_lt.mpr (Nat.lt_of_lt_of_le (by decide) stubSize)
    have opens (opened : OpenedSections) := @openSectionsAsserted_eq_ok_iff input
      (PeImageHeaders.machine input.stub.bytes input.pe) input.fileAlignment input.stubAlignment
      sectionDataIds input.stub.size opened
    simp only [@BuildInput.assertKernel_iff input] at opens
    change (openSectionsAsserted input (PeImageHeaders.machine input.stub.bytes input.pe)
      input.fileAlignment sectionDataIds input.stubAlignment input.stub.size).bind (fun opened =>
        if input.stub.size.toNat > maxTransfer then _
        else (assert_ (input.stub.size > 0) "orig_filesize > 0").bind fun _ =>
          assembleAsserted input input.fileAlignment opened) = .ok out ↔
      (openSections input (PeImageHeaders.machine input.stub.bytes input.pe)
        input.fileAlignment sectionDataIds input.stubAlignment input.stub.size).bind (fun opened =>
          if input.stub.size.toNat > maxTransfer then _
          else assemble input input.fileAlignment opened) = .ok out ∧ _
    rw [bind_eq_ok_iff, bind_eq_ok_iff]
    constructor
    · rintro ⟨opened, asserted, ok⟩
      obtain ⟨opening, kernel⟩ := (opens opened).mp asserted
      obtain rfl := BuildInput.openSections_ok opening
      split_ifs at ok with transferred
      obtain ⟨⟨⟩, -, ok⟩ := bind_eq_ok_iff.mp ok
      obtain ⟨built, below⟩ := assembleAsserted_eq_ok_iff.mp ok
      refine ⟨⟨_, opening, ?_⟩, kernel, below⟩
      rw [if_neg transferred]
      exact built
    · rintro ⟨⟨opened, opening, ok⟩, kernel, below⟩
      have asserted := (opens opened).mpr ⟨opening, kernel⟩
      obtain rfl := BuildInput.openSections_ok opening
      split_ifs at ok with transferred
      refine ⟨_, asserted, ?_⟩
      rw [if_neg transferred, bind_eq_ok_iff]
      exact ⟨(), assert_eq_ok_iff.mpr (decide_eq_true nonempty),
        assembleAsserted_eq_ok_iff.mpr ⟨ok, below⟩⟩

/-! ## The size of the file against the size of the mapping -/

/-- The size that is added for a section is smaller than the one that the mapping has room for. -/
def AddsLess (pe : ℕ) (fileAlignment : UInt32) (turn : SectionVma × BuildState) : Prop :=
  OverTotal pe turn.2 ∧
    recountedSize pe fileAlignment turn.1 turn.2 < alignValue32 turn.1.rawSize fileAlignment

instance (pe : ℕ) (fileAlignment : UInt32) (turn : SectionVma × BuildState) :
    Decidable (AddsLess pe fileAlignment turn) := inferInstanceAs (Decidable (_ ∧ _))

section Sizes

variable {pe : ℕ} {fileAlignment sectionAlignment : UInt32} {memSize : UInt64}
  {vmas : List SectionVma} {st : BuildState}

theorem after_filesize_toNat {vma : SectionVma} (behind : pe + 24 ≤ st.sectionOffset)
    (room : st.filesize.toNat + 2 ^ 32 ≤ 2 ^ 64) :
    (st.after pe fileAlignment sectionAlignment vma).filesize.toNat =
      st.filesize.toNat + (recountedSize pe fileAlignment vma st).toNat := by
  have word := (recountedSize pe fileAlignment vma st).toNat_lt
  rw [after_filesize behind, UInt64.toNat_add, UInt32.toNat_toUInt64, Nat.mod_eq_of_lt (by omega)]

/-- The rounded size of a file is a part of the total. -/
theorem rawSize_le_rawTotal {turn : SectionVma × BuildState}
    (member : turn ∈ buildTurns pe fileAlignment sectionAlignment vmas st) :
    (alignValue32 turn.1.rawSize fileAlignment).toNat ≤ rawTotal fileAlignment vmas := by
  apply List.single_le_sum (fun _ _ => Nat.zero_le _)
  exact List.mem_map_of_mem (fst_mem_of_mem member)

/-- Behind `size_of_image` all sizes are added as they are, so the last assertion decides. -/
theorem below_iff_of_behind (behind : pe + 68 ≤ st.sectionOffset)
    (room : st.filesize.toNat + vmas.length * 2 ^ 32 ≤ 2 ^ 64) :
    (∀ turn ∈ buildTurns pe fileAlignment sectionAlignment vmas st,
        (turn.2.after pe fileAlignment sectionAlignment turn.1).filesize < memSize) ↔
      vmas = [] ∨ st.filesize.toNat + rawTotal fileAlignment vmas < memSize.toNat := by
  induction vmas generalizing st with
  | nil => simp [buildTurns]
  | cons vma rest ih =>
    rw [List.length_cons] at room
    have apart : ¬ OverTotal pe st := fun overlaps => by
      have upper := overlaps.2
      omega
    have word := (alignValue32 vma.rawSize fileAlignment).toNat_lt
    have size := @after_filesize_toNat pe fileAlignment sectionAlignment st vma (by omega) (by omega)
    rw [recountedSize_of_not_over apart] at size
    have offset := @after_sectionOffset pe fileAlignment sectionAlignment vma st
    rw [buildTurns, List.forall_mem_cons, ih (by omega) (by omega), UInt64.lt_iff_toNat_lt, size,
      rawTotal_cons]
    cases rest with
    | nil => simp [rawTotal]
    | cons next more =>
      simp only [reduceCtorEq, false_or]
      omega

/-- The assertions hold exactly when less is added for some section: the sum for the mapping is the
sum of what is added otherwise. -/
theorem below_iff (behind : pe + 24 ≤ st.sectionOffset) (nonempty : vmas ≠ [])
    (room : st.filesize.toNat + vmas.length * 2 ^ 32 ≤ 2 ^ 64)
    (mapped : memSize.toNat = st.filesize.toNat + rawTotal fileAlignment vmas) :
    (∀ turn ∈ buildTurns pe fileAlignment sectionAlignment vmas st,
        (turn.2.after pe fileAlignment sectionAlignment turn.1).filesize < memSize) ↔
      ∃ turn ∈ buildTurns pe fileAlignment sectionAlignment vmas st,
        AddsLess pe fileAlignment turn := by
  induction vmas generalizing st with
  | nil => exact absurd rfl nonempty
  | cons vma rest ih =>
    rw [List.length_cons] at room
    rw [rawTotal_cons] at mapped
    have word := (recountedSize pe fileAlignment vma st).toNat_lt
    have size := @after_filesize_toNat pe fileAlignment sectionAlignment st vma (by omega) (by omega)
    have offset := @after_sectionOffset pe fileAlignment sectionAlignment vma st
    rw [buildTurns, List.forall_mem_cons, List.exists_mem_cons_iff, UInt64.lt_iff_toNat_lt, size]
    by_cases overlaps : OverTotal pe st
    · -- no later header lies there
      have lower := overlaps.1
      have later : ¬ ∃ turn ∈ buildTurns pe fileAlignment sectionAlignment rest
          (st.after pe fileAlignment sectionAlignment vma), AddsLess pe fileAlignment turn := by
        rintro ⟨turn, member, between, -⟩
        have least := sectionOffset_le_of_mem member
        have upper := between.2
        omega
      rw [below_iff_of_behind (by omega) (by omega), size, mapped, or_iff_left later, AddsLess,
        and_iff_right overlaps, UInt32.lt_iff_toNat_lt]
      cases rest with
      | nil => simp [rawTotal]
      | cons next more =>
        simp only [reduceCtorEq, false_or]
        omega
    · have same := @recountedSize_of_not_over pe fileAlignment vma st overlaps
      have word := (alignValue32 vma.rawSize fileAlignment).toNat_lt
      have not_less : ¬ AddsLess pe fileAlignment (vma, st) := fun less => overlaps less.1
      rw [same] at size ⊢
      rw [or_iff_right not_less]
      cases rest with
      | nil => simp [buildTurns, rawTotal, mapped]
      | cons next more =>
        have less := @ih (st.after pe fileAlignment sectionAlignment vma) (by omega) (by simp)
          (by omega) (by omega)
        rw [less, mapped]
        refine ⟨fun both => both.2, fun found => ⟨?_, found⟩⟩
        obtain ⟨turn, member, -, smaller⟩ := found
        have room := rawSize_le_rawTotal member
        have positive := UInt32.lt_iff_toNat_lt.mp smaller
        omega

end Sizes

/-- A build with assertions runs to its end exactly when a kernel that is a PE file passes its own
assertion and less is added for a section than the mapping has room for. -/
theorem assertedRun_iff {input : BuildInput} {out : InputFile} (built : buildImage input = .ok out)
    (small : ∀ id file, input.file id = some file → file.size.toNat < 2 ^ 32) :
    buildImageAsserted input = .ok out ↔ input.KernelLonger ∧
      ∃ turn ∈ input.turns, AddsLess input.mappedPe input.fileAlignment turn := by
  obtain ⟨last, run⟩ := buildImage_ok built
  have few := input.vmas_length
  have transferred := run.transferred
  have limit : maxTransfer = 0x7ffff000 := rfl
  have transfer : ∀ vma ∈ input.vmas, vma.file.size.toNat ≤ maxTransfer := by
    intro vma member
    have raw := BuildInput.rawSize_le_of_completes run member
    have given : vma.file.size.toNat < 2 ^ 32 := by
      obtain ⟨id, -, entry⟩ := List.mem_filterMap.mp member
      obtain ⟨file, known, rfl⟩ := Option.map_eq_some_iff.mp entry
      exact small id file known
    rwa [BuildInput.rawSize_eq member, UInt64.toNat_toUInt32, Nat.mod_eq_of_lt given] at raw
  have below := @below_iff input.mappedPe input.fileAlignment input.sectionAlignment
    input.mappedSize input.vmas input.start BuildInput.start_behind BuildInput.vmas_ne_nil
    (by change input.stub.size.toNat + _ ≤ _; omega)
    (BuildInput.mappedSize_toNat transfer transferred)
  rw [buildImageAsserted_eq_ok_iff, and_iff_right built, BuildInput.turns, below]

/-- Without the optional files there are two. -/
theorem BuildInput.forall_file {input : BuildInput} {p : InputFile → Prop}
    (cmdline : input.cmdline = none) (dtb : input.dtb = none) (initrd : input.initrd = none)
    (osrel : p input.osrel) (linux : p input.linux) :
    ∀ id file, input.file id = some file → p file := by
  intro id file given
  cases id with
  | osrel =>
    obtain rfl := Option.some.inj given
    exact osrel
  | linux =>
    obtain rfl := Option.some.inj given
    exact linux
  | splash => cases given
  | cmdline => cases cmdline.symm.trans given
  | dt => cases dtb.symm.trans given
  | initrd => cases initrd.symm.trans given

/-- A stub without sections whose optional header has no bytes, and a kernel whose image takes the
whole address space. -/
def overlappingInput : BuildInput where
  stub := ⟨0x1400, .ofFields [(0, 2, 0x5a4d), (0x3c, 4, 0x40), (0x40, 4, 0x4550), (0x44, 2, 0x8664),
    (0x56, 2, 2), (0x58, 2, 0x20b), (0x78, 4, 0x1000), (0x7c, 4, 0x200)]⟩
  osrel := ⟨0, fun _ => 0⟩
  cmdline := none
  dtb := none
  linux := ⟨0x1400, .ofFields [(0, 2, 0x5a4d), (0x3c, 4, 0x40), (0x40, 4, 0x4550),
    (0x44, 2, 0x8664), (0x58, 2, 0x20b), (0x78, 4, 0x1000), (0x90, 4, 0xfffff000)]⟩
  initrd := none
  outfile := ⟨0, fun _ => 0⟩
  efiVersion := none

/-- The size of its second section is cut down where its header lies over `size_of_image`. -/
theorem assertedRun_overlapping :
    ∃ out, buildImage overlappingInput = .ok out ∧
      buildImageAsserted overlappingInput = .ok out := by
  obtain ⟨out, built, -⟩ := exists_of_check (buildImage overlappingInput) (fun _ => true)
    (by decide +kernel)
  have small : ∀ id file, overlappingInput.file id = some file → file.size.toNat < 2 ^ 32 :=
    BuildInput.forall_file rfl rfl rfl (by decide) (by decide)
  refine ⟨out, built, (assertedRun_iff built small).mpr ⟨?_, by decide +kernel⟩⟩
  intro kernel inspected
  have known : inspectPe overlappingInput.linux = some ⟨0, 0x1000, 0xfffff000, 0x8664⟩ := by
    decide +kernel
  obtain rfl := Option.some.inj (inspected.symm.trans known)
  decide

/-- Ten bytes and twenty bytes: after the second section the file is as long as the mapping. -/
theorem not_assertedRun_smallFiles :
    ¬ ∀ (input : BuildInput) (out : InputFile), buildImage input = .ok out →
      (∀ id file, input.file id = some file → file.size.toNat < 2 ^ 32) →
        buildImageAsserted input = .ok out := by
  intro claim
  obtain ⟨out, built, -⟩ := exists_of_check (buildImage (blankInput 10 20)) (fun _ => true)
    (by decide +kernel)
  have small : ∀ id file, (blankInput 10 20).file id = some file → file.size.toNat < 2 ^ 32 :=
    BuildInput.forall_file rfl rfl rfl (by decide) (by decide)
  have below := (buildImageAsserted_eq_ok_iff.mp (claim _ out built small)).2.2
  revert below
  decide +kernel

end ZLoader
