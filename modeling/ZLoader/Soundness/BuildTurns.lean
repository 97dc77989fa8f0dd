import ZLoader.Soundness.AlignedBuffers
import ZLoader.Soundness.BuiltImage

/-! # The turns of the builder

The loop that adds the sections goes by numbers that it reads back from the header it has just
written. Only a header that lies over `size_of_image` changes in between, so everywhere else the
places of the headers and of the data, and the size of the file, are sums of rounded file sizes.
-/

namespace ZLoader

/-! ## One turn -/

section Turn

variable (pe : ℕ) (fileAlignment sectionAlignment : UInt32) (vma : SectionVma) (st : BuildState)

/-- The header of the section lies over `size_of_image` with its `size_of_raw_data`. -/
def OverTotal : Prop := pe + 61 ≤ st.sectionOffset ∧ st.sectionOffset ≤ pe + 67

instance : Decidable (OverTotal pe st) := inferInstanceAs (Decidable (_ ∧ _))

/-- The `size_of_raw_data` that is read back: where the header lies over `size_of_image`, the size in
memory has been added to some of its bytes. -/
def recountedSize : UInt32 :=
  let header := vma.header fileAlignment st.largest
  if OverTotal pe st then
    ((ByteStore.ofList header.encode fun _ => 0).addLE (pe + 80 - st.sectionOffset) 4
      header.virtualSize.toNat).u32 16
  else header.sizeOfRawData

/-- The state behind a turn. -/
def BuildState.after : BuildState :=
  let memory := vma.store pe fileAlignment st
  let sec := PeSectionHeader.read memory st.sectionOffset
  { memory := memory
    sectionOffset := st.sectionOffset + sizeofPeSectionHeader
    largest :=
      { rawAddress := st.largest.rawAddress + sec.sizeOfRawData.toUInt64
        vma := (alignValue32 (sec.virtualAddress + sec.virtualSize) sectionAlignment).toUInt64 }
    filesize := st.filesize + sec.sizeOfRawData.toUInt64 }

variable {pe fileAlignment sectionAlignment vma st}

theorem appendSection_eq_ok_iff {limit : ℕ} {next : BuildState} :
    appendSection limit pe fileAlignment sectionAlignment vma st = .ok next ↔
      (ReadFits limit (vma, st.largest) ∧ (headerWindow st).Within limit) ∧
        next = st.after pe fileAlignment sectionAlignment vma := by
  rw [appendSection]
  split_ifs with fits inside
  · constructor
    · intro ok
      exact ⟨⟨fits, inside⟩, (Except.ok.inj ok).symm⟩
    · rintro ⟨-, rfl⟩
      rfl
  · exact iff_of_false (by rintro ⟨⟩) fun ok => inside ok.1.2
  · exact iff_of_false (by rintro ⟨⟩) fun ok => fits ok.1.1

/-- Where the header lies over `size_of_image` it is changed by what is added there. -/
theorem store_u32_of_over (overlaps : OverTotal pe st) :
    (vma.store pe fileAlignment st).u32 (st.sectionOffset + 16) =
      ((ByteStore.ofList (vma.header fileAlignment st.largest).encode fun _ => 0).addLE
        (pe + 80 - st.sectionOffset) 4
        (vma.header fileAlignment st.largest).virtualSize.toNat).u32 16 := by
  obtain ⟨lower, upper⟩ := overlaps
  have size : sizeofPeSectionHeader = 40 := rfl
  let second := (vma.copied fileAlignment st).addLE (pe + 32) 4
    ((vma.copied fileAlignment st).u32 (st.sectionOffset + 8)).toNat
  let third := second.addLE (pe + 80) 4 (second.u32 (st.sectionOffset + 8)).toNat
  -- the total of the data lies in front of the header, and so does the number of sections
  have kept : ByteStore.Keeps (fun offset => st.sectionOffset ≤ offset)
      (vma.copied fileAlignment st) second := by
    apply ByteStore.keeps_addLE
    intro offset inside
    exact .inr (by omega)
  have last : ByteStore.Keeps (fun offset => st.sectionOffset ≤ offset) third
      (vma.store pe fileAlignment st) := by
    apply ByteStore.keeps_addLE
    intro offset inside
    exact .inr (by omega)
  have written : ∀ index < sizeofPeSectionHeader, second (st.sectionOffset + index) =
      ByteStore.ofList (vma.header fileAlignment st.largest).encode (fun _ => 0) index := by
    intro index bound
    rw [kept _ (Nat.le_add_right _ _), vma.copied_header fileAlignment bound]
  have amount : second.u32 (st.sectionOffset + 8) =
      (vma.header fileAlignment st.largest).virtualSize := by
    rw [kept.u32 fun offset from_ _ => (Nat.le_add_right _ _).trans from_]
    exact congrArg PeSectionHeader.virtualSize (vma.read_copied fileAlignment)
  have added : ∀ index < sizeofPeSectionHeader, third (st.sectionOffset + index) =
      (ByteStore.ofList (vma.header fileAlignment st.largest).encode fun _ => 0).addLE
        (pe + 80 - st.sectionOffset) 4
        (vma.header fileAlignment st.largest).virtualSize.toNat index := by
    have place : pe + 80 = st.sectionOffset + (pe + 80 - st.sectionOffset) := by omega
    intro index bound
    rw [← amount, ← ByteStore.addLE_congr written (by omega) bound, ← place]
  rw [last.u32 fun offset from_ _ => (Nat.le_add_right _ _).trans from_]
  exact ByteStore.u32_congr added (by decide)

/-- The size is read back as it was written, or with the size in memory added. -/
theorem recountedSize_eq (behind : pe + 24 ≤ st.sectionOffset) :
    (PeSectionHeader.read (vma.store pe fileAlignment st) st.sectionOffset).sizeOfRawData =
      recountedSize pe fileAlignment vma st := by
  rw [recountedSize]
  by_cases overlaps : OverTotal pe st
  · rw [if_pos overlaps]
    exact store_u32_of_over overlaps
  · have kept : ByteStore.Keeps (fun offset => st.sectionOffset + 16 ≤ offset ∧
        offset < st.sectionOffset + 20) (vma.copied fileAlignment st)
        (vma.store pe fileAlignment st) := by
      apply vma.store_keeps fileAlignment
      intro offset inside
      rw [OverTotal] at overlaps
      exact not_inTotals (by omega)
    rw [if_neg overlaps, ← vma.read_copied fileAlignment]
    exact kept.u32 fun offset lower upper => ⟨lower, upper⟩

theorem recountedSize_of_not_over (apart : ¬ OverTotal pe st) :
    recountedSize pe fileAlignment vma st = alignValue32 vma.rawSize fileAlignment := if_neg apart

theorem after_sectionOffset :
    (st.after pe fileAlignment sectionAlignment vma).sectionOffset = st.sectionOffset + 40 := rfl

variable (behind : pe + 24 ≤ st.sectionOffset)

include behind

theorem after_rawAddress :
    (st.after pe fileAlignment sectionAlignment vma).largest.rawAddress =
      st.largest.rawAddress + (recountedSize pe fileAlignment vma st).toUInt64 := by
  rw [← recountedSize_eq behind]
  rfl

theorem after_filesize :
    (st.after pe fileAlignment sectionAlignment vma).filesize =
      st.filesize + (recountedSize pe fileAlignment vma st).toUInt64 := by
  rw [← recountedSize_eq behind]
  rfl

end Turn

/-! ## All turns -/

/-- Each section with the state that it is added to. -/
def buildTurns (pe : ℕ) (fileAlignment sectionAlignment : UInt32) :
    List SectionVma → BuildState → List (SectionVma × BuildState)
  | [], _ => []
  | vma :: rest, st =>
      (vma, st) :: buildTurns pe fileAlignment sectionAlignment rest
        (st.after pe fileAlignment sectionAlignment vma)

section Turns

variable {pe : ℕ} {fileAlignment sectionAlignment : UInt32} {vmas : List SectionVma}
  {st : BuildState} {turn : SectionVma × BuildState}

theorem buildTurns_map_fst :
    (buildTurns pe fileAlignment sectionAlignment vmas st).map Prod.fst = vmas := by
  induction vmas generalizing st with
  | nil => rfl
  | cons vma rest ih => rw [buildTurns, List.map_cons, ih]

theorem fst_mem_of_mem (member : turn ∈ buildTurns pe fileAlignment sectionAlignment vmas st) :
    turn.1 ∈ vmas := by
  have mapped : turn.1 ∈ (buildTurns pe fileAlignment sectionAlignment vmas st).map Prod.fst :=
    List.mem_map_of_mem member
  rwa [buildTurns_map_fst] at mapped

/-- The headers are written one behind the other. -/
theorem sectionOffset_le_of_mem
    (member : turn ∈ buildTurns pe fileAlignment sectionAlignment vmas st) :
    st.sectionOffset ≤ turn.2.sectionOffset := by
  induction vmas generalizing st with
  | nil => cases member
  | cons vma rest ih =>
    rcases List.mem_cons.mp member with rfl | later
    · exact Nat.le_refl _
    · exact (Nat.le_add_right _ _).trans (ih later)

end Turns

/-- The state behind all of them. -/
def lastState (pe : ℕ) (fileAlignment sectionAlignment : UInt32) (vmas : List SectionVma)
    (st : BuildState) : BuildState :=
  vmas.foldl (fun st vma => st.after pe fileAlignment sectionAlignment vma) st

/-- The loop runs to its end when each of its accesses lies in the mapping. -/
theorem appendSections_eq_ok_iff {limit pe : ℕ} {fileAlignment sectionAlignment : UInt32}
    {vmas : List SectionVma} {st last : BuildState} :
    appendSections limit pe fileAlignment sectionAlignment vmas st = .ok last ↔
      (∀ turn ∈ buildTurns pe fileAlignment sectionAlignment vmas st,
        ReadFits limit (turn.1, turn.2.largest) ∧ (headerWindow turn.2).Within limit) ∧
        last = lastState pe fileAlignment sectionAlignment vmas st := by
  induction vmas generalizing st with
  | nil =>
    rw [appendSections, buildTurns, lastState, List.foldl_nil]
    constructor
    · intro ok
      exact ⟨List.forall_mem_nil _, (Except.ok.inj ok).symm⟩
    · rintro ⟨-, rfl⟩
      rfl
  | cons vma rest ih =>
    rw [appendSections, bind_eq_ok_iff, buildTurns, lastState, List.foldl_cons, ← lastState,
      List.forall_mem_cons]
    constructor
    · rintro ⟨next, first, ok⟩
      obtain ⟨fits, rfl⟩ := appendSection_eq_ok_iff.mp first
      obtain ⟨others, result⟩ := ih.mp ok
      exact ⟨⟨fits, others⟩, result⟩
    · rintro ⟨⟨fits, others⟩, result⟩
      exact ⟨_, appendSection_eq_ok_iff.mpr ⟨fits, rfl⟩, ih.mpr ⟨others, result⟩⟩

/-! ## The size of the mapping -/

/-- The rounded sizes of some files. -/
def rawTotal (fileAlignment : UInt32) (vmas : List SectionVma) : ℕ :=
  (vmas.map fun vma => (alignValue32 vma.rawSize fileAlignment).toNat).sum

theorem rawTotal_cons {fileAlignment : UInt32} {vma : SectionVma} {vmas : List SectionVma} :
    rawTotal fileAlignment (vma :: vmas) =
      (alignValue32 vma.rawSize fileAlignment).toNat + rawTotal fileAlignment vmas := by
  rw [rawTotal, List.map_cons, List.sum_cons, rawTotal]

/-- A file takes as much of the mapping as of the output file, if one `read` can transfer it. -/
theorem alignValue_transfer {v : UInt64} {a : UInt32} (positive : 0 < a.toNat)
    (bound : v.toNat ≤ maxTransfer) :
    (alignValue v a.toUInt64).toNat = (alignValue32 v.toUInt32 a).toNat := by
  have word := a.toNat_lt
  have transfer : maxTransfer = 0x7ffff000 := rfl
  have raw : v.toUInt32.toNat = v.toNat := by
    rw [UInt64.toNat_toUInt32]
    apply Nat.mod_eq_of_lt
    omega
  have same := @maskPadding_mod 64 a.toNat v.toNat 32 (by decide) word.le positive v.toNat_lt.le
  have total := alignValue32_transfer positive (raw.trans_le bound)
  have limit := (alignValue32 v.toUInt32 a).toNat_lt
  rw [Nat.mod_eq_of_lt (by omega)] at same
  rw [raw] at total
  rw [alignValue_toNat v a.toUInt64 positive, UInt32.toNat_toUInt64, same, ← total,
    Nat.mod_eq_of_lt (by omega)]

theorem foldl_alignValue {fileAlignment : UInt32} (positive : 0 < fileAlignment.toNat)
    {vmas : List SectionVma} {base : UInt64}
    (sizes : ∀ vma ∈ vmas, vma.rawSize = vma.file.size.toUInt32 ∧
      vma.file.size.toNat ≤ maxTransfer)
    (room : base.toNat + vmas.length * 2 ^ 32 < 2 ^ 64) :
    ((vmas.map SectionVma.file).foldl
      (fun size file => size + alignValue file.size fileAlignment.toUInt64) base).toNat =
        base.toNat + rawTotal fileAlignment vmas := by
  induction vmas generalizing base with
  | nil => rfl
  | cons vma rest ih =>
    rw [List.forall_mem_cons] at sizes
    rw [List.length_cons] at room
    have rounded := alignValue_transfer positive sizes.1.2
    have word := (alignValue32 vma.file.size.toUInt32 fileAlignment).toNat_lt
    have next : (base + alignValue vma.file.size fileAlignment.toUInt64).toNat =
        base.toNat + (alignValue32 vma.file.size.toUInt32 fileAlignment).toNat := by
      rw [UInt64.toNat_add, rounded, Nat.mod_eq_of_lt (by omega)]
    rw [List.map_cons, List.foldl_cons, ih sizes.2 (by omega), next, rawTotal_cons, sizes.1.1,
      Nat.add_assoc]

namespace BuildInput

variable {input : BuildInput}

/-- The section table of the stub starts behind its COFF header. -/
theorem start_behind : input.mappedPe + 24 ≤ input.start.sectionOffset := by
  have size : sizeofPeCoffHeader = 24 := rfl
  simp only [start, size]
  omega

/-- In a run that completes every file has been transferred as a whole. -/
theorem rawSize_le_of_completes {out : InputFile} {last : BuildState}
    (run : Completes input out last) {vma : SectionVma} (member : vma ∈ input.vmas) :
    vma.rawSize.toNat ≤ maxTransfer := by
  obtain ⟨fits, -⟩ := appendSections_eq_ok_iff.mp run.appended
  rw [← @buildTurns_map_fst input.mappedPe input.fileAlignment input.sectionAlignment input.vmas
    input.start] at member
  obtain ⟨turn, listed, rfl⟩ := List.mem_map.mp member
  exact (fits turn listed).1.1

/-- The files of a call are those of its entries. -/
theorem files_eq (ids : List SectionDataId) :
    ids.filterMap input.file = (input.vmasOf ids).map SectionVma.file := by
  rw [vmasOf, List.map_filterMap]
  congr 1
  funext id
  rw [Option.map_map]
  exact Option.map_id'.symm

theorem rawSize_eq {vma : SectionVma} (member : vma ∈ input.vmas) :
    vma.rawSize = vma.file.size.toUInt32 := by
  obtain ⟨id, _, given⟩ := List.mem_filterMap.mp member
  obtain ⟨file, _, rfl⟩ := Option.map_eq_some_iff.mp given
  rfl

/-- The mapping has room for the stub and all rounded files. -/
theorem mappedSize_toNat (transfer : ∀ vma ∈ input.vmas, vma.file.size.toNat ≤ maxTransfer)
    (stub : input.stub.size.toNat ≤ maxTransfer) :
    input.mappedSize.toNat = input.stub.size.toNat + rawTotal input.fileAlignment input.vmas := by
  have few := input.vmas_length
  have limit : maxTransfer = 0x7ffff000 := rfl
  rw [mappedSize, sizeWith, files_eq]
  apply foldl_alignValue (defaultAlignment_pos (by decide))
  · intro vma member
    exact ⟨rawSize_eq member, transfer vma member⟩
  · rw [vmas] at few
    omega

end BuildInput

end ZLoader
