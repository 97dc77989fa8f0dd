import Mathlib.Data.UInt
import ZLoader.Foundation.Results
import ZLoader.Model.Tools.BuildImage

/-! # Sections that the builder adds

The loop that adds the sections, described without the memory it works on: each file gets a header
computed from the running ends of the file and of the memory. A turn writes the file, the header and
the totals in the image headers, wherever these lie. As long as no file is put over a header or a
total that is there already and no header over a total, the loop leaves the headers and the sums of
the totals, and changes nothing but these and the places of the files.
-/

namespace ZLoader

/-! ## Section headers in memory -/

theorem shortName_length (name : List UInt8) :
    (shortName name).length = peSectionSizeOfShortName := by
  simp [shortName]

/-- A header is read from its own bytes. -/
theorem PeSectionHeader.read_encode {sec : PeSectionHeader}
    (named : sec.name.length = peSectionSizeOfShortName) (behind : ByteStore) :
    PeSectionHeader.read (.ofList sec.encode behind) 0 = sec := by
  have word (before rest : List UInt8) (offset : ℕ) (value : UInt32)
      (shape : sec.encode = before ++ (leBytes 4 value.toNat ++ rest))
      (stands : before.length = offset) :
      (ByteStore.ofList sec.encode behind).u32 offset = value := by
    rw [ByteStore.u32, shape, ByteStore.readLE_ofList before stands]
    apply UInt32.toNat_inj.mp
    simp
  have size : sec.name.length = 8 := named
  have name : (ByteStore.ofList sec.encode behind).bytesAt 0 8 = sec.name := by
    have part := ByteStore.bytesAt_ofList [] sec.name (sec.encode.drop 8) behind
    have split : [] ++ sec.name ++ sec.encode.drop 8 = sec.encode := by
      simp [encode, ← size]
    rwa [split, size] at part
  have virtualSize := word sec.name _ 8 sec.virtualSize (by simp [encode]; rfl) size
  have virtualAddress := word (sec.name ++ leBytes 4 sec.virtualSize.toNat) _ 12
    sec.virtualAddress (by simp [encode]; rfl) (by simp [size])
  have sizeOfRawData := word
    (sec.name ++ leBytes 4 sec.virtualSize.toNat ++ leBytes 4 sec.virtualAddress.toNat) _ 16
    sec.sizeOfRawData (by simp [encode]; rfl) (by simp [size])
  have pointerToRawData := word
    (sec.name ++ leBytes 4 sec.virtualSize.toNat ++ leBytes 4 sec.virtualAddress.toNat
      ++ leBytes 4 sec.sizeOfRawData.toNat) _ 20
    sec.pointerToRawData (by simp [encode]; rfl) (by simp [size])
  have characteristics := word
    (sec.name ++ leBytes 4 sec.virtualSize.toNat ++ leBytes 4 sec.virtualAddress.toNat
      ++ leBytes 4 sec.sizeOfRawData.toNat ++ leBytes 4 sec.pointerToRawData.toNat
      ++ List.replicate 12 0) [] 36 sec.characteristics (by simp [encode]) (by simp [size])
  simp only [read, Nat.zero_add, virtualSize, virtualAddress, sizeOfRawData, pointerToRawData,
    characteristics]
  congr 1

/-- A header is read the same where its bytes are the same. -/
theorem PeSectionHeader.read_congr {first second : ByteStore} {one other : ℕ}
    (same : ∀ index < sizeofPeSectionHeader, first (one + index) = second (other + index)) :
    PeSectionHeader.read first one = PeSectionHeader.read second other := by
  have keeps : ByteStore.Keeps (· < sizeofPeSectionHeader) (second.from_ other)
      (first.from_ one) := same
  have word (offset : ℕ) (inside : offset + 4 ≤ sizeofPeSectionHeader) :
      first.u32 (one + offset) = second.u32 (other + offset) := by
    rw [ByteStore.u32, ByteStore.u32, ← ByteStore.readLE_from, ← ByteStore.readLE_from]
    congr 1
    exact keeps.readLE fun at_ _ upper => by omega
  simp only [read, word 8 (by decide), word 12 (by decide), word 16 (by decide),
    word 20 (by decide), word 36 (by decide)]
  congr 1
  apply List.map_congr_left
  intro index member
  exact same index (Nat.lt_trans (List.mem_range.mp member) (by decide))

/-- A header that has been stored is read back. -/
theorem PeSectionHeader.read_stored {sec : PeSectionHeader}
    (named : sec.name.length = peSectionSizeOfShortName) {memory : ByteStore} {offset : ℕ}
    (stored : ∀ index < sizeofPeSectionHeader,
      memory (offset + index) = ByteStore.ofList sec.encode (fun _ => 0) index) :
    PeSectionHeader.read memory offset = sec := by
  have same : read memory offset = read (.ofList sec.encode fun _ => 0) 0 := by
    apply read_congr
    intro index bound
    rw [Nat.zero_add]
    exact stored index bound
  exact same.trans (read_encode named _)

/-! ## Section tables -/

theorem sectionHeaders_succ (file : ByteStore) (offset count : ℕ) :
    sectionHeaders file offset (count + 1) = PeSectionHeader.read file offset ::
      sectionHeaders file (offset + sizeofPeSectionHeader) count :=
  map_range_stride _ _ _ _

/-- Equal bytes make equal tables. -/
theorem sectionHeaders_congr {first second : ByteStore} {offset count : ℕ}
    (same : ∀ at_, offset ≤ at_ → at_ < offset + sizeofPeSectionHeader * count →
      first at_ = second at_) :
    sectionHeaders first offset count = sectionHeaders second offset count := by
  apply List.map_congr_left
  intro index member
  apply PeSectionHeader.read_congr
  intro position bound
  have before := Nat.mul_le_mul_left sizeofPeSectionHeader (List.mem_range.mp member)
  rw [Nat.mul_succ] at before
  exact same _ (by omega) (by omega)

theorem sectionHeaders_append (file : ByteStore) (offset first second : ℕ) :
    sectionHeaders file offset (first + second) = sectionHeaders file offset first ++
      sectionHeaders file (offset + sizeofPeSectionHeader * first) second := by
  rw [sectionHeaders, List.range_add, List.map_append, List.map_map]
  congr 1
  apply List.map_congr_left
  intro index _
  simp only [Function.comp_apply, Nat.mul_add, Nat.add_assoc]

/-! ## One section -/

/-- The totals that the loop keeps in the image headers: the number of sections, the size of their
initialized data and the size of the image. -/
def totalWindows (pe : ℕ) : List Window := [⟨pe + 6, 2⟩, ⟨pe + 32, 4⟩, ⟨pe + 80, 4⟩]

/-- The offset belongs to one of the totals. -/
def InTotals (pe offset : ℕ) : Prop :=
  (pe + 6 ≤ offset ∧ offset < pe + 8) ∨ (pe + 32 ≤ offset ∧ offset < pe + 36) ∨
    (pe + 80 ≤ offset ∧ offset < pe + 84)

theorem inTotals_iff {pe offset : ℕ} :
    InTotals pe offset ↔ ∃ total ∈ totalWindows pe, total.Contains offset := by
  simp only [InTotals, totalWindows, List.exists_mem_cons_iff, List.not_mem_nil, false_and,
    exists_false, or_false, Window.contains_mk]

theorem not_inTotals {pe offset : ℕ}
    (away : (offset < pe + 6 ∨ pe + 8 ≤ offset) ∧ (offset < pe + 32 ∨ pe + 36 ≤ offset) ∧
      (offset < pe + 80 ∨ pe + 84 ≤ offset)) : ¬ InTotals pe offset := by
  unfold InTotals
  omega

/-- A window that is apart from the totals. -/
theorem not_inTotals_of_disjoint {pe offset : ℕ} {window : Window}
    (apart : ∀ total ∈ totalWindows pe, total.Disjoint window) (inside : window.Contains offset) :
    ¬ InTotals pe offset := by
  rw [inTotals_iff]
  rintro ⟨total, member, within⟩
  exact apart total member offset within inside

/-- The bytes of a file that are put into the output. -/
def payloadWindow (vma : SectionVma) (st : BuildState) : Window :=
  ⟨st.largest.rawAddress.toNat, vma.rawSize.toNat⟩

/-- The place of the header. -/
def headerWindow (st : BuildState) : Window := ⟨st.sectionOffset, sizeofPeSectionHeader⟩

/-- What a turn of the loop writes: the bytes of the file in their window, over them the header in
its own, and the totals. -/
structure WritesSection (pe : ℕ) (fileAlignment : UInt32) (vma : SectionVma) (st : BuildState)
    (after : ByteStore) : Prop where
  header : ∀ index < sizeofPeSectionHeader, ¬ InTotals pe (st.sectionOffset + index) →
    after (st.sectionOffset + index) =
      ByteStore.ofList (vma.header fileAlignment st.largest).encode (fun _ => 0) index
  data : ∀ index < vma.rawSize.toNat, ¬ InTotals pe (st.largest.rawAddress.toNat + index) →
    ¬ (headerWindow st).Contains (st.largest.rawAddress.toNat + index) →
      after (st.largest.rawAddress.toNat + index) = vma.file.bytes index
  others : ByteStore.Keeps (fun offset => ¬ InTotals pe offset ∧
    ¬ (headerWindow st).Contains offset ∧ ¬ (payloadWindow vma st).Contains offset)
      st.memory after

/-- What it leaves in memory when neither the header nor the file lies over a total. -/
structure StoresSection (pe : ℕ) (fileAlignment : UInt32) (vma : SectionVma) (st : BuildState)
    (after : ByteStore) : Prop extends WritesSection pe fileAlignment vma st after where
  read : PeSectionHeader.read after st.sectionOffset = vma.header fileAlignment st.largest
  count : after.u16 (pe + 6) = st.memory.u16 (pe + 6) + 1
  sizeOfImage : after.u32 (pe + 80) = st.memory.u32 (pe + 80) + vma.virtualSize

/-- The memory with the data of the file and the section header copied, before the totals are kept. -/
def SectionVma.copied (fileAlignment : UInt32) (vma : SectionVma) (st : BuildState) : ByteStore :=
  (Patch.copy st.sectionOffset sizeofPeSectionHeader
    (.ofList (vma.header fileAlignment st.largest).encode fun _ => 0) 0).apply
      ((Patch.copy st.largest.rawAddress.toNat vma.rawSize.toNat vma.file.bytes 0).apply st.memory)

section Store

variable {pe : ℕ} (fileAlignment : UInt32) (vma : SectionVma) {st : BuildState}

/-- The header is written over the data where they overlap. -/
theorem SectionVma.copied_header {index : ℕ} (bound : index < sizeofPeSectionHeader) :
    vma.copied fileAlignment st (st.sectionOffset + index) =
      ByteStore.ofList (vma.header fileAlignment st.largest).encode (fun _ => 0) index := by
  rw [SectionVma.copied, Patch.apply_copy _ _ bound, Nat.zero_add]

theorem SectionVma.read_copied :
    PeSectionHeader.read (vma.copied fileAlignment st) st.sectionOffset =
      vma.header fileAlignment st.largest := by
  have named : (vma.header fileAlignment st.largest).name.length = peSectionSizeOfShortName :=
    shortName_length _
  apply PeSectionHeader.read_stored named
  intro index bound
  exact vma.copied_header fileAlignment bound

theorem SectionVma.copied_data {index : ℕ} (bound : index < vma.rawSize.toNat)
    (clear : ¬ (headerWindow st).Contains (st.largest.rawAddress.toNat + index)) :
    vma.copied fileAlignment st (st.largest.rawAddress.toNat + index) = vma.file.bytes index := by
  rw [SectionVma.copied, Patch.apply_outside _ _ clear, Patch.apply_copy _ _ bound, Nat.zero_add]

theorem SectionVma.copied_keeps :
    ByteStore.Keeps (fun offset => ¬ (headerWindow st).Contains offset ∧
      ¬ (payloadWindow vma st).Contains offset) st.memory (vma.copied fileAlignment st) := by
  rintro offset ⟨header, data⟩
  rw [SectionVma.copied, Patch.apply_outside _ _ header, Patch.apply_outside _ _ data]

/-- Keeping the totals changes nothing else. -/
theorem SectionVma.store_keeps {region : ℕ → Prop}
    (away : ∀ offset, region offset → ¬ InTotals pe offset) :
    ByteStore.Keeps region (vma.copied fileAlignment st) (vma.store pe fileAlignment st) := by
  refine ((ByteStore.keeps_addLE _ _ ?_).trans (ByteStore.keeps_addLE _ _ ?_)).trans
    (ByteStore.keeps_addLE _ _ ?_)
  all_goals
    intro offset inside
    have outside := away offset inside
    rw [InTotals] at outside
    omega

/-- Every turn writes the file, the header and the totals, and nothing else. -/
theorem SectionVma.store_writes :
    WritesSection pe fileAlignment vma st (vma.store pe fileAlignment st) := by
  have late : ByteStore.Keeps (fun offset => ¬ InTotals pe offset) (vma.copied fileAlignment st)
      (vma.store pe fileAlignment st) := vma.store_keeps fileAlignment fun _ outside => outside
  refine ⟨fun index bound outside => ?_, fun index bound outside clear => ?_, ?_⟩
  · rw [late _ outside]
    exact vma.copied_header fileAlignment bound
  · rw [late _ outside]
    exact vma.copied_data fileAlignment bound clear
  · exact ((vma.copied_keeps fileAlignment).mono fun offset inside => inside.2).trans
      (late.mono fun offset inside => inside.1)

variable (table : ∀ total ∈ totalWindows pe, total.Disjoint (headerWindow st))

include table

/-- A header that lies apart from the totals is read back as it was written. -/
theorem SectionVma.read_store :
    PeSectionHeader.read (vma.store pe fileAlignment st) st.sectionOffset =
      vma.header fileAlignment st.largest := by
  have kept : ByteStore.Keeps (headerWindow st).Contains (vma.copied fileAlignment st)
      (vma.store pe fileAlignment st) :=
    vma.store_keeps fileAlignment fun offset inside => not_inTotals_of_disjoint table inside
  rw [← vma.read_copied fileAlignment]
  apply PeSectionHeader.read_congr
  intro index bound
  exact kept _ ⟨Nat.le_add_right _ _, Nat.add_lt_add_left bound _⟩

/-- The totals that the file is not put over grow by the section, and by one. -/
theorem SectionVma.store_totals (count : (payloadWindow vma st).Disjoint ⟨pe + 6, 2⟩)
    (image : (payloadWindow vma st).Disjoint ⟨pe + 80, 4⟩) :
    (vma.store pe fileAlignment st).u16 (pe + 6) = st.memory.u16 (pe + 6) + 1 ∧
      (vma.store pe fileAlignment st).u32 (pe + 80) =
        st.memory.u32 (pe + 80) + vma.virtualSize := by
  let second := vma.copied fileAlignment st
  let third := second.addLE (pe + 32) 4 (second.u32 (st.sectionOffset + 8)).toNat
  let fourth := third.addLE (pe + 80) 4 (third.u32 (st.sectionOffset + 8)).toNat
  have result : vma.store pe fileAlignment st = fourth.addLE (pe + 6) 2 1 := rfl
  have untouched {total : Window} (listed : total ∈ totalWindows pe)
      (apart : (payloadWindow vma st).Disjoint total) :
      ByteStore.Keeps total.Contains st.memory second :=
    (vma.copied_keeps fileAlignment).mono fun offset inside =>
      ⟨table total listed offset inside, fun payload => apart offset payload inside⟩
  have written : second.u32 (st.sectionOffset + 8) = vma.virtualSize :=
    congrArg PeSectionHeader.virtualSize (vma.read_copied fileAlignment)
  -- the total of the data is kept first, apart from the header that is read again
  have rewritten : third.u32 (st.sectionOffset + 8) = vma.virtualSize := by
    have apart := (Window.disjoint_iff _ _).mp (table ⟨pe + 32, 4⟩ (by simp [totalWindows]))
    have kept : ByteStore.Keeps (headerWindow st).Contains second third := by
      apply ByteStore.keeps_addLE
      intro offset inside
      obtain ⟨lower, upper⟩ := inside
      dsimp only [headerWindow, sizeofPeSectionHeader] at lower upper apart
      omega
    rw [← written]
    apply kept.u32
    intro offset lower upper
    have size : sizeofPeSectionHeader = 40 := rfl
    exact Window.contains_mk.mpr ⟨by omega, by omega⟩
  constructor
  · have kept : ByteStore.Keeps (Window.mk (pe + 6) 2).Contains st.memory fourth := by
      refine ((untouched (by simp [totalWindows]) count).trans
        (ByteStore.keeps_addLE _ _ ?_)).trans (ByteStore.keeps_addLE _ _ ?_)
      all_goals
        intro offset inside
        rw [Window.contains_mk] at inside
        omega
    rw [result, ByteStore.u16_addLE]
    congr 1
    exact kept.u16 fun offset lower upper => ⟨lower, upper⟩
  · have before : ByteStore.Keeps (Window.mk (pe + 80) 4).Contains st.memory third := by
      refine (untouched (by simp [totalWindows]) image).trans (ByteStore.keeps_addLE _ _ ?_)
      intro offset inside
      rw [Window.contains_mk] at inside
      omega
    have last : ByteStore.Keeps (fun offset => pe + 80 ≤ offset) fourth
        (vma.store pe fileAlignment st) := by
      rw [result]
      apply ByteStore.keeps_addLE
      intro offset inside
      omega
    rw [last.u32 fun offset lower _ => lower, ByteStore.u32_addLE, rewritten,
      before.u32 fun offset lower upper => ⟨lower, upper⟩, UInt32.ofNat_toNat]

/-- With the header and the file apart from the totals, the header is read back and the totals have
grown. -/
theorem SectionVma.store_spec (count : (payloadWindow vma st).Disjoint ⟨pe + 6, 2⟩)
    (image : (payloadWindow vma st).Disjoint ⟨pe + 80, 4⟩) :
    StoresSection pe fileAlignment vma st (vma.store pe fileAlignment st) := by
  obtain ⟨counted, grown⟩ := vma.store_totals fileAlignment table count image
  exact ⟨vma.store_writes fileAlignment, vma.read_store fileAlignment table, counted, grown⟩

end Store

/-! ## All sections -/

/-- The ends of the file and of the memory behind a new section. -/
def Largest.next (fileAlignment sectionAlignment : UInt32) (vma : SectionVma) (largest : Largest) :
    Largest :=
  let sec := vma.header fileAlignment largest
  { rawAddress := largest.rawAddress + sec.sizeOfRawData.toUInt64
    vma := (alignValue32 (sec.virtualAddress + sec.virtualSize) sectionAlignment).toUInt64 }

/-- The sections to be added, each with the ends it is put at. -/
def planSections (fileAlignment sectionAlignment : UInt32) :
    List SectionVma → Largest → List (SectionVma × Largest)
  | [], _ => []
  | vma :: rest, largest =>
      (vma, largest) :: planSections fileAlignment sectionAlignment rest
        (largest.next fileAlignment sectionAlignment vma)

/-- The header of a planned section. -/
def plannedHeader (fileAlignment : UInt32) (turn : SectionVma × Largest) : PeSectionHeader :=
  turn.1.header fileAlignment turn.2

/-- The `read` of a section stores all of its bytes. -/
def ReadFits (limit : ℕ) (turn : SectionVma × Largest) : Prop :=
  turn.1.rawSize.toNat ≤ maxTransfer ∧
    (Window.mk turn.2.rawAddress.toNat turn.1.rawSize.toNat).Within limit

/-- Rounding up what one transfer can read does not wrap. -/
theorem alignValue32_transfer {v a : UInt32} (positive : 0 < a.toNat)
    (bound : v.toNat ≤ maxTransfer) :
    (alignValue32 v a).toNat = v.toNat + maskPadding 32 a.toNat v.toNat := by
  have word := a.toNat_lt
  have less := maskPadding_lt 32 v.toNat positive
  have distance : maskPadding 32 a.toNat v.toNat ≤ (a.toNat + (2 ^ 32 - v.toNat)) % 2 ^ 32 :=
    Nat.and_le_left
  have transfer : maxTransfer = 0x7ffff000 := rfl
  rw [alignValue32_toNat v a positive]
  apply Nat.mod_eq_of_lt
  omega

theorem le_alignValue32 {v a : UInt32} (positive : 0 < a.toNat) (bound : v.toNat ≤ maxTransfer) :
    v.toNat ≤ (alignValue32 v a).toNat := by
  rw [alignValue32_transfer positive bound]
  exact Nat.le_add_right _ _

/-- Where the file of a turn is put. -/
def plannedData (turn : SectionVma × Largest) : Window :=
  ⟨turn.2.rawAddress.toNat, turn.1.rawSize.toNat⟩

/-- No file is put over the headers that stand in the table by then, which starts at `start`. -/
def DataClear (start : ℕ) : ℕ → List (SectionVma × Largest) → Prop
  | _, [] => True
  | length, turn :: rest =>
      (plannedData turn).Disjoint ⟨start, length⟩ ∧
        DataClear start (length + sizeofPeSectionHeader) rest

instance DataClear.decidable (start : ℕ) :
    (length : ℕ) → (plan : List (SectionVma × Largest)) → Decidable (DataClear start length plan)
  | _, [] => inferInstanceAs (Decidable True)
  | length, _ :: rest =>
      have := DataClear.decidable start (length + sizeofPeSectionHeader) rest
      inferInstanceAs (Decidable (_ ∧ _))

/-- The files of the later turns are put over neither the first header nor those behind it. -/
theorem DataClear.behind {start length : ℕ} {plan : List (SectionVma × Largest)}
    (clear : DataClear start (length + sizeofPeSectionHeader) plan) :
    (∀ turn ∈ plan, (plannedData turn).Disjoint ⟨start, sizeofPeSectionHeader⟩) ∧
      DataClear (start + sizeofPeSectionHeader) length plan := by
  induction plan generalizing length with
  | nil => exact ⟨List.forall_mem_nil _, trivial⟩
  | cons turn rest ih =>
    obtain ⟨here, later⟩ := clear
    obtain ⟨first, others⟩ := ih later
    refine ⟨List.forall_mem_cons.mpr ⟨?_, first⟩, ?_, others⟩
    · intro offset payload header
      obtain ⟨lower, upper⟩ := header
      dsimp only at lower upper
      exact here offset payload (Window.contains_mk.mpr ⟨by omega, by omega⟩)
    · intro offset payload header
      obtain ⟨lower, upper⟩ := header
      dsimp only at lower upper
      exact here offset payload (Window.contains_mk.mpr ⟨by omega, by omega⟩)

/-- The ends behind a section are its file end and a rounded size further. -/
theorem Largest.next_rawAddress {fileAlignment sectionAlignment : UInt32} {vma : SectionVma}
    {largest : Largest} (small : largest.rawAddress.toNat + 2 ^ 32 ≤ 2 ^ 64) :
    (largest.next fileAlignment sectionAlignment vma).rawAddress.toNat =
      largest.rawAddress.toNat + (alignValue32 vma.rawSize fileAlignment).toNat := by
  have word := (alignValue32 vma.rawSize fileAlignment).toNat_lt
  simp only [Largest.next, SectionVma.header, UInt64.toNat_add, UInt32.toNat_toUInt64]
  apply Nat.mod_eq_of_lt
  omega

/-- What a turn that succeeds has done. -/
theorem appendSection_ok {limit pe : ℕ} {fileAlignment sectionAlignment : UInt32}
    {vma : SectionVma} {st next : BuildState}
    (ok : appendSection limit pe fileAlignment sectionAlignment vma st = .ok next)
    (table : ∀ total ∈ totalWindows pe, total.Disjoint (headerWindow st))
    (count : (payloadWindow vma st).Disjoint ⟨pe + 6, 2⟩)
    (image : (payloadWindow vma st).Disjoint ⟨pe + 80, 4⟩) :
    ReadFits limit (vma, st.largest) ∧ StoresSection pe fileAlignment vma st next.memory ∧
      next.sectionOffset = st.sectionOffset + sizeofPeSectionHeader ∧
      next.largest = st.largest.next fileAlignment sectionAlignment vma ∧
      next.filesize = st.filesize + (alignValue32 vma.rawSize fileAlignment).toUInt64 := by
  have stores := SectionVma.store_spec fileAlignment vma table count image
  rw [appendSection] at ok
  split_ifs at ok with short outside
  obtain rfl := Except.ok.inj ok
  refine ⟨short, stores, rfl, ?_, ?_⟩
  · rw [stores.read]
    rfl
  · rw [stores.read]
    rfl

/-- What the loop leaves behind: the data of a file is as it was read unless a total or a header
lies over it. -/
structure AppendsSections (limit pe : ℕ) (fileAlignment sectionAlignment : UInt32)
    (vmas : List SectionVma) (st last : BuildState) : Prop where
  headers : sectionHeaders last.memory st.sectionOffset vmas.length =
    (planSections fileAlignment sectionAlignment vmas st.largest).map (plannedHeader fileAlignment)
  reads : ∀ turn ∈ planSections fileAlignment sectionAlignment vmas st.largest, ReadFits limit turn
  above : ∀ turn ∈ planSections fileAlignment sectionAlignment vmas st.largest,
    st.largest.rawAddress.toNat ≤ turn.2.rawAddress.toNat
  data : ∀ turn ∈ planSections fileAlignment sectionAlignment vmas st.largest,
    ∀ index < turn.1.rawSize.toNat, ¬ InTotals pe (turn.2.rawAddress.toNat + index) →
      ¬ (Window.mk st.sectionOffset (sizeofPeSectionHeader * vmas.length)).Contains
        (turn.2.rawAddress.toNat + index) →
        last.memory (turn.2.rawAddress.toNat + index) = turn.1.file.bytes index
  count : last.memory.u16 (pe + 6) = st.memory.u16 (pe + 6) + UInt16.ofNat vmas.length
  sizeOfImage : last.memory.u32 (pe + 80) =
    st.memory.u32 (pe + 80) + (vmas.map SectionVma.virtualSize).sum
  filesize : last.filesize = st.filesize +
    (vmas.map fun vma => (alignValue32 vma.rawSize fileAlignment).toUInt64).sum
  others : ByteStore.Keeps (fun offset => ¬ InTotals pe offset ∧
    ¬ (Window.mk st.sectionOffset (sizeofPeSectionHeader * vmas.length)).Contains offset ∧
      ∀ turn ∈ planSections fileAlignment sectionAlignment vmas st.largest,
        ¬ (plannedData turn).Contains offset) st.memory last.memory

/-- The loop puts the planned headers behind one another and each file where its header says, and
changes nothing else but the totals. -/
theorem appendSections_ok {limit pe : ℕ} {fileAlignment sectionAlignment : UInt32}
    {vmas : List SectionVma} {st last : BuildState}
    (ok : appendSections limit pe fileAlignment sectionAlignment vmas st = .ok last)
    (positive : 0 < fileAlignment.toNat)
    (table : ∀ total ∈ totalWindows pe,
      total.Disjoint ⟨st.sectionOffset, sizeofPeSectionHeader * vmas.length⟩)
    (totals : ∀ turn ∈ planSections fileAlignment sectionAlignment vmas st.largest,
      (plannedData turn).Disjoint ⟨pe + 6, 2⟩ ∧ (plannedData turn).Disjoint ⟨pe + 80, 4⟩)
    (clear : DataClear st.sectionOffset 0
      (planSections fileAlignment sectionAlignment vmas st.largest))
    (small : st.largest.rawAddress.toNat + vmas.length * 2 ^ 32 ≤ 2 ^ 64) :
    AppendsSections limit pe fileAlignment sectionAlignment vmas st last := by
  have size : sizeofPeSectionHeader = 40 := rfl
  induction vmas generalizing st with
  | nil =>
    obtain rfl := Except.ok.inj ok
    constructor
    · rfl
    · intro turn member
      cases member
    · intro turn member
      cases member
    · intro turn member
      cases member
    · simp
    · simp
    · simp
    · exact ByteStore.Keeps.refl _ _
  | cons vma rest ih =>
    rw [List.length_cons] at small table
    rw [planSections, List.forall_mem_cons] at totals
    rw [planSections, DataClear] at clear
    rw [appendSections, bind_eq_ok_iff] at ok
    obtain ⟨next, first, ok⟩ := ok
    have parts {offset : ℕ} : (Window.mk st.sectionOffset
        (sizeofPeSectionHeader * (rest.length + 1))).Contains offset ↔
          (headerWindow st).Contains offset ∨
            (Window.mk (st.sectionOffset + sizeofPeSectionHeader)
              (sizeofPeSectionHeader * rest.length)).Contains offset := by
      rw [headerWindow, Window.contains_mk, Window.contains_mk, Window.contains_mk, size]
      omega
    obtain ⟨fits, stores, offset, ends, filesize⟩ := appendSection_ok first
      (fun total member at_ inside header => table total member at_ inside (parts.mpr (.inl header)))
      totals.1.1 totals.1.2
    obtain ⟨firstClear, behind⟩ := DataClear.behind clear.2
    have later := totals.2
    rw [← ends] at later firstClear behind
    rw [← offset] at parts behind
    have rawBound : vma.rawSize.toNat ≤ (alignValue32 vma.rawSize fileAlignment).toNat :=
      le_alignValue32 positive fits.1
    have fit : st.largest.rawAddress.toNat + 2 ^ 32 ≤ 2 ^ 64 := by omega
    have raw : next.largest.rawAddress.toNat =
        st.largest.rawAddress.toNat + (alignValue32 vma.rawSize fileAlignment).toNat := by
      rw [ends, Largest.next_rawAddress fit]
    have word := (alignValue32 vma.rawSize fileAlignment).toNat_lt
    have tail := ih ok
      (fun total member at_ inside headers =>
        table total member at_ inside (parts.mpr (.inr headers)))
      later behind (by omega)
    constructor
    · have kept : PeSectionHeader.read last.memory st.sectionOffset =
          PeSectionHeader.read next.memory st.sectionOffset := by
        apply PeSectionHeader.read_congr
        intro index bound
        have own : (headerWindow st).Contains (st.sectionOffset + index) :=
          ⟨Nat.le_add_right _ _, Nat.add_lt_add_left bound _⟩
        refine tail.others _ ⟨?_, ?_, fun turn member payload => ?_⟩
        · rw [inTotals_iff]
          rintro ⟨total, member, inside⟩
          exact table total member _ inside (parts.mpr (.inl own))
        · rw [Window.contains_mk, offset]
          omega
        · exact firstClear turn member _ payload own
      rw [List.length_cons, sectionHeaders_succ, kept, stores.read, planSections, List.map_cons,
        ← ends, ← tail.headers, offset]
      rfl
    · rw [planSections, List.forall_mem_cons, ← ends]
      exact ⟨fits, tail.reads⟩
    · rw [planSections, List.forall_mem_cons, ← ends]
      exact ⟨Nat.le_refl _, fun turn member => by
        have above := tail.above turn member
        omega⟩
    · rw [planSections, List.forall_mem_cons, ← ends]
      refine ⟨fun index bound outside headers => ?_, fun turn member index bound outside headers => ?_⟩
      · rw [List.length_cons, parts, not_or] at headers
        have stored := stores.data index bound outside headers.1
        dsimp only at bound ⊢
        rw [← stored]
        refine tail.others _ ⟨outside, headers.2, fun turn member payload => ?_⟩
        have above := tail.above turn member
        have start := payload.1
        dsimp only [plannedData] at start
        omega
      · rw [List.length_cons, parts, not_or] at headers
        exact tail.data turn member index bound outside headers.2
    · rw [tail.count, stores.count, List.length_cons, UInt16.ofNat_add, UInt16.add_assoc]
      congr 1
      exact UInt16.add_comm ..
    · rw [tail.sizeOfImage, stores.sizeOfImage, List.map_cons, List.sum_cons, UInt32.add_assoc]
    · rw [tail.filesize, filesize, List.map_cons, List.sum_cons, UInt64.add_assoc]
    · rw [planSections, ← ends, List.length_cons]
      refine (stores.others.mono ?_).trans (tail.others.mono ?_)
      · rintro index ⟨outside, headers, payloads⟩
        rw [parts, not_or] at headers
        exact ⟨outside, headers.1, (List.forall_mem_cons.mp payloads).1⟩
      · rintro index ⟨outside, headers, payloads⟩
        rw [parts, not_or] at headers
        exact ⟨outside, headers.2, (List.forall_mem_cons.mp payloads).2⟩

end ZLoader
