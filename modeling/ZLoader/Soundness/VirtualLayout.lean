import Mathlib.Data.UInt
import ZLoader.Soundness.BuiltImage

/-! # The virtual layout of the output file

Addresses are rounded up to the section alignment from one section to the next, but the unrounded
sizes are added to `size_of_image`, so the two drift apart as soon as a size is no multiple of the
alignment. The layout of the output file is consistent exactly when the image size that the stub
started with makes up for it.
-/

namespace ZLoader

/-- The memory of a section. -/
def PeSectionHeader.range (sec : PeSectionHeader) : Window :=
  ⟨sec.virtualAddress.toNat, sec.virtualSize.toNat⟩

/-- What the headers of an image file say about its memory. -/
structure PeLayout where
  sections : List PeSectionHeader
  sectionAlignment : UInt32
  sizeOfImage : UInt32

/-- The layout as it stands in the bytes of a file. -/
def PeLayout.read (file : ByteStore) : PeLayout :=
  let pe := (file.u32 dosPeOffsetLocation).toNat
  { sections := sectionHeaders file
      (pe + sizeofPeCoffHeader + (PeImageHeaders.sizeOfOptionalHeader file pe).toNat)
      (PeImageHeaders.numberOfSections file pe).toNat
    sectionAlignment := PeImageHeaders.sectionAlignment file pe
    sizeOfImage := PeImageHeaders.sizeOfImage file pe }

/-- Disjoint sections in an image of some size. -/
structure PeLayout.Separate (layout : PeLayout) : Prop where
  disjoint : layout.sections.Pairwise fun first second => first.range.Disjoint second.range
  inside : ∀ sec ∈ layout.sections,
    sec.range.start + sec.range.length ≤ layout.sizeOfImage.toNat

/-- Separate sections at multiples of the section alignment, of which the image size is one. -/
structure PeLayout.Consistent (layout : PeLayout) : Prop extends layout.Separate where
  aligned : ∀ sec ∈ layout.sections, layout.sectionAlignment.toNat ∣ sec.range.start
  imageAligned : layout.sectionAlignment.toNat ∣ layout.sizeOfImage.toNat

instance (layout : PeLayout) : Decidable layout.Separate :=
  decidable_of_iff (_ ∧ _) ⟨fun ⟨disjoint, inside⟩ => ⟨disjoint, inside⟩,
    fun separate => ⟨separate.disjoint, separate.inside⟩⟩

instance (layout : PeLayout) : Decidable layout.Consistent :=
  decidable_of_iff (layout.Separate ∧ _ ∧ _)
    ⟨fun ⟨separate, aligned, imageAligned⟩ => ⟨separate, aligned, imageAligned⟩,
      fun consistent => ⟨consistent.toSeparate, consistent.aligned, consistent.imageAligned⟩⟩

section Built

variable {input : BuildInput} {out : InputFile}

/-- Where the headers are kept the layout of the output file is that of the stub with the planned
sections added. -/
theorem Builds.layout (builds : Builds input out) :
    PeLayout.read out.bytes =
      ⟨input.stubSections ++ input.plan.map (plannedHeader input.fileAlignment),
        input.sectionAlignment,
        input.stubSizeOfImage + (input.vmas.map SectionVma.virtualSize).sum⟩ := by
  rw [PeLayout.read, builds.pe, builds.sizeOfOptionalHeader, builds.count, builds.sectionAlignment,
    builds.sizeOfImage]
  congr 1
  exact builds.table

end Built

/-! ## Where the sections are put -/

/-- `ALIGN_VALUE` rounds the number up; it always does for a power of two. -/
def RoundsUp (a v : ℕ) : Prop := v + maskPadding 32 a v = roundUp a v

instance (a v : ℕ) : Decidable (RoundsUp a v) := inferInstanceAs (Decidable (_ = _))

/-- The ranges of planned sections. -/
def plannedRanges (fileAlignment sectionAlignment : UInt32) (vmas : List SectionVma)
    (largest : Largest) : List Window :=
  (planSections fileAlignment sectionAlignment vmas largest).map fun turn =>
    (plannedHeader fileAlignment turn).range

section Placement

variable {fileAlignment sectionAlignment : UInt32} {vmas : List SectionVma} {largest : Largest}

/-- The sizes of some sections in memory. -/
def virtualSizes (vmas : List SectionVma) : List ℕ :=
  vmas.map fun vma => vma.virtualSize.toNat

theorem plannedRanges_cons (vma : SectionVma) (floating : vma.targetVma = 0)
    (small : largest.vma.toNat < 2 ^ 32) :
    plannedRanges fileAlignment sectionAlignment (vma :: vmas) largest =
      ⟨largest.vma.toNat, vma.virtualSize.toNat⟩ ::
        plannedRanges fileAlignment sectionAlignment vmas
          (largest.next fileAlignment sectionAlignment vma) := by
  have address : (plannedHeader fileAlignment (vma, largest)).range =
      ⟨largest.vma.toNat, vma.virtualSize.toNat⟩ := by
    simp only [plannedHeader, SectionVma.header, PeSectionHeader.range, floating, beq_self_eq_true,
      if_true]
    rw [UInt64.toNat_toUInt32, Nat.mod_eq_of_lt small]
  rw [plannedRanges, planSections, List.map_cons, address, plannedRanges]

/-- Behind a section that ends inside of the address space the next one is put at its padded end. -/
theorem next_vma {vma : SectionVma} (positive : 0 < sectionAlignment.toNat)
    (floating : vma.targetVma = 0)
    (small : largest.vma.toNat + vma.virtualSize.toNat < 2 ^ 32) :
    (largest.next fileAlignment sectionAlignment vma).vma.toNat =
      (largest.vma.toNat + vma.virtualSize.toNat +
        maskPadding 32 sectionAlignment.toNat (largest.vma.toNat + vma.virtualSize.toNat)) %
          2 ^ 32 := by
  have sum : (largest.vma.toUInt32 + vma.virtualSize).toNat =
      largest.vma.toNat + vma.virtualSize.toNat := by
    rw [UInt32.toNat_add, UInt64.toNat_toUInt32, Nat.mod_add_mod, Nat.mod_eq_of_lt small]
  simp only [Largest.next, SectionVma.header, floating, beq_self_eq_true, if_true,
    UInt32.toNat_toUInt64]
  rw [alignValue32_toNat _ _ positive, sum]

/-- Sections whose ends are rounded up inside of the address space are stacked. -/
theorem plannedRanges_of_room (positive : 0 < sectionAlignment.toNat)
    (floating : ∀ vma ∈ vmas, vma.targetVma = 0) (small : largest.vma.toNat < 2 ^ 32)
    (rounds : ∀ window ∈
      (stack sectionAlignment.toNat largest.vma.toNat (virtualSizes vmas)).dropLast,
        RoundsUp sectionAlignment.toNat (window.start + window.length))
    (room : ∀ window ∈ stack sectionAlignment.toNat largest.vma.toNat (virtualSizes vmas),
      window.start + window.length < 2 ^ 32) :
    plannedRanges fileAlignment sectionAlignment vmas largest =
      stack sectionAlignment.toNat largest.vma.toNat (virtualSizes vmas) := by
  induction vmas generalizing largest with
  | nil => rfl
  | cons vma rest ih =>
    rw [List.forall_mem_cons] at floating
    rw [plannedRanges_cons vma floating.1 small]
    simp only [virtualSizes, List.map_cons, stack]
    cases rest with
    | nil => rfl
    | cons next more =>
      change ∀ window ∈ _ :: (stack _ (roundUp _ _) (virtualSizes (next :: more))).dropLast, _
        at rounds
      change ∀ window ∈ _ :: stack _ (roundUp _ _) (virtualSizes (next :: more)), _ at room
      rw [List.forall_mem_cons] at rounds room
      have rounded : RoundsUp sectionAlignment.toNat
        (largest.vma.toNat + vma.virtualSize.toNat) := rounds.1
      have behind : roundUp sectionAlignment.toNat (largest.vma.toNat + vma.virtualSize.toNat) +
          next.virtualSize.toNat < 2 ^ 32 := room.2 _ (List.mem_cons_self ..)
      have position : (largest.next fileAlignment sectionAlignment vma).vma.toNat =
          roundUp sectionAlignment.toNat (largest.vma.toNat + vma.virtualSize.toNat) := by
        rw [next_vma positive floating.1 room.1, rounded]
        apply Nat.mod_eq_of_lt
        omega
      have later := @ih (largest.next fileAlignment sectionAlignment vma) floating.2
        (by rw [position]; omega) (by rw [position]; exact rounds.2)
        (by rw [position]; exact room.2)
      rw [later, position]
      rfl

/-- Sections that start at multiples of the alignment and end below such a multiple are stacked, and
the end of each but the last was rounded up. -/
theorem plannedRanges_of_aligned {limit : ℕ} (positive : 0 < sectionAlignment.toNat)
    (floating : ∀ vma ∈ vmas, vma.targetVma = 0) (small : largest.vma.toNat < 2 ^ 32)
    (target : sectionAlignment.toNat ∣ limit) (limited : limit < 2 ^ 32)
    (fits : ∀ window ∈ plannedRanges fileAlignment sectionAlignment vmas largest,
      sectionAlignment.toNat ∣ window.start ∧ window.start + window.length ≤ limit) :
    plannedRanges fileAlignment sectionAlignment vmas largest =
        stack sectionAlignment.toNat largest.vma.toNat (virtualSizes vmas) ∧
      ∀ window ∈ (stack sectionAlignment.toNat largest.vma.toNat (virtualSizes vmas)).dropLast,
        RoundsUp sectionAlignment.toNat (window.start + window.length) := by
  induction vmas generalizing largest with
  | nil =>
    refine ⟨rfl, fun window member => ?_⟩
    cases member
  | cons vma rest ih =>
    rw [List.forall_mem_cons] at floating
    rw [plannedRanges_cons vma floating.1 small] at fits ⊢
    rw [List.forall_mem_cons] at fits
    cases rest with
    | nil =>
      refine ⟨rfl, fun window member => ?_⟩
      cases member
    | cons next more =>
      have ends : largest.vma.toNat + vma.virtualSize.toNat ≤ limit := fits.1.2
      have position : (largest.next fileAlignment sectionAlignment vma).vma.toNat =
          (largest.vma.toNat + vma.virtualSize.toNat +
            maskPadding 32 sectionAlignment.toNat (largest.vma.toNat + vma.virtualSize.toNat)) %
              2 ^ 32 := next_vma positive floating.1 (by omega)
      have bounded : (largest.next fileAlignment sectionAlignment vma).vma.toNat < 2 ^ 32 := by
        rw [position]
        exact Nat.mod_lt _ (by decide)
      -- the start of the next section is a multiple, so nothing was cut off
      have rounded : RoundsUp sectionAlignment.toNat
          (largest.vma.toNat + vma.virtualSize.toNat) := by
        have start := (fits.2 _ (by
          rw [plannedRanges_cons next (List.forall_mem_cons.mp floating.2).1 bounded]
          exact List.mem_cons_self ..)).1
        rw [position] at start
        exact add_maskPadding_of_dvd positive sectionAlignment.toNat_lt ends limited target start
      have whole : (largest.next fileAlignment sectionAlignment vma).vma.toNat =
          roundUp sectionAlignment.toNat (largest.vma.toNat + vma.virtualSize.toNat) := by
        have below := roundUp_le positive target ends
        rw [position, rounded]
        exact Nat.mod_eq_of_lt (by omega)
      obtain ⟨later, rounds⟩ := @ih (largest.next fileAlignment sectionAlignment vma) floating.2
        bounded fits.2
      rw [whole] at later rounds
      rw [later]
      refine ⟨rfl, ?_⟩
      change ∀ window ∈ _ :: (stack _ (roundUp _ _) (virtualSizes (next :: more))).dropLast, _
      rw [List.forall_mem_cons]
      exact ⟨rounded, rounds⟩

end Placement

/-! ## The condition -/

namespace BuildInput

variable (input : BuildInput)

/-- Where the files go: one behind the other from the end of the stub's sections on, each at a
multiple of the section alignment. -/
def fileRanges : List Window :=
  stack input.sectionAlignment.toNat input.stubEnds.vma.toNat (virtualSizes input.vmas)

/-- The image size of the stub and the sizes of the files, not rounded. -/
def imageTotal : ℕ := input.stubSizeOfImage.toNat + (virtualSizes input.vmas).sum

/-- The stub's sections are at multiples of the final section alignment, `ALIGN_VALUE` rounds the
ends it is given, and the sum of the unrounded sizes is a multiple of the alignment that leaves room
for the rounded addresses. -/
structure LayoutFits : Prop where
  stubAligned : ∀ sec ∈ input.stubSections, input.sectionAlignment.toNat ∣ sec.range.start
  topAligned : input.sectionAlignment.toNat ∣ input.stubEnds.vma.toNat
  rounds : ∀ window ∈ input.fileRanges.dropLast,
    RoundsUp input.sectionAlignment.toNat (window.start + window.length)
  bounded : input.imageTotal < 2 ^ 32
  totalAligned : input.sectionAlignment.toNat ∣ input.imageTotal
  room : ∀ window ∈ input.fileRanges, window.start + window.length ≤ input.imageTotal
  clear : ∀ sec ∈ input.stubSections, ∀ window ∈ input.fileRanges, sec.range.Disjoint window

instance : Decidable input.LayoutFits :=
  decidable_of_iff (_ ∧ _ ∧ _ ∧ _ ∧ _ ∧ _ ∧ _)
    ⟨fun ⟨stubAligned, topAligned, rounds, bounded, totalAligned, room, clear⟩ =>
        ⟨stubAligned, topAligned, rounds, bounded, totalAligned, room, clear⟩,
      fun fits => ⟨fits.stubAligned, fits.topAligned, fits.rounds, fits.bounded,
        fits.totalAligned, fits.room, fits.clear⟩⟩

variable {input}

theorem vmas_floating {vma : SectionVma} (member : vma ∈ input.vmas) : vma.targetVma = 0 := by
  obtain ⟨id, _, given⟩ := List.mem_filterMap.mp member
  obtain ⟨file, _, rfl⟩ := Option.map_eq_some_iff.mp given
  rfl

/-- There are always an os-release file and a kernel. -/
theorem vmas_ne_nil : input.vmas ≠ [] := by
  intro none
  have first : input.vma .osrel input.osrel ∈ input.vmas :=
    List.mem_filterMap.mpr ⟨.osrel, by decide, rfl⟩
  rw [none] at first
  cases first

theorem sectionAlignment_pos : 0 < input.sectionAlignment.toNat := by
  have own : 0 < input.stubAlignment.toNat := defaultAlignment_pos (by decide)
  rw [sectionAlignment]
  split
  · exact own
  · split_ifs with larger
    · exact own
    · exact Nat.lt_of_lt_of_le own (UInt32.le_iff_toNat_le.mp (UInt32.not_lt.mp larger))

end BuildInput

/-- The total that the builder keeps is the sum at the width of its field. -/
theorem add_sum_virtualSizes (base : UInt32) (vmas : List SectionVma) :
    (base + (vmas.map SectionVma.virtualSize).sum).toNat =
      (base.toNat + (virtualSizes vmas).sum) % 2 ^ 32 := by
  induction vmas generalizing base with
  | nil =>
    have small := base.toNat_lt
    simp only [virtualSizes, List.map_nil, List.sum_nil, UInt32.add_zero, Nat.add_zero]
    exact (Nat.mod_eq_of_lt small).symm
  | cons vma rest ih =>
    have later := ih (base + vma.virtualSize)
    rw [UInt32.toNat_add base, Nat.mod_add_mod] at later
    have sizes : (virtualSizes (vma :: rest)).sum =
        vma.virtualSize.toNat + (virtualSizes rest).sum := by
      rw [virtualSizes, List.map_cons, List.sum_cons, virtualSizes]
    rw [List.map_cons, List.sum_cons, ← UInt32.add_assoc, later, sizes, Nat.add_assoc]

theorem exponent_le {a : UInt32} {t : ℕ} (power : a.toNat = 2 ^ t) : t ≤ 32 := by
  have word := a.toNat_lt
  rw [power] at word
  exact ((Nat.pow_lt_pow_iff_right (by decide)).mp word).le

/-- The loop over the table of a stub ends at a multiple of a power of two, above all sections, when
there is such a multiple below the width. -/
theorem largestEnds_of_pow (fileAlignment : UInt32) {sectionAlignment : UInt32} {t limit : ℕ}
    (power : sectionAlignment.toNat = 2 ^ t) (target : sectionAlignment.toNat ∣ limit)
    (limited : limit < 2 ^ 32) {sections : List PeSectionHeader}
    (ends : ∀ sec ∈ sections, sec.range.start + sec.range.length ≤ limit) :
    let top := (largestEnds fileAlignment sectionAlignment sections).vma.toNat
    sectionAlignment.toNat ∣ top ∧
      ∀ sec ∈ sections, sec.range.start + sec.range.length ≤ top := by
  have positive : 0 < sectionAlignment.toNat := by
    rw [power]
    exact Nat.two_pow_pos t
  simp only [largestEnds]
  induction sections using List.reverseRecOn with
  | nil =>
    refine ⟨Nat.dvd_zero _, fun sec member => ?_⟩
    cases member
  | append_singleton before sec ih =>
    rw [List.forall_mem_append, List.forall_mem_singleton] at ends
    obtain ⟨aligned, above⟩ := ih ends.1
    have fits : sec.virtualAddress.toNat + sec.virtualSize.toNat ≤ limit := ends.2
    have sum : (sec.virtualAddress + sec.virtualSize).toNat =
        sec.virtualAddress.toNat + sec.virtualSize.toNat := by
      rw [UInt32.toNat_add]
      exact Nat.mod_eq_of_lt (by omega)
    have rounded : (alignValue32 (sec.virtualAddress + sec.virtualSize) sectionAlignment).toNat =
        roundUp sectionAlignment.toNat (sec.virtualAddress.toNat + sec.virtualSize.toNat) := by
      have small := roundUp_le positive target fits
      have pads : RoundsUp sectionAlignment.toNat
          (sec.virtualAddress.toNat + sec.virtualSize.toNat) := by
        rw [RoundsUp, power]
        exact add_maskPadding_of_pow (exponent_le power) (by omega)
      rw [alignValue32_toNat _ _ positive, sum, pads]
      exact Nat.mod_eq_of_lt (by omega)
    rw [List.foldl_append, List.foldl_cons, List.foldl_nil, Largest.extend]
    dsimp only
    rw [List.forall_mem_append, List.forall_mem_singleton]
    split_ifs with raises
    · rw [UInt64.lt_iff_toNat_lt, UInt32.toNat_toUInt64, sum] at raises
      rw [UInt32.toNat_toUInt64, rounded]
      have behind := le_roundUp positive (sec.virtualAddress.toNat + sec.virtualSize.toNat)
      refine ⟨dvd_roundUp _ _, fun other member => ?_, behind⟩
      have reached := above other member
      omega
    · rw [UInt64.lt_iff_toNat_lt, UInt32.toNat_toUInt64, sum] at raises
      exact ⟨aligned, above, Nat.not_lt.mp raises⟩

/-- For a power of two the addresses are always rounded up and never meet the stub's sections: all
that counts is whether the unrounded total is a multiple and leaves room. -/
theorem layoutFits_iff_of_pow {input : BuildInput} {t : ℕ}
    (power : input.sectionAlignment.toNat = 2 ^ t)
    (stub : (PeLayout.read input.stub.bytes).Separate) :
    input.LayoutFits ↔
      (∀ sec ∈ input.stubSections, input.sectionAlignment.toNat ∣ sec.range.start) ∧
        input.imageTotal < 2 ^ 32 ∧ input.sectionAlignment.toNat ∣ input.imageTotal ∧
          ∀ window ∈ input.fileRanges, window.start + window.length ≤ input.imageTotal := by
  constructor
  · intro fits
    exact ⟨fits.stubAligned, fits.bounded, fits.totalAligned, fits.room⟩
  · rintro ⟨stubAligned, bounded, totalAligned, room⟩
    have positive : 0 < input.sectionAlignment.toNat := BuildInput.sectionAlignment_pos
    have inside : ∀ sec ∈ input.stubSections,
        sec.range.start + sec.range.length ≤ input.imageTotal :=
      fun sec member => Nat.le_trans (stub.inside sec member) (Nat.le_add_right _ _)
    obtain ⟨topAligned, above⟩ :=
      largestEnds_of_pow input.fileAlignment power totalAligned bounded inside
    refine ⟨stubAligned, topAligned, ?_, bounded, totalAligned, room, ?_⟩
    · intro window member
      have ends := room window (List.dropLast_subset _ member)
      rw [RoundsUp, power]
      exact add_maskPadding_of_pow (exponent_le power) (by omega)
    · intro sec own window member
      have below := above sec own
      have start := le_of_mem_stack positive member
      apply (Window.disjoint_iff _ _).mpr
      exact .inr (.inr (.inl (Nat.le_trans below start)))

/-- The stub's layout with the planned sections added. -/
def BuildInput.plannedLayout (input : BuildInput) : PeLayout where
  sections := input.stubSections ++ input.plan.map (plannedHeader input.fileAlignment)
  sectionAlignment := input.sectionAlignment
  sizeOfImage := input.stubSizeOfImage + (input.vmas.map SectionVma.virtualSize).sum

section Planned

variable {input : BuildInput}

theorem BuildInput.plan_ranges (input : BuildInput) :
    (input.plan.map (plannedHeader input.fileAlignment)).map PeSectionHeader.range =
      plannedRanges input.fileAlignment input.sectionAlignment input.vmas input.stubEnds := by
  rw [List.map_map]
  rfl

/-- A total that fits its field is what the field says. -/
theorem BuildInput.plannedLayout_sizeOfImage (bounded : input.imageTotal < 2 ^ 32) :
    input.plannedLayout.sizeOfImage.toNat = input.imageTotal :=
  (add_sum_virtualSizes input.stubSizeOfImage input.vmas).trans (Nat.mod_eq_of_lt bounded)

/-- With all ranges inside the image, one behind the other, the sum of the sizes has not wrapped. -/
theorem BuildInput.imageTotal_bounded
    (room : ∀ window ∈ input.fileRanges,
      window.start + window.length ≤ input.plannedLayout.sizeOfImage.toNat) :
    input.imageTotal < 2 ^ 32 := by
  have nonempty : virtualSizes input.vmas ≠ [] := by
    simpa [virtualSizes] using BuildInput.vmas_ne_nil
  obtain ⟨last, member, above⟩ :=
    exists_sum_le input.stubEnds.vma.toNat BuildInput.sectionAlignment_pos nonempty
  have fits := room last member
  have total : input.plannedLayout.sizeOfImage.toNat = _ :=
    add_sum_virtualSizes input.stubSizeOfImage input.vmas
  have base := input.stubSizeOfImage.toNat_lt
  rw [BuildInput.imageTotal]
  omega

/-- A consistent layout has all that the planned sections need. -/
theorem PeLayout.Consistent.layoutFits (consistent : input.plannedLayout.Consistent) :
    input.LayoutFits := by
  have positive : 0 < input.sectionAlignment.toNat := BuildInput.sectionAlignment_pos
  have small : input.stubEnds.vma.toNat < 2 ^ 32 := (largestEnds_lt ..).2
  have aligned := consistent.aligned
  have ends := consistent.inside
  have imageAligned := consistent.imageAligned
  have disjoint := consistent.disjoint
  rw [BuildInput.plannedLayout, List.forall_mem_append] at aligned ends
  rw [BuildInput.plannedLayout, List.pairwise_append] at disjoint
  have ranges {window : Window} (member : window ∈ plannedRanges input.fileAlignment
      input.sectionAlignment input.vmas input.stubEnds) :
      ∃ sec ∈ input.plan.map (plannedHeader input.fileAlignment), sec.range = window := by
    rw [← input.plan_ranges] at member
    exact List.mem_map.mp member
  obtain ⟨stacked, rounds⟩ := plannedRanges_of_aligned positive
    (fun vma => BuildInput.vmas_floating) small imageAligned (UInt32.toNat_lt _) (by
      intro window member
      obtain ⟨sec, planned, rfl⟩ := ranges member
      exact ⟨aligned.2 sec planned, ends.2 sec planned⟩)
  rw [stacked] at ranges
  have room : ∀ window ∈ input.fileRanges, window.start + window.length ≤
      input.plannedLayout.sizeOfImage.toNat := by
    intro window member
    obtain ⟨sec, planned, rfl⟩ := ranges member
    exact ends.2 sec planned
  have bounded := BuildInput.imageTotal_bounded room
  have same := BuildInput.plannedLayout_sizeOfImage bounded
  rw [same] at room imageAligned
  refine ⟨aligned.1, ?_, rounds, bounded, imageAligned, room, ?_⟩
  · obtain ⟨vma, rest, shape⟩ := List.exists_cons_of_ne_nil BuildInput.vmas_ne_nil
    have first : ⟨input.stubEnds.vma.toNat, vma.virtualSize.toNat⟩ ∈ stack
        input.sectionAlignment.toNat input.stubEnds.vma.toNat (virtualSizes input.vmas) := by
      rw [shape]
      exact List.mem_cons_self ..
    obtain ⟨sec, planned, range⟩ := ranges first
    have start := aligned.2 sec planned
    rwa [range] at start
  · intro sec own window member
    obtain ⟨added, planned, rfl⟩ := ranges member
    exact disjoint.2.2 sec own added planned

/-- With all of that the layout is consistent, if the stub's own sections are separate. -/
theorem BuildInput.LayoutFits.consistent (fits : input.LayoutFits)
    (stub : (PeLayout.read input.stub.bytes).Separate) : input.plannedLayout.Consistent := by
  have positive : 0 < input.sectionAlignment.toNat := BuildInput.sectionAlignment_pos
  have small : input.stubEnds.vma.toNat < 2 ^ 32 := (largestEnds_lt ..).2
  have same := BuildInput.plannedLayout_sizeOfImage fits.bounded
  have inside : ∀ sec ∈ input.stubSections,
      sec.range.start + sec.range.length ≤ input.stubSizeOfImage.toNat := stub.inside
  have stacked : plannedRanges input.fileAlignment input.sectionAlignment input.vmas
      input.stubEnds = input.fileRanges :=
    plannedRanges_of_room positive (fun vma => BuildInput.vmas_floating) small fits.rounds
      fun window member => Nat.lt_of_le_of_lt (fits.room window member) fits.bounded
  have planned := input.plan_ranges
  rw [stacked] at planned
  have added {sec : PeSectionHeader}
      (member : sec ∈ input.plan.map (plannedHeader input.fileAlignment)) :
      sec.range ∈ input.fileRanges := by
    rw [← planned]
    exact List.mem_map_of_mem member
  refine ⟨⟨?_, ?_⟩, ?_, ?_⟩
  · rw [BuildInput.plannedLayout, List.pairwise_append]
    refine ⟨stub.disjoint, ?_, fun sec own other member => fits.clear sec own _ (added member)⟩
    apply List.Pairwise.of_map PeSectionHeader.range (fun first second apart => apart)
    rw [planned]
    exact stack_pairwise positive _ _
  · rw [same]
    refine List.forall_mem_append.mpr ⟨fun sec own => ?_, fun sec member => ?_⟩
    · exact Nat.le_trans (inside sec own) (Nat.le_add_right _ _)
    · exact fits.room _ (added member)
  · refine List.forall_mem_append.mpr ⟨fits.stubAligned, fun sec member => ?_⟩
    exact dvd_of_mem_stack fits.topAligned (added member)
  · rw [same]
    exact fits.totalAligned

end Planned

/-- The layout of the output file is consistent when the headers are kept and the unrounded total
makes up for the rounded addresses; and where the headers are kept, only then. -/
theorem layoutConsistent_iff {input : BuildInput} {out : InputFile}
    (built : buildImage input = .ok out) (stub : (PeLayout.read input.stub.bytes).Separate) :
    (input.HeadersKept ∧ input.LayoutFits → (PeLayout.read out.bytes).Consistent) ∧
      (input.HeadersKept → (PeLayout.read out.bytes).Consistent → input.LayoutFits) := by
  constructor
  · rintro ⟨kept, fits⟩
    rw [(buildImage_builds kept built).layout]
    exact fits.consistent stub
  · intro kept consistent
    rw [(buildImage_builds kept built).layout] at consistent
    exact consistent.layoutFits

/-- A stub of one page of code behind its headers. -/
def onePageStub : InputFile where
  size := 0x1400
  bytes := .ofFields
    [(0, 2, 0x5a4d), (0x3c, 4, 0x40), (0x40, 4, 0x4550), (0x44, 2, 0x8664), (0x46, 2, 1),
      (0x54, 2, 0xf0), (0x56, 2, 2), (0x58, 2, 0x20b), (0x78, 4, 0x1000), (0x7c, 4, 0x200),
      (0x90, 4, 0x2000), (0x94, 4, 0x400), (0x9c, 2, 10), (0x148, 4, 0x7865742e),
      (0x150, 4, 0x1000), (0x154, 4, 0x1000), (0x158, 4, 0x1000), (0x15c, 4, 0x400)]

/-- The stub with an os-release file and a kernel of some sizes, both of blanks. -/
def blankInput (osrel linux : UInt64) : BuildInput where
  stub := onePageStub
  osrel := ⟨osrel, fun _ => 0x20⟩
  cmdline := none
  dtb := none
  linux := ⟨linux, fun _ => 0x20⟩
  initrd := none
  outfile := ⟨0, fun _ => 0⟩
  efiVersion := none

/-- An os-release file of ten bytes leaves an image size that is no multiple of a page and lies in
front of the kernel. -/
theorem not_layoutConsistent_smallFiles :
    (PeLayout.read (blankInput 10 20).stub.bytes).Separate ∧ (blankInput 10 20).HeadersKept ∧
      ∃ out, buildImage (blankInput 10 20) = .ok out ∧
        ¬ (PeLayout.read out.bytes).Consistent := by
  refine ⟨by decide +kernel, by decide +kernel, ?_⟩
  obtain ⟨out, built, fails⟩ := exists_of_check (buildImage (blankInput 10 20))
    (fun out => !decide (PeLayout.read out.bytes).Consistent) (by decide +kernel)
  exact ⟨out, built, by simpa using fails⟩

/-- Files of whole pages keep the layout of the stub. -/
theorem layoutConsistent_wholePages :
    ∃ out, buildImage (blankInput 0x1000 0x2000) = .ok out ∧
      (PeLayout.read out.bytes).Consistent := by
  obtain ⟨out, built, _⟩ := exists_of_check (buildImage (blankInput 0x1000 0x2000))
    (fun _ => true) (by decide +kernel)
  have stub : (PeLayout.read (blankInput 0x1000 0x2000).stub.bytes).Separate := by
    decide +kernel
  have kept : (blankInput 0x1000 0x2000).HeadersKept := by decide +kernel
  have fits : (blankInput 0x1000 0x2000).LayoutFits := by decide +kernel
  exact ⟨out, built, (layoutConsistent_iff built stub).1 ⟨kept, fits⟩⟩

end ZLoader
