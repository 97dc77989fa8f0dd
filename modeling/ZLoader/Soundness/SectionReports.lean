import Mathlib.Data.List.TakeWhile
import ZLoader.Model.Main
import ZLoader.Soundness.SectionSearch

/-! # Where the search looks and what it reports

The table of section headers starts where the optional header is said to end, and nothing compares
its end with the size of the image; the assertion on the cursor only notices a header that starts
behind the image. The ranges that are reported are not compared with anything.
-/

namespace ZLoader

/-- Every header that the search goes to, every section it reports, and the memory that `efi_main`
takes for it, lie inside the image. -/
structure SearchInside (loaded : StubImage) (result : LocateResult) : Prop where
  headers : ∀ window ∈ result.headers, window.Within loaded.imageSize.toNat
  sections : result.outcome = .ok true → ∀ ls ∈ result.entries.takeWhile (!·.nameless),
    (lastNamed loaded.sections ls.name).isSome →
      ls.loadAddress.toNat + ls.size.toNat ≤ loaded.imageSize.toNat
  buffers : result.outcome = .ok true → ∀ ls ∈ result.entries.takeWhile (!·.nameless),
    (lastNamed loaded.sections ls.name).isSome →
      (loaded.address ls - loaded.imageBase).toNat + ls.size.toNat ≤ loaded.imageSize.toNat

/-- The end of the section table. -/
def StubImage.tableEnd (loaded : StubImage) : ℕ :=
  loaded.table + sizeofPeSectionHeader * loaded.sectionCount

/-- The last header of every wanted name describes a range inside the image. -/
def WantedInside (loaded : StubImage) (entries : List WantedSection) : Prop :=
  ∀ ls ∈ entries.takeWhile (!·.nameless), ∀ sec ∈ lastNamed loaded.sections ls.name,
    sec.range.start + sec.range.length ≤ loaded.imageSize.toNat

/-- There is no section, or the table and the wanted sections lie inside the image, or an assertion
stops the search exactly at the end of the image. -/
def SearchFits (build : Build) (loaded : StubImage) (entries : List WantedSection) : Prop :=
  loaded.sectionCount = 0 ∨
    loaded.tableEnd ≤ loaded.imageSize.toNat ∧ WantedInside loaded entries ∨
    build.ndebug = false ∧ loaded.imageSize.toNat < loaded.tableEnd ∧
      (loaded.imageSize.toNat ≤ loaded.table ∨
        (loaded.imageSize.toNat - loaded.table) % sizeofPeSectionHeader = 0)

/-- The headers up to the first one that does not start in front of a limit. -/
theorem mem_takeWhile_headerWindows {start count limit : ℕ} {window : Window} :
    window ∈ (headerWindows start count).takeWhile (fun window => window.start < limit) ↔
      ∃ index < count, start + sizeofPeSectionHeader * index < limit ∧
        window = ⟨start + sizeofPeSectionHeader * index, sizeofPeSectionHeader⟩ := by
  induction count generalizing start with
  | zero => simp [headerWindows]
  | succ count ih =>
    rw [headerWindows_succ, List.takeWhile_cons]
    constructor
    · intro member
      split_ifs at member with inside
      · rcases List.mem_cons.mp member with rfl | later
        · exact ⟨0, Nat.succ_pos count, by simpa using inside, rfl⟩
        · obtain ⟨index, bound, before, rfl⟩ := ih.mp later
          exact ⟨index + 1, Nat.succ_lt_succ bound, by rw [Nat.mul_succ]; omega,
            by rw [Nat.mul_succ]; congr 1; omega⟩
      · cases member
    · rintro ⟨index, bound, before, rfl⟩
      rw [if_pos (by simpa using Nat.lt_of_le_of_lt (Nat.le_add_right _ _) before)]
      cases index with
      | zero => exact List.mem_cons_self
      | succ index =>
        have step := Nat.mul_add_one sizeofPeSectionHeader index
        exact List.mem_cons_of_mem _ (ih.mpr ⟨index, Nat.lt_of_succ_lt_succ bound, by omega,
          by congr 1; omega⟩)

/-- The headers gone to in front of a limit end in front of it unless one of them straddles it. -/
theorem headersInside_iff {start count limit : ℕ} :
    (∀ window ∈ (headerWindows start count).takeWhile (fun window => window.start < limit),
        window.Within limit) ↔
      count = 0 ∨ start + sizeofPeSectionHeader * count ≤ limit ∨
        (limit ≤ start ∨ (limit - start) % sizeofPeSectionHeader = 0) := by
  have size : sizeofPeSectionHeader = 40 := rfl
  constructor
  · intro inside
    by_contra straddles
    rw [size] at straddles
    have before : start + sizeofPeSectionHeader * ((limit - start) / 40) < limit := by
      rw [size]
      omega
    have index : (limit - start) / 40 < count := by omega
    have member := mem_takeWhile_headerWindows.mpr ⟨(limit - start) / 40, index, before, rfl⟩
    have ends := (Window.within_iff_of_pos (size ▸ Nat.succ_pos 39)).mp (inside _ member)
    rw [size] at ends
    omega
  · rintro fits window member
    obtain ⟨index, bound, before, rfl⟩ := mem_takeWhile_headerWindows.mp member
    rw [Window.within_iff_of_pos (by decide)]
    rw [size] at fits before ⊢
    omega

/-- All headers of a table lie in front of a limit if its end does. -/
theorem allHeadersInside_iff {start count limit : ℕ} :
    (∀ window ∈ headerWindows start count, window.Within limit) ↔
      count = 0 ∨ start + sizeofPeSectionHeader * count ≤ limit := by
  have size : sizeofPeSectionHeader = 40 := rfl
  rw [headerWindows, List.forall_mem_map]
  constructor
  · intro inside
    by_contra beyond
    have ends := (Window.within_iff_of_pos (by decide)).mp
      (inside (count - 1) (List.mem_range.mpr (by omega)))
    rw [size] at beyond ends
    omega
  · intro fits index member
    have bound := List.mem_range.mp member
    rw [Window.within_iff_of_pos (by decide)]
    rw [size] at fits ⊢
    omega

/-- The headers of a table that ends in front of a limit start in front of it. -/
theorem headersStart_of_end {start count limit : ℕ}
    (ends : start + sizeofPeSectionHeader * count ≤ limit) :
    ∀ window ∈ headerWindows start count, window.start < limit := by
  have size : sizeofPeSectionHeader = 40 := rfl
  rw [headerWindows, List.forall_mem_map]
  intro index member
  have bound := List.mem_range.mp member
  change start + sizeofPeSectionHeader * index < limit
  rw [size] at ends ⊢
  omega

/-- A search that stops exactly at a limit does not come to its end. -/
theorem not_finished_of_stops {start count limit : ℕ} (nonempty : count ≠ 0)
    (beyond : limit < start + sizeofPeSectionHeader * count)
    (stops : limit ≤ start ∨ (limit - start) % sizeofPeSectionHeader = 0) :
    ¬ ∀ window ∈ headerWindows start count, window.start < limit := by
  have size : sizeofPeSectionHeader = 40 := rfl
  intro all
  rw [headerWindows, List.forall_mem_map] at all
  rw [size] at beyond stops
  have before : start + sizeofPeSectionHeader * ((limit - start) / 40) < limit :=
    all ((limit - start) / 40) (List.mem_range.mpr (by omega))
  rw [size] at before
  omega

/-- The entries in front of the nameless one are the located ones. -/
theorem locatedEntries_named (sections : List PeSectionHeader) (entries : List WantedSection) :
    (locatedEntries sections entries).takeWhile (!·.nameless) =
      (entries.takeWhile (!·.nameless)).map (·.located sections) := by
  have kept (ls : WantedSection) : (ls.located sections).nameless = ls.nameless := by
    rw [← ls.fillAll_eq_located, WantedSection.nameless, ls.fillAll_name]
    rfl
  induction entries with
  | nil => rfl
  | cons ls rest ih =>
    cases named : ls.nameless with
    | true => simp [locatedEntries, named]
    | false => simpa [locatedEntries, named, kept] using ih

section Reports

variable {build : Build} {loaded : StubImage} {entries : List WantedSection}

/-- The reported sections lie inside the image exactly when the headers they come from say so. -/
theorem reportsInside_iff :
    (∀ ls ∈ (locatedEntries loaded.sections entries).takeWhile (!·.nameless),
      (lastNamed loaded.sections ls.name).isSome →
        ls.loadAddress.toNat + ls.size.toNat ≤ loaded.imageSize.toNat) ↔
      WantedInside loaded entries := by
  rw [locatedEntries_named, List.forall_mem_map, WantedInside]
  apply forall₂_congr
  intro ls _
  rw [WantedSection.located]
  cases named : lastNamed loaded.sections ls.name with
  | none => simp [named]
  | some sec =>
    simp only [Option.map_some, Option.getD_some, WantedSection.report, named, Option.isSome_some,
      forall_const, UInt32.toNat_toUInt64, Option.mem_def, Option.some.injEq, forall_eq',
      PeSectionHeader.range]

/-- `efi_main` takes the memory of a section from its offset in the image on. -/
theorem address_sub_base (loaded : StubImage) (ls : WantedSection) :
    loaded.address ls - loaded.imageBase = ls.loadAddress := by
  rw [StubImage.address, UInt64.add_comm, UInt64.add_sub_cancel]

/-- Without sections there is nothing to report. -/
theorem wantedInside_of_empty (empty : loaded.sectionCount = 0) : WantedInside loaded entries := by
  have nothing : loaded.sections = [] := by
    rw [StubImage.sections, empty]
    rfl
  intro ls _ sec member
  rw [nothing] at member
  cases member

/-- The search stays inside the image exactly when the headers it goes to do and, if it comes to its
end, so do the wanted sections. -/
theorem searchInside_iff_parts :
    SearchInside loaded (peLocateSectionsInPlace build loaded entries) ↔
      (∀ window ∈ (peLocateSectionsInPlace build loaded entries).headers,
        window.Within loaded.imageSize.toNat) ∧
      ((peLocateSectionsInPlace build loaded entries).outcome = .ok true →
        WantedInside loaded entries) := by
  have located := (peLocateSectionsInPlace_locates build loaded entries).found
  constructor
  · intro inside
    refine ⟨inside.headers, fun ok => ?_⟩
    have sections := inside.sections ok
    rw [located ok] at sections
    exact reportsInside_iff.mp sections
  · rintro ⟨inside, wanted⟩
    refine ⟨inside, fun ok => ?_, fun ok => ?_⟩
    · rw [located ok]
      exact reportsInside_iff.mpr (wanted ok)
    · simp only [address_sub_base]
      rw [located ok]
      exact reportsInside_iff.mpr (wanted ok)

/-- The same for the walk over the table, with or without assertions. -/
theorem searchFits_iff :
    (∀ window ∈ (headerWindows loaded.table loaded.sectionCount).takeWhile
        (fun window => build.ndebug || window.start < loaded.imageSize.toNat),
      window.Within loaded.imageSize.toNat) ∧
      ((∀ window ∈ headerWindows loaded.table loaded.sectionCount,
        build.ndebug = true ∨ window.start < loaded.imageSize.toNat) →
          WantedInside loaded entries) ↔
      SearchFits build loaded entries := by
  rw [SearchFits]
  by_cases empty : loaded.sectionCount = 0
  · have nothing : headerWindows loaded.table loaded.sectionCount = [] := by
      rw [empty]
      rfl
    rw [nothing]
    exact iff_of_true ⟨by simp, fun _ => wantedInside_of_empty empty⟩ (.inl empty)
  · rw [or_iff_right empty]
    cases quiet : build.ndebug with
    | true =>
      have all : (headerWindows loaded.table loaded.sectionCount).takeWhile
          (fun window => true || window.start < loaded.imageSize.toNat) =
            headerWindows loaded.table loaded.sectionCount :=
        List.takeWhile_eq_self_iff.mpr fun _ _ => rfl
      rw [all, allHeadersInside_iff, or_iff_right empty]
      simp [StubImage.tableEnd]
    | false =>
      simp only [Bool.false_or, Bool.false_eq_true, false_or, true_and, headersInside_iff, empty]
      constructor
      · rintro ⟨fits, wanted⟩
        by_cases ends : loaded.tableEnd ≤ loaded.imageSize.toNat
        · exact .inl ⟨ends, wanted (headersStart_of_end ends)⟩
        · exact .inr ⟨Nat.not_le.mp ends, fits.resolve_left ends⟩
      · rintro (⟨ends, wanted⟩ | ⟨beyond, stops⟩)
        · exact ⟨.inl ends, fun _ => wanted⟩
        · exact ⟨.inr stops, fun all => absurd all (not_finished_of_stops empty beyond stops)⟩

/-- The search stays inside the image exactly when the headers it goes to and the sections it
reports do; an image that is refused is not searched. -/
theorem searchInside_iff :
    SearchInside loaded (peLocateSectionsInPlace build loaded entries) ↔
      (TableReached build loaded → SearchFits build loaded entries) := by
  rw [searchInside_iff_parts]
  by_cases reached : TableReached build loaded
  · rw [imp_iff_right reached]
    obtain ⟨pos, start, loop⟩ := peLocateSectionsInPlace_reached reached entries
    have bounded := reached.accepted.table_bounded
    rw [← start] at bounded
    rw [loop, fillLoop_headers reached.based bounded, fillLoop_finished_iff reached.based bounded,
      List.nil_append]
    dsimp only
    rw [start]
    exact searchFits_iff
  · obtain ⟨unfinished, -, unseen⟩ := peLocateSectionsInPlace_refused reached entries
    refine iff_of_true ⟨?_, fun ok => absurd ok unfinished⟩ fun accepted => absurd accepted reached
    rw [unseen]
    simp

end Reports

/-- A stub of `0x2000` bytes whose only section, `.linux`, has that size and starts in its middle. -/
def overlongStub : StubImage :=
  { imageBase := 0x800000
    imageSize := 0x2000
    loadOptions := 0
    loadOptionsSize := 0
    memory := smallImage 1 0x2000 0x200 16 ((0x9c, 2, 10) :: (0x148, 8, 0x78756e696c2e) ::
      sectionFields 0 0x2000 0x1000 0x200 0x200 0x60000020) }

set_option maxRecDepth 4000 in
/-- Half of the kernel that is reported lies behind the image. -/
theorem not_searchInside_overlongStub :
    ¬ SearchInside overlongStub
      (peLocateSectionsInPlace defaultBuild overlongStub wantedSections) := by
  intro inside
  have kernel := inside.sections (by decide +kernel)
    ⟨[0x2e, 0x6c, 0x69, 0x6e, 0x75, 0x78], 0x1000, 0x200, 0x2000⟩ (by decide +kernel)
    (by decide +kernel)
  exact absurd kernel (by decide)

end ZLoader
