import ZLoader.Model.Loader.Image
import ZLoader.Soundness.SectionTurns

/-! # The phases of `PE_handle_image`

A load copies the headers, loads the sections and applies the base relocations; what comes before
and after only talks to the firmware. Memory and accesses of a whole call are therefore those of
`accessed`, the state in which the last byte has been read or written, and that state is the
section plan followed by the relocation walk.
-/

namespace ZLoader

/-- Events that read or write neither the file buffer nor the image. -/
def Event.isService : Event → Bool
  | .readFile _ | .writeFile _ | .writeImage _ => false
  | .allocatePages _ _ | .freePages _ _ | .allocatePool _ | .freePool _
  | .installProtocols _ _ _ => true

def Event.imageWrite? : Event → Option Window
  | .writeImage window => some window
  | _ => none

def Event.fileRead? : Event → Option Window
  | .readFile window => some window
  | _ => none

/-- The windows of the image written by a trace, in order. -/
def imageWrites (trace : List Event) : List Window := trace.filterMap Event.imageWrite?

/-- The windows of the file buffer read by a trace, in order. -/
def fileReads (trace : List Event) : List Window := trace.filterMap Event.fileRead?

section Projections

variable (first second : List Event) (window : Window)

@[simp] theorem imageWrites_nil : imageWrites [] = [] := rfl
@[simp] theorem fileReads_nil : fileReads [] = [] := rfl

@[simp] theorem imageWrites_append :
    imageWrites (first ++ second) = imageWrites first ++ imageWrites second :=
  List.filterMap_append

@[simp] theorem fileReads_append :
    fileReads (first ++ second) = fileReads first ++ fileReads second :=
  List.filterMap_append

@[simp] theorem imageWrites_readFile :
    imageWrites (.readFile window :: second) = imageWrites second := rfl
@[simp] theorem imageWrites_writeFile :
    imageWrites (.writeFile window :: second) = imageWrites second := rfl
@[simp] theorem imageWrites_writeImage :
    imageWrites (.writeImage window :: second) = window :: imageWrites second := rfl
@[simp] theorem fileReads_readFile :
    fileReads (.readFile window :: second) = window :: fileReads second := rfl
@[simp] theorem fileReads_writeFile :
    fileReads (.writeFile window :: second) = fileReads second := rfl
@[simp] theorem fileReads_writeImage :
    fileReads (.writeImage window :: second) = fileReads second := rfl

end Projections

theorem mem_imageWrites {trace : List Event} {window : Window} :
    window ∈ imageWrites trace ↔ .writeImage window ∈ trace := by
  simp only [imageWrites, List.mem_filterMap]
  constructor
  · rintro ⟨event, member, found⟩
    cases event <;> simp_all [Event.imageWrite?]
  · exact fun member => ⟨_, member, rfl⟩

theorem mem_fileReads {trace : List Event} {window : Window} :
    window ∈ fileReads trace ↔ .readFile window ∈ trace := by
  simp only [fileReads, List.mem_filterMap]
  constructor
  · rintro ⟨event, member, found⟩
    cases event <;> simp_all [Event.fileRead?]
  · exact fun member => ⟨_, member, rfl⟩

/-- Firmware calls extend the trace of a state. -/
def LoaderState.Serviced (before after : LoaderState) : Prop :=
  ∃ events : List Event, (∀ event ∈ events, event.isService = true) ∧
    after = { before with trace := before.trace ++ events }

namespace LoaderState.Serviced

theorem refl (st : LoaderState) : st.Serviced st := ⟨[], by simp, by simp⟩

theorem log {before after : LoaderState} (serviced : before.Serviced after) {event : Event}
    (service : event.isService = true) : before.Serviced (after.log event) := by
  obtain ⟨events, services, rfl⟩ := serviced
  refine ⟨events ++ [event], ?_, ?_⟩
  · simpa [or_imp, forall_and] using ⟨services, service⟩
  · simp [LoaderState.log]

variable {before after : LoaderState} (serviced : before.Serviced after)
include serviced

theorem imageWrites_eq : imageWrites after.trace = imageWrites before.trace := by
  obtain ⟨events, services, rfl⟩ := serviced
  have none : imageWrites events = [] := by
    rw [imageWrites, List.filterMap_eq_nil_iff]
    intro event member
    have service := services event member
    cases event <;> simp_all [Event.isService, Event.imageWrite?]
  simpa using none

theorem fileReads_eq : fileReads after.trace = fileReads before.trace := by
  obtain ⟨events, services, rfl⟩ := serviced
  have none : fileReads events = [] := by
    rw [fileReads, List.filterMap_eq_nil_iff]
    intro event member
    have service := services event member
    cases event <;> simp_all [Event.isService, Event.fileRead?]
  simpa using none

end LoaderState.Serviced

/-- Failing calls release what they hold and touch no byte. -/
theorem failImage_serviced {before after : LoaderState} (serviced : before.Serviced after)
    (data : AlignedBuffer) (entryPoint : UInt64) (status : EfiStatus) :
    before.Serviced (failImage data entryPoint status after).state := by
  unfold failImage freeAligned
  dsimp only
  split_ifs
  · exact serviced.log rfl
  · exact serviced

theorem installImage_serviced (services : Services) (ctx : PeLoaderCtx) (data : AlignedBuffer)
    (entryPoint : UInt64) (st : LoaderState) :
    st.Serviced (installImage services ctx data entryPoint st).state := by
  have start := LoaderState.Serviced.refl st
  unfold installImage
  split
  · exact failImage_serviced start _ _ _
  · dsimp only
    split
    · exact failImage_serviced ((start.log rfl).log rfl) _ _ _
    · split_ifs
      · exact failImage_serviced ((((start.log rfl).log rfl).log rfl).log rfl) _ _ _
      · exact ((start.log rfl).log rfl).log rfl

theorem headersCopied_memory (services : Services) (ctx : PeLoaderCtx) (st : LoaderState) :
    (headersCopied services ctx st).memory =
      { st.memory with
        image := (Patch.copy 0 ctx.sizeOfHeaders.toNat st.memory.file 0).apply st.memory.image } := by
  unfold headersCopied
  dsimp only
  split_ifs <;> rfl

/-- The header copy reads and writes one window, whether or not pages were allocated. -/
theorem headersCopied_accesses (services : Services) (ctx : PeLoaderCtx) (st : LoaderState) :
    imageWrites (headersCopied services ctx st).trace =
        imageWrites st.trace ++ [⟨0, ctx.sizeOfHeaders.toNat⟩] ∧
      fileReads (headersCopied services ctx st).trace =
        fileReads st.trace ++ [⟨0, ctx.sizeOfHeaders.toNat⟩] := by
  have serviced : st.Serviced (if services.allocatePages.isSome then
      st.log (.allocatePages (destination services ctx).raw (destination services ctx).pages)
      else st) := by
    split_ifs
    · exact (LoaderState.Serviced.refl st).log rfl
    · exact .refl st
  simp only [headersCopied, copyHeaders, LoaderState.copyToImage]
  rw [imageWrites_append, fileReads_append, serviced.imageWrites_eq, serviced.fileReads_eq]
  exact ⟨rfl, rfl⟩

/-- The section loop is reached: the entry point lies in the image, the data directory is long
enough and the assertion on the destination does not end the program. -/
def sectionsReached (build : Build) (services : Services) (ctx : PeLoaderCtx) : Bool :=
  imageAddress (destination services ctx).buffer ctx.sizeOfImage ctx.entryPoint != 0 &&
    reachesSections build (destination services ctx).buffer ctx

/-- The result of the section loop of a load. -/
def sectionsLoaded (services : Services) (ctx : PeLoaderCtx) (st : LoaderState) : SectionsResult :=
  relocateSections (destination services ctx).buffer ctx (headersCopied services ctx st)

/-- The relocation section that the loop hands to `relocation_fixup`, if it is called. -/
def fixupSection (ctx : PeLoaderCtx) (sections : SectionsResult) : Option PeSectionHeader :=
  if sections.succeeds then
    match sections.relocSection with
    | none => none
    | some offset =>
        if (PeDataDirectory.read sections.state.memory.file ctx.relocDirectory).size == 0 then none
        else some (PeSectionHeader.read sections.state.memory.file offset)
  else none

/-- The state in which the last byte of a load has been read or written. -/
def accessed (build : Build) (services : Services) (ctx : PeLoaderCtx) (st : LoaderState) :
    LoaderState :=
  if sectionsReached build services ctx then
    let sections := sectionsLoaded services ctx st
    match fixupSection ctx sections with
    | none => sections.state
    | some sec => (relocationFixup (destination services ctx).buffer ctx sec sections.state).2
  else headersCopied services ctx st

theorem relocateImage_state (build : Build) (buffer : UInt64) (ctx : PeLoaderCtx)
    (st : LoaderState) :
    (relocateImage build buffer ctx st).2 =
      if reachesSections build buffer ctx then
        match fixupSection ctx (relocateSections buffer ctx st) with
        | none => (relocateSections buffer ctx st).state
        | some sec => (relocationFixup buffer ctx sec (relocateSections buffer ctx st).state).2
      else st := by
  unfold relocateImage reachesSections fixupSection SectionsResult.succeeds
  cases decide (ctx.numberOfRvaAndSizes > 5) with
  | false => simp
  | true =>
    cases (build.ndebug || buffer != 0) with
    | false => simp
    | true =>
      simp only [Bool.not_true, Bool.false_eq_true, if_false, Bool.and_self, if_true]
      cases (relocateSections buffer ctx st).status with
      | none => rfl
      | some status =>
        by_cases failed : efiError status = true
        · simp [failed]
        · simp only [Option.any_some, Bool.eq_false_iff.mpr failed, Bool.false_eq_true, if_false,
            Bool.not_false, if_true]
          cases (relocateSections buffer ctx st).relocSection with
          | none => rfl
          | some offset =>
            dsimp only
            split_ifs <;> rfl

/-- The ways out of the block between the entry point check and the device path: sections that are
all loaded, an error, the assertion on the destination, or a message that never ends. -/
theorem relocateImage_cases (build : Build) (buffer : UInt64) (ctx : PeLoaderCtx)
    (st : LoaderState) :
    ((relocateImage build buffer ctx st).1 = .ok ∧
      (ctx.numberOfRvaAndSizes > 5 → reachesSections build buffer ctx = true ∧
        (relocateSections buffer ctx st).succeeds = true)) ∨
    (∃ status, efiError status = true ∧ (relocateImage build buffer ctx st).1 = .error status) ∨
    (buffer = 0 ∧ build.ndebug = false ∧ ctx.numberOfRvaAndSizes > 5 ∧
      (relocateImage build buffer ctx st).1 = .assertionFailed .other) ∨
    (reachesSections build buffer ctx = true ∧ (relocateSections buffer ctx st).status = none ∧
      (relocateImage build buffer ctx st).1 = .printing) := by
  unfold relocateImage reachesSections SectionsResult.succeeds
  by_cases long : ctx.numberOfRvaAndSizes > 5
  · cases asserted : (build.ndebug || buffer != 0) with
    | false =>
      obtain ⟨asserts, null⟩ := Bool.or_eq_false_iff.mp asserted
      refine .inr (.inr (.inl ⟨by simpa using null, asserts, long, ?_⟩))
      simp [long]
    | true =>
      simp only [long, decide_true, Bool.not_true, Bool.false_eq_true, if_false, Bool.and_self,
        true_and, forall_const]
      cases known : (relocateSections buffer ctx st).status with
      | none => exact .inr (.inr (.inr ⟨rfl, rfl⟩))
      | some status =>
        cases failed : efiError status with
        | true =>
          refine .inr (.inl ⟨efiLoadError, by decide, ?_⟩)
          simp [failed]
        | false =>
          simp only [failed, Bool.false_eq_true, if_false, Option.any_some, Bool.not_false, and_true]
          cases (relocateSections buffer ctx st).relocSection with
          | none => exact .inl rfl
          | some offset =>
            dsimp only
            split_ifs with empty broken
            · exact .inl rfl
            · exact .inr (.inl ⟨_, broken, rfl⟩)
            · exact .inl rfl
  · left
    simp [long]

/-- The block does not return exactly when the section loop does not. -/
theorem relocateImage_printing_iff (build : Build) (buffer : UInt64) (ctx : PeLoaderCtx)
    (st : LoaderState) :
    (relocateImage build buffer ctx st).1 = .printing ↔
      reachesSections build buffer ctx = true ∧ (relocateSections buffer ctx st).status = none := by
  constructor
  · intro printing
    rcases relocateImage_cases build buffer ctx st with
      ⟨other, _⟩ | ⟨_, _, other⟩ | ⟨_, _, _, other⟩ | ⟨reached, endless, _⟩
    · cases printing.symm.trans other
    · cases printing.symm.trans other
    · cases printing.symm.trans other
    · exact ⟨reached, endless⟩
  · rintro ⟨reached, endless⟩
    obtain ⟨long, asserted⟩ := Bool.and_eq_true_iff.mp reached
    simp only [relocateImage, long, asserted, endless, Bool.not_true, Bool.false_eq_true, if_false]

/-- The tail of a load returns. -/
theorem installImage_returns (services : Services) (ctx : PeLoaderCtx) (data : AlignedBuffer)
    (entryPoint : UInt64) (st : LoaderState) :
    (installImage services ctx data entryPoint st).outcome = .ok ∨
      ∃ status, (installImage services ctx data entryPoint st).outcome = .error status := by
  rw [installImage]
  split
  · exact .inr ⟨_, rfl⟩
  · dsimp only
    split
    · exact .inr ⟨_, rfl⟩
    · split_ifs
      · exact .inr ⟨_, rfl⟩
      · exact .inl rfl

/-- After the last access a load only talks to the firmware. -/
theorem loadImage_serviced (build : Build) (services : Services) (ctx : PeLoaderCtx)
    (st : LoaderState) :
    (accessed build services ctx st).Serviced (loadImage build services ctx st).state := by
  have phases := relocateImage_state build (destination services ctx).buffer ctx
    (headersCopied services ctx st)
  unfold loadImage accessed sectionsReached sectionsLoaded
  dsimp only
  cases valid : imageAddress (destination services ctx).buffer ctx.sizeOfImage ctx.entryPoint == 0 with
  | true =>
    simp only [bne, valid, Bool.not_true, Bool.false_and, Bool.false_eq_true, if_false, if_true]
    exact failImage_serviced (.refl _) _ _ _
  | false =>
    simp only [bne, valid, Bool.not_false, Bool.true_and, Bool.false_eq_true, if_false, ← phases]
    obtain ⟨outcome, after⟩ :=
      relocateImage build (destination services ctx).buffer ctx (headersCopied services ctx st)
    cases outcome with
    | ok => exact installImage_serviced ..
    | error status => exact failImage_serviced (.refl _) _ _ _
    | assertionFailed => exact .refl _
    | printing => exact .refl _

/-- Accepted headers come from a buffer with a byte to read. -/
theorem readHeaders_bufferLen {build : Build} {buffer : SimpleBuffer} {file : ByteStore}
    {ctx : PeLoaderCtx} (accepted : (readHeaders build buffer file).1 = .ok ctx) :
    ∃ length, bufferLen build buffer = .ok length ∧ length ≠ 0 := by
  obtain ⟨peOffset, found, nonzero, _⟩ := readHeaders_ok accepted
  unfold peHeader at found
  split at found
  · split_ifs at found with signature
    · exact absurd (Outcome.ok.inj found).symm nonzero
    · split at found
      · next length known =>
        refine ⟨length, known, ?_⟩
        rintro rfl
        split_ifs at found with short
        · exact absurd (Outcome.ok.inj found).symm nonzero
        all_goals exact short (by decide)
      · contradiction
      · contradiction
  · contradiction
  · contradiction

/-- The state in which the headers of an accepted image have been read. -/
def headersRead (build : Build) (imageData : SimpleBuffer) (memory : Memory) : LoaderState :=
  { LoaderState.start memory with trace := (readHeaders build imageData memory.file).2 }

/-- With accepted headers the call is the load of the image they describe. -/
theorem peHandleImage_accepted {build : Build} {services : Services} {imageData : SimpleBuffer}
    (memory : Memory) {ctx : PeLoaderCtx} (pointer : imageData.buffer ≠ 0)
    (accepted : (readHeaders build imageData memory.file).1 = .ok ctx) :
    peHandleImage build services imageData memory =
      loadImage build services ctx (headersRead build imageData memory) := by
  obtain ⟨length, known, nonempty⟩ := readHeaders_bufferLen accepted
  have nonnull : (imageData.buffer == 0) = false := by simpa using pointer
  have remaining : (length == 0) = false := by simpa using nonempty
  simp only [peHandleImage, known, nonnull, remaining, Bool.false_eq_true, if_false, accepted,
    headersRead]

theorem peHandleImage_pointer {build : Build} {services : Services} {imageData : SimpleBuffer}
    {memory : Memory}
    (success : (peHandleImage build services imageData memory).outcome = .ok) :
    imageData.buffer ≠ 0 := by
  intro null
  unfold peHandleImage at success
  rw [if_pos (by rw [null]; rfl)] at success
  contradiction

/-! ## A small image

An x86_64 image with its headers at `0x40` and its section table at `0x148`, for concrete runs. -/

/-- The fields of a section header that are not zero. -/
def sectionFields (index virtualSize virtualAddress sizeOfRawData pointerToRawData
    characteristics : ℕ) : List (ℕ × ℕ × ℕ) :=
  let offset := 0x148 + sizeofPeSectionHeader * index
  [(offset + 8, 4, virtualSize), (offset + 12, 4, virtualAddress), (offset + 16, 4, sizeOfRawData),
    (offset + 20, 4, pointerToRawData), (offset + 36, 4, characteristics)]

/-- An image file with the given header fields, preferred base `0x10000` and further fields. -/
def smallImage (numberOfSections sizeOfImage sizeOfHeaders numberOfRvaAndSizes : ℕ)
    (fields : List (ℕ × ℕ × ℕ)) : ByteStore :=
  .ofFields ([(0, 2, 0x5a4d), (0x3c, 4, 0x40), (0x40, 4, 0x4550), (0x44, 2, 0x8664),
    (0x46, 2, numberOfSections), (0x54, 2, 240), (0x56, 2, 2), (0x58, 2, 0x20b), (0x68, 4, 0x1000),
    (0x70, 8, 0x10000), (0x78, 4, 0x1000), (0x7c, 4, 0x200), (0x90, 4, sizeOfImage),
    (0x94, 4, sizeOfHeaders), (0xc4, 4, numberOfRvaAndSizes)] ++ fields)

/-- Firmware that serves every request and places the image at `0x800000`. -/
def smallServices : Services := ⟨some 0x800000, some 0x900000, some 0x900100, efiSuccess, 0x900200⟩

/-- A buffer at `0x100000` that holds a file of the given length. -/
def smallBuffer (length : UInt64) : SimpleBuffer := ⟨0x100000, length, 0, length, none⟩

end ZLoader
