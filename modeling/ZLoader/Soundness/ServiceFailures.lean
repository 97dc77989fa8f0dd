import ZLoader.Foundation.Ledger
import ZLoader.Soundness.LoadServices

/-! # Failing firmware services

The result of `allocate_aligned_buffer_ext` is a bool that nobody looks at, so without pages the
load goes on at NULL. Every other failure is noticed, answered with an error and undone, unless a
message about a section keeps the load from getting there; and where pages were allocated, so is
every error.
-/

namespace ZLoader

/-- What the firmware grants to a load. -/
inductive Grant where
  | pages (address count : UInt64)
  | pool (address : UInt64)
deriving DecidableEq, Repr

/-- The movement of a resource that a firmware call makes; no pages make none. -/
def Event.movement? : Event → Option (Movement Grant)
  | .allocatePages address count => if count = 0 then none else some (.grant (.pages address count))
  | .freePages address count => if count = 0 then none else some (.release (.pages address count))
  | .allocatePool address => some (.grant (.pool address))
  | .freePool address => some (.release (.pool address))
  | .readFile _ | .writeFile _ | .writeImage _ | .installProtocols _ _ _ => none

/-- The pages and pool blocks that are held at the end of a trace. -/
def heldAfter (trace : List Event) : List Grant := outstanding [] (trace.filterMap Event.movement?)

/-- The firmware services that a load calls after its pages are filled. -/
def Services.finishes (services : Services) : Bool :=
  services.mallocDevicePath.isSome && services.mallocLoadedImage.isSome &&
    !efiError services.install

/-- No service fails. -/
def Services.serves (services : Services) : Bool :=
  services.allocatePages.isSome && services.finishes

/-- Pages are physical addresses other than NULL; these have at most 52 bits. -/
def Services.PlacesPages (services : Services) : Prop :=
  ∀ raw, services.allocatePages = some raw → raw ≠ 0 ∧ raw.toNat < 2 ^ 52

/-- What a load owes its caller when services fail: the failure is reported, nothing is written
through a destination that was not allocated, and a refused load holds nothing and leaves no handle. -/
structure FailureSafe (build : Build) (services : Services) (imageData : SimpleBuffer)
    (memory : Memory) : Prop where
  reported : (∃ ctx, RequestsServices build imageData memory ctx) → services.serves = false →
    ∃ status, (peHandleImage build services imageData memory).outcome = .error status ∧
      efiError status = true
  obtained : ∀ window,
    .writeImage window ∈ (peHandleImage build services imageData memory).state.trace →
      window.length ≠ 0 → services.allocatePages.isSome = true
  released : ∀ status, (peHandleImage build services imageData memory).outcome = .error status →
    heldAfter (peHandleImage build services imageData memory).state.trace = []
  handleless : ∀ status, (peHandleImage build services imageData memory).outcome = .error status →
    ∀ handle lp dp, Event.installProtocols handle lp dp ∉
      (peHandleImage build services imageData memory).state.trace

/-- Nothing of the section is copied or filled: its raw data is in place and long enough. -/
structure WritesNothing (buffer : UInt64) (ctx : PeLoaderCtx) (sec : PeSectionHeader) : Prop where
  initialized : sec.uninitializedData = false
  inPlace : inPlace buffer ctx sec = true
  whole : sec.virtualSize ≤ sec.sizeOfRawData

/-- The sections or the base relocations are refused when the image is loaded at `buffer`. -/
def RefusesSections (build : Build) (services : Services) (ctx : PeLoaderCtx) (st : LoaderState) :
    Prop :=
  sectionsReached build services ctx = true ∧
    ((sectionsLoaded services ctx st).fails = true ∨
      ∃ sec, fixupSection ctx (sectionsLoaded services ctx st) = some sec ∧
        efiError (relocationFixup (destination services ctx).buffer ctx sec
          (sectionsLoaded services ctx st).state).1 = true)

/-- A load without pages that still writes nothing and ends in an error. -/
structure HarmlessAtNull (build : Build) (services : Services) (ctx : PeLoaderCtx)
    (st : LoaderState) : Prop where
  noHeaders : ctx.sizeOfHeaders = 0
  noSections : ∀ turn ∈ sectionPlan build services ctx st.memory.file, turn.loads = true →
    WritesNothing 0 ctx turn.sec
  refused : imageAddress 0 ctx.sizeOfImage ctx.entryPoint = 0 ∨
    RefusesSections build services ctx st ∨
      ((ctx.numberOfRvaAndSizes > 5 → build.ndebug = true) ∧ services.finishes = false ∧
        MessagesEnd build services ctx st.memory.file)

theorem heldAfter_services (trace : List Event) : heldAfter (serviceEvents trace) = heldAfter trace := by
  rw [heldAfter, heldAfter, serviceEvents, List.filterMap_filter]
  congr 1
  apply List.filterMap_congr
  intro event _
  cases event <;> rfl

theorem outstanding_poolReturned {services : Services} {pool : List Event}
    (returned : PoolReturned services pool) (held : List Grant) :
    outstanding held (pool.filterMap Event.movement?) = held := by
  cases returned with
  | untouched => rfl
  | devicePath dp _ => exact outstanding_release_last held (.pool dp) []
  | both dp lp _ _ => exact outstanding_release_both held (.pool dp) (.pool lp) []

/-- Rounding up adds less than the alignment. -/
theorem alignValue_padding (v : UInt64) {alignment : UInt32} (aligned : alignment ≠ 0) :
    ((alignment.toUInt64 - v) &&& (alignment.toUInt64 - 1)).toNat < alignment.toNat := by
  have least : alignment.toNat ≠ 0 := fun zero => aligned (UInt32.toNat_inj.mp zero)
  have one : (1 : UInt64) ≤ alignment.toUInt64 := by
    rw [UInt64.le_iff_toNat_le, UInt32.toNat_toUInt64]
    exact Nat.one_le_iff_ne_zero.mpr least
  have mask := UInt64.toNat_sub_of_le _ _ one
  have below := Nat.and_le_right (n := (alignment.toUInt64 - v).toNat)
    (m := (alignment.toUInt64 - 1).toNat)
  rw [UInt64.toNat_and]
  rw [UInt32.toNat_toUInt64, UInt64.toNat_one] at mask
  omega

/-- Rounding up an address does not lead to NULL. -/
theorem alignValue_ne_zero {v : UInt64} {alignment : UInt32} (nonzero : v ≠ 0)
    (physical : v.toNat < 2 ^ 52) (aligned : alignment ≠ 0) :
    alignValue v alignment.toUInt64 ≠ 0 := by
  intro null
  have positive : v.toNat ≠ 0 := fun zero => nonzero (UInt64.toNat_inj.mp zero)
  have range := alignment.toNat_lt
  have padding := alignValue_padding v aligned
  have sum := congrArg UInt64.toNat null
  rw [alignValue, UInt64.toNat_add, UInt64.toNat_zero] at sum
  omega

/-- Without an answer there is no destination. -/
theorem destination_none {services : Services} (ctx : PeLoaderCtx)
    (refused : services.allocatePages = none) : destination services ctx = ⟨0, 0, 0, 0⟩ := by
  rw [destination, refused, allocateAlignedBufferExt]

theorem destination_placed {services : Services} {ctx : PeLoaderCtx} {raw : UInt64}
    (placed : services.PlacesPages) (served : services.allocatePages = some raw)
    (aligned : ctx.sectionAlignment ≠ 0) :
    (destination services ctx).raw = raw ∧ (destination services ctx).buffer ≠ 0 := by
  rw [destination, served, allocateAlignedBufferExt]
  exact ⟨rfl, alignValue_ne_zero (placed raw served).1 (placed raw served).2 aligned⟩

/-- An accepted image has a section alignment. -/
theorem RequestsServices.sectionAlignment {build : Build} {imageData : SimpleBuffer}
    {memory : Memory} {ctx : PeLoaderCtx} (requests : RequestsServices build imageData memory ctx) :
    ctx.sectionAlignment ≠ 0 := by
  obtain ⟨peOffset, _, _, checked⟩ := readHeaders_ok requests.accepted
  obtain ⟨rfl, _⟩ := checkHeaders_ok checked
  have default (fileAlignment : UInt32) : max fileAlignment 0x1000 ≠ 0 := by
    change (if fileAlignment ≤ 0x1000 then 0x1000 else fileAlignment) ≠ 0
    split_ifs with small
    · decide
    · rintro rfl
      exact small (by decide)
  rw [loaderCtx]
  dsimp only
  split_ifs with missing
  · exact default _
  · exact default _
  · simpa using missing

section Load

variable {build : Build} {services : Services} {imageData : SimpleBuffer} {memory : Memory}
  {ctx : PeLoaderCtx}

/-- What has been granted before the end of a refused load is given back at its end. -/
theorem heldAfter_refused (placed : services.PlacesPages) (aligned : ctx.sectionAlignment ≠ 0)
    {pool : List Event} (returned : PoolReturned services pool) :
    heldAfter (pageRequest services ctx ++ pool ++ pageRelease (destination services ctx)) = [] := by
  rw [heldAfter, List.filterMap_append, List.filterMap_append, outstanding_append,
    outstanding_append, outstanding_poolReturned returned]
  cases served : services.allocatePages with
  | none => simp [pageRequest, pageRelease, destination_none ctx served, served]
  | some raw =>
    obtain ⟨same, buffer⟩ := destination_placed placed served aligned
    have nonnull := (placed raw served).1
    rw [← same] at nonnull
    by_cases empty : (destination services ctx).pages = 0
    · simp [pageRequest, pageRelease, served, empty, Event.movement?]
    · simp [pageRequest, pageRelease, served, empty, Event.movement?, nonnull, buffer]

theorem LoadEnds.released {result : HandleImageResult} {events : List Event}
    (ends : LoadEnds services ctx result events) (placed : services.PlacesPages)
    (aligned : ctx.sectionAlignment ≠ 0) {status : EfiStatus}
    (error : result.outcome = .error status) : heldAfter events = [] := by
  cases ends with
  | refused _ _ _ _ returned => exact heldAfter_refused placed aligned returned
  | loaded _ _ _ _ _ outcome _ => exact absurd (outcome.symm.trans error) nofun
  | stopped _ _ outcome _ => exact absurd (outcome.symm.trans error) nofun
  | printing outcome _ => exact absurd (outcome.symm.trans error) nofun

theorem LoadEnds.handleless {result : HandleImageResult} {events : List Event}
    (ends : LoadEnds services ctx result events) {status : EfiStatus}
    (error : result.outcome = .error status) (handle lp dp : UInt64) :
    Event.installProtocols handle lp dp ∉ events := by
  cases ends with
  | refused _ _ _ _ returned =>
    intro member
    rcases List.mem_append.mp member with started | freed
    · rcases List.mem_append.mp started with requested | pooled
      · rw [pageRequest] at requested
        split_ifs at requested <;> simp at requested
      · cases returned <;> simp at pooled
    · rw [pageRelease] at freed
      split_ifs at freed <;> simp at freed
  | loaded _ _ _ _ _ outcome _ => cases outcome.symm.trans error
  | stopped _ _ outcome _ => cases outcome.symm.trans error
  | printing outcome _ => cases outcome.symm.trans error

theorem mem_serviceEvents_install {trace : List Event} {handle lp dp : UInt64} :
    Event.installProtocols handle lp dp ∈ serviceEvents trace ↔
      Event.installProtocols handle lp dp ∈ trace := by
  simp [serviceEvents, Event.isService]

/-- Errors of a load are clean, whatever fails. -/
theorem peHandleImage_clean (requests : RequestsServices build imageData memory ctx)
    (placed : services.PlacesPages) {status : EfiStatus}
    (error : (peHandleImage build services imageData memory).outcome = .error status) :
    heldAfter (peHandleImage build services imageData memory).state.trace = [] ∧
      ∀ handle lp dp, Event.installProtocols handle lp dp ∉
        (peHandleImage build services imageData memory).state.trace := by
  have ends := peHandleImage_ends requests services
  constructor
  · rw [← heldAfter_services]
    exact ends.released placed requests.sectionAlignment error
  · intro handle lp dp member
    exact ends.handleless error handle lp dp (mem_serviceEvents_install.mpr member)

/-- What a call returns for an error is one. -/
theorem peHandleImage_error (requests : RequestsServices build imageData memory ctx)
    {status : EfiStatus}
    (error : (peHandleImage build services imageData memory).outcome = .error status) :
    efiError status = true := by
  have ends := peHandleImage_ends requests services
  generalize serviceEvents (peHandleImage build services imageData memory).state.trace = events
    at ends
  cases ends with
  | refused other failed outcome _ _ =>
    obtain rfl := LoadOutcome.error.inj (outcome.symm.trans error)
    exact failed
  | loaded _ _ _ _ _ outcome _ => exact absurd (outcome.symm.trans error) nofun
  | stopped _ _ outcome _ => exact absurd (outcome.symm.trans error) nofun
  | printing outcome _ => exact absurd (outcome.symm.trans error) nofun

/-- A load with a destination reports every failure that it comes to. -/
theorem peHandleImage_reported (requests : RequestsServices build imageData memory ctx)
    (placed : services.PlacesPages) (served : services.allocatePages.isSome = true)
    (returns : MessagesEnd build services ctx memory.file) (failing : services.serves = false) :
    ∃ status, (peHandleImage build services imageData memory).outcome = .error status ∧
      efiError status = true := by
  obtain ⟨raw, answered⟩ := Option.isSome_iff_exists.mp served
  have ends := peHandleImage_ends requests services
  generalize serviceEvents (peHandleImage build services imageData memory).state.trace = events
    at ends
  cases ends with
  | refused status error outcome _ _ => exact ⟨status, outcome, error⟩
  | loaded dp lp path image installed _ _ =>
    rw [Services.serves, Services.finishes, answered, path, image, installed] at failing
    contradiction
  | stopped _ null _ _ =>
    exact absurd null (destination_placed placed answered requests.sectionAlignment).2
  | printing outcome _ =>
    exact absurd returns ((peHandleImage_printing_iff requests).mp outcome)

/-- The block after the entry point check ends in an error when a callee refuses the image. -/
theorem relocateImage_error_iff (build : Build) (buffer : UInt64) (ctx : PeLoaderCtx)
    (st : LoaderState) :
    (∃ status, (relocateImage build buffer ctx st).1 = .error status) ↔
      reachesSections build buffer ctx = true ∧
        ((relocateSections buffer ctx st).fails = true ∨
          ∃ sec, fixupSection ctx (relocateSections buffer ctx st) = some sec ∧
            efiError (relocationFixup buffer ctx sec
              (relocateSections buffer ctx st).state).1 = true) := by
  rw [reachesSections, relocateImage]
  by_cases long : ctx.numberOfRvaAndSizes > 5
  · by_cases asserted : (build.ndebug || buffer != 0) = true
    · simp only [long, asserted, fixupSection, SectionsResult.fails, SectionsResult.succeeds,
        decide_true, Bool.not_true, Bool.false_eq_true, if_false, Bool.and_self, true_and]
      obtain ⟨status, relocSection, _, after⟩ := relocateSections buffer ctx st
      cases status with
      | none => simp
      | some status =>
        simp only [Option.any_some]
        cases efiError status with
        | true => simp
        | false =>
          simp only [Bool.not_false, Bool.false_eq_true, if_true, if_false, false_or]
          cases relocSection with
          | none => simp
          | some offset =>
            dsimp only
            split_ifs with empty failed
            · simp
            · simpa using failed
            · simpa using failed
    · simp [long, asserted]
  · simp [long]

theorem installImage_outcome (services : Services) (ctx : PeLoaderCtx) (data : AlignedBuffer)
    (entryPoint : UInt64) (st : LoaderState) :
    (∃ status, (installImage services ctx data entryPoint st).outcome = .error status) ↔
      services.finishes = false := by
  rw [installImage, Services.finishes]
  cases services.mallocDevicePath with
  | none => simp [failImage]
  | some dp =>
    cases services.mallocLoadedImage with
    | none => simp [failImage]
    | some lp =>
      dsimp only
      split_ifs with failed
      · simpa [failImage] using failed
      · simpa using failed

/-- At NULL the assertion on the destination ends a build that has it. -/
theorem relocateImage_null (st : LoaderState) (long : ctx.numberOfRvaAndSizes > 5)
    (asserts : build.ndebug = false) :
    (relocateImage build 0 ctx st).1 = .assertionFailed .other := by
  simp [relocateImage, long, asserts]

/-- When a load without pages ends in an error. -/
theorem loadImage_refused_iff (st : LoaderState) (unplaced : services.allocatePages = none) :
    (∃ status, (loadImage build services ctx st).outcome = .error status) ↔
      imageAddress 0 ctx.sizeOfImage ctx.entryPoint = 0 ∨ RefusesSections build services ctx st ∨
        ((ctx.numberOfRvaAndSizes > 5 → build.ndebug = true) ∧ services.finishes = false ∧
          MessagesEnd build services ctx st.memory.file) := by
  have null : (destination services ctx).buffer = 0 := by rw [destination_none ctx unplaced]
  have refusal := relocateImage_error_iff build 0 ctx (headersCopied services ctx st)
  have quiet : (∀ assertion, (relocateImage build 0 ctx (headersCopied services ctx st)).1 ≠
      .assertionFailed assertion) → ctx.numberOfRvaAndSizes > 5 → build.ndebug = true := by
    intro goesOn long
    by_contra asserts
    exact goesOn _ (relocateImage_null _ long (Bool.eq_false_iff.mpr asserts))
  have ways := relocateImage_cases build 0 ctx (headersCopied services ctx st)
  simp only [messagesEnd_iff, loadImage, RefusesSections, sectionsReached, sectionsLoaded, null, bne]
  split_ifs with invalid
  · simp [failImage, (by simpa using invalid : imageAddress 0 ctx.sizeOfImage ctx.entryPoint = 0)]
  · have valid : imageAddress 0 ctx.sizeOfImage ctx.entryPoint ≠ 0 := by simpa using invalid
    simp only [Bool.eq_false_iff.mpr invalid, Bool.not_false, Bool.true_and, valid, false_or,
      ← refusal]
    generalize relocateImage build 0 ctx (headersCopied services ctx st) = relocated at quiet ways
    obtain ⟨outcome, after⟩ := relocated
    rcases ways with ⟨rfl, passes⟩ | ⟨status, _, rfl⟩ | ⟨_, asserts, long, rfl⟩ | ⟨reached, endless, rfl⟩
    · have goesOn := quiet (by rintro assertion ⟨⟩)
      have returns (reached : reachesSections build 0 ctx = true) :
          (relocateSections 0 ctx (headersCopied services ctx st)).status ≠ none := by
        have success := (passes (of_decide_eq_true (Bool.and_eq_true_iff.mp reached).1)).2
        intro endless
        rw [SectionsResult.succeeds, endless] at success
        contradiction
      simp only [installImage_outcome, reduceCtorEq, exists_false, false_or]
      exact ⟨fun fails => ⟨goesOn, fails, returns⟩, fun all => all.2.1⟩
    · simp [failImage]
    · simp [long, asserts]
    · simp [reached, endless]

/-- A section that passes its checks at NULL has a byte. -/
theorem checkSection_load_null {directory : PeDataDirectory} {relocSection next : Option ℕ}
    {offset : ℕ} {sec : PeSectionHeader}
    (passed : checkSection 0 ctx directory relocSection offset sec = .ok (.load next)) :
    sec.virtualSize ≠ 0 := by
  intro empty
  obtain ⟨_, base, last, ordered⟩ := checkSection_load passed
  have start := (imageAddress_bounds base).2
  have stop := (imageAddress_bounds last).2
  have nonzero : (sectionBase 0 ctx sec).toNat ≠ 0 := fun zero => base (UInt64.toNat_inj.mp zero)
  rw [sectionBase] at nonzero
  rw [UInt64.le_iff_toNat_le, sectionBase, sectionEnd, start, stop, empty, UInt32.add_zero,
    UInt64.toNat_zero, Nat.zero_add, Nat.zero_add, UInt32.toNat_toUInt64, UInt32.toNat_toUInt64,
    UInt32.toNat_sub] at ordered
  rw [start, UInt64.toNat_zero, Nat.zero_add, UInt32.toNat_toUInt64] at nonzero
  have range := sec.virtualAddress.toNat_lt
  have one : (1 : UInt32).toNat = 1 := rfl
  omega

/-- When a loaded section is not written. -/
theorem sectionEvents_silent_iff {buffer : UInt64} {sec : PeSectionHeader}
    (nonempty : sec.virtualSize ≠ 0) :
    (∀ window ∈ imageWrites (sectionEvents buffer ctx sec), window.length = 0) ↔
      WritesNothing buffer ctx sec := by
  have size : sec.virtualSize.toNat ≠ 0 := fun zero => nonempty (UInt32.toNat_inj.mp zero)
  constructor
  · intro silent
    have initialized : sec.uninitializedData = false := by
      by_contra uninitialized
      have filled := silent ⟨_, sec.virtualSize.toNat⟩ (by
        rw [sectionEvents, if_pos (by simpa using uninitialized)]
        exact List.mem_singleton_self _)
      exact size filled
    have whole : sec.virtualSize ≤ sec.sizeOfRawData := by
      by_contra short
      rw [UInt32.not_le] at short
      have filled := silent ⟨(sectionBase buffer ctx sec - buffer).toNat +
        sec.sizeOfRawData.toNat, (sec.virtualSize - sec.sizeOfRawData).toNat⟩ (by
        simp [sectionEvents, initialized, short])
      change (sec.virtualSize - sec.sizeOfRawData).toNat = 0 at filled
      rw [UInt32.toNat_sub_of_le _ _ (UInt32.le_of_lt short)] at filled
      rw [UInt32.lt_iff_toNat_lt] at short
      omega
    have raw : sec.sizeOfRawData.toNat ≠ 0 := by
      rw [UInt32.le_iff_toNat_le] at whole
      omega
    refine ⟨initialized, ?_, whole⟩
    by_contra moved
    have copied : copiesRawData buffer ctx sec = true := by
      simp [copiesRawData, Bool.eq_false_iff.mpr moved, UInt32.lt_iff_toNat_lt,
        Nat.pos_of_ne_zero raw]
    have written := silent ⟨(sectionBase buffer ctx sec - buffer).toNat, sec.sizeOfRawData.toNat⟩ (by
      simp [sectionEvents, initialized, copied])
    exact raw written
  · rintro ⟨initialized, inPlace, whole⟩ window member
    simp [sectionEvents, initialized, copiesRawData, inPlace, UInt32.not_lt.mpr whole] at member

/-- What a load without pages writes at NULL. -/
theorem imageWrites_empty_iff (requests : RequestsServices build imageData memory ctx)
    (unplaced : services.allocatePages = none) :
    (∀ window ∈ imageWrites (peHandleImage build services imageData memory).state.trace,
        window.length = 0) ↔
      ctx.sizeOfHeaders = 0 ∧
        ∀ turn ∈ sectionPlan build services ctx memory.file, turn.loads = true →
          WritesNothing 0 ctx turn.sec := by
  have null : (destination services ctx).buffer = 0 := by rw [destination_none ctx unplaced]
  have passed {turn : Turn} (member : turn ∈ sectionPlan build services ctx memory.file)
      (loads : turn.loads = true) : turn.sec.virtualSize ≠ 0 := by
    obtain ⟨_, ⟨relocSection, next, passed⟩, _⟩ :=
      sectionPlan_loaded (headersRead build imageData memory) member loads
    rw [null] at passed
    exact checkSection_load_null passed
  rw [peHandleImage_imageWrites requests.pointer requests.accepted, List.forall_mem_cons, null]
  refine and_congr ⟨fun zero => UInt64.toNat_inj.mp zero, fun zero => congrArg UInt64.toNat zero⟩ ?_
  constructor
  · intro silent turn member loads
    rw [← sectionEvents_silent_iff (passed member loads)]
    intro window written
    refine silent window (mem_imageWrites.mpr (List.mem_flatMap.mpr ⟨turn, member, ?_⟩))
    exact turn.mem_events_of_loads loads (mem_imageWrites.mp written)
  · intro nothing window written
    obtain ⟨turn, member, event⟩ := List.mem_flatMap.mp (mem_imageWrites.mp written)
    obtain ⟨loads, filled⟩ := turn.writeImage_mem event
    apply (sectionEvents_silent_iff (passed member loads)).mpr (nothing turn member loads)
    rwa [mem_imageWrites]

end Load

section Safe

variable {build : Build} {services : Services} {imageData : SimpleBuffer} {memory : Memory}

/-- A call that is rejected before its first service is safe. -/
theorem failureSafe_of_rejected (rejected : ¬ ∃ ctx, RequestsServices build imageData memory ctx) :
    FailureSafe build services imageData memory := by
  obtain ⟨_, _, untouched, unwritten⟩ := peHandleImage_unserved rejected services
  refine ⟨fun requests => absurd requests rejected, ?_, ?_, ?_⟩
  · intro window written
    rw [← mem_imageWrites, unwritten] at written
    cases written
  · intro status _
    rw [← heldAfter_services, untouched]
    rfl
  · intro status _ handle lp dp member
    rw [← mem_serviceEvents_install, untouched] at member
    cases member

/-- With pages a call is safe when it comes to every failure there is. -/
theorem failureSafe_placed_iff {ctx : PeLoaderCtx}
    (requests : RequestsServices build imageData memory ctx) (placed : services.PlacesPages)
    (served : services.allocatePages.isSome = true) :
    FailureSafe build services imageData memory ↔
      (services.finishes = false → MessagesEnd build services ctx memory.file) := by
  have serves : services.serves = services.finishes := by rw [Services.serves, served, Bool.true_and]
  constructor
  · rintro ⟨reported, _, _, _⟩ failing
    obtain ⟨status, error, _⟩ := reported ⟨ctx, requests⟩ (serves.trans failing)
    by_contra endless
    have printing : (peHandleImage build services imageData memory).outcome = .printing :=
      (peHandleImage_printing_iff requests).mpr endless
    cases printing.symm.trans error
  · intro returns
    exact ⟨fun _ failing => peHandleImage_reported requests placed served
        (returns (serves.symm.trans failing)) failing, fun _ _ _ => served,
      fun _ error => (peHandleImage_clean requests placed error).1,
      fun _ error => (peHandleImage_clean requests placed error).2⟩

/-- Without pages a call is safe when it does no harm at NULL. -/
theorem failureSafe_unplaced_iff {ctx : PeLoaderCtx}
    (requests : RequestsServices build imageData memory ctx) (placed : services.PlacesPages)
    (unplaced : services.allocatePages = none) :
    FailureSafe build services imageData memory ↔
      HarmlessAtNull build services ctx (headersRead build imageData memory) := by
  have refused : (∃ status, (loadImage build services ctx
      (headersRead build imageData memory)).outcome = .error status) ↔ _ :=
    loadImage_refused_iff _ unplaced
  have silent := imageWrites_empty_iff requests unplaced
  rw [← peHandleImage_accepted memory requests.pointer requests.accepted] at refused
  constructor
  · rintro ⟨reported, obtained, _, _⟩
    have failing : services.serves = false := by rw [Services.serves, unplaced]; rfl
    have unwritten := silent.mp (by
      intro window written
      by_contra nonempty
      have placed := obtained window (mem_imageWrites.mp written) nonempty
      rw [unplaced] at placed
      contradiction)
    obtain ⟨status, error, _⟩ := reported ⟨ctx, requests⟩ failing
    exact ⟨unwritten.1, unwritten.2, refused.mp ⟨status, error⟩⟩
  · rintro ⟨noHeaders, noSections, ends⟩
    have unwritten := silent.mpr ⟨noHeaders, noSections⟩
    refine ⟨fun _ _ => ?_, ?_, fun _ error => (peHandleImage_clean requests placed error).1,
      fun _ error => (peHandleImage_clean requests placed error).2⟩
    · obtain ⟨status, error⟩ := refused.mpr ends
      exact ⟨status, error, peHandleImage_error requests error⟩
    · intro window written nonempty
      exact absurd (unwritten window (mem_imageWrites.mpr written)) nonempty

/-- A load is safe for every image and every pattern of failures, except where pages are refused
and it writes at NULL, is stopped there, or succeeds, and where a message keeps it for ever from a
service that would fail. -/
theorem peHandleImage_failureSafe_iff (placed : services.PlacesPages) :
    FailureSafe build services imageData memory ↔
      ∀ ctx, RequestsServices build imageData memory ctx →
        if services.allocatePages.isSome then
          services.finishes = false → MessagesEnd build services ctx memory.file
        else HarmlessAtNull build services ctx (headersRead build imageData memory) := by
  by_cases requested : ∃ ctx, RequestsServices build imageData memory ctx
  · obtain ⟨ctx, requests⟩ := requested
    have only (other : PeLoaderCtx) (again : RequestsServices build imageData memory other) :
        other = ctx := Outcome.ok.inj (again.accepted.symm.trans requests.accepted)
    split_ifs with served
    · rw [failureSafe_placed_iff requests placed served]
      exact ⟨fun returns other again => only other again ▸ returns, fun returns => returns ctx requests⟩
    · rw [failureSafe_unplaced_iff requests placed (Option.not_isSome_iff_eq_none.mp served)]
      exact ⟨fun harmless other again => only other again ▸ harmless,
        fun harmless => harmless ctx requests⟩
  · exact iff_of_true (failureSafe_of_rejected requested) fun ctx requests =>
      absurd ⟨ctx, requests⟩ requested

end Safe

/-- The pool fails when the loaded image protocol is allocated. -/
theorem peHandleImage_failureSafe_fittingImage :
    FailureSafe defaultBuild { smallServices with mallocLoadedImage := none } (smallBuffer 0xa00)
      ⟨fittingImage, fun _ => 0⟩ := by
  apply (peHandleImage_failureSafe_iff ?_).mpr
  · rintro ctx ⟨_, accepted⟩ _
    obtain rfl := Outcome.ok.inj accepted
    decide
  · rintro _ ⟨⟩
    exact ⟨by decide, by decide⟩

/-- An image without sections and without a relocation directory. -/
def bareImage : ByteStore := smallImage 0 0x2000 0x200 5 []

/-- Without pages the headers are copied to NULL, and the load succeeds. -/
theorem not_peHandleImage_failureSafe_bareImage :
    ¬ ∀ (build : Build) (services : Services) (imageData : SimpleBuffer) (memory : Memory),
      services.PlacesPages → FailureSafe build services imageData memory := by
  intro claim
  have safe := claim defaultBuild { smallServices with allocatePages := none } (smallBuffer 0x200)
    ⟨bareImage, fun _ => 0⟩ nofun
  obtain ⟨status, error, _⟩ := safe.reported ⟨_, by decide, rfl⟩ rfl
  have success : (peHandleImage defaultBuild { smallServices with allocatePages := none }
      (smallBuffer 0x200) ⟨bareImage, fun _ => 0⟩).outcome = .ok := by decide
  exact absurd (success.symm.trans error) nofun

end ZLoader
