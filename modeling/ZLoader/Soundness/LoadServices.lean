import ZLoader.Soundness.SectionBounds

/-! # The firmware calls of a load

Between the allocation of the pages and the calls at its end a load only reads and writes memory,
so its firmware calls are determined by how it ends: refused, loaded, stopped by the assertion on
the destination, which a successful allocation cannot fail, or not at all, in the message about an
illegal section address.
-/

namespace ZLoader

/-- The firmware calls of a trace, in order. -/
def serviceEvents (trace : List Event) : List Event := trace.filter Event.isService

@[simp] theorem serviceEvents_append (first second : List Event) :
    serviceEvents (first ++ second) = serviceEvents first ++ serviceEvents second :=
  List.filter_append ..

theorem serviceEvents_eq_nil {trace : List Event}
    (accesses : ∀ event ∈ trace, event.isService = false) : serviceEvents trace = [] := by
  rw [serviceEvents, List.filter_eq_nil_iff]
  intro event member
  simp [accesses event member]

theorem sectionEvents_accesses (buffer : UInt64) (ctx : PeLoaderCtx) (sec : PeSectionHeader) :
    ∀ event ∈ sectionEvents buffer ctx sec, event.isService = false := by
  intro event member
  simp only [sectionEvents] at member
  split_ifs at member <;> simp at member <;> rcases member with rfl | rfl | rfl <;> rfl

theorem Turn.events_accesses (buffer : UInt64) (ctx : PeLoaderCtx) (turn : Turn) :
    ∀ event ∈ turn.events buffer ctx, event.isService = false := by
  intro event member
  rcases List.mem_cons.mp member with rfl | loaded
  · rfl
  · rcases List.mem_append.mp loaded with loaded | printed
    · split_ifs at loaded
      · exact sectionEvents_accesses buffer ctx turn.sec event loaded
      · cases loaded
    · obtain ⟨_, rfl⟩ := turn.printReads_onlyReads event printed
      rfl

theorem relocationFixup_services (buffer : UInt64) (ctx : PeLoaderCtx) (sec : PeSectionHeader)
    (st : LoaderState) :
    serviceEvents (relocationFixup buffer ctx sec st).2.trace = serviceEvents st.trace := by
  apply relocationFixup_invariant fun after => serviceEvents after.trace = serviceEvents st.trace
  · intro after window same
    simpa [serviceEvents, Event.isService] using same
  · intro after page entry field same
    cases field <;> simpa [applyFixup, fixupEvents, serviceEvents, Event.isService] using same
  · exact fun _ _ same => same
  · rfl

theorem relocateSections_services (buffer : UInt64) (ctx : PeLoaderCtx) (st : LoaderState) :
    serviceEvents (relocateSections buffer ctx st).state.trace = serviceEvents st.trace := by
  have accesses : serviceEvents ((turns buffer ctx (.read st.memory.file ctx.relocDirectory)
      st.memory.file ctx.numberOfSections.toNat ctx.firstSection none).flatMap
        (Turn.events buffer ctx)) = [] := by
    apply serviceEvents_eq_nil
    intro event member
    obtain ⟨turn, _, inTurn⟩ := List.mem_flatMap.mp member
    exact Turn.events_accesses buffer ctx turn event inTurn
  rw [relocateSections, relocateSectionsLoop_trace, serviceEvents_append, accesses, List.append_nil]

/-- Sections and base relocations are loaded without a firmware call. -/
theorem relocateImage_services (build : Build) (buffer : UInt64) (ctx : PeLoaderCtx)
    (st : LoaderState) :
    serviceEvents (relocateImage build buffer ctx st).2.trace = serviceEvents st.trace := by
  rw [relocateImage_state]
  split_ifs
  · split
    · exact relocateSections_services buffer ctx st
    · rw [relocationFixup_services, relocateSections_services]
  · rfl

/-- The successful request for pages. -/
def pageRequest (services : Services) (ctx : PeLoaderCtx) : List Event :=
  if services.allocatePages.isSome then
    [.allocatePages (destination services ctx).raw (destination services ctx).pages]
  else []

/-- The release of the pages at the end of their scope. -/
def pageRelease (data : AlignedBuffer) : List Event :=
  if data.buffer != 0 && data.pages != 0 && data.raw != 0 then [.freePages data.raw data.pages]
  else []

theorem headersCopied_services (services : Services) (ctx : PeLoaderCtx) (st : LoaderState) :
    serviceEvents (headersCopied services ctx st).trace =
      serviceEvents st.trace ++ pageRequest services ctx := by
  simp only [headersCopied, copyHeaders, LoaderState.copyToImage, pageRequest]
  split_ifs
  · simp only [LoaderState.log, List.append_assoc, serviceEvents_append]
    rfl
  · simp only [serviceEvents_append]
    rfl

theorem failImage_services (data : AlignedBuffer) (entryPoint : UInt64) (status : EfiStatus)
    (st : LoaderState) :
    serviceEvents (failImage data entryPoint status st).state.trace =
      serviceEvents st.trace ++ pageRelease data := by
  simp only [failImage, freeAligned, pageRelease]
  split_ifs <;> simp [LoaderState.log, serviceEvents, Event.isService]

/-- The pool blocks that a refused load has taken and given back. -/
inductive PoolReturned (services : Services) : List Event → Prop where
  | untouched : PoolReturned services []
  | devicePath (dp : UInt64) : services.mallocDevicePath = some dp →
      PoolReturned services [.allocatePool dp, .freePool dp]
  | both (dp lp : UInt64) : services.mallocDevicePath = some dp →
      services.mallocLoadedImage = some lp →
      PoolReturned services [.allocatePool dp, .allocatePool lp, .freePool dp, .freePool lp]

/-- How a load ends, with the firmware calls it has made since its start. -/
inductive LoadEnds (services : Services) (ctx : PeLoaderCtx) :
    HandleImageResult → List Event → Prop where
  | refused {result : HandleImageResult} {pool : List Event} (status : EfiStatus) :
      efiError status = true → result.outcome = .error status → result.loadedImage = none →
      PoolReturned services pool →
      LoadEnds services ctx result
        (pageRequest services ctx ++ pool ++ pageRelease (destination services ctx))
  | loaded {result : HandleImageResult} (dp lp : UInt64) :
      services.mallocDevicePath = some dp → services.mallocLoadedImage = some lp →
      efiError services.install = false → result.outcome = .ok →
      result.loadedImage = some ⟨(destination services ctx).buffer, ctx.sizeOfImage,
        createMemoryMappedDevicePath (destination services ctx).raw
          ((destination services ctx).pages * pageSize), 0, 0⟩ →
      LoadEnds services ctx result (pageRequest services ctx ++
        [.allocatePool dp, .allocatePool lp, .installProtocols services.handle lp dp])
  | stopped {result : HandleImageResult} (assertion : Assertion) :
      (destination services ctx).buffer = 0 → result.outcome = .assertionFailed assertion →
      result.loadedImage = none → LoadEnds services ctx result (pageRequest services ctx)
  | printing {result : HandleImageResult} :
      result.outcome = .printing → result.loadedImage = none →
      LoadEnds services ctx result (pageRequest services ctx)

/-- The calls at the end of a load. -/
theorem installImage_ends (services : Services) (ctx : PeLoaderCtx) (entryPoint : UInt64)
    (st : LoaderState) :
    ∃ events, LoadEnds services ctx
        (installImage services ctx (destination services ctx) entryPoint st)
        (pageRequest services ctx ++ events) ∧
      serviceEvents (installImage services ctx (destination services ctx) entryPoint
        st).state.trace = serviceEvents st.trace ++ events := by
  have refusal {pool : List Event} (returned : PoolReturned services pool) (status : EfiStatus)
      (error : efiError status = true) (after : LoaderState)
      (trace : serviceEvents after.trace = serviceEvents st.trace ++ pool) :
      ∃ events, LoadEnds services ctx (failImage (destination services ctx) entryPoint status after)
          (pageRequest services ctx ++ events) ∧
        serviceEvents (failImage (destination services ctx) entryPoint status after).state.trace =
          serviceEvents st.trace ++ events := by
    refine ⟨pool ++ pageRelease (destination services ctx), ?_, ?_⟩
    · rw [← List.append_assoc]
      exact .refused status error rfl rfl returned
    · rw [failImage_services, trace, List.append_assoc]
  rw [installImage]
  cases path : services.mallocDevicePath with
  | none => exact refusal .untouched efiOutOfResources (by decide) st (by simp)
  | some dp =>
    dsimp only
    cases image : services.mallocLoadedImage with
    | none =>
      apply refusal (.devicePath dp path) efiOutOfResources (by decide)
      simp [LoaderState.log, serviceEvents, Event.isService]
    | some lp =>
      dsimp only
      split_ifs with failed
      · apply refusal (.both dp lp path image) services.install failed
        simp [LoaderState.log, serviceEvents, Event.isService]
      · refine ⟨_, .loaded dp lp path image (Bool.eq_false_iff.mpr failed) rfl rfl, ?_⟩
        simp [LoaderState.log, serviceEvents, Event.isService]

/-- Every load ends in one of the four ways. -/
theorem loadImage_ends (build : Build) (services : Services) (ctx : PeLoaderCtx)
    (st : LoaderState) :
    ∃ events, LoadEnds services ctx (loadImage build services ctx st) events ∧
      serviceEvents (loadImage build services ctx st).state.trace =
        serviceEvents st.trace ++ events := by
  have refusal {after : LoaderState} (entryPoint : UInt64) (status : EfiStatus)
      (error : efiError status = true)
      (trace : serviceEvents after.trace = serviceEvents st.trace ++ pageRequest services ctx) :
      ∃ events, LoadEnds services ctx (failImage (destination services ctx) entryPoint status after)
          events ∧
        serviceEvents (failImage (destination services ctx) entryPoint status after).state.trace =
          serviceEvents st.trace ++ events := by
    refine ⟨_, .refused status error rfl rfl .untouched, ?_⟩
    rw [failImage_services, trace, List.append_nil, List.append_assoc]
  simp only [loadImage]
  split_ifs with invalid
  · exact refusal _ _ (by decide) (headersCopied_services services ctx st)
  · have trace := relocateImage_services build (destination services ctx).buffer ctx
      (headersCopied services ctx st)
    have outcome := relocateImage_cases build (destination services ctx).buffer ctx
      (headersCopied services ctx st)
    rw [headersCopied_services] at trace
    generalize relocateImage build (destination services ctx).buffer ctx
      (headersCopied services ctx st) = relocated at trace outcome
    obtain ⟨outcome', after⟩ := relocated
    rcases outcome with ⟨rfl, _⟩ | ⟨status, error, rfl⟩ | ⟨null, _, _, rfl⟩ | ⟨_, _, rfl⟩
    · obtain ⟨events, ends, extended⟩ := installImage_ends services ctx
        (imageAddress (destination services ctx).buffer ctx.sizeOfImage ctx.entryPoint) after
      refine ⟨_, ends, ?_⟩
      rw [extended, trace, List.append_assoc]
    · exact refusal _ status error trace
    · exact ⟨_, .stopped _ null rfl rfl, trace⟩
    · exact ⟨_, .printing rfl rfl, trace⟩

/-- Reading the headers needs no firmware. -/
theorem readHeaders_services (build : Build) (buffer : SimpleBuffer) (file : ByteStore) :
    serviceEvents (readHeaders build buffer file).2 = [] := by
  apply serviceEvents_eq_nil
  intro event member
  obtain ⟨window, rfl⟩ := readHeaders_onlyReads build buffer file event member
  rfl

/-- The call reaches its first service: the arguments are valid and the headers accepted. -/
structure RequestsServices (build : Build) (imageData : SimpleBuffer) (memory : Memory)
    (ctx : PeLoaderCtx) : Prop where
  pointer : imageData.buffer ≠ 0
  accepted : (readHeaders build imageData memory.file).1 = .ok ctx

variable {build : Build} {imageData : SimpleBuffer} {memory : Memory}

/-- A call that reaches its services is a load. -/
theorem peHandleImage_ends {ctx : PeLoaderCtx}
    (requests : RequestsServices build imageData memory ctx) (services : Services) :
    LoadEnds services ctx (peHandleImage build services imageData memory)
      (serviceEvents (peHandleImage build services imageData memory).state.trace) := by
  rw [peHandleImage_accepted memory requests.pointer requests.accepted]
  obtain ⟨events, ends, trace⟩ :=
    loadImage_ends build services ctx (headersRead build imageData memory)
  rw [trace]
  have reads : serviceEvents (headersRead build imageData memory).trace = [] :=
    readHeaders_services build imageData memory.file
  rwa [reads, List.nil_append]

/-- Every message that the section loop prints comes to its end. -/
def MessagesEnd (build : Build) (services : Services) (ctx : PeLoaderCtx) (file : ByteStore) : Prop :=
  ∀ turn ∈ sectionPlan build services ctx file, turn.hangs = false

instance (build : Build) (services : Services) (ctx : PeLoaderCtx) (file : ByteStore) :
    Decidable (MessagesEnd build services ctx file) :=
  inferInstanceAs (Decidable (∀ turn ∈ _, _))

/-- What is printed depends on the pages that the load is granted, and on no other service. -/
theorem messagesEnd_congr {services other : Services} {ctx : PeLoaderCtx} {file : ByteStore}
    (same : services.allocatePages = other.allocatePages) :
    MessagesEnd build services ctx file ↔ MessagesEnd build other ctx file := by
  have destinations : destination services ctx = destination other ctx := by
    rw [destination, destination, same]
  have plans : sectionPlan build services ctx file = sectionPlan build other ctx file := by
    rw [sectionPlan, sectionPlan, sectionsReached, sectionsReached, destinations]
  rw [MessagesEnd, MessagesEnd, plans]

/-- The messages end when the section loop is not reached or returns. -/
theorem messagesEnd_iff {services : Services} {ctx : PeLoaderCtx} (st : LoaderState) :
    MessagesEnd build services ctx st.memory.file ↔
      (sectionsReached build services ctx = true →
        (sectionsLoaded services ctx st).status ≠ none) := by
  have file : (headersCopied services ctx st).memory.file = st.memory.file := by
    rw [headersCopied_memory]
  by_cases reached : sectionsReached build services ctx = true
  · rw [MessagesEnd, sectionPlan, if_pos reached, sectionsLoaded, relocateSections, Ne,
      relocateSectionsLoop_hangs_iff, file]
    simp [reached]
  · rw [MessagesEnd, sectionPlan, if_neg reached]
    exact iff_of_true (fun _ member => absurd member List.not_mem_nil) fun both => absurd both reached

/-- A load does not return exactly when one of its messages does not end. -/
theorem loadImage_printing_iff {services : Services} {ctx : PeLoaderCtx} (st : LoaderState) :
    (loadImage build services ctx st).outcome = .printing ↔
      ¬ MessagesEnd build services ctx st.memory.file := by
  rw [messagesEnd_iff, Classical.not_imp, not_not, sectionsReached, sectionsLoaded]
  have outcome := relocateImage_cases build (destination services ctx).buffer ctx
    (headersCopied services ctx st)
  simp only [loadImage]
  split_ifs with invalid
  · simp [failImage, bne, invalid]
  · simp only [bne, Bool.eq_false_iff.mpr invalid, Bool.not_false, Bool.true_and]
    have ways := relocateImage_printing_iff build (destination services ctx).buffer ctx
      (headersCopied services ctx st)
    generalize relocateImage build (destination services ctx).buffer ctx
      (headersCopied services ctx st) = relocated at outcome ways
    obtain ⟨outcome', after⟩ := relocated
    rw [← ways]
    rcases outcome with ⟨rfl, _⟩ | ⟨status, _, rfl⟩ | ⟨_, _, _, rfl⟩ | ⟨_, _, rfl⟩
    · refine iff_of_false ?_ nofun
      rcases installImage_returns services ctx (destination services ctx)
        (imageAddress (destination services ctx).buffer ctx.sizeOfImage ctx.entryPoint) after with
        loaded | ⟨status, refused⟩
      · exact fun printing => nomatch loaded.symm.trans printing
      · exact fun printing => nomatch refused.symm.trans printing
    · simp [failImage]
    · simp
    · simp

/-- A call does not return exactly when one of the messages of its load does not end. -/
theorem peHandleImage_printing_iff {services : Services} {ctx : PeLoaderCtx}
    (requests : RequestsServices build imageData memory ctx) :
    (peHandleImage build services imageData memory).outcome = .printing ↔
      ¬ MessagesEnd build services ctx memory.file := by
  rw [peHandleImage_accepted memory requests.pointer requests.accepted]
  exact loadImage_printing_iff (headersRead build imageData memory)

/-- A call that does not reach its services does not load anything. -/
theorem peHandleImage_unserved
    (rejected : ¬ ∃ ctx, RequestsServices build imageData memory ctx) (services : Services) :
    let result := peHandleImage build services imageData memory
    result.outcome ≠ .ok ∧ result.loadedImage = none ∧ serviceEvents result.state.trace = [] ∧
      imageWrites result.state.trace = [] := by
  have reads := readHeaders_services build imageData memory.file
  have writes := readHeaders_imageWrites build imageData memory.file
  simp only [peHandleImage]
  split_ifs with null
  · exact ⟨by rintro ⟨⟩, rfl, rfl, rfl⟩
  · split
    · exact ⟨by rintro ⟨⟩, rfl, rfl, rfl⟩
    · exact ⟨by rintro ⟨⟩, rfl, rfl, rfl⟩
    · split_ifs
      · exact ⟨by rintro ⟨⟩, rfl, rfl, rfl⟩
      · split
        · exact ⟨by rintro ⟨⟩, rfl, reads, writes⟩
        · exact ⟨by rintro ⟨⟩, rfl, reads, writes⟩
        · next ctx accepted =>
          exact absurd ⟨ctx, by simpa using null, accepted⟩ rejected

end ZLoader
