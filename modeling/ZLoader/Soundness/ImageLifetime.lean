import ZLoader.Foundation.CallRun
import ZLoader.Foundation.Results
import ZLoader.Model.Loader.Unload
import ZLoader.Soundness.ServiceFailures

/-! # The pages of images over their lifetime

A load takes pages from the firmware and gives them back when it fails. An unload asks the firmware
to take back as many pages as lie between the end of the image and its start, counted forwards from
the start: nearly all of the address space. The firmware refuses that, so no unload ever gives back
a page. Nor does a load that never gets behind its message about an illegal section address.
-/

namespace ZLoader

/-- A loaded image with the pages allocated for it. -/
structure LoadedPages where
  image : Handle
  raw : UInt64
  pages : UInt64
deriving DecidableEq, Repr

/-- The frames of an image. -/
def LoadedPages.frames (loaded : LoadedPages) : Set ℕ :=
  frameRun (loaded.raw.toNat / 4096) loaded.pages.toNat

/-- The loaded images after one more call. -/
def stillLoadedStep (images : List LoadedPages) : ImageCall × ImageReply → List LoadedPages
  | (_, .loaded image raw pages) => ⟨image, raw, pages⟩ :: images
  | (.unload image _, .unloaded status _) =>
      if status = efiSuccess then images.filter fun loaded => loaded.image ≠ image else images
  | _ => images

/-- The images of a log that were loaded successfully and not unloaded since. -/
def stillLoaded (log : List (ImageCall × ImageReply)) : List LoadedPages :=
  log.foldl stillLoadedStep []

/-- The frames of the images of a log. -/
def loadedFrames (log : List (ImageCall × ImageReply)) : Set ℕ :=
  { frame | ∃ loaded ∈ stillLoaded log, frame ∈ loaded.frames }

/-- The handles returned by the loads of a log. -/
def returnedHandles (log : List (ImageCall × ImageReply)) : List Handle :=
  log.filterMap fun entry => match entry.2 with
    | .loaded image _ _ => some image
    | _ => none

@[simp] theorem stillLoaded_snoc (log : List (ImageCall × ImageReply))
    (entry : ImageCall × ImageReply) :
    stillLoaded (log ++ [entry]) = stillLoadedStep (stillLoaded log) entry :=
  List.foldl_append ..

/-- One of the calls of an unload is refused. -/
def UnloadRefusals.refuse (refusals : UnloadRefusals) : Bool :=
  refusals.openDevicePath.isSome || refusals.openLoadedImage.isSome || refusals.uninstall.isSome

section Addresses

theorem frameAddress_toNat {frame : ℕ} (bounded : frame < frameLimit) :
    (frameAddress frame).toNat = frame * 4096 := by
  rw [frameLimit] at bounded
  rw [frameAddress, UInt64.toNat_ofNat', Nat.mod_eq_of_lt (by omega)]

/-- The number of pages that an unload asks the firmware to take back. -/
theorem releasedPages_toNat (raw : UInt64) {pages : UInt64} (small : pages.toNat < 2 ^ 51) :
    ((raw - (raw + pages * pageSize)) / pageSize).toNat =
      if pages = 0 then 0 else 2 ^ 52 - pages.toNat := by
  have page : pageSize.toNat = 4096 := rfl
  have range := raw.toNat_lt
  have size : (pages * pageSize).toNat = pages.toNat * 4096 := by
    rw [UInt64.toNat_mul, page, Nat.mod_eq_of_lt (by omega)]
  rw [UInt64.toNat_div, page, UInt64.toNat_sub, UInt64.toNat_add, size]
  split_ifs with empty
  · rw [empty, UInt64.toNat_zero]
    omega
  · have positive : pages.toNat ≠ 0 := fun zero => empty (UInt64.toNat_inj.mp zero)
    omega

/-- The sizes of an image are words of 32 bits, so it takes few pages. -/
theorem requestedPages_lt {ctx : PeLoaderCtx} (size : ctx.sizeOfImage.toNat < 2 ^ 32)
    (aligned : ctx.sectionAlignment ≠ 0) : (requestedPages ctx).toNat < 2 ^ 51 := by
  have page : pageSize.toNat = 4096 := rfl
  have padding := alignValue_padding (ctx.sizeOfImage + ctx.sectionAlignment.toUInt64) aligned
  have range := ctx.sectionAlignment.toNat_lt
  rw [requestedPages, UInt64.toNat_div, page, alignValue, UInt64.toNat_add, UInt64.toNat_add,
    UInt32.toNat_toUInt64]
  omega

end Addresses

section Load

theorem releasePages_services {S : Type} (allocator : FirmwarePages S) (trace : List Event) (st : S) :
    releasePages allocator (serviceEvents trace) st = releasePages allocator trace st := by
  rw [releasePages, releasePages, serviceEvents, List.filterMap_filter]
  congr 1
  apply List.filterMap_congr
  intro event _
  cases event <;> rfl

theorem loadContext_some {build : Build} {imageData : SimpleBuffer} {memory : Memory}
    {ctx : PeLoaderCtx} (found : loadContext build imageData memory = some ctx) :
    RequestsServices build imageData memory ctx := by
  rw [loadContext] at found
  split_ifs at found with null
  split at found
  · next accepted =>
    obtain rfl := Option.some.inj found
    exact ⟨by simpa using null, accepted⟩
  · cases found
  · cases found

variable {S D : Type} (allocator : FirmwarePages S) (database : FirmwareHandles D)

/-- Pool blocks and installations give back no pages. -/
theorem freedPages_poolReturned {services : Services} {pool : List Event}
    (returned : PoolReturned services pool) : pool.filterMap Event.freedPages? = [] := by
  cases returned <;> rfl

theorem freedPages_pageRequest (services : Services) (ctx : PeLoaderCtx) :
    (pageRequest services ctx).filterMap Event.freedPages? = [] := by
  rw [pageRequest]
  split_ifs <;> rfl

variable {allocator}

/-- Pages that were just granted are taken back. -/
theorem held_freePages_granted {st granted : S} {pages : UInt64} {frame : ℕ}
    (accepted : allocator.allocate st pages.toNat = .ok (frame, granted)) (nonempty : pages ≠ 0) :
    allocator.held (freePages allocator (frameAddress frame) pages granted) = allocator.held st := by
  have count : pages.toNat ≠ 0 := fun zero => nonempty (UInt64.toNat_inj.mp zero)
  have address := frameAddress_toNat (allocator.allocate_placed _ _ _ _ accepted).2
  obtain ⟨next, freed, same⟩ := allocator.held_allocate_free accepted count
  rw [freePages, address, if_pos (Nat.mul_mod_left ..), Nat.mul_div_cancel frame (by decide), freed]
  exact same

/-- A refused load has given back what was granted to it. -/
theorem held_releasePages_refused {services : Services} {ctx : PeLoaderCtx} {pool : List Event}
    (returned : PoolReturned services pool) (aligned : ctx.sectionAlignment ≠ 0) {st granted : S}
    {frame : ℕ} (accepted : allocator.allocate st (requestedPages ctx).toNat = .ok (frame, granted))
    (placed : services.PlacesPages) (served : services.allocatePages = some (frameAddress frame)) :
    allocator.held (releasePages allocator
        (pageRequest services ctx ++ pool ++ pageRelease (destination services ctx)) granted) =
      allocator.held st := by
  obtain ⟨raw, buffer⟩ := destination_placed placed served aligned
  have nonnull := (placed _ served).1
  have pages : (destination services ctx).pages = requestedPages ctx := by
    rw [destination, served]
    rfl
  rw [releasePages, List.filterMap_append, List.filterMap_append, freedPages_pageRequest,
    freedPages_poolReturned returned, List.nil_append, List.nil_append, pageRelease, raw, pages]
  by_cases empty : requestedPages ctx = 0
  · have holds := allocator.held_allocate _ _ _ _ accepted
    rw [empty, UInt64.toNat_zero, frameRun_zero, Set.union_empty] at holds
    simpa [empty] using holds
  · rw [if_pos (by simp [buffer, empty, nonnull])]
    exact held_freePages_granted accepted empty

/-- The frames that a request with this answer was granted. -/
theorem destination_frames {services : Services} (ctx : PeLoaderCtx) {frame : ℕ}
    (bounded : frame < frameLimit) (served : services.allocatePages = some (frameAddress frame))
    (image : Handle) :
    LoadedPages.frames ⟨image, (destination services ctx).raw, (destination services ctx).pages⟩ =
      frameRun frame (requestedPages ctx).toNat := by
  have raw : (destination services ctx).raw = frameAddress frame := by
    rw [destination, served]
    rfl
  have pages : (destination services ctx).pages = requestedPages ctx := by
    rw [destination, served]
    rfl
  rw [LoadedPages.frames, raw, pages, frameAddress_toNat bounded,
    Nat.mul_div_cancel frame (by decide)]

/-- The pages after a load: those of its image are held when it succeeds or does not return, nothing
has changed when it is refused. -/
theorem held_releasePages {build : Build} {imageData : SimpleBuffer} {memory : Memory}
    {ctx : PeLoaderCtx} (requests : RequestsServices build imageData memory ctx)
    {services : Services} {st : S} {granted : Option (ℕ × S)}
    (answer : (allocator.allocate st (requestedPages ctx).toNat).toOption = granted)
    (served : services.allocatePages = granted.map fun run => frameAddress run.1) (image : Handle) :
    let result := peHandleImage build services imageData memory
    let after := releasePages allocator result.state.trace (granted.elim st fun run => run.2)
    (result.outcome = .ok ∨ result.outcome = .printing →
        allocator.held after = allocator.held st ∪ LoadedPages.frames ⟨image,
          (destination services ctx).raw, (destination services ctx).pages⟩) ∧
      (result.outcome ≠ .ok → result.outcome ≠ .printing →
        allocator.held after = allocator.held st) := by
  dsimp only
  have ends := peHandleImage_ends requests services
  rw [← releasePages_services]
  generalize serviceEvents (peHandleImage build services imageData memory).state.trace = events
    at ends
  cases granted with
  | none =>
    have unplaced := destination_none ctx served
    have nothing : events.filterMap Event.freedPages? = [] := by
      cases ends with
      | refused _ _ _ _ returned =>
        rw [List.filterMap_append, List.filterMap_append, freedPages_pageRequest,
          freedPages_poolReturned returned, unplaced]
        rfl
      | loaded _ _ _ _ _ _ _ => rw [List.filterMap_append, freedPages_pageRequest]; rfl
      | stopped _ _ _ _ => exact freedPages_pageRequest services ctx
      | printing _ _ => exact freedPages_pageRequest services ctx
    rw [releasePages, nothing, unplaced]
    refine ⟨fun _ => ?_, fun _ _ => rfl⟩
    simp [LoadedPages.frames]
  | some run =>
    obtain ⟨frame, next⟩ := run
    have accepted := toOption_eq_some_iff.mp answer
    have bounded := allocator.allocate_placed _ _ _ _ accepted
    have served : services.allocatePages = some (frameAddress frame) := served
    have placed : services.PlacesPages := by
      intro raw same
      obtain rfl := Option.some.inj (served.symm.trans same)
      have address := frameAddress_toNat bounded.2
      constructor
      · intro null
        rw [null, UInt64.toNat_zero] at address
        omega
      · rw [frameLimit] at bounded
        omega
    have holds := allocator.held_allocate _ _ _ _ accepted
    rw [destination_frames ctx bounded.2 served, Option.elim_some]
    cases ends with
    | refused status _ outcome _ returned =>
      refine ⟨fun kept => ?_, fun _ _ => ?_⟩
      · rw [outcome] at kept
        rcases kept with ⟨⟨⟩⟩ | ⟨⟨⟩⟩
      · exact held_releasePages_refused returned requests.sectionAlignment accepted placed served
    | loaded dp lp _ _ _ outcome _ =>
      refine ⟨fun _ => ?_, fun failed => absurd outcome failed⟩
      rw [releasePages, List.filterMap_append, freedPages_pageRequest]
      exact holds
    | stopped _ null _ _ =>
      exact absurd null (destination_placed placed served requests.sectionAlignment).2
    | printing outcome _ =>
      refine ⟨fun _ => ?_, fun _ returned => absurd outcome returned⟩
      rw [releasePages, freedPages_pageRequest]
      exact holds

theorem destination_small {build : Build} {imageData : SimpleBuffer} {memory : Memory}
    {ctx : PeLoaderCtx} (requests : RequestsServices build imageData memory ctx)
    (services : Services) : (destination services ctx).pages.toNat < 2 ^ 51 := by
  cases served : services.allocatePages with
  | none =>
    rw [destination_none ctx served]
    decide
  | some raw =>
    have pages : (destination services ctx).pages = requestedPages ctx := by
      rw [destination, served]
      rfl
    rw [pages]
    exact requestedPages_lt (readHeaders_sizes requests.accepted).2 requests.sectionAlignment

variable (allocator)

/-- What a load did to the firmware when it returned an image. -/
structure LoadedBy (st next : FirmwareState S D) (image : Handle) (raw pages : UInt64) : Prop where
  held : allocator.held next.pages =
    allocator.held st.pages ∪ LoadedPages.frames ⟨image, raw, pages⟩
  installed : ∃ lp dp, database.install st.handles none [(.loadedImage, .loadedImage lp),
    (.loadedImageDevicePath, .devicePath dp memmapNode
      (createMemoryMappedDevicePath raw (pages * pageSize)))] = .ok (image, next.handles)
  opened : next.opened = st.opened
  small : pages.toNat < 2 ^ 51

/-- The services of a load that is granted pages from `frame` on. -/
def pagesFrom (frame : ℕ) : Services := { noAnswers with allocatePages := some (frameAddress frame) }

/-- A load that is granted pages prints a message that does not end. -/
def HangsWithPages (build : Build) (imageData : SimpleBuffer) (memory : Memory) (st : S) : Prop :=
  ∃ ctx frame granted, loadContext build imageData memory = some ctx ∧ requestedPages ctx ≠ 0 ∧
    allocator.allocate st (requestedPages ctx).toNat = .ok (frame, granted) ∧
    ¬ MessagesEnd build (pagesFrom frame) ctx memory.file

/-- What a load did to the firmware when it returned no image: nothing, unless it does not
return. -/
structure NotLoadedBy (build : Build) (imageData : SimpleBuffer) (memory : Memory)
    (st next : FirmwareState S D) : Prop where
  kept : ¬ HangsWithPages allocator build imageData memory st.pages →
    allocator.held next.pages = allocator.held st.pages
  grown : HangsWithPages allocator build imageData memory st.pages →
    allocator.held next.pages ≠ allocator.held st.pages
  handles : next.handles = st.handles
  opened : next.opened = st.opened

variable {allocator} in
/-- Pages that are granted to a load that does not return stay held. -/
theorem held_granted_ne {st granted next : S} {count frame : ℕ}
    (accepted : allocator.allocate st count = .ok (frame, granted)) (nonempty : count ≠ 0)
    (holds : allocator.held next = allocator.held st ∪ frameRun frame count) :
    allocator.held next ≠ allocator.held st := by
  have first : frame ∈ frameRun frame count := by
    rw [mem_frameRun]
    omega
  intro same
  have held : frame ∈ allocator.held st := by
    rw [← same, holds]
    exact .inr first
  exact Set.disjoint_left.mp (allocator.allocate_fresh _ _ _ _ accepted) held first

variable {allocator} in
theorem hangsWithPages_iff {build : Build} {imageData : SimpleBuffer} {memory : Memory}
    {ctx : PeLoaderCtx} (found : loadContext build imageData memory = some ctx) {st : S}
    {granted : Option (ℕ × S)}
    (answer : (allocator.allocate st (requestedPages ctx).toNat).toOption = granted)
    {services : Services}
    (served : services.allocatePages = granted.map fun run => frameAddress run.1) :
    HangsWithPages allocator build imageData memory st ↔
      (∃ run, granted = some run) ∧ requestedPages ctx ≠ 0 ∧
        (peHandleImage build services imageData memory).outcome = .printing := by
  rw [peHandleImage_printing_iff (loadContext_some found)]
  constructor
  · rintro ⟨other, frame, next, known, nonempty, accepted, endless⟩
    obtain rfl := Option.some.inj (found.symm.trans known)
    rw [accepted] at answer
    obtain rfl := answer
    have placed : services.allocatePages = (pagesFrom frame).allocatePages := served
    exact ⟨⟨_, rfl⟩, nonempty, fun ends => endless ((messagesEnd_congr placed).mp ends)⟩
  · rintro ⟨⟨run, rfl⟩, nonempty, endless⟩
    have placed : services.allocatePages = (pagesFrom run.1).allocatePages := served
    exact ⟨ctx, run.1, run.2, found, nonempty, toOption_eq_some_iff.mp answer,
      fun ends => endless ((messagesEnd_congr placed).mpr ends)⟩

/-- A load returns an image that it has allocated and installed, or changes nothing, or does not
return. -/
theorem handleImageCall_cases (build : Build) (imageData : SimpleBuffer) (memory : Memory)
    (pool : PoolAnswers) (st : FirmwareState S D) :
    let served := handleImageCall allocator database build imageData memory pool st
    (¬ HangsWithPages allocator build imageData memory st.pages ∧ ∃ image raw pages,
        served.1 = .loaded image raw pages ∧
        LoadedBy allocator database st served.2 image raw pages) ∨
      (∃ outcome, served.1 = .notLoaded outcome ∧
        NotLoadedBy allocator build imageData memory st served.2) := by
  rw [handleImageCall]
  cases found : loadContext build imageData memory with
  | none =>
    refine .inr ⟨_, rfl, fun _ => rfl, ?_, rfl, rfl⟩
    rintro ⟨ctx, _, _, known, _⟩
    cases found.symm.trans known
  | some ctx =>
    have requests := loadContext_some found
    simp only [loadCall]
    generalize answer : (allocator.allocate st.pages (requestedPages ctx).toNat).toOption = granted
    generalize asked : database.install st.handles none (imageInterfaces _ ctx) = installed
    generalize same : Services.mk (granted.map fun run => frameAddress run.1) pool.devicePath
      pool.loadedImage (installStatus installed).1 (installStatus installed).2 = services
    have served : services.allocatePages = granted.map fun run => frameAddress run.1 := by
      rw [← same]
    have ends := peHandleImage_ends requests services
    have pages := held_releasePages requests answer served
    have stuck := hangsWithPages_iff found answer served
    split
    · next handle handles success =>
      have returns : ¬ HangsWithPages allocator build imageData memory st.pages := by
        intro hangs
        cases success.symm.trans (stuck.mp hangs).2.2
      refine .inl ⟨returns, handle, _, _, rfl, (pages handle).1 (.inl success),
        ⟨pool.loadedImage.getD 0, pool.devicePath.getD 0, ?_⟩, rfl,
        destination_small requests services⟩
      rw [← asked, ← same]
      rfl
    · next installed _ _ failed =>
      have refused : (peHandleImage build services imageData memory).outcome ≠ .ok := by
        intro success
        cases installed with
        | ok run => exact failed run.1 run.2 success rfl
        | error failure =>
          have install : services.install = failure.val := by
            rw [← same]
            rfl
          generalize serviceEvents (peHandleImage build services imageData memory).state.trace =
            events at ends
          cases ends with
          | refused _ _ outcome _ _ => exact absurd (outcome.symm.trans success) nofun
          | loaded _ _ _ _ accepted _ _ =>
            rw [install, failure.property] at accepted
            contradiction
          | stopped _ _ outcome _ => exact absurd (outcome.symm.trans success) nofun
          | printing outcome _ => exact absurd (outcome.symm.trans success) nofun
      refine .inr ⟨_, rfl, fun returns => ?_, fun hangs => ?_, rfl, rfl⟩
      · by_cases printing : (peHandleImage build services imageData memory).outcome = .printing
        · -- nothing was granted, or no pages were asked for
          have holds := (pages ⟨1, by decide⟩).1 (.inr printing)
          cases granted with
          | none =>
            rw [destination_none ctx served] at holds
            simpa [LoadedPages.frames] using holds
          | some run =>
            have bounded := allocator.allocate_placed _ _ _ _ (toOption_eq_some_iff.mp answer)
            have empty : requestedPages ctx = 0 := by
              by_contra nonempty
              exact returns (stuck.mpr ⟨⟨run, rfl⟩, nonempty, printing⟩)
            rw [destination_frames ctx bounded.2 served, empty, UInt64.toNat_zero, frameRun_zero,
              Set.union_empty] at holds
            exact holds
        · exact (pages ⟨1, by decide⟩).2 refused printing
      · obtain ⟨⟨run, rfl⟩, nonempty, printing⟩ := stuck.mp hangs
        have accepted := toOption_eq_some_iff.mp answer
        have bounded := allocator.allocate_placed _ _ _ _ accepted
        refine held_granted_ne accepted (fun zero => nonempty (UInt64.toNat_inj.mp zero)) ?_
        rw [← destination_frames ctx bounded.2 served ⟨1, by decide⟩]
        exact (pages _).1 (.inr printing)

end Load

section Unload

variable {S D : Type} {allocator : FirmwarePages S} {database : FirmwareHandles D}

/-- The firmware never takes back what an unload asks it to. -/
theorem held_freePages_unload (raw : UInt64) {pages : UInt64} (small : pages.toNat < 2 ^ 51)
    (st : S) :
    allocator.held (freePages allocator raw ((raw - (raw + pages * pageSize)) / pageSize) st) =
      allocator.held st := by
  have count := releasedPages_toNat raw small
  rw [freePages]
  split_ifs with page
  · split
    · next next freed =>
      by_cases empty : pages = 0
      · rw [count, if_pos empty] at freed
        exact allocator.held_free_empty freed
      · rw [count, if_neg empty] at freed
        refine absurd freed (allocator.free_beyond (by omega) ?_)
        rw [frameLimit]
        omega
    · rfl
  · rfl

/-- Both protocols of an image are installed on its handle. -/
structure InstalledImage (database : FirmwareHandles D) (handles : D) (loaded : LoadedPages)
    (lp dp : UInt64) : Prop where
  image : database.lookup handles loaded.image .loadedImage = some (.loadedImage lp)
  path : database.lookup handles loaded.image .loadedImageDevicePath =
    some (.devicePath dp memmapNode
      (createMemoryMappedDevicePath loaded.raw (loaded.pages * pageSize)))

/-- The interfaces of an image. -/
def LoadedPages.interfaces (loaded : LoadedPages) (lp dp : UInt64) :
    List (ImageProtocol × ImageInterface) :=
  [(.loadedImage, .loadedImage lp), (.loadedImageDevicePath, .devicePath dp memmapNode
    (createMemoryMappedDevicePath loaded.raw (loaded.pages * pageSize)))]

variable (allocator) in
/-- An unload of a loaded image that is refused somewhere returns an error and changes nothing; else
it succeeds, having asked for the wrong number of pages. Either way no page is given back. -/
theorem unloadPeFile_loaded {st : FirmwareState S D} {loaded : LoadedPages} {lp dp : UInt64}
    (installed : InstalledImage database st.handles loaded lp dp) (closed : st.opened = [])
    (small : loaded.pages.toNat < 2 ^ 51) (refusals : UnloadRefusals) :
    let served := unloadPeFile allocator database loaded.image refusals st
    allocator.held served.2.pages = allocator.held st.pages ∧ served.2.opened = [] ∧
      if refusals.refuse then
        (∃ status released, served.1 = .unloaded status released ∧ status ≠ efiSuccess) ∧
          served.2.handles = st.handles
      else
        served.1 = .unloaded efiSuccess (some (loaded.raw,
            (loaded.raw - (loaded.raw + loaded.pages * pageSize)) / pageSize)) ∧
          database.uninstall st.handles loaded.image (loaded.interfaces lp dp) =
            .ok served.2.handles := by
  obtain ⟨image, path⟩ := installed
  have kept : allocator.held _ = _ := held_freePages_unload loaded.raw small st.pages
  have unsupported : efiUnsupported ≠ efiSuccess := by decide
  obtain ⟨first, second, third⟩ := refusals
  simp only [unloadPeFile, openProtocol, closed, UnloadRefusals.refuse]
  cases first with
  | some failure => exact ⟨rfl, closed, ⟨_, _, rfl, unsupported⟩, rfl⟩
  | none =>
    simp only [Option.isSome_none, Bool.false_or, List.not_mem_nil, decide_false, Bool.false_eq_true,
      if_false, path, Option.map_some, ImageInterface.memmapPath]
    rw [if_pos (by decide)]
    cases second with
    | some failure =>
      exact ⟨kept, List.erase_cons_head .., ⟨_, _, rfl, unsupported⟩, rfl⟩
    | none =>
      simp only [Option.isSome_none, Bool.false_or, List.mem_singleton, Prod.mk.injEq, reduceCtorEq,
        and_false, decide_false, Bool.false_eq_true, if_false, image, Option.map_some]
      have reopened (st : FirmwareState S D) : (closeProtocol loaded.image .loadedImageDevicePath
          (closeProtocol loaded.image .loadedImage { st with opened := [(loaded.image, .loadedImage),
            (loaded.image, .loadedImageDevicePath)] })).opened = [] := by
        rw [closeProtocol, closeProtocol, List.erase_cons_head, List.erase_cons_head]
      cases third with
      | some failure => exact ⟨kept, reopened st, ⟨_, _, rfl, failure_ne_success failure⟩, rfl⟩
      | none =>
        -- the interfaces that were opened are those on the handle, so the database accepts
        obtain ⟨next, accepted⟩ := (database.uninstall_iff st.handles loaded.image
          (loaded.interfaces lp dp)).mpr (by
            simp only [LoadedPages.interfaces, List.forall_mem_cons, image, path, true_and]
            nofun)
        rw [LoadedPages.interfaces] at accepted
        simp only [closeProtocol, uninstallInterfaces, LoadedPages.interfaces, accepted]
        exact ⟨kept, reopened st, rfl, trivial⟩

/-- A handle without a device path is refused. -/
theorem unloadPeFile_unknown {st : FirmwareState S D} {image : Handle}
    (unknown : database.lookup st.handles image .loadedImageDevicePath = none)
    (refusals : UnloadRefusals) :
    unloadPeFile allocator database image refusals st = (.unloaded efiUnsupported none, st) := by
  have refused : openProtocol database image .loadedImageDevicePath refusals.openDevicePath st =
      none := by
    rw [openProtocol, unknown]
    split_ifs <;> rfl
  rw [unloadPeFile, refused]

end Unload

section Run

variable {S D : Type} (allocator : FirmwarePages S) (database : FirmwareHandles D) (build : Build)

/-- The firmware after some calls, and the log of them. -/
def firmwareAfter (start : FirmwareState S D) (calls : List ImageCall) : FirmwareState S D :=
  serveAll (ImageCall.serve allocator database build) start calls

def firmwareLog (start : FirmwareState S D) (calls : List ImageCall) :
    List (ImageCall × ImageReply) :=
  callLog (ImageCall.serve allocator database build) start calls

/-- The unloads of a run are of handles that were returned before. -/
def UnloadsReturned (start : FirmwareState S D) (calls : List ImageCall) : Prop :=
  ∀ before image refusals, before ++ [.unload image refusals] <+: calls →
    image ∈ returnedHandles (firmwareLog allocator database build start before)

/-- In every state of the run the pages held are those at the start and those of the loaded images;
an unload that succeeds gives back what was allocated for its image, and one that fails changes
neither the pages nor the handle. -/
structure AccountsForPages (start : FirmwareState S D) (calls : List ImageCall) : Prop where
  held : ∀ before, before <+: calls →
    allocator.held (firmwareAfter allocator database build start before).pages =
      allocator.held start.pages ∪ loadedFrames (firmwareLog allocator database build start before)
  released : ∀ before image refusals, before ++ [.unload image refusals] <+: calls →
    ∀ loaded ∈ stillLoaded (firmwareLog allocator database build start before),
      loaded.image = image → ∀ released,
        (unloadPeFile allocator database image refusals
          (firmwareAfter allocator database build start before)).1 = .unloaded efiSuccess released →
        released = some (loaded.raw, loaded.pages)
  refused : ∀ before image refusals, before ++ [.unload image refusals] <+: calls →
    ∀ status released,
      (unloadPeFile allocator database image refusals
        (firmwareAfter allocator database build start before)).1 = .unloaded status released →
      status ≠ efiSuccess →
      let st := firmwareAfter allocator database build start before
      let next := (unloadPeFile allocator database image refusals st).2
      allocator.held next.pages = allocator.held st.pages ∧ next.opened = st.opened ∧
        ∀ protocol, database.lookup next.handles image protocol =
          database.lookup st.handles image protocol

/-- The log tells which handles have which images on them, and nothing is left open. -/
structure TracksImages (st : FirmwareState S D) (log : List (ImageCall × ImageReply)) : Prop where
  closed : st.opened = []
  small : ∀ loaded ∈ stillLoaded log, loaded.pages.toNat < 2 ^ 51
  installed : ∀ loaded ∈ stillLoaded log, ∃ lp dp, InstalledImage database st.handles loaded lp dp
  gone : ∀ image ∈ returnedHandles log, (∀ loaded ∈ stillLoaded log, loaded.image ≠ image) →
    database.lookup st.handles image .loadedImageDevicePath = none

variable {allocator database build}

theorem returnedHandles_snoc (log : List (ImageCall × ImageReply)) (call : ImageCall)
    (reply : ImageReply) :
    returnedHandles (log ++ [(call, reply)]) = returnedHandles log ++
      (match reply with | .loaded image _ _ => [image] | _ => []) := by
  rw [returnedHandles, List.filterMap_append]
  cases reply <;> rfl

/-- A load adds its image. -/
theorem TracksImages.load {st next : FirmwareState S D} {log : List (ImageCall × ImageReply)}
    (tracks : TracksImages database st log) {image : Handle} {raw pages : UInt64}
    (loaded : LoadedBy allocator database st next image raw pages) (call : ImageCall) :
    TracksImages database next (log ++ [(call, .loaded image raw pages)]) := by
  obtain ⟨lp, dp, accepted⟩ := loaded.installed
  have fresh := database.install_fresh _ _ _ _ accepted
  have others {handle : Handle} (other : handle ≠ image) (protocol : ImageProtocol) :
      database.lookup next.handles handle protocol = database.lookup st.handles handle protocol :=
    database.lookup_of_install_ne accepted other protocol
  have owner : ∀ earlier ∈ stillLoaded log, earlier.image ≠ image := by
    intro earlier member same
    obtain ⟨_, _, found⟩ := tracks.installed earlier member
    have taken := found.image
    rw [same, fresh] at taken
    cases taken
  refine ⟨loaded.opened.trans tracks.closed, ?_, ?_, ?_⟩
  · rw [stillLoaded_snoc]
    exact List.forall_mem_cons.mpr ⟨loaded.small, tracks.small⟩
  · rw [stillLoaded_snoc]
    have unique : ∀ entry ∈ LoadedPages.interfaces ⟨image, raw, pages⟩ lp dp,
        interfaceFor (LoadedPages.interfaces ⟨image, raw, pages⟩ lp dp) entry.1 = some entry.2 := by
      simp [LoadedPages.interfaces, interfaceFor]
    have on := database.installedOn_of_install unique accepted
    refine List.forall_mem_cons.mpr ⟨⟨lp, dp, on _ List.mem_cons_self,
      on _ (List.mem_cons_of_mem _ List.mem_cons_self)⟩, ?_⟩
    · intro earlier member
      obtain ⟨lp, dp, found⟩ := tracks.installed earlier member
      refine ⟨lp, dp, ?_, ?_⟩
      · rw [others (owner earlier member)]
        exact found.image
      · rw [others (owner earlier member)]
        exact found.path
  · rw [stillLoaded_snoc, returnedHandles_snoc]
    intro handle returned absent
    have apart : handle ≠ image := fun same => absent _ List.mem_cons_self same.symm
    rw [others apart]
    apply tracks.gone handle
    · rcases List.mem_append.mp returned with earlier | new
      · exact earlier
      · exact absurd (List.mem_singleton.mp new) apart
    · exact fun earlier member => absent earlier (List.mem_cons_of_mem _ member)

/-- Calls that leave the handles alone leave the log's account of them right. -/
theorem TracksImages.unchanged {st next : FirmwareState S D} {log : List (ImageCall × ImageReply)}
    (tracks : TracksImages database st log) {call : ImageCall} {reply : ImageReply}
    (handles : next.handles = st.handles) (opened : next.opened = [])
    (loaded : stillLoaded (log ++ [(call, reply)]) = stillLoaded log)
    (returned : returnedHandles (log ++ [(call, reply)]) = returnedHandles log) :
    TracksImages database next (log ++ [(call, reply)]) := by
  refine ⟨opened, ?_, ?_, ?_⟩
  · rw [loaded]
    exact tracks.small
  · rw [loaded, handles]
    exact tracks.installed
  · rw [loaded, returned, handles]
    exact tracks.gone

/-- An unload that succeeds removes its image. -/
theorem TracksImages.unload {st next : FirmwareState S D} {log : List (ImageCall × ImageReply)}
    (tracks : TracksImages database st log) {loaded : LoadedPages} {lp dp : UInt64}
    (accepted : database.uninstall st.handles loaded.image (loaded.interfaces lp dp) =
      .ok next.handles) (opened : next.opened = []) (refusals : UnloadRefusals)
    (released : Option (UInt64 × UInt64)) :
    TracksImages database next
      (log ++ [(.unload loaded.image refusals, .unloaded efiSuccess released)]) := by
  have lookup := database.lookup_uninstall _ _ _ _ accepted
  have remaining : stillLoaded (log ++ [(.unload loaded.image refusals,
      .unloaded efiSuccess released)]) =
        (stillLoaded log).filter fun other => other.image ≠ loaded.image := by
    rw [stillLoaded_snoc, stillLoadedStep, if_pos rfl]
  have others {handle : Handle} (other : handle ≠ loaded.image) (protocol : ImageProtocol) :
      database.lookup next.handles handle protocol = database.lookup st.handles handle protocol := by
    rw [lookup, if_neg fun both => other both.1]
  refine ⟨opened, ?_, ?_, ?_⟩
  · rw [remaining]
    exact fun other member => tracks.small other (List.mem_filter.mp member).1
  · rw [remaining]
    intro other member
    obtain ⟨kept, apart⟩ := List.mem_filter.mp member
    have apart : other.image ≠ loaded.image := by simpa using apart
    obtain ⟨lp, dp, found⟩ := tracks.installed other kept
    refine ⟨lp, dp, ?_, ?_⟩
    · rw [others apart]
      exact found.image
    · rw [others apart]
      exact found.path
  · rw [remaining, returnedHandles_snoc, List.append_nil]
    intro handle returned absent
    by_cases same : handle = loaded.image
    · rw [same, lookup, if_pos ⟨rfl, rfl⟩]
    · rw [others same]
      apply tracks.gone handle returned
      intro other member
      rintro rfl
      exact absent other (List.mem_filter.mpr ⟨member, by simpa using same⟩) rfl

/-- Every call keeps track of the images. -/
theorem TracksImages.serve {st : FirmwareState S D} {log : List (ImageCall × ImageReply)}
    (tracks : TracksImages database st log) (call : ImageCall)
    (known : ∀ image refusals, call = .unload image refusals → image ∈ returnedHandles log) :
    TracksImages database (call.serve allocator database build st).2
      (log ++ [(call, (call.serve allocator database build st).1)]) := by
  cases call with
  | load imageData memory pool =>
    rcases handleImageCall_cases allocator database build imageData memory pool st with
      ⟨_, image, raw, pages, reply, loaded⟩ | ⟨outcome, reply, refused⟩
    · rw [ImageCall.serve, reply]
      exact tracks.load loaded _
    · rw [ImageCall.serve, reply]
      apply tracks.unchanged refused.handles (refused.opened.trans tracks.closed)
      · rw [stillLoaded_snoc]
        rfl
      · rw [returnedHandles_snoc, List.append_nil]
  | unload image refusals =>
    by_cases still : ∃ loaded ∈ stillLoaded log, loaded.image = image
    · obtain ⟨loaded, member, rfl⟩ := still
      obtain ⟨lp, dp, installed⟩ := tracks.installed loaded member
      obtain ⟨_, opened, ends⟩ := unloadPeFile_loaded allocator installed tracks.closed
        (tracks.small loaded member) refusals
      rw [ImageCall.serve]
      split_ifs at ends
      · obtain ⟨⟨status, released, reply, failed⟩, handles⟩ := ends
        rw [reply]
        apply tracks.unchanged handles opened
        · rw [stillLoaded_snoc, stillLoadedStep, if_neg failed]
        · rw [returnedHandles_snoc, List.append_nil]
      · obtain ⟨reply, accepted⟩ := ends
        rw [reply]
        exact tracks.unload accepted opened refusals _
    · have unknown := tracks.gone image (known image refusals rfl)
        fun loaded member same => still ⟨loaded, member, same⟩
      rw [ImageCall.serve, unloadPeFile_unknown unknown]
      apply tracks.unchanged rfl tracks.closed
      · rw [stillLoaded_snoc, stillLoadedStep, if_neg (by decide)]
      · rw [returnedHandles_snoc, List.append_nil]

variable {start : FirmwareState S D} {calls : List ImageCall}

/-- In every state of a run the images are tracked. -/
theorem tracksImages_run (closed : start.opened = [])
    (returned : UnloadsReturned allocator database build start calls) {before : List ImageCall}
    (reached : before <+: calls) :
    TracksImages database (firmwareAfter allocator database build start before)
      (firmwareLog allocator database build start before) := by
  apply serveAll_invariant (ImageCall.serve allocator database build) (TracksImages database) _ _
    reached
  · exact ⟨closed, nofun, nofun, nofun⟩
  · intro earlier call made tracks
    apply tracks.serve call
    rintro image refusals rfl
    exact returned earlier image refusals made

/-- Every unload of a loaded image is refused somewhere, or the image has no pages. -/
def UnloadsNoPages (allocator : FirmwarePages S) (database : FirmwareHandles D) (build : Build)
    (start : FirmwareState S D) (calls : List ImageCall) : Prop :=
  ∀ before image refusals, before ++ [.unload image refusals] <+: calls →
    refusals.refuse = true ∨
      ∀ loaded ∈ stillLoaded (firmwareLog allocator database build start before),
        loaded.image = image → loaded.pages = 0

/-- No load of a run that holds pages prints a message that does not end. -/
def LoadsReturn (allocator : FirmwarePages S) (database : FirmwareHandles D) (build : Build)
    (start : FirmwareState S D) (calls : List ImageCall) : Prop :=
  ∀ before imageData memory pool, before ++ [.load imageData memory pool] <+: calls →
    ¬ HangsWithPages allocator build imageData memory
      (firmwareAfter allocator database build start before).pages

variable (allocator) in
/-- An unload of a run keeps the pages, and one that fails keeps everything. -/
theorem TracksImages.unload_cases {st : FirmwareState S D} {log : List (ImageCall × ImageReply)}
    (tracks : TracksImages database st log) {image : Handle} (known : image ∈ returnedHandles log)
    (refusals : UnloadRefusals) :
    let served := unloadPeFile allocator database image refusals st
    allocator.held served.2.pages = allocator.held st.pages ∧ served.2.opened = st.opened ∧
      ((refusals.refuse = false ∧ ∃ released, served.1 = .unloaded efiSuccess released) ∨
        (served.2.handles = st.handles ∧ ∃ status released,
          served.1 = .unloaded status released ∧ status ≠ efiSuccess)) := by
  by_cases still : ∃ loaded ∈ stillLoaded log, loaded.image = image
  · obtain ⟨loaded, member, rfl⟩ := still
    obtain ⟨lp, dp, installed⟩ := tracks.installed loaded member
    obtain ⟨held, opened, ends⟩ := unloadPeFile_loaded allocator installed tracks.closed
      (tracks.small loaded member) refusals
    refine ⟨held, opened.trans tracks.closed.symm, ?_⟩
    split_ifs at ends with refuse
    · exact .inr ⟨ends.2, ends.1⟩
    · exact .inl ⟨Bool.eq_false_iff.mpr refuse, _, ends.1⟩
  · have unknown := tracks.gone image known fun loaded member same => still ⟨loaded, member, same⟩
    rw [unloadPeFile_unknown unknown]
    exact ⟨rfl, rfl, .inr ⟨rfl, _, _, rfl, by decide⟩⟩

/-- Removing images without pages removes no frames. -/
theorem loadedFrames_unload {log : List (ImageCall × ImageReply)} {image : Handle}
    (empty : ∀ loaded ∈ stillLoaded log, loaded.image = image → loaded.pages = 0)
    (refusals : UnloadRefusals) (released : Option (UInt64 × UInt64)) :
    loadedFrames (log ++ [(.unload image refusals, .unloaded efiSuccess released)]) =
      loadedFrames log := by
  ext frame
  rw [loadedFrames, loadedFrames, stillLoaded_snoc, stillLoadedStep, if_pos rfl]
  constructor
  · rintro ⟨loaded, member, inside⟩
    exact ⟨loaded, (List.mem_filter.mp member).1, inside⟩
  · rintro ⟨loaded, member, inside⟩
    refine ⟨loaded, List.mem_filter.mpr ⟨member, ?_⟩, inside⟩
    by_contra removed
    have nothing := empty loaded member (by simpa using removed)
    rw [LoadedPages.frames, nothing, UInt64.toNat_zero, frameRun_zero] at inside
    exact inside

/-- A load that is not served adds no image. -/
theorem loadedFrames_notLoaded (log : List (ImageCall × ImageReply)) (call : ImageCall)
    (outcome : LoadOutcome) : loadedFrames (log ++ [(call, .notLoaded outcome)]) = loadedFrames log := by
  rw [loadedFrames, loadedFrames, stillLoaded_snoc]
  rfl

/-- When no image with pages is unloaded and no load keeps pages for ever, the pages held are those
of the images. -/
theorem held_run (closed : start.opened = [])
    (returned : UnloadsReturned allocator database build start calls)
    (unloads : UnloadsNoPages allocator database build start calls)
    (loads : LoadsReturn allocator database build start calls) {before : List ImageCall}
    (reached : before <+: calls) :
    allocator.held (firmwareAfter allocator database build start before).pages =
      allocator.held start.pages ∪ loadedFrames (firmwareLog allocator database build start before) := by
  apply serveAll_invariant (ImageCall.serve allocator database build)
    (fun st log => allocator.held st.pages = allocator.held start.pages ∪ loadedFrames log) _ _
    reached
  · simp [loadedFrames, stillLoaded]
  · intro earlier call made held
    have tracks := tracksImages_run closed returned ((List.prefix_append earlier [call]).trans made)
    cases call with
    | load imageData memory pool =>
      rcases handleImageCall_cases allocator database build imageData memory pool
        (serveAll (ImageCall.serve allocator database build) start earlier) with
        ⟨_, image, raw, pages, reply, loaded⟩ | ⟨outcome, reply, refused⟩
      · rw [ImageCall.serve, reply, loaded.held, held, Set.union_assoc]
        congr 1
        ext frame
        simp [loadedFrames, stillLoadedStep, or_comm]
      · have same := refused.kept (loads earlier imageData memory pool made)
        rw [ImageCall.serve, reply, same, held, loadedFrames_notLoaded]
    | unload image refusals =>
      obtain ⟨same, _, ends⟩ := tracks.unload_cases allocator (returned earlier image refusals made)
        refusals
      rw [firmwareAfter] at same ends
      rcases ends with ⟨accepted, released, reply⟩ | ⟨_, status, released, reply, failed⟩
      · have empty := (unloads earlier image refusals made).resolve_left
          (by rw [accepted]; exact Bool.false_ne_true)
        rw [ImageCall.serve, reply, same, held]
        exact congrArg _ (loadedFrames_unload empty refusals released).symm
      · rw [ImageCall.serve, reply, same, held, loadedFrames, loadedFrames, stillLoaded_snoc,
          stillLoadedStep, if_neg failed]

/-- A run that accounts for its pages unloads no image with pages: the unload would ask the firmware
to take back others. -/
theorem AccountsForPages.unloadsNoPages (closed : start.opened = [])
    (returned : UnloadsReturned allocator database build start calls)
    (accounts : AccountsForPages allocator database build start calls) :
    UnloadsNoPages allocator database build start calls := by
  intro before image refusals made
  by_contra unloads
  simp only [not_or, not_forall] at unloads
  obtain ⟨accepted, loaded, member, rfl, nonempty⟩ := unloads
  have tracks := tracksImages_run closed returned ((List.prefix_append before _).trans made)
  obtain ⟨lp, dp, installed⟩ := tracks.installed loaded member
  obtain ⟨_, _, ends⟩ := unloadPeFile_loaded allocator installed tracks.closed
    (tracks.small loaded member) refusals
  rw [if_neg accepted] at ends
  have same := accounts.released before loaded.image refusals made loaded member rfl _ ends.1
  have count := congrArg UInt64.toNat (Prod.mk.inj (Option.some.inj same)).2
  have small := tracks.small loaded member
  rw [releasedPages_toNat loaded.raw small, if_neg nonempty] at count
  omega

/-- Nor does it have a load that keeps pages without returning: they belong to no image. -/
theorem AccountsForPages.loadsReturn
    (accounts : AccountsForPages allocator database build start calls) :
    LoadsReturn allocator database build start calls := by
  intro before imageData memory pool made hangs
  rcases handleImageCall_cases allocator database build imageData memory pool
    (firmwareAfter allocator database build start before) with
    ⟨returns, _⟩ | ⟨outcome, reply, refused⟩
  · exact returns hangs
  · apply refused.grown hangs
    have earlier := accounts.held before ((List.prefix_append before _).trans made)
    have later := accounts.held _ made
    have served : firmwareAfter allocator database build start
        (before ++ [.load imageData memory pool]) = (handleImageCall allocator database build
          imageData memory pool (firmwareAfter allocator database build start before)).2 :=
      serveAll_snoc ..
    have logged : firmwareLog allocator database build start
        (before ++ [.load imageData memory pool]) =
          firmwareLog allocator database build start before ++
            [(.load imageData memory pool, .notLoaded outcome)] := by
      rw [← reply]
      exact callLog_snoc ..
    rw [served, logged, loadedFrames_notLoaded] at later
    exact later.trans earlier.symm

/-- The pages held are accounted for in a run exactly when no image with pages is unloaded and no
load with pages is kept from returning. -/
theorem accountsForPages_iff (closed : start.opened = [])
    (returned : UnloadsReturned allocator database build start calls) :
    AccountsForPages allocator database build start calls ↔
      UnloadsNoPages allocator database build start calls ∧
        LoadsReturn allocator database build start calls := by
  constructor
  · intro accounts
    exact ⟨accounts.unloadsNoPages closed returned, accounts.loadsReturn⟩
  · rintro ⟨unloads, loads⟩
    refine ⟨fun before reached => held_run closed returned unloads loads reached, ?_, ?_⟩
    · rintro before _ refusals made loaded member rfl released success
      have tracks := tracksImages_run closed returned ((List.prefix_append before _).trans made)
      obtain ⟨lp, dp, installed⟩ := tracks.installed loaded member
      have small := tracks.small loaded member
      obtain ⟨_, _, ends⟩ := unloadPeFile_loaded allocator installed tracks.closed small refusals
      split_ifs at ends with refuse
      · obtain ⟨⟨status, other, reply, failed⟩, _⟩ := ends
        rw [success] at reply
        exact absurd (ImageReply.unloaded.inj reply).1.symm failed
      · have empty := (unloads before loaded.image refusals made).resolve_left refuse loaded member
          rfl
        have none : (loaded.raw - (loaded.raw + loaded.pages * pageSize)) / pageSize =
            loaded.pages := by
          rw [← UInt64.toNat_inj, releasedPages_toNat loaded.raw small, if_pos empty, empty]
          rfl
        rw [ends.1, none] at success
        exact (ImageReply.unloaded.inj success).2.symm
    · intro before image refusals made status released reply failed
      have tracks := tracksImages_run closed returned ((List.prefix_append before _).trans made)
      obtain ⟨held, opened, ends⟩ := tracks.unload_cases allocator
        (returned before image refusals made) refusals
      refine ⟨held, opened, ?_⟩
      rcases ends with ⟨_, _, success⟩ | ⟨handles, _⟩
      · rw [success] at reply
        exact absurd (ImageReply.unloaded.inj reply).1.symm failed
      · rw [handles]
        exact fun _ => rfl

end Run

/-! ## A small firmware

It has one handle to give, and starts with all its pages free. -/

abbrev SmallHandles := List (Handle × ImageProtocol × ImageInterface)

def smallPages : FirmwarePages (FrameList frameLimit) := .ofFrames ⟨efiOutOfResources, by decide⟩

def smallHandle : Handle := ⟨0x900200, by decide⟩

theorem efiError_invalidParameter : efiError efiInvalidParameter = true := by decide

def smallHandles : FirmwareHandles SmallHandles :=
  .ofEntries
    (fun entries => if empty : entries = [] then some ⟨smallHandle, by simp [empty]⟩ else none)
    ⟨efiInvalidParameter, efiError_invalidParameter⟩

def freeFirmware : FirmwareState (FrameList frameLimit) SmallHandles := ⟨⟨[], nofun⟩, [], []⟩

/-- The image without sections is loaded and then unloaded. -/
def loadAndUnload (refusals : UnloadRefusals) : List ImageCall :=
  [.load (smallBuffer 0x200) ⟨bareImage, fun _ => 0⟩ ⟨some 0x900000, some 0x900100⟩,
    .unload smallHandle refusals]

theorem unload_of_loadAndUnload {refusals other : UnloadRefusals} {before : List ImageCall}
    {image : Handle} (made : before ++ [.unload image other] <+: loadAndUnload refusals) :
    before = [.load (smallBuffer 0x200) ⟨bareImage, fun _ => 0⟩ ⟨some 0x900000, some 0x900100⟩] ∧
      image = smallHandle ∧ other = refusals := by
  obtain ⟨rest, same⟩ := made
  rcases before with _ | ⟨first, _ | ⟨second, before⟩⟩
  · simp [loadAndUnload] at same
  · simp only [loadAndUnload, List.cons_append, List.nil_append, List.cons.injEq,
      ImageCall.unload.injEq] at same
    obtain ⟨rfl, ⟨rfl, rfl⟩, _⟩ := same
    exact ⟨rfl, rfl, rfl⟩
  · simp [loadAndUnload] at same

set_option maxRecDepth 4000 in
theorem unloadsReturned_loadAndUnload (refusals : UnloadRefusals) :
    UnloadsReturned smallPages smallHandles defaultBuild freeFirmware (loadAndUnload refusals) := by
  intro before image other made
  obtain ⟨rfl, rfl, rfl⟩ := unload_of_loadAndUnload made
  decide +kernel

set_option maxRecDepth 4000 in
/-- An image without a relocation directory does not come to its sections, so nothing is printed. -/
theorem loadsReturn_loadAndUnload (refusals : UnloadRefusals) :
    LoadsReturn smallPages smallHandles defaultBuild freeFirmware (loadAndUnload refusals) := by
  rintro before imageData memory pool ⟨rest, same⟩ ⟨ctx, frame, granted, known, _, _, endless⟩
  rcases before with _ | ⟨first, _ | ⟨second, before⟩⟩
  · simp only [loadAndUnload, List.nil_append, List.cons_append, List.cons.injEq,
      ImageCall.load.injEq] at same
    obtain ⟨⟨rfl, rfl, rfl⟩, _⟩ := same
    have few : ctx.numberOfRvaAndSizes = 5 := by
      obtain rfl := Option.some.inj known
      decide
    apply endless
    intro turn member
    have reached := sectionPlan_reached member
    rw [sectionsReached, reachesSections, few] at reached
    simp at reached
  · simp [loadAndUnload] at same
  · simp [loadAndUnload] at same

theorem accountsForPages_refusedUnload :
    AccountsForPages smallPages smallHandles defaultBuild freeFirmware
      (loadAndUnload ⟨none, some ⟨efiAlreadyStarted, by decide⟩, none⟩) := by
  apply (accountsForPages_iff rfl (unloadsReturned_loadAndUnload _)).mpr
  constructor
  · intro before image refusals made
    obtain ⟨_, _, rfl⟩ := unload_of_loadAndUnload made
    exact .inl rfl
  · exact loadsReturn_loadAndUnload _

/-- The unload succeeds and asks for nearly all pages there are to be taken back. -/
theorem not_accountsForPages_loadAndUnload :
    ¬ ∀ (S D : Type) (allocator : FirmwarePages S) (database : FirmwareHandles D) (build : Build)
      (start : FirmwareState S D) (calls : List ImageCall), start.opened = [] →
        UnloadsReturned allocator database build start calls →
        AccountsForPages allocator database build start calls := by
  intro claim
  have accounts := claim _ _ smallPages smallHandles defaultBuild freeFirmware
    (loadAndUnload ⟨none, none, none⟩) rfl (unloadsReturned_loadAndUnload _)
  have released := accounts.released [_] smallHandle ⟨none, none, none⟩ List.prefix_rfl
    ⟨smallHandle, 0x1000, 3⟩ (by decide +kernel) rfl (some (0x1000, 0xffffffffffffd))
    (by decide +kernel)
  revert released
  decide

end ZLoader
