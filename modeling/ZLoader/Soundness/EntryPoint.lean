import ZLoader.Soundness.SectionLayout

/-! # Where the entry point of a loaded image lies

The entry point is compared with the size of the image only, and the end of the image passes. The
section loop looks for the section that holds it and tells the console; the result of that search
does not reach the caller, and without a relocation directory there is no search and no section.
-/

namespace ZLoader

/-- The load hands out an entry point inside its image and inside a section it has loaded. -/
def EntersLoadedSection (result : HandleImageResult) (loaded : List Turn) : Prop :=
  ∃ image e, result.loadedImage = some image ∧
    result.entryPoint.toNat = image.imageBase.toNat + e ∧ e < image.imageSize.toNat ∧
    ∃ turn ∈ loaded, turn.loads = true ∧ turn.virtualRange.Contains e

/-- The entry point field points into the image and into a section of the table that is not
discardable, and the data directory is long enough for the sections to be loaded. -/
structure EntryInSection (ctx : PeLoaderCtx) (file : ByteStore) : Prop where
  directories : ctx.numberOfRvaAndSizes > 5
  inside : ctx.entryPoint < ctx.sizeOfImage
  holds : ∃ turn ∈ sectionTable ctx file, turn.loads = true ∧
    turn.virtualRange.Contains ctx.entryPoint.toNat

instance (ctx : PeLoaderCtx) (file : ByteStore) : Decidable (EntryInSection ctx file) :=
  decidable_of_iff (_ ∧ _ ∧ _) ⟨fun ⟨directories, inside, holds⟩ => ⟨directories, inside, holds⟩,
    fun ⟨directories, inside, holds⟩ => ⟨directories, inside, holds⟩⟩

/-- A success hands out the image in its pages. -/
theorem installImage_success {services : Services} {ctx : PeLoaderCtx} {data : AlignedBuffer}
    {entryPoint : UInt64} {st : LoaderState}
    (success : (installImage services ctx data entryPoint st).outcome = .ok) :
    (installImage services ctx data entryPoint st).entryPoint = entryPoint ∧
      ∃ image, (installImage services ctx data entryPoint st).loadedImage = some image ∧
        image.imageBase = data.buffer ∧ image.imageSize = ctx.sizeOfImage := by
  unfold installImage at success ⊢
  split at success
  · simp [failImage] at success
  · split at success
    · simp [failImage] at success
    · dsimp only at success ⊢
      split_ifs at success ⊢
      · simp [failImage] at success
      · exact ⟨rfl, _, rfl, rfl, rfl⟩

/-- A load that succeeds returns the entry point of the headers, at or in front of the end of the
image. -/
theorem loadImage_entryPoint {build : Build} {services : Services} {ctx : PeLoaderCtx}
    {st : LoaderState} (success : (loadImage build services ctx st).outcome = .ok) :
    ∃ image, (loadImage build services ctx st).loadedImage = some image ∧
      image.imageBase = (destination services ctx).buffer ∧ image.imageSize = ctx.sizeOfImage ∧
      (loadImage build services ctx st).entryPoint.toNat =
        image.imageBase.toNat + ctx.entryPoint.toNat ∧
      ctx.entryPoint ≤ ctx.sizeOfImage := by
  rw [loadImage] at success ⊢
  split_ifs at success ⊢ with invalid
  · simp [failImage] at success
  · have valid : imageAddress (destination services ctx).buffer ctx.sizeOfImage ctx.entryPoint ≠ 0 := by
      simpa using invalid
    obtain ⟨bound, address⟩ := imageAddress_bounds valid
    generalize relocateImage build (destination services ctx).buffer ctx
      (headersCopied services ctx st) = relocated at success ⊢
    obtain ⟨outcome, after⟩ := relocated
    cases outcome with
    | ok =>
      obtain ⟨entry, image, some, base, size⟩ := installImage_success success
      exact ⟨image, some, base, size, by rw [entry, base]; exact address,
        UInt64.le_iff_toNat_le.mpr bound⟩
    | error status => simp [failImage] at success
    | assertionFailed assertion => simp at success
    | printing => simp at success

/-- A successful load enters one of the sections it has loaded exactly when the headers place the
entry point in one, and the data directory lets the sections be loaded. -/
theorem entersLoadedSection_iff {build : Build} {services : Services} {imageData : SimpleBuffer}
    {ctx : PeLoaderCtx} {memory : Memory}
    (accepted : (readHeaders build imageData memory.file).1 = .ok ctx)
    (success : (peHandleImage build services imageData memory).outcome = .ok) :
    EntersLoadedSection (peHandleImage build services imageData memory)
        (sectionPlan build services ctx memory.file) ↔
      EntryInSection ctx memory.file := by
  have pointer := peHandleImage_pointer success
  rw [peHandleImage_accepted memory pointer accepted] at success ⊢
  have plan : sectionPlan build services ctx memory.file = _ := sectionPlan_of_success success
  obtain ⟨image, some, base, size, entry, bound⟩ := loadImage_entryPoint success
  constructor
  · rintro ⟨other, e, same, address, inside, turn, member, loads, range⟩
    obtain rfl := Option.some.inj (some.symm.trans same)
    obtain rfl : e = ctx.entryPoint.toNat := by omega
    rw [plan] at member
    split_ifs at member with long
    · exact ⟨long, UInt64.lt_iff_toNat_lt.mpr (by rwa [size] at inside), turn, member, loads, range⟩
    · cases member
  · rintro ⟨long, inside, turn, member, loads, range⟩
    rw [plan, if_pos long]
    exact ⟨image, ctx.entryPoint.toNat, some, entry, by rwa [size, ← UInt64.lt_iff_toNat_lt],
      turn, member, loads, range⟩

/-- An image with one loaded section at `0x1000` and the given entry point. -/
def enteredImage (entryPoint : ℕ) : ByteStore :=
  smallImage 1 0x2000 0x200 16
    ((0x68, 4, entryPoint) :: sectionFields 0 0x1000 0x1000 0x200 0x200 0x60000020)

set_option maxRecDepth 4000 in
/-- The first byte of the section is inside of it, though the search of the loop leaves it out. -/
theorem entersLoadedSection_firstByte :
    EntersLoadedSection
      (peHandleImage defaultBuild smallServices (smallBuffer 0x400) ⟨enteredImage 0x1000, fun _ => 0⟩)
      (sectionPlan defaultBuild smallServices (loaderCtx (enteredImage 0x1000) 0x100000 0x40)
        (enteredImage 0x1000)) := by
  have accepted : (readHeaders defaultBuild (smallBuffer 0x400) (enteredImage 0x1000)).1 =
      .ok (loaderCtx (enteredImage 0x1000) 0x100000 0x40) := by decide +kernel
  have success : (peHandleImage defaultBuild smallServices (smallBuffer 0x400)
      ⟨enteredImage 0x1000, fun _ => 0⟩).outcome = .ok := by decide +kernel
  exact (entersLoadedSection_iff accepted success).mpr (by decide +kernel)

set_option maxRecDepth 4000 in
/-- An entry point at the end of the image is accepted and handed out. -/
theorem not_entersLoadedSection_imageEnd :
    ¬ ∀ (build : Build) (services : Services) (imageData : SimpleBuffer) (ctx : PeLoaderCtx)
      (memory : Memory), (readHeaders build imageData memory.file).1 = .ok ctx →
      (peHandleImage build services imageData memory).outcome = .ok →
      EntersLoadedSection (peHandleImage build services imageData memory)
        (sectionPlan build services ctx memory.file) := by
  intro claim
  obtain ⟨image, e, some, address, inside, -⟩ := claim defaultBuild smallServices (smallBuffer 0x400)
    (loaderCtx (enteredImage 0x2000) 0x100000 0x40) ⟨enteredImage 0x2000, fun _ => 0⟩
    (by decide +kernel) (by decide +kernel)
  have loaded : (peHandleImage defaultBuild smallServices (smallBuffer 0x400)
      ⟨enteredImage 0x2000, fun _ => 0⟩).loadedImage =
        Option.some ⟨0x800000, 0x2000, ⟨0x800000, 0x803000⟩, 0, 0⟩ := by decide +kernel
  have entry : (peHandleImage defaultBuild smallServices (smallBuffer 0x400)
      ⟨enteredImage 0x2000, fun _ => 0⟩).entryPoint.toNat = 0x802000 := by decide +kernel
  obtain rfl := Option.some.inj (loaded.symm.trans some)
  rw [entry] at address
  have size : (0x2000 : UInt64).toNat = 0x2000 := rfl
  have start : (0x800000 : UInt64).toNat = 0x800000 := rfl
  simp only [size, start] at address inside
  omega

end ZLoader
