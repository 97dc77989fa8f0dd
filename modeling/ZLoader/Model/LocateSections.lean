import ZLoader.Model.Loader.Headers
import ZLoader.Model.Lib.String

/-! # Finding the embedded sections

`PE_locate_sections` (`pe.c`): the stub reads the section table of its own image in memory and fills
in where the wanted sections are. The list of wanted sections ends where the array of the source has
its nameless entry.
-/

namespace ZLoader

/-- `struct PE_locate_sections`. -/
structure WantedSection where
  name : List UInt8
  loadAddress : UInt64
  offset : UInt64
  size : UInt64
deriving DecidableEq, Repr

/-- The image the stub runs from: the fields of `EFI_LOADED_IMAGE` and the memory from its base. -/
structure StubImage where
  imageBase : UInt64
  imageSize : UInt64
  loadOptions : UInt64
  loadOptionsSize : UInt32
  memory : ByteStore

/-- An entry after a section header has been compared with it. -/
def WantedSection.fill (wanted : WantedSection) (sec : PeSectionHeader) : WantedSection :=
  if strncmp (cString wanted.name) (fun index => sec.name.getD index 0)
      peSectionSizeOfShortName != 0 then wanted
  else
    { wanted with
      loadAddress := sec.virtualAddress.toUInt64
      offset := sec.pointerToRawData.toUInt64
      size := sec.virtualSize.toUInt64 }

/-- The loop over the section headers, from the cursor of the image buffer on. -/
def locateSectionsLoop (build : Build) (memory : ByteStore) :
    ℕ → SimpleBuffer → List WantedSection → Outcome (List WantedSection)
  | 0, _, wanted => .ok wanted
  | count + 1, image, wanted =>
      (bufferPos build image).bind fun _ =>
        let sec := PeSectionHeader.read memory image.pos.toNat
        locateSectionsLoop build memory count
          { image with pos := image.pos + UInt64.ofNat sizeofPeSectionHeader }
          (wanted.map fun entry => entry.fill sec)

/-- `PE_locate_sections`: the filled list, or `none` for `false`. -/
def peLocateSections (build : Build) (loaded : StubImage) (wanted : List WantedSection) :
    Outcome (Option (List WantedSection)) :=
  let image : SimpleBuffer := ⟨loaded.imageBase, loaded.imageSize, 0, loaded.imageSize, none⟩
  (peHeader build image loaded.memory).1.bind fun offset =>
    if offset == 0 then .ok none
    else
      let image := { image with pos := image.pos + offset }
      (bufferPos build image).bind fun _ =>
        let pe := image.pos.toNat
        if PeImageHeaders.machine loaded.memory pe != peHeaderMachineNative build.arch then .ok none
        else if PeImageHeaders.numberOfSections loaded.memory pe > peHeaderMaxNumberOfSections then
          .ok none
        else if PeImageHeaders.characteristics loaded.memory pe &&& peHeaderExecutableImage == 0 then
          .ok none
        else if PeImageHeaders.magic loaded.memory pe != peHeaderOptionalHdr64Magic then .ok none
        else if PeImageHeaders.subsystem loaded.memory pe != peHeaderSubsystemEfiApplication then
          .ok none
        else
          let image :=
            { image with
              pos := image.pos + (UInt64.ofNat sizeofPeCoffHeader +
                (PeImageHeaders.sizeOfOptionalHeader loaded.memory pe).toUInt64) }
          (locateSectionsLoop build loaded.memory
            (PeImageHeaders.numberOfSections loaded.memory pe).toNat image wanted).bind fun found =>
              .ok (some found)

/-! ## The caller's array

The same function on the array that it is given: an entry is written where it stands, and what
stands behind the nameless entry is not looked at.
-/

/-- `*ls->name` ends the inner loop. -/
def WantedSection.nameless (wanted : WantedSection) : Bool := cString wanted.name 0 == 0

/-- The inner loop: a section header against the entries. -/
def fillEntries (sec : PeSectionHeader) : List WantedSection → List WantedSection
  | [] => []
  | ls :: rest => if ls.nameless then ls :: rest else ls.fill sec :: fillEntries sec rest

/-- What `PE_locate_sections` returns, the array behind it and the section headers it has been to,
as windows of the image. -/
structure LocateResult where
  outcome : Outcome Bool
  entries : List WantedSection
  headers : List Window
deriving DecidableEq, Repr

/-- The outer loop on the array. -/
def fillLoop (build : Build) (memory : ByteStore) :
    ℕ → SimpleBuffer → List WantedSection → List Window → LocateResult
  | 0, _, entries, headers => ⟨.ok true, entries, headers⟩
  | count + 1, image, entries, headers =>
      match bufferPos build image with
      | .ok _ =>
          fillLoop build memory count
            { image with pos := image.pos + UInt64.ofNat sizeofPeSectionHeader }
            (fillEntries (PeSectionHeader.read memory image.pos.toNat) entries)
            (headers ++ [⟨image.pos.toNat, sizeofPeSectionHeader⟩])
      | .error status => ⟨.error status, entries, headers⟩
      | .assertionFailed assertion => ⟨.assertionFailed assertion, entries, headers⟩

/-- `PE_locate_sections` on the array. -/
def peLocateSectionsInPlace (build : Build) (loaded : StubImage) (entries : List WantedSection) :
    LocateResult :=
  let image : SimpleBuffer := ⟨loaded.imageBase, loaded.imageSize, 0, loaded.imageSize, none⟩
  match (peHeader build image loaded.memory).1 with
  | .ok offset =>
      if offset == 0 then ⟨.ok false, entries, []⟩
      else
        let image := { image with pos := image.pos + offset }
        match bufferPos build image with
        | .ok _ =>
            let pe := image.pos.toNat
            if PeImageHeaders.machine loaded.memory pe != peHeaderMachineNative build.arch then
              ⟨.ok false, entries, []⟩
            else if
                PeImageHeaders.numberOfSections loaded.memory pe > peHeaderMaxNumberOfSections then
              ⟨.ok false, entries, []⟩
            else if PeImageHeaders.characteristics loaded.memory pe &&& peHeaderExecutableImage == 0
                then
              ⟨.ok false, entries, []⟩
            else if PeImageHeaders.magic loaded.memory pe != peHeaderOptionalHdr64Magic then
              ⟨.ok false, entries, []⟩
            else if PeImageHeaders.subsystem loaded.memory pe != peHeaderSubsystemEfiApplication then
              ⟨.ok false, entries, []⟩
            else
              fillLoop build loaded.memory
                (PeImageHeaders.numberOfSections loaded.memory pe).toNat
                { image with
                  pos := image.pos + (UInt64.ofNat sizeofPeCoffHeader +
                    (PeImageHeaders.sizeOfOptionalHeader loaded.memory pe).toUInt64) } entries []
        | .error status => ⟨.error status, entries, []⟩
        | .assertionFailed assertion => ⟨.assertionFailed assertion, entries, []⟩
  | .error status => ⟨.error status, entries, []⟩
  | .assertionFailed assertion => ⟨.assertionFailed assertion, entries, []⟩

end ZLoader
