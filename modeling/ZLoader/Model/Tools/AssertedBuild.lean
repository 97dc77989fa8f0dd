import ZLoader.Model.Tools.BuildImage

/-! # The image builder with its assertions

`tools/build_image.c` when its assertions are compiled in: it does the same, and is aborted where one
of them fails.
-/

namespace ZLoader

/-- How the program ends early: as without assertions, or in `abort`. -/
inductive AssertedExit where
  | exit (exit : BuildExit)
  | assertion (text : String)
deriving DecidableEq, Repr

/-- `assert`, with the text that it prints. -/
def assert_ (condition : Bool) (text : String) : Except AssertedExit Unit :=
  if condition then .ok () else .error (.assertion text)

/-- A kernel that is a PE file is longer in memory than on disk. -/
def assertKernel (id : SectionDataId) (file : InputFile) : Except AssertedExit Unit :=
  match if id = .linux then inspectPe file else none with
  | none => .ok ()
  | some kernel =>
      assert_ (file.size.toUInt32 < kernel.imageSize) "section_data[i].virtual_size < image_size"

/-- The loop that opens the files. -/
def openSectionsAsserted (input : BuildInput) (architecture : UInt16) (fileAlignment : UInt32) :
    List SectionDataId → UInt32 → UInt64 → Except AssertedExit OpenedSections
  | [], sectionAlignment, filesize => .ok ⟨[], sectionAlignment, filesize⟩
  | id :: ids, sectionAlignment, filesize =>
      match input.file id with
      | none => openSectionsAsserted input architecture fileAlignment ids sectionAlignment filesize
      | some file =>
          (assertKernel id file).bind fun _ =>
            ((sectionVma architecture id file sectionAlignment).mapError .exit).bind fun opened =>
              (openSectionsAsserted input architecture fileAlignment ids opened.2
                (filesize + alignValue file.size fileAlignment.toUInt64)).map fun rest =>
                  { rest with sections := opened.1 :: rest.sections }

/-- The loop that adds the sections. -/
def appendSectionsAsserted (memSize : UInt64) (limit pe : ℕ)
    (fileAlignment sectionAlignment : UInt32) :
    List SectionVma → BuildState → Except AssertedExit BuildState
  | [], st => .ok st
  | vma :: rest, st =>
      ((appendSection limit pe fileAlignment sectionAlignment vma st).mapError .exit).bind
        fun next =>
          (assert_ (next.filesize < memSize) "filesize < mem.size").bind fun _ =>
            appendSectionsAsserted memSize limit pe fileAlignment sectionAlignment rest next

/-- `main` from the mapping on. -/
def assembleAsserted (input : BuildInput) (fileAlignment : UInt32) (opened : OpenedSections) :
    Except AssertedExit InputFile :=
  let memory := mappedMemory input opened.filesize
  match checkStub memory opened.filesize with
  | some text => .error (.exit (.message text))
  | none =>
      let limit := mappedLimit opened.filesize
      let pe := (memory.u32 dosPeOffsetLocation).toNat
      let memory := fixupHeaders memory pe input.efiVersion fileAlignment opened.sectionAlignment
      let sectionOffset := pe + sizeofPeCoffHeader
        + (PeImageHeaders.sizeOfOptionalHeader memory pe).toNat
      let count := (PeImageHeaders.numberOfSections memory pe).toNat
      if ¬ (Window.mk sectionOffset (sizeofPeSectionHeader * count)).Within limit then
        .error (.exit .fault)
      else
        (appendSectionsAsserted opened.filesize limit pe fileAlignment opened.sectionAlignment
          opened.sections
          { memory := memory
            sectionOffset := sectionOffset + sizeofPeSectionHeader * count
            largest := largestEnds fileAlignment opened.sectionAlignment
              (sectionHeaders memory sectionOffset count)
            filesize := input.stub.size }).map fun st =>
              truncate st.memory opened.filesize st.filesize

/-- `main`: the output file. -/
def buildImageAsserted (input : BuildInput) : Except AssertedExit InputFile :=
  match inspectPe input.stub with
  | none => .error (.exit (.message "Invalid PE '%s'\n"))
  | some stub =>
      let sectionAlignment := defaultAlignment stub.sectionAlignment 0x1000
      let fileAlignment := defaultAlignment stub.fileAlignment 0x200
      (openSectionsAsserted input stub.architecture fileAlignment sectionDataIds sectionAlignment
        input.stub.size).bind fun opened =>
          if input.stub.size.toNat > maxTransfer then
            .error (.exit (.message "sendfile: Data remaining: %zd != %zu\n"))
          else
            (assert_ (input.stub.size > 0) "orig_filesize > 0").bind fun _ =>
              assembleAsserted input fileAlignment opened

end ZLoader
