import ZLoader.Model.Loader.Headers

/-! # Applying base relocations

`relocation_fixup` (`pe_loader.c`). The walk reads the relocation table from the file buffer and
patches the fields it names in the file buffer as well, so the table is read from memory again at
every step. Pointer arithmetic is on `struct PE_base_relocation`: adding `size_of_block + 8` to the
block pointer moves it by that many structures of eight bytes. File offsets do not wrap.
-/

namespace ZLoader

/-- `reloc->virtual_address` of the block at `block`. -/
def blockVirtualAddress (file : ByteStore) (block : ℕ) : UInt32 := file.u32 block

/-- `reloc->size_of_block`. -/
def blockSize (file : ByteStore) (block : ℕ) : UInt32 := file.u32 (block + 4)

/-- Offset of `reloc->fixup[index]`. -/
def fixupEntryOffset (block index : ℕ) : ℕ := block + sizeofPeBaseRelocation + 2 * index

/-- The field a fixup entry changes: its width in bytes and what is added to it. -/
structure Field where
  width : ℕ
  amount : ℕ
deriving DecidableEq, Repr

/-- The cases of the `switch` on the type bits: `none` is the unknown type, `some none` the type
that changes nothing. -/
def fixupField (adjust : UInt64) (entry : UInt16) : Option (Option Field) :=
  let type := entry &&& peRelocBasedTypeMask
  if type == peRelocBasedAbsolute then some none
  else if type == peRelocBasedHigh then some (some ⟨2, (adjust.toUInt32 >>> 16).toUInt16.toNat⟩)
  else if type == peRelocBasedLow then some (some ⟨2, adjust.toUInt16.toNat⟩)
  else if type == peRelocBasedHighlow then some (some ⟨4, adjust.toUInt32.toNat⟩)
  else if type == peRelocBasedDir64 then some (some ⟨8, adjust.toNat⟩)
  else none

/-- Add to a field of a store, or leave it for the type that changes nothing. -/
def Field.addTo (store : ByteStore) (offset : ℕ) : Option Field → ByteStore
  | none => store
  | some field => store.addLE offset field.width field.amount

/-- `fixup`: the offset an entry of a block with page address `page` names. -/
def fixupOffset (page : UInt32) (entry : UInt16) : ℕ :=
  page.toNat + (entry &&& peRelocBasedFixupMask).toNat

/-- The reads and writes of one fixup, at the place it names in the file buffer. -/
def fixupEvents (offset : ℕ) : Option Field → List Event
  | none => []
  | some field => [.readFile ⟨offset, field.width⟩, .writeFile ⟨offset, field.width⟩]

/-- Apply one entry whose type is known: the field is changed in the file buffer. -/
def applyFixup (page : UInt32) (entry : UInt16) (field : Option Field) (st : LoaderState) :
    LoaderState :=
  let offset := fixupOffset page entry
  let after := { st.memory with file := Field.addTo st.memory.file offset field }
  { st with
    memory := after
    trace := st.trace ++ fixupEvents offset field
    fixups := st.fixups ++ [⟨page, entry, st.memory, after⟩] }

/-- The loop over the entries of one block: `none` is its normal end. The index stays below
`2 ^ 31` because the bound is half of a 32-bit number, so `2 ^ 31 - index` turns are enough. -/
def fixupEntries (adjust : UInt64) (block : ℕ) (page : UInt32) :
    ℕ → ℕ → LoaderState → Option EfiStatus × ℕ × LoaderState
  | 0, index, st => (none, index, st)
  | turns + 1, index, st =>
      if index < (blockSize st.memory.file block).toNat / 2 then
        let offset := fixupEntryOffset block index
        let entry := st.memory.file.u16 offset
        let st := st.log (.readFile ⟨offset, 2⟩)
        match fixupField adjust entry with
        | none => (some efiUnsupported, index, st)
        | some field =>
            fixupEntries adjust block page turns (index + 1) (applyFixup page entry field st)
      else (none, index, st)

/-- The address of the next block: `size_of_block + 8` structures further on. -/
def nextBlock (file : ByteStore) (block : ℕ) : ℕ :=
  block + sizeofPeBaseRelocation * ((blockSize file block).toNat + sizeofPeBaseRelocation)

/-- The checks on a block header: the error status, if any. -/
def checkBlock (ctx : PeLoaderCtx) (file : ByteStore) (block : ℕ) : Option EfiStatus :=
  if blockSize file block == 0 then some efiUnsupported
  else if blockSize file block > (PeDataDirectory.read file ctx.relocDirectory).size then
    some efiUnsupported
  else if imageAddress ctx.base ctx.sizeOfImage (blockVirtualAddress file block).toUInt64 == 0 then
    some efiUnsupported
  else none

/-- The loop over the blocks up to the file offset `stop`. -/
def fixupBlocks (ctx : PeLoaderCtx) (adjust : UInt64) (stop : ℕ) :
    ℕ → ℕ → LoaderState → EfiStatus × LoaderState
  | 0, _, st => (efiSuccess, st)
  | turns + 1, block, st =>
      if block < stop then
        let st := st.log (.readFile ⟨block, sizeofPeBaseRelocation⟩)
        match checkBlock ctx st.memory.file block with
        | some status => (status, st)
        | none =>
            let page := blockVirtualAddress st.memory.file block
            match fixupEntries adjust block page (2 ^ 31) 0 st with
            | (some status, _, st) => (status, st)
            | (none, entries, st) =>
                let visit := ⟨block, (blockSize st.memory.file block).toNat, entries⟩
                fixupBlocks ctx adjust stop turns (nextBlock st.memory.file block)
                  { st with visits := st.visits ++ [visit] }
      else (efiSuccess, st)

/-- `adjust`: load address minus preferred image base. -/
def loadDelta (buffer : UInt64) (ctx : PeLoaderCtx) : UInt64 := buffer - ctx.imageAddress

/-- `reloc_base`. -/
def relocBase (ctx : PeLoaderCtx) (sec : PeSectionHeader) : UInt64 :=
  imageAddress ctx.base ctx.sizeOfImage sec.pointerToRawData.toUInt64

/-- `reloc_end`; the sum is on 32 bits. -/
def relocEnd (ctx : PeLoaderCtx) (sec : PeSectionHeader) : UInt64 :=
  imageAddress ctx.base ctx.sizeOfImage (sec.pointerToRawData + sec.virtualSize).toUInt64

/-- `relocation_fixup`. Every block moves the walk forward, so the distance to the end bounds the
number of turns. -/
def relocationFixup (buffer : UInt64) (ctx : PeLoaderCtx) (sec : PeSectionHeader)
    (st : LoaderState) : EfiStatus × LoaderState :=
  if relocBase ctx sec == 0 && relocEnd ctx sec == 0 then (efiSuccess, st)
  else if relocBase ctx sec == 0 || relocEnd ctx sec == 0 then (efiUnsupported, st)
  else if loadDelta buffer ctx == 0 then (efiSuccess, st)
  else
    let start := (relocBase ctx sec - ctx.base).toNat
    let stop := (relocEnd ctx sec - ctx.base).toNat
    fixupBlocks ctx (loadDelta buffer ctx) stop (stop - start) start st

end ZLoader
