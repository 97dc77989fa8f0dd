import ZLoader.Foundation.Ledger
import ZLoader.Model.Lib.Lz4Block
import ZLoader.Model.Lib.XxHash

/-! # Decoding LZ4 frames

The decompression side of `lib/lz4/lz4frame.c`. A context and all buffers stand in one memory, by
address; the windows that are read or written are recorded, and what is taken from and given back to
the heap. A turn is a pass through the loop of `LZ4F_decompress` with the stages that it falls
through.
-/

namespace ZLoader

/-- `LZ4F_errorCodes`. -/
inductive Lz4fErrorCode where
  | okNoError
  | generic
  | maxBlockSizeInvalid
  | blockModeInvalid
  | contentChecksumFlagInvalid
  | compressionLevelInvalid
  | headerVersionWrong
  | blockChecksumInvalid
  | reservedFlagSet
  | allocationFailed
  | srcSizeTooLarge
  | dstMaxSizeTooSmall
  | frameHeaderIncomplete
  | frameTypeUnknown
  | frameSizeWrong
  | srcPtrWrong
  | decompressionFailed
  | headerChecksumInvalid
  | contentChecksumInvalid
  | frameDecodingAlreadyStarted
  | maxCode
deriving DecidableEq, Repr

/-- `err0r`. -/
def lz4fErr0r (code : Lz4fErrorCode) : UInt64 := 0 - UInt64.ofNat code.ctorIdx

/-- `LZ4F_isError`. -/
def lz4fIsError (code : UInt64) : Bool := lz4fErr0r .maxCode < code

/-- `dStage_t`. -/
inductive Lz4fStage where
  | getFrameHeader
  | storeFrameHeader
  | init
  | getBlockHeader
  | storeBlockHeader
  | copyDirect
  | getBlockChecksum
  | getCBlock
  | storeCBlock
  | flushOut
  | getSuffix
  | storeSuffix
  | getSFrameSize
  | storeSFrameSize
  | skipSkippable
deriving DecidableEq, Repr

/-- `LZ4F_blockMode_t`. -/
inductive Lz4fBlockMode where
  | linked
  | independent
deriving DecidableEq, Repr

/-- `LZ4F_frameType_t`. -/
inductive Lz4fFrameType where
  | frame
  | skippableFrame
deriving DecidableEq, Repr

/-- `LZ4F_frameInfo_t`. -/
structure Lz4fFrameInfo where
  blockSizeID : ℕ
  blockMode : Lz4fBlockMode
  contentChecksumFlag : Bool
  frameType : Lz4fFrameType
  contentSize : UInt64
  dictID : UInt32
  blockChecksumFlag : Bool
deriving DecidableEq, Repr

/-- What `MEM_INIT` leaves. -/
def Lz4fFrameInfo.zero : Lz4fFrameInfo := ⟨0, .linked, false, .frame, 0, 0, false⟩

/-- `LZ4F_dctx`; `header` is the address of the array. -/
structure Lz4fDctx where
  frameInfo : Lz4fFrameInfo
  dStage : Lz4fStage
  frameRemainingSize : UInt64
  maxBlockSize : ℕ
  maxBufferSize : ℕ
  tmpIn : ℕ
  tmpInSize : ℕ
  tmpInTarget : ℕ
  tmpOutBuffer : ℕ
  dict : ℕ
  dictSize : ℕ
  tmpOut : ℕ
  tmpOutSize : ℕ
  tmpOutStart : ℕ
  xxh : Xxh32State
  blockChecksum : Xxh32State
  header : ℕ

/-- The arguments of `LZ4F_decompress`, how the block decoder is built, and what `ALLOC` returns for a
size. -/
structure Lz4fCall where
  fastDecLoop : Bool
  dstBuffer : ℕ
  dstSize : ℕ
  srcBuffer : ℕ
  srcSize : ℕ
  stableDst : Bool
  alloc : ℕ → ℕ

namespace Lz4fCall

variable (call : Lz4fCall)

def srcEnd : ℕ := call.srcBuffer + call.srcSize

def dstEnd : ℕ := if call.dstBuffer = 0 then 0 else call.dstBuffer + call.dstSize

end Lz4fCall

/-- The context, the memory, the cursors, and the windows and the heap. -/
structure Lz4fState where
  dctx : Lz4fDctx
  memory : ByteStore
  srcPtr : ℕ
  dstPtr : ℕ
  reads : List Window
  writes : List Window
  heap : List (Movement ℕ)

/-- What follows a turn; `early` returns a value in front of the end of the function. -/
inductive Lz4fTurn where
  | again (st : Lz4fState)
  | stop (st : Lz4fState) (nextSrcSizeHint : ℕ)
  | early (st : Lz4fState) (value : ℕ)
  | failed (st : Lz4fState) (code : Lz4fErrorCode)
  | running (st : Lz4fState)

namespace Lz4fState

/-- `memcpy`. -/
def copy (st : Lz4fState) (d s size : ℕ) : Lz4fState :=
  { st with
    memory := (Patch.copy d size st.memory s).apply st.memory
    reads := ⟨s, size⟩ :: st.reads
    writes := ⟨d, size⟩ :: st.writes }

/-- A read that copies nothing. -/
def load (st : Lz4fState) (s size : ℕ) : Lz4fState := { st with reads := ⟨s, size⟩ :: st.reads }

/-- `ALLOC`. -/
def grant (st : Lz4fState) (p : ℕ) : Lz4fState :=
  if p = 0 then st else { st with heap := st.heap ++ [.grant p] }

/-- `FREEMEM`. -/
def release (st : Lz4fState) (p : ℕ) : Lz4fState :=
  if p = 0 then st else { st with heap := st.heap ++ [.release p] }

/-- The cursor of the input behind some bytes. -/
def skip (st : Lz4fState) (size : ℕ) : Lz4fState := { st with srcPtr := st.srcPtr + size }

def enter (st : Lz4fState) (stage : Lz4fStage) : Lz4fState := { st with dctx.dStage := stage }

end Lz4fState

/-! ## Headers -/

/-- `LZ4F_getBlockSize`. -/
def lz4fGetBlockSize (blockSizeID : ℕ) : UInt64 :=
  let blockSizeID := if blockSizeID = 0 then 4 else blockSizeID
  if blockSizeID < 4 ∨ 7 < blockSizeID then lz4fErr0r .maxBlockSizeInvalid
  else [65536, 262144, 1048576, 4194304].getD (blockSizeID - 4) 0

/-- `LZ4F_headerChecksum`. -/
def lz4fHeaderChecksum (memory : ByteStore) (header length : ℕ) : UInt8 :=
  (xxh32 (memory.from_ header) length 0 >>> 8).toUInt8

/-- The bits of `FLG`. -/
structure Lz4fFlags where
  version : ℕ
  blockChecksumFlag : Bool
  blockMode : Lz4fBlockMode
  contentSizeFlag : Bool
  contentChecksumFlag : Bool
  reserved : Bool
  dictIDFlag : Bool
deriving DecidableEq, Repr

def lz4fFlags (flg : UInt8) : Lz4fFlags :=
  { version := flg.toNat / 64
    blockChecksumFlag := flg.toNat.testBit 4
    blockMode := if flg.toNat.testBit 5 then .independent else .linked
    contentSizeFlag := flg.toNat.testBit 3
    contentChecksumFlag := flg.toNat.testBit 2
    reserved := flg.toNat.testBit 1
    dictIDFlag := flg.toNat.testBit 0 }

/-- The size of the header. -/
def Lz4fFlags.frameHeaderSize (flags : Lz4fFlags) : ℕ :=
  7 + (if flags.contentSizeFlag then 8 else 0) + if flags.dictIDFlag then 4 else 0

/-- The end of `LZ4F_decodeHeader`: what the header says is saved. -/
def lz4fSaveHeader (st : Lz4fState) (src : ℕ) (flags : Lz4fFlags) (blockSizeID : ℕ) : Lz4fState :=
  let st := { st with
    dctx.frameInfo.blockMode := flags.blockMode
    dctx.frameInfo.blockChecksumFlag := flags.blockChecksumFlag
    dctx.frameInfo.contentChecksumFlag := flags.contentChecksumFlag
    dctx.frameInfo.blockSizeID := blockSizeID
    dctx.maxBlockSize := (lz4fGetBlockSize blockSizeID).toNat }
  let st :=
    if flags.contentSizeFlag then
      { st.load (src + 6) 8 with
        dctx.frameInfo.contentSize := st.memory.u64 (src + 6)
        dctx.frameRemainingSize := st.memory.u64 (src + 6) }
    else st
  let st :=
    if flags.dictIDFlag then
      { st.load (src + flags.frameHeaderSize - 5) 4 with
        dctx.frameInfo.dictID := st.memory.u32 (src + flags.frameHeaderSize - 5) }
    else st
  st.enter .init

/-- `LZ4F_decodeHeader` behind the flags of a whole header. -/
def lz4fDecodeDescriptor (st : Lz4fState) (src : ℕ) (flags : Lz4fFlags) :
    Except Lz4fErrorCode ℕ × Lz4fState :=
  let frameHeaderSize := flags.frameHeaderSize
  let bd := (st.memory (src + 5)).toNat
  let blockSizeID := bd / 16 % 8
  let sized := st.load (src + 5) 1
  if bd.testBit 7 then (.error .reservedFlagSet, sized)
  else if blockSizeID < 4 then (.error .maxBlockSizeInvalid, sized)
  else if bd % 16 ≠ 0 then (.error .reservedFlagSet, sized)
  else
    let hc := lz4fHeaderChecksum st.memory (src + 4) (frameHeaderSize - 5)
    let checked := (sized.load (src + 4) (frameHeaderSize - 5)).load (src + frameHeaderSize - 1) 1
    if hc ≠ st.memory (src + frameHeaderSize - 1) then (.error .headerChecksumInvalid, checked)
    else (.ok frameHeaderSize, lz4fSaveHeader checked src flags blockSizeID)

/-- `LZ4F_decodeHeader` of what is not skippable. -/
def lz4fDecodeFlags (st : Lz4fState) (src srcSize : ℕ) : Except Lz4fErrorCode ℕ × Lz4fState :=
  if st.memory.u32 src ≠ 0x184d2204 then (.error .frameTypeUnknown, st.load src 4)
  else
    let flags := lz4fFlags (st.memory (src + 4))
    let st := (st.load src 4).load (src + 4) 1
    if flags.reserved then (.error .reservedFlagSet, st)
    else if flags.version ≠ 1 then (.error .headerVersionWrong, st)
    else if srcSize < flags.frameHeaderSize then
      let st := if src ≠ st.dctx.header then st.copy st.dctx.header src srcSize else st
      (.ok srcSize,
        { st.enter .storeFrameHeader with
          dctx.tmpInSize := srcSize
          dctx.tmpInTarget := flags.frameHeaderSize })
    else lz4fDecodeDescriptor st src flags

/-- `LZ4F_decodeHeader`. -/
def lz4fDecodeHeader (st : Lz4fState) (src srcSize : ℕ) : Except Lz4fErrorCode ℕ × Lz4fState :=
  if srcSize < 7 then (.error .frameHeaderIncomplete, st)
  else if st.memory.u32 src &&& 0xfffffff0 = 0x184d2a50 then
    let st :=
      { st.load src 4 with
        dctx.frameInfo := { Lz4fFrameInfo.zero with frameType := .skippableFrame } }
    if src = st.dctx.header then
      (.ok srcSize,
        { st.enter .storeSFrameSize with dctx.tmpInSize := srcSize, dctx.tmpInTarget := 8 })
    else (.ok 4, st.enter .getSFrameSize)
  else lz4fDecodeFlags { st.load src 4 with dctx.frameInfo := .zero } src srcSize

/-! ## The history of linked blocks -/

/-- `LZ4F_updateDict`. -/
def lz4fUpdateDict (st : Lz4fState) (dstPtr dstSize dstBufferStart : ℕ) (withinTmp : Bool) :
    Lz4fState :=
  let st := if st.dctx.dictSize = 0 then { st with dctx.dict := dstPtr } else st
  let dctx := st.dctx
  if dctx.dict + dctx.dictSize = dstPtr then { st with dctx.dictSize := dctx.dictSize + dstSize }
  else if 65536 ≤ dstPtr - dstBufferStart + dstSize then
    { st with dctx.dict := dstBufferStart, dctx.dictSize := dstPtr - dstBufferStart + dstSize }
  else if withinTmp && dctx.dict == dctx.tmpOutBuffer then
    { st with dctx.dictSize := dctx.dictSize + dstSize }
  else if withinTmp then
    let preserveSize := dctx.tmpOut - dctx.tmpOutBuffer
    let oldDictEnd := dctx.dict + dctx.dictSize - dctx.tmpOutStart
    let copySize := min (if 65536 < dctx.tmpOutSize then 0 else 65536 - dctx.tmpOutSize) preserveSize
    let st := st.copy (dctx.tmpOutBuffer + preserveSize - copySize) (oldDictEnd - copySize) copySize
    { st with
      dctx.dict := dctx.tmpOutBuffer
      dctx.dictSize := preserveSize + dctx.tmpOutStart + dstSize }
  else if dctx.dict = dctx.tmpOutBuffer then
    let st :=
      if dctx.maxBufferSize < dctx.dictSize + dstSize then
        let preserveSize := 65536 - dstSize
        { st.copy dctx.tmpOutBuffer (dctx.dict + dctx.dictSize - preserveSize) preserveSize with
          dctx.dictSize := preserveSize }
      else st
    let st' := st.copy (dctx.tmpOutBuffer + st.dctx.dictSize) dstPtr dstSize
    { st' with dctx.dictSize := st.dctx.dictSize + dstSize }
  else
    let preserveSize := min (65536 - dstSize) dctx.dictSize
    let st := st.copy dctx.tmpOutBuffer (dctx.dict + dctx.dictSize - preserveSize) preserveSize
    let st := st.copy (dctx.tmpOutBuffer + preserveSize) dstPtr dstSize
    { st with dctx.dict := dctx.tmpOutBuffer, dctx.dictSize := preserveSize + dstSize }

/-- The history is saved in front of the end of `LZ4F_decompress`. -/
def lz4fPreserveHistory (call : Lz4fCall) (st : Lz4fState) : Lz4fState :=
  let dctx := st.dctx
  let valid := 2 ≤ dctx.dStage.ctorIdx && dctx.dStage.ctorIdx < Lz4fStage.getSuffix.ctorIdx
  if dctx.frameInfo.blockMode = .linked ∧ dctx.dict ≠ dctx.tmpOutBuffer ∧ dctx.dict ≠ 0 ∧
      call.stableDst = false ∧ valid then
    if dctx.dStage = .flushOut then
      let preserveSize := dctx.tmpOut - dctx.tmpOutBuffer
      let oldDictEnd := dctx.dict + dctx.dictSize - dctx.tmpOutStart
      let copySize :=
        min (if 65536 < dctx.tmpOutSize then 0 else 65536 - dctx.tmpOutSize) preserveSize
      let st := st.copy (dctx.tmpOutBuffer + preserveSize - copySize) (oldDictEnd - copySize) copySize
      { st with
        dctx.dict := dctx.tmpOutBuffer
        dctx.dictSize := preserveSize + dctx.tmpOutStart }
    else
      let newDictSize := min dctx.dictSize 65536
      let st := st.copy dctx.tmpOutBuffer (dctx.dict + dctx.dictSize - newDictSize) newDictSize
      { st with
        dctx.dict := dctx.tmpOutBuffer
        dctx.dictSize := newDictSize
        dctx.tmpOut := dctx.tmpOutBuffer + newDictSize }
  else st

/-- `LZ4F_resetDecompressionContext`. -/
def lz4fResetDecompressionContext (dctx : Lz4fDctx) : Lz4fDctx :=
  { dctx with dStage := .getFrameHeader, dict := 0, dictSize := 0 }

/-! ## The stages -/

section Stages

variable (call : Lz4fCall)

/-- As much of the input as is wanted, behind what a buffer already holds. -/
def lz4fStore (st : Lz4fState) (buffer wanted : ℕ) : Lz4fState :=
  let sizeToCopy := min wanted (call.srcEnd - st.srcPtr)
  let st := st.copy (buffer + st.dctx.tmpInSize) st.srcPtr sizeToCopy
  { st.skip sizeToCopy with dctx.tmpInSize := st.dctx.tmpInSize + sizeToCopy }

/-- `dstage_storeFrameHeader`. -/
def lz4fStoreFrameHeader (st : Lz4fState) : Lz4fTurn :=
  let st := lz4fStore call st st.dctx.header (st.dctx.tmpInTarget - st.dctx.tmpInSize)
  if st.dctx.tmpInSize < st.dctx.tmpInTarget then
    .stop st (st.dctx.tmpInTarget - st.dctx.tmpInSize + 4)
  else
    match lz4fDecodeHeader st st.dctx.header st.dctx.tmpInTarget with
    | (.error code, st) => .failed st code
    | (.ok _, st) => .again st

/-- `dstage_getFrameHeader`. -/
def lz4fGetFrameHeader (st : Lz4fState) : Lz4fTurn :=
  if 19 ≤ call.srcEnd - st.srcPtr then
    match lz4fDecodeHeader st st.srcPtr (call.srcEnd - st.srcPtr) with
    | (.error code, st) => .failed st code
    | (.ok hSize, st) => .again (st.skip hSize)
  else
    let st := { st with dctx.tmpInSize := 0 }
    if call.srcEnd - st.srcPtr = 0 then .early st 7
    else
      lz4fStoreFrameHeader call { st.enter .storeFrameHeader with dctx.tmpInTarget := 7 }

/-- A block header that stands somewhere. -/
def lz4fDecodeBlockHeader (st : Lz4fState) (selectedIn : ℕ) : Lz4fTurn :=
  let blockHeader := st.memory.u32 selectedIn
  let st := st.load selectedIn 4
  let nextCBlockSize := (blockHeader &&& 0x7fffffff).toNat
  let crcSize := if st.dctx.frameInfo.blockChecksumFlag then 4 else 0
  if blockHeader = 0 then .again (st.enter .getSuffix)
  else if st.dctx.maxBlockSize < nextCBlockSize then .failed st .maxBlockSizeInvalid
  else if blockHeader &&& 0x80000000 ≠ 0 then
    let st := { st with dctx.tmpInTarget := nextCBlockSize }
    let st :=
      if st.dctx.frameInfo.blockChecksumFlag then { st with dctx.blockChecksum := xxh32Reset 0 }
      else st
    .again (st.enter .copyDirect)
  else
    let st := { st.enter .getCBlock with dctx.tmpInTarget := nextCBlockSize + crcSize }
    if st.dstPtr = call.dstEnd ∨ st.srcPtr = call.srcEnd then
      .stop st (4 + nextCBlockSize + crcSize)
    else .again st

/-- `dstage_storeBlockHeader`. -/
def lz4fStoreBlockHeader (st : Lz4fState) : Lz4fTurn :=
  let st := lz4fStore call st st.dctx.tmpIn (4 - st.dctx.tmpInSize)
  if st.dctx.tmpInSize < 4 then .stop st (4 - st.dctx.tmpInSize)
  else lz4fDecodeBlockHeader call st st.dctx.tmpIn

/-- `dstage_getBlockHeader`. -/
def lz4fGetBlockHeader (st : Lz4fState) : Lz4fTurn :=
  if 4 ≤ call.srcEnd - st.srcPtr then lz4fDecodeBlockHeader call (st.skip 4) st.srcPtr
  else lz4fStoreBlockHeader call { st.enter .storeBlockHeader with dctx.tmpInSize := 0 }

/-- The allocation of the buffers, when those there are do not do. -/
def lz4fAllocate (st : Lz4fState) (bufferNeeded : ℕ) : Except Lz4fErrorCode Unit × Lz4fState :=
  let tmpIn := call.alloc (st.dctx.maxBlockSize + 4)
  let st := { (st.release st.dctx.tmpIn).grant tmpIn with
    dctx.maxBufferSize := 0
    dctx.tmpIn := tmpIn }
  if tmpIn = 0 then (.error .allocationFailed, st)
  else
    let tmpOutBuffer := call.alloc bufferNeeded
    let st := { (st.release st.dctx.tmpOutBuffer).grant tmpOutBuffer with
      dctx.tmpOutBuffer := tmpOutBuffer }
    if tmpOutBuffer = 0 then (.error .allocationFailed, st)
    else (.ok (), { st with dctx.maxBufferSize := bufferNeeded })

/-- `dstage_init`. -/
def lz4fInit (st : Lz4fState) : Lz4fTurn :=
  let st :=
    if st.dctx.frameInfo.contentChecksumFlag then { st with dctx.xxh := xxh32Reset 0 } else st
  let bufferNeeded :=
    st.dctx.maxBlockSize + if st.dctx.frameInfo.blockMode = .linked then 131072 else 0
  let allocated :=
    if st.dctx.maxBufferSize < bufferNeeded then lz4fAllocate call st bufferNeeded else (.ok (), st)
  match allocated with
  | (.error code, st) => .failed st code
  | (.ok (), st) =>
      lz4fGetBlockHeader call { st.enter .getBlockHeader with
        dctx.tmpInSize := 0
        dctx.tmpInTarget := 0
        dctx.tmpOut := st.dctx.tmpOutBuffer
        dctx.tmpOutStart := 0
        dctx.tmpOutSize := 0 }

/-- Bytes that have been decoded, where they stand: the checksum and the size of the content. -/
def lz4fCountContent (st : Lz4fState) (p size : ℕ) : Lz4fState :=
  let st :=
    if st.dctx.frameInfo.contentChecksumFlag then
      { st.load p size with dctx.xxh := xxh32Update st.dctx.xxh (st.memory.from_ p) size }
    else st
  if st.dctx.frameInfo.contentSize ≠ 0 then
    { st with dctx.frameRemainingSize := st.dctx.frameRemainingSize - UInt64.ofNat size }
  else st

/-- The part of a stored block that is copied to the output, with its checksums and the history. -/
def lz4fCopyStored (st : Lz4fState) (sizeToCopy : ℕ) : Lz4fState :=
  let st := st.copy st.dstPtr st.srcPtr sizeToCopy
  let st :=
    if st.dctx.frameInfo.blockChecksumFlag then
      { st.load st.srcPtr sizeToCopy with
        dctx.blockChecksum :=
          xxh32Update st.dctx.blockChecksum (st.memory.from_ st.srcPtr) sizeToCopy }
    else st
  let st := lz4fCountContent st st.srcPtr sizeToCopy
  if st.dctx.frameInfo.blockMode = .linked then
    lz4fUpdateDict st st.dstPtr sizeToCopy call.dstBuffer false
  else st

/-- `dstage_copyDirect`. -/
def lz4fCopyDirect (st : Lz4fState) : Lz4fTurn :=
  let sizeToCopy :=
    if st.dstPtr = 0 then 0
    else min st.dctx.tmpInTarget (min (call.srcEnd - st.srcPtr) (call.dstEnd - st.dstPtr))
  let st := if st.dstPtr = 0 then st else lz4fCopyStored call st sizeToCopy
  let st := { st.skip sizeToCopy with dstPtr := st.dstPtr + sizeToCopy }
  if sizeToCopy = st.dctx.tmpInTarget then
    if st.dctx.frameInfo.blockChecksumFlag then
      .again { st.enter .getBlockChecksum with dctx.tmpInSize := 0 }
    else .again (st.enter .getBlockHeader)
  else
    let st := { st with dctx.tmpInTarget := st.dctx.tmpInTarget - sizeToCopy }
    .stop st (st.dctx.tmpInTarget + (if st.dctx.frameInfo.blockChecksumFlag then 4 else 0) + 4)

/-- The checksum of a stored block that stands somewhere. -/
def lz4fCheckStored (st : Lz4fState) (crcSrc : ℕ) : Lz4fTurn :=
  let readCRC := st.memory.u32 crcSrc
  let st := st.load crcSrc 4
  if readCRC ≠ xxh32Digest st.dctx.blockChecksum then .failed st .blockChecksumInvalid
  else .again (st.enter .getBlockHeader)

/-- `dstage_getBlockChecksum`. -/
def lz4fGetBlockChecksum (st : Lz4fState) : Lz4fTurn :=
  if 4 ≤ call.srcEnd - st.srcPtr ∧ st.dctx.tmpInSize = 0 then
    lz4fCheckStored (st.skip 4) st.srcPtr
  else
    let st := lz4fStore call st st.dctx.header (4 - st.dctx.tmpInSize)
    if st.dctx.tmpInSize < 4 then .stop st 1 else lz4fCheckStored st st.dctx.header

/-- A call of `LZ4_decompress_safe_usingDict` with the dictionary of the context: the result, and the
state behind it; `none` stands for a call that has not ended. -/
def lz4fDecodeBlock (st : Lz4fState) (selectedIn dst : ℕ) : Option (ℤ × Lz4fState) :=
  let cut : Bool := st.dctx.dict ≠ 0 && 2 ^ 30 < st.dctx.dictSize
  let dict := if cut then st.dctx.dict + (st.dctx.dictSize - 65536) else st.dctx.dict
  let dictSize := if cut then 65536 else st.dctx.dictSize
  match lz4DecompressGeneric (lz4UsingDict call.fastDecLoop selectedIn dst st.dctx.tmpInTarget
    st.dctx.maxBlockSize dict dictSize) st.memory with
  | .returned result block =>
      some (result,
        { st with
          memory := block.memory
          reads := block.reads ++ st.reads
          writes := block.writes ++ st.writes })
  | .running _ => none

/-- `dstage_flushOut`. -/
def lz4fFlushOut (st : Lz4fState) : Lz4fTurn :=
  let st :=
    if st.dstPtr ≠ 0 then
      let sizeToCopy :=
        min (st.dctx.tmpOutSize - st.dctx.tmpOutStart) (call.dstEnd - st.dstPtr)
      let st := st.copy st.dstPtr (st.dctx.tmpOut + st.dctx.tmpOutStart) sizeToCopy
      let st :=
        if st.dctx.frameInfo.blockMode = .linked then
          lz4fUpdateDict st st.dstPtr sizeToCopy call.dstBuffer true
        else st
      { st with
        dctx.tmpOutStart := st.dctx.tmpOutStart + sizeToCopy
        dstPtr := st.dstPtr + sizeToCopy }
    else st
  if st.dctx.tmpOutStart = st.dctx.tmpOutSize then .again (st.enter .getBlockHeader) else .stop st 4

/-- A block that is decoded right into the output. -/
def lz4fDecodeDirect (st : Lz4fState) (selectedIn : ℕ) : Lz4fTurn :=
  match lz4fDecodeBlock call st selectedIn st.dstPtr with
  | none => .running st
  | some (decodedSize, st) =>
      if decodedSize < 0 then .failed st .generic
      else
        let st := lz4fCountContent st st.dstPtr decodedSize.toNat
        let st :=
          if st.dctx.frameInfo.blockMode = .linked then
            lz4fUpdateDict st st.dstPtr decodedSize.toNat call.dstBuffer false
          else st
        .again ({ st with dstPtr := st.dstPtr + decodedSize.toNat }.enter .getBlockHeader)

/-- Room for a block in the buffer of the context, behind its history. -/
def lz4fPlaceTmpOut (st : Lz4fState) : Lz4fState :=
  if st.dctx.frameInfo.blockMode = .linked then
    if st.dctx.dict = st.dctx.tmpOutBuffer then
      let st :=
        if 131072 < st.dctx.dictSize then
          { st.copy st.dctx.tmpOutBuffer (st.dctx.dict + st.dctx.dictSize - 65536) 65536 with
            dctx.dictSize := 65536 }
        else st
      { st with dctx.tmpOut := st.dctx.tmpOutBuffer + st.dctx.dictSize }
    else { st with dctx.tmpOut := st.dctx.tmpOutBuffer + min st.dctx.dictSize 65536 }
  else st

/-- A block that is decoded into the buffer of the context. -/
def lz4fDecodeWithin (st : Lz4fState) (selectedIn : ℕ) : Lz4fTurn :=
  let st := lz4fPlaceTmpOut st
  match lz4fDecodeBlock call st selectedIn st.dctx.tmpOut with
  | none => .running st
  | some (decodedSize, st) =>
      if decodedSize < 0 then .failed st .decompressionFailed
      else
        let st := lz4fCountContent st st.dctx.tmpOut decodedSize.toNat
        lz4fFlushOut call { st.enter .flushOut with
          dctx.tmpOutSize := decodedSize.toNat
          dctx.tmpOutStart := 0 }

/-- A whole compressed block that stands somewhere. -/
def lz4fDecodeCBlock (st : Lz4fState) (selectedIn : ℕ) : Lz4fTurn :=
  let checked :=
    if st.dctx.frameInfo.blockChecksumFlag then
      let size := st.dctx.tmpInTarget - 4
      let st := { (st.load (selectedIn + size) 4).load selectedIn size with
        dctx.tmpInTarget := size }
      (st.memory.u32 (selectedIn + size) == xxh32 (st.memory.from_ selectedIn) size 0, st)
    else (true, st)
  match checked with
  | (false, st) => .failed st .blockChecksumInvalid
  | (true, st) =>
      if st.dctx.maxBlockSize ≤ call.dstEnd - st.dstPtr then lz4fDecodeDirect call st selectedIn
      else lz4fDecodeWithin call st selectedIn

/-- `dstage_getCBlock`. -/
def lz4fGetCBlock (st : Lz4fState) : Lz4fTurn :=
  if call.srcEnd - st.srcPtr < st.dctx.tmpInTarget then
    .again { st.enter .storeCBlock with dctx.tmpInSize := 0 }
  else lz4fDecodeCBlock call (st.skip st.dctx.tmpInTarget) st.srcPtr

/-- `dstage_storeCBlock`. -/
def lz4fStoreCBlock (st : Lz4fState) : Lz4fTurn :=
  let st := lz4fStore call st st.dctx.tmpIn (st.dctx.tmpInTarget - st.dctx.tmpInSize)
  if st.dctx.tmpInSize < st.dctx.tmpInTarget then
    .stop st (st.dctx.tmpInTarget - st.dctx.tmpInSize +
      (if st.dctx.frameInfo.blockChecksumFlag then 4 else 0) + 4)
  else lz4fDecodeCBlock call st st.dctx.tmpIn

/-- The checksum of the content that stands somewhere. -/
def lz4fCheckSuffix (st : Lz4fState) (selectedIn : ℕ) : Lz4fTurn :=
  let readCRC := st.memory.u32 selectedIn
  let st := st.load selectedIn 4
  if readCRC ≠ xxh32Digest st.dctx.xxh then .failed st .contentChecksumInvalid
  else .stop { st with dctx := lz4fResetDecompressionContext st.dctx } 0

/-- `dstage_storeSuffix`. -/
def lz4fStoreSuffix (st : Lz4fState) : Lz4fTurn :=
  let st := lz4fStore call st st.dctx.tmpIn (4 - st.dctx.tmpInSize)
  if st.dctx.tmpInSize < 4 then .stop st (4 - st.dctx.tmpInSize)
  else lz4fCheckSuffix st st.dctx.tmpIn

/-- `dstage_getSuffix`. -/
def lz4fGetSuffix (st : Lz4fState) : Lz4fTurn :=
  if st.dctx.frameRemainingSize ≠ 0 then .failed st .frameSizeWrong
  else if !st.dctx.frameInfo.contentChecksumFlag then
    .stop { st with dctx := lz4fResetDecompressionContext st.dctx } 0
  else if call.srcEnd - st.srcPtr < 4 then
    lz4fStoreSuffix call { st.enter .storeSuffix with dctx.tmpInSize := 0 }
  else lz4fCheckSuffix (st.skip 4) st.srcPtr

/-- The size of a skippable frame that stands somewhere. -/
def lz4fDecodeSFrameSize (st : Lz4fState) (selectedIn : ℕ) : Lz4fTurn :=
  let size := st.memory.u32 selectedIn
  .again { (st.load selectedIn 4).enter .skipSkippable with
    dctx.frameInfo.contentSize := size.toUInt64
    dctx.tmpInTarget := size.toNat }

/-- `dstage_storeSFrameSize`. -/
def lz4fStoreSFrameSize (st : Lz4fState) : Lz4fTurn :=
  let st := lz4fStore call st st.dctx.header (st.dctx.tmpInTarget - st.dctx.tmpInSize)
  if st.dctx.tmpInSize < st.dctx.tmpInTarget then
    .stop st (st.dctx.tmpInTarget - st.dctx.tmpInSize)
  else lz4fDecodeSFrameSize st (st.dctx.header + 4)

/-- `dstage_getSFrameSize`. -/
def lz4fGetSFrameSize (st : Lz4fState) : Lz4fTurn :=
  if 4 ≤ call.srcEnd - st.srcPtr then lz4fDecodeSFrameSize (st.skip 4) st.srcPtr
  else
    lz4fStoreSFrameSize call { st.enter .storeSFrameSize with
      dctx.tmpInSize := 4
      dctx.tmpInTarget := 8 }

/-- `dstage_skipSkippable`. -/
def lz4fSkipSkippable (st : Lz4fState) : Lz4fTurn :=
  let skipSize := min st.dctx.tmpInTarget (call.srcEnd - st.srcPtr)
  let st : Lz4fState :=
    { st.skip skipSize with dctx.tmpInTarget := st.dctx.tmpInTarget - skipSize }
  if st.dctx.tmpInTarget ≠ 0 then .stop st st.dctx.tmpInTarget
  else .stop { st with dctx := lz4fResetDecompressionContext st.dctx } 0

/-- A pass through the `switch`. -/
def lz4fStageTurn (st : Lz4fState) : Lz4fTurn :=
  match st.dctx.dStage with
  | .getFrameHeader => lz4fGetFrameHeader call st
  | .storeFrameHeader => lz4fStoreFrameHeader call st
  | .init => lz4fInit call st
  | .getBlockHeader => lz4fGetBlockHeader call st
  | .storeBlockHeader => lz4fStoreBlockHeader call st
  | .copyDirect => lz4fCopyDirect call st
  | .getBlockChecksum => lz4fGetBlockChecksum call st
  | .getCBlock => lz4fGetCBlock call st
  | .storeCBlock => lz4fStoreCBlock call st
  | .flushOut => lz4fFlushOut call st
  | .getSuffix => lz4fGetSuffix call st
  | .storeSuffix => lz4fStoreSuffix call st
  | .getSFrameSize => lz4fGetSFrameSize call st
  | .storeSFrameSize => lz4fStoreSFrameSize call st
  | .skipSkippable => lz4fSkipSkippable call st

/-! ## The call -/

/-- The loop, with a bound on its turns. -/
def lz4fTurns : ℕ → Lz4fTurn → Lz4fTurn
  | 0, turn => turn
  | turns + 1, .again st => lz4fTurns turns (lz4fStageTurn call st)
  | _ + 1, turn => turn

/-- What a call returns and leaves: its result, `*srcSizePtr` and `*dstSizePtr`, and the state. -/
structure Lz4fReply where
  result : UInt64
  srcSize : ℕ
  dstSize : ℕ
  st : Lz4fState

/-- `LZ4F_decompress`; `none` stands for a call that has not ended within the turns that its input
allows. -/
def lz4fDecompress (dctx : Lz4fDctx) (memory : ByteStore) : Option Lz4fReply :=
  let st : Lz4fState := ⟨dctx, memory, call.srcBuffer, call.dstBuffer, [], [], []⟩
  match lz4fTurns call (2 * call.srcSize + 2) (lz4fStageTurn call st) with
  | .stop st nextSrcSizeHint =>
      let st := lz4fPreserveHistory call st
      some ⟨UInt64.ofNat nextSrcSizeHint, st.srcPtr - call.srcBuffer, st.dstPtr - call.dstBuffer, st⟩
  | .early st value => some ⟨UInt64.ofNat value, 0, 0, st⟩
  | .failed st code => some ⟨lz4fErr0r code, 0, 0, st⟩
  | .again _ | .running _ => none

end Stages

/-! ## The header in front of the calls -/

/-- `LZ4F_headerSize`. -/
def lz4fHeaderSize (st : Lz4fState) (src srcSize : ℕ) : Except Lz4fErrorCode ℕ × Lz4fState :=
  if src = 0 then (.error .srcPtrWrong, st)
  else if srcSize < 5 then (.error .frameHeaderIncomplete, st)
  else
    let magic := st.memory.u32 src
    if magic &&& 0xfffffff0 = 0x184d2a50 then (.ok 8, st.load src 4)
    else if magic ≠ 0x184d2204 then (.error .frameTypeUnknown, (st.load src 4).load src 4)
    else
      (.ok (lz4fFlags (st.memory (src + 4))).frameHeaderSize,
        ((st.load src 4).load src 4).load (src + 4) 1)

/-- What `LZ4F_getFrameInfo` returns and leaves: its result, `*srcSizePtr`, `*frameInfoPtr` and the
state. -/
structure Lz4fInfoReply where
  result : UInt64
  srcSize : ℕ
  frameInfo : Lz4fFrameInfo
  st : Lz4fState

/-- `LZ4F_getFrameInfo` on the input of `call`; of the output there is none. -/
def lz4fGetFrameInfo (call : Lz4fCall) (frameInfo : Lz4fFrameInfo) (dctx : Lz4fDctx)
    (memory : ByteStore) : Option Lz4fInfoReply :=
  let st : Lz4fState := ⟨dctx, memory, call.srcBuffer, 0, [], [], []⟩
  if Lz4fStage.storeFrameHeader.ctorIdx < dctx.dStage.ctorIdx then
    (lz4fDecompress ⟨call.fastDecLoop, 0, 0, 0, 0, false, call.alloc⟩ dctx memory).map fun reply =>
      ⟨reply.result, 0, dctx.frameInfo, reply.st⟩
  else if dctx.dStage = .storeFrameHeader then
    some ⟨lz4fErr0r .frameDecodingAlreadyStarted, 0, frameInfo, st⟩
  else
    match lz4fHeaderSize st call.srcBuffer call.srcSize with
    | (.error code, st) => some ⟨lz4fErr0r code, 0, frameInfo, st⟩
    | (.ok hSize, st) =>
        if call.srcSize < hSize then some ⟨lz4fErr0r .frameHeaderIncomplete, 0, frameInfo, st⟩
        else
          match lz4fDecodeHeader st call.srcBuffer hSize with
          | (.error code, st) => some ⟨lz4fErr0r code, 0, st.dctx.frameInfo, st⟩
          | (.ok size, st) => some ⟨4, size, st.dctx.frameInfo, st⟩

/-! ## Contexts -/

/-- What `calloc` leaves of a context. Its header lies 224 bytes behind its start. -/
def lz4fNewContext (context : ℕ) : Lz4fDctx :=
  let xxh : Xxh32State := ⟨0, false, ⟨⟨0, 0, 0, 0⟩, fun _ => 0, 0⟩⟩
  ⟨.zero, .getFrameHeader, 0, 0, 0, 0, 0, 0, 0, 0, 0, 0, 0, 0, xxh, xxh, context + 224⟩

/-- `LZ4F_createDecompressionContext`: the context, and what `calloc` has granted. -/
def lz4fCreateDecompressionContext (context : ℕ) :
    Except Lz4fErrorCode Lz4fDctx × List (Movement ℕ) :=
  if context = 0 then (.error .allocationFailed, [])
  else (.ok (lz4fNewContext context), [.grant context])

end ZLoader
