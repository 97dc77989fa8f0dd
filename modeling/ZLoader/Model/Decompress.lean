import ZLoader.Foundation.StreamDecoder
import ZLoader.Model.Loader.Headers

/-! # Decompressing the kernel

`decompress`, `decompress_lz4` and `decompress_zstd` (`decompress.c`). The two codec libraries are
parameters: what they return for a context or a frame header is data, and their streaming calls are
a decoder that carries its contract. The input is given from the address in its buffer on.
-/

namespace ZLoader

/-- `ZSTD_MAGICNUMBER`. -/
def zstdMagicNumber : UInt32 := 0xfd2fb528
/-- `LZ4_MAGICNUMBER`. -/
def lz4MagicNumber : UInt32 := 0x184d2204

/-- `ZSTD_CONTENTSIZE_UNKNOWN` and `ZSTD_CONTENTSIZE_ERROR`. -/
def zstdContentSizeUnknown : UInt64 := 0 - 1
def zstdContentSizeError : UInt64 := 0 - 2

/-- What `LZ4F_getFrameInfo` leaves behind: the context, the size of the frame header, the content
size from the header and the value returned. -/
structure Lz4FrameInfo (σ : Type) where
  state : σ
  consumed : UInt64
  contentSize : UInt64
  result : UInt64

/-- The LZ4 frame library; the frame header is part of the bytes it is given. -/
structure Lz4Codec (σ : Type) where
  createDecompressionContext : UInt64
  getFrameInfo : (ℕ → UInt8) → UInt64 → Lz4FrameInfo σ
  decoder : StreamDecoder σ
  isError : UInt64 → Bool
  consumed_le : ∀ data size, (getFrameInfo data size).consumed ≤ size

/-- The ZSTD library; `createDStream` is `none` when the stream cannot be allocated. -/
structure ZstdCodec (σ : Type) where
  getFrameContentSize : (ℕ → UInt8) → UInt64 → UInt64
  createDStream : Option σ
  decoder : StreamDecoder σ
  isError : UInt64 → Bool

/-- What the decompression read itself, took from or gave back to the heap, and called. Windows are
offsets from the cursor of the input. -/
inductive CodecEvent where
  | readInput (window : Window)
  | malloc (size address : UInt64)
  | free (address : UInt64)
  | decode (call : DecoderCall)
deriving DecidableEq, Repr

/-- How the decompression ends. `nullCall` is the call of a release function that was never set,
`running` a loop that has not ended within the turns allowed. -/
inductive DecompressOutcome where
  | ok
  | error (status : EfiStatus)
  | assertionFailed
  | nullCall
  | running
deriving DecidableEq, Repr

structure DecompressResult where
  outcome : DecompressOutcome
  input : SimpleBuffer
  output : SimpleBuffer
  trace : List CodecEvent
deriving DecidableEq, Repr

/-- `allocate_simple_buffer`; the address is zero when `malloc` fails. -/
def allocateSimpleBuffer (malloc : UInt64 → UInt64) (length : UInt64) (buffer : SimpleBuffer) :
    Bool × SimpleBuffer × List CodecEvent :=
  if malloc length == 0 then (false, { buffer with buffer := 0 }, [])
  else
    (true, ⟨malloc length, 0, 0, length, some .freeSimpleBuffer⟩, [.malloc length (malloc length)])

theorem allocateSimpleBuffer_eq (malloc : UInt64 → UInt64) (length : UInt64)
    (buffer : SimpleBuffer) :
    allocateSimpleBuffer malloc length buffer =
      if malloc length = 0 then (false, { buffer with buffer := 0 }, [])
      else (true, ⟨malloc length, 0, 0, length, some .freeSimpleBuffer⟩,
        [.malloc length (malloc length)]) := by
  unfold allocateSimpleBuffer
  by_cases failed : malloc length = 0 <;> simp [failed]

/-- `free_simple_buffer`. Pages of an aligned buffer are not part of this model. -/
def releaseEvents (buffer : SimpleBuffer) : FreeFunction → List CodecEvent
  | .freeSimpleBuffer => if buffer.allocated != 0 then [.free buffer.buffer] else []
  | .freeAlignedBuffer => []

/-- The code behind the label `end`. -/
def DecompressResult.finish (result : DecompressResult) : DecompressResult :=
  match result.outcome with
  | .ok => { result with output.pos := 0 }
  | .error _ =>
      match result.output.free with
      | none => { result with outcome := .nullCall }
      | some release =>
          { result with
            output := { result.output with allocated := 0, buffer := 0 }
            trace := result.trace ++ releaseEvents result.output release }
  | _ => result

section Lz4

variable {σ : Type} (build : Build) (codec : Lz4Codec σ) (malloc : UInt64 → UInt64)
  (data : ByteStore)

/-- The loop of `decompress_lz4`. -/
def decompressLz4Loop : ℕ → σ → SimpleBuffer → SimpleBuffer → List CodecEvent → DecompressResult
  | 0, _, input, output, trace =>
      ⟨if input.pos < input.length then .running else .ok, input, output, trace⟩
  | turns + 1, state, input, output, trace =>
      if input.pos < input.length then
        let outEnd := output.allocated - output.pos
        match bufferLen build input, bufferPos build output, bufferPos build input with
        | .ok inEnd, .ok _, .ok _ =>
            let reply := codec.decoder.step state (fun index => data (input.pos.toNat + index))
              inEnd outEnd
            let trace := trace ++ [.decode ⟨inEnd, outEnd, reply.consumed, reply.produced,
              reply.result⟩]
            if codec.isError reply.result then ⟨.error efiUnsupported, input, output, trace⟩
            else
              let pos := output.pos + reply.produced
              decompressLz4Loop turns reply.state
                { input with pos := input.pos + reply.consumed }
                { output with length := pos, pos := pos } trace
        | _, _, _ => ⟨.assertionFailed, input, output, trace⟩
      else ⟨.ok, input, output, trace⟩

/-- `decompress_lz4`. The result of the last call is not part of the outcome: it is only printed. -/
def decompressLz4 (turns : ℕ) (input output : SimpleBuffer) : DecompressResult :=
  if codec.isError codec.createDecompressionContext then
    ⟨.error efiOutOfResources, input, output, []⟩
  else
    match bufferPos build input with
    | .ok _ =>
        let info := codec.getFrameInfo (fun index => data (input.pos.toNat + index)) input.length
        if codec.isError info.result then
          DecompressResult.finish ⟨.error efiUnsupported, input, output, []⟩
        else
          let input := { input with pos := info.consumed }
          if info.contentSize == 0 then
            DecompressResult.finish ⟨.error efiUnsupported, input, output, []⟩
          else
            match allocateSimpleBuffer malloc info.contentSize output with
            | (false, output, trace) =>
                DecompressResult.finish ⟨.error efiOutOfResources, input, output, trace⟩
            | (true, output, trace) =>
                (decompressLz4Loop build codec data turns info.state input output trace).finish
    | _ => ⟨.assertionFailed, input, output, []⟩

end Lz4

section Zstd

variable {σ : Type} (build : Build) (codec : ZstdCodec σ) (malloc : UInt64 → UInt64)
  (data : ByteStore)

/-- The loop of `decompress_zstd`: the library moves both cursors itself. -/
def decompressZstdLoop : ℕ → σ → SimpleBuffer → SimpleBuffer → List CodecEvent → DecompressResult
  | 0, _, input, output, trace =>
      ⟨if input.pos < input.length then .running else .ok, input, output, trace⟩
  | turns + 1, state, input, output, trace =>
      if input.pos < input.length then
        let reply := codec.decoder.step state (fun index => data (input.pos.toNat + index))
          (input.length - input.pos) (output.length - output.pos)
        let trace := trace ++ [.decode ⟨input.length - input.pos, output.length - output.pos,
          reply.consumed, reply.produced, reply.result⟩]
        if codec.isError reply.result then ⟨.error efiCompromisedData, input, output, trace⟩
        else
          decompressZstdLoop turns reply.state
            { input with pos := input.pos + reply.consumed }
            { output with pos := output.pos + reply.produced } trace
      else ⟨.ok, input, output, trace⟩

/-- `decompress_zstd`. The result of the last call is not part of the outcome here either. -/
def decompressZstd (turns : ℕ) (input output : SimpleBuffer) : DecompressResult :=
  match bufferPos build input, bufferLen build input with
  | .ok _, .ok length =>
      let size := codec.getFrameContentSize (fun index => data (input.pos.toNat + index)) length
      if size == zstdContentSizeError || size == zstdContentSizeUnknown then
        ⟨.error efiUnsupported, input, { output with allocated := 0 }, []⟩
      else
        match allocateSimpleBuffer malloc size { output with allocated := size } with
        | (false, output, trace) => ⟨.error efiOutOfResources, input, output, trace⟩
        | (true, output, trace) =>
            match codec.createDStream with
            | none => ⟨.error efiOutOfResources, input, output, trace ++ [.free output.buffer]⟩
            | some state =>
                (decompressZstdLoop codec data turns state input
                  { output with length := output.allocated } trace).finish
  | _, _ => ⟨.assertionFailed, input, output, []⟩

end Zstd

/-- The formats that `decompress` tells apart. -/
inductive KernelFormat where
  | zstd
  | lz4
  | other
deriving DecidableEq, Repr

/-- The format by the magic number at the cursor, as far as the build knows it. -/
def kernelFormat (build : Build) (data : ByteStore) (input : SimpleBuffer) : KernelFormat :=
  let magic := data.u32 input.pos.toNat
  if build.useZstd && magic == zstdMagicNumber then .zstd
  else if build.useLz4 && magic == lz4MagicNumber then .lz4
  else .other

/-- The reads of the magic number: once for every format asked for. -/
def magicReads (build : Build) (data : ByteStore) (input : SimpleBuffer) : List CodecEvent :=
  (if build.useZstd then [.readInput ⟨0, 4⟩] else []) ++
    if build.useLz4 && kernelFormat build data input != .zstd then [.readInput ⟨0, 4⟩] else []

/-- A read of the file buffer as an event of the decompression. -/
def CodecEvent.ofLoaderEvent? : Event → Option CodecEvent
  | .readFile window => some (.readInput window)
  | _ => none

def DecompressResult.prepend (events : List CodecEvent) (result : DecompressResult) :
    DecompressResult := { result with trace := events ++ result.trace }

/-- `decompress` on non-NULL arguments. -/
def decompress {σ τ : Type} (build : Build) (lz4 : Lz4Codec σ) (zstd : ZstdCodec τ)
    (malloc : UInt64 → UInt64) (data : ByteStore) (turns : ℕ) (input output : SimpleBuffer) :
    DecompressResult :=
  if input.buffer == 0 || input.length == 0 then ⟨.error efiInvalidParameter, input, output, []⟩
  else if output.buffer != 0 || output.length != 0 then
    ⟨.error efiInvalidParameter, input, output, []⟩
  else
    match bufferPos build input with
    | .ok _ =>
        DecompressResult.prepend (magicReads build data input) <|
          match kernelFormat build data input with
          | .zstd => decompressZstd build zstd malloc data turns input output
          | .lz4 => decompressLz4 build lz4 malloc data turns input output
          | .other =>
              match peHeader build input fun offset => data (input.pos.toNat + offset) with
              | (.ok peOffset, reads) =>
                  let trace := reads.filterMap CodecEvent.ofLoaderEvent?
                  if peOffset > 0 then
                    ⟨.ok, input, ⟨input.buffer, input.length, input.pos, input.length, none⟩, trace⟩
                  else ⟨.error efiUnsupported, input, output, trace⟩
              | (.error status, reads) =>
                  ⟨.error status, input, output, reads.filterMap CodecEvent.ofLoaderEvent?⟩
              | (.assertionFailed _, reads) =>
                  ⟨.assertionFailed, input, output, reads.filterMap CodecEvent.ofLoaderEvent?⟩
    | _ => ⟨.assertionFailed, input, output, []⟩

end ZLoader
