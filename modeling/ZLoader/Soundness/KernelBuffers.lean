import ZLoader.Soundness.HandleImage
import ZLoader.Soundness.StreamEnd

/-! # Buffer accessors between the section and the started kernel

Where the assertions of `buffer_pos` and `buffer_len` end the decompression or the loading of the
kernel. With a fresh input buffer the decompression fails one exactly when the LZ4 decoder has used
up the announced content size while input is left, and the loader exactly when it is handed a kernel
without bytes.
-/

namespace ZLoader

section Decompress

variable {σ τ : Type} {build : Build} {lz4 : Lz4Codec σ} {zstd : ZstdCodec τ}
  {malloc : UInt64 → UInt64} {data : ByteStore}

/-- In front of both ends `PE_header` fails no assertion. -/
theorem peHeader_of_lt (build : Build) {buffer : SimpleBuffer} (nonnull : buffer.buffer ≠ 0)
    (room : buffer.pos < buffer.allocated) (more : buffer.pos < buffer.length) (file : ByteStore) :
    ∃ peOffset reads, peHeader build buffer file = (.ok peOffset, reads) := by
  unfold peHeader
  rw [bufferPos_of_lt build nonnull room, bufferLen_of_lt build nonnull more]
  dsimp only
  split_ifs <;> exact ⟨_, _, rfl⟩

/-- Without assertions it fails none anyway. -/
theorem peHeader_of_ndebug (quiet : build.ndebug = true) (buffer : SimpleBuffer) (file : ByteStore) :
    ∃ peOffset reads, peHeader build buffer file = (.ok peOffset, reads) := by
  rw [peHeader, bufferPos_of_ndebug quiet, bufferLen_of_ndebug quiet]
  dsimp only
  split_ifs <;> exact ⟨_, _, rfl⟩

/-- The label `end` fails no assertion and forgets none. -/
theorem finish_assertionFailed_iff {result : DecompressResult} :
    result.finish.outcome = .assertionFailed ↔ result.outcome = .assertionFailed := by
  unfold DecompressResult.finish
  cases known : result.outcome with
  | error status => cases free : result.output.free <;> simp
  | _ => simp [known]

/-- Without assertions the LZ4 loop fails none. -/
theorem decompressLz4Loop_of_ndebug (quiet : build.ndebug = true) (turns : ℕ) (state : σ)
    (input output : SimpleBuffer) (trace : List CodecEvent) :
    (decompressLz4Loop build lz4 data turns state input output trace).outcome ≠ .assertionFailed := by
  induction turns generalizing state input output trace with
  | zero =>
    simp only [decompressLz4Loop]
    split_ifs <;> simp
  | succ turns ih =>
    simp only [decompressLz4Loop, bufferLen_of_ndebug quiet, bufferPos_of_ndebug quiet]
    split_ifs
    · simp
    · exact ih _ _ _ _
    · simp

/-- The LZ4 loop fails an assertion exactly when the room is used up while input is left. -/
theorem decompressLz4Loop_assertionFailed_iff (asserts : build.ndebug = false) {turns : ℕ}
    {state : σ} {input output : SimpleBuffer} {trace : List CodecEvent} (source : input.buffer ≠ 0)
    (inside : input.pos ≤ input.length) (held : input.length ≤ input.allocated)
    (target : output.buffer ≠ 0) (room : output.pos ≤ output.allocated) :
    (decompressLz4Loop build lz4 data turns state input output trace).outcome = .assertionFailed ↔
      lz4.decoder.exhaustsRoom lz4.isError turns state
        (fun index => data (input.pos.toNat + index)) (input.length - input.pos)
        (output.allocated - output.pos) = true := by
  induction turns generalizing state input output trace with
  | zero =>
    simp only [decompressLz4Loop, StreamDecoder.exhaustsRoom]
    split_ifs <;> simp
  | succ turns ih =>
    simp only [decompressLz4Loop, StreamDecoder.exhaustsRoom]
    by_cases more : input.pos < input.length
    · rw [if_pos more, bufferLen_of_lt build source more,
        bufferPos_of_lt build source (UInt64.lt_of_lt_of_le more held)]
      have left := cursor_before_end more
      by_cases space : output.pos < output.allocated
      · have free := cursor_before_end space
        rw [bufferPos_of_lt build target space]
        obtain ⟨moved, stays, remaining, fits, capacity⟩ := lz4.decoder.step_cursors state
          (fun index => data (input.pos.toNat + index)) inside room
        dsimp only
        split_ifs with failed
        · simp [left, free, failed]
        · rw [ih (by exact source) (by exact stays) (by exact held) (by exact target)
            (by exact fits)]
          dsimp only
          rw [remaining, capacity, moved]
          simp [left, free, failed, Nat.add_assoc]
      · rw [bufferPos_of_not_lt asserts space, cursor_at_end room space]
        simp [left]
    · rw [if_neg more, cursor_at_end inside more]
      simp

/-- The LZ4 decoder is started and uses up the announced content size while input is left. -/
def Lz4ExhaustsRoom (codec : Lz4Codec σ) (malloc : UInt64 → UInt64) (data : ByteStore) (turns : ℕ)
    (input : SimpleBuffer) : Prop :=
  let info := codec.getFrameInfo (fun index => data (input.pos.toNat + index)) input.length
  codec.isError codec.createDecompressionContext = false ∧ codec.isError info.result = false ∧
    info.contentSize ≠ 0 ∧ malloc info.contentSize ≠ 0 ∧
    codec.decoder.exhaustsRoom codec.isError turns info.state
      (fun index => data (info.consumed.toNat + index)) (input.length - info.consumed)
      info.contentSize = true

/-- A fresh input: its cursor is at the start of a full buffer. -/
structure FreshInput (input : SimpleBuffer) : Prop where
  nonnull : input.buffer ≠ 0
  nonempty : input.length ≠ 0
  start : input.pos = 0
  whole : input.allocated = input.length

theorem FreshInput.more {input : SimpleBuffer} (fresh : FreshInput input) :
    input.pos < input.length := by
  rw [fresh.start]
  exact UInt64.pos_iff_ne_zero.mpr fresh.nonempty

theorem FreshInput.room {input : SimpleBuffer} (fresh : FreshInput input) :
    input.pos < input.allocated := by
  rw [fresh.whole]
  exact fresh.more

theorem finish_error_ne_assertionFailed {status : EfiStatus} {input output : SimpleBuffer}
    {trace : List CodecEvent} :
    (DecompressResult.mk (.error status) input output trace).finish.outcome ≠ .assertionFailed := by
  rw [ne_eq, finish_assertionFailed_iff]
  simp

/-- `decompress_lz4` on a fresh input. -/
theorem decompressLz4_assertionFailed_iff (asserts : build.ndebug = false) {turns : ℕ}
    {input output : SimpleBuffer} (fresh : FreshInput input) :
    (decompressLz4 build lz4 malloc data turns input output).outcome = .assertionFailed ↔
      Lz4ExhaustsRoom lz4 malloc data turns input := by
  unfold decompressLz4 Lz4ExhaustsRoom
  rw [bufferPos_of_lt build fresh.nonnull fresh.room]
  dsimp only
  split_ifs with context header size
  · simp [context]
  · simp [header, finish_error_ne_assertionFailed]
  · simp only [beq_iff_eq] at size
    simp [size, finish_error_ne_assertionFailed]
  · simp only [beq_iff_eq] at size
    rw [allocateSimpleBuffer_eq]
    by_cases failed : malloc (lz4.getFrameInfo (fun index => data (input.pos.toNat + index))
        input.length).contentSize = 0
    · rw [if_pos failed]
      simp [failed, finish_error_ne_assertionFailed]
    · rw [if_neg failed]
      dsimp only
      rw [finish_assertionFailed_iff, decompressLz4Loop_assertionFailed_iff asserts
        (by exact fresh.nonnull) (by exact lz4.consumed_le _ _)
        (by exact UInt64.le_of_eq fresh.whole.symm)
        (by exact failed) (by exact UInt64.zero_le)]
      dsimp only
      rw [UInt64.sub_zero]
      simp [context, header, size, failed]

/-- The ZSTD loop has no assertion. -/
theorem decompressZstdLoop_ne_assertionFailed (turns : ℕ) (state : τ) (input output : SimpleBuffer)
    (trace : List CodecEvent) :
    (decompressZstdLoop zstd data turns state input output trace).outcome ≠ .assertionFailed := by
  induction turns generalizing state input output trace with
  | zero =>
    simp only [decompressZstdLoop]
    split_ifs <;> simp
  | succ turns ih =>
    simp only [decompressZstdLoop]
    split_ifs
    · simp
    · exact ih _ _ _ _
    · simp

/-- `decompress_zstd` on an input whose accessors return. -/
theorem decompressZstd_ne_assertionFailed {turns : ℕ} {input output : SimpleBuffer}
    {cursor length : UInt64} (position : bufferPos build input = .ok cursor)
    (left : bufferLen build input = .ok length) :
    (decompressZstd build zstd malloc data turns input output).outcome ≠ .assertionFailed := by
  unfold decompressZstd
  rw [position, left]
  dsimp only
  split_ifs with unsized
  · simp
  · rw [allocateSimpleBuffer_eq]
    split_ifs with failed
    · simp
    · dsimp only
      split
      · simp
      · rw [ne_eq, finish_assertionFailed_iff]
        exact decompressZstdLoop_ne_assertionFailed _ _ _ _ _

/-- Without assertions the decompression fails none. -/
theorem decompress_of_ndebug (quiet : build.ndebug = true) (turns : ℕ)
    (input output : SimpleBuffer) :
    (decompress build lz4 zstd malloc data turns input output).outcome ≠ .assertionFailed := by
  unfold decompress
  split_ifs with invalid used
  · simp
  · simp
  · rw [bufferPos_of_ndebug quiet]
    dsimp only [DecompressResult.prepend]
    cases kernelFormat build data input with
    | zstd =>
      exact decompressZstd_ne_assertionFailed (bufferPos_of_ndebug quiet _)
        (bufferLen_of_ndebug quiet _)
    | lz4 =>
      unfold decompressLz4
      rw [bufferPos_of_ndebug quiet]
      dsimp only
      split_ifs
      · simp
      · exact finish_error_ne_assertionFailed
      · exact finish_error_ne_assertionFailed
      · rw [allocateSimpleBuffer_eq]
        split_ifs
        · exact finish_error_ne_assertionFailed
        · dsimp only
          rw [ne_eq, finish_assertionFailed_iff]
          exact decompressLz4Loop_of_ndebug quiet _ _ _ _ _
    | other =>
      obtain ⟨peOffset, reads, found⟩ := peHeader_of_ndebug quiet input
        fun offset => data (input.pos.toNat + offset)
      rw [found]
      dsimp only
      split_ifs <;> simp

/-- `decompress` of a fresh input into an empty buffer fails an assertion exactly when an LZ4 frame
exhausts its room. -/
theorem decompress_assertionFailed_iff (asserts : build.ndebug = false) {turns : ℕ}
    {input output : SimpleBuffer} (fresh : FreshInput input) (unused : output.buffer = 0)
    (empty : output.length = 0) :
    (decompress build lz4 zstd malloc data turns input output).outcome = .assertionFailed ↔
      kernelFormat build data input = .lz4 ∧ Lz4ExhaustsRoom lz4 malloc data turns input := by
  unfold decompress
  rw [if_neg (by simp [fresh.nonnull, fresh.nonempty]), if_neg (by simp [unused, empty]),
    bufferPos_of_lt build fresh.nonnull fresh.room]
  dsimp only [DecompressResult.prepend]
  cases kernelFormat build data input with
  | zstd =>
    refine iff_of_false (decompressZstd_ne_assertionFailed
      (bufferPos_of_lt build fresh.nonnull fresh.room)
      (bufferLen_of_lt build fresh.nonnull fresh.more)) fun both => by simp at both
  | lz4 => simpa using decompressLz4_assertionFailed_iff asserts fresh
  | other =>
    obtain ⟨peOffset, reads, found⟩ := peHeader_of_lt build fresh.nonnull fresh.room fresh.more
      fun offset => data (input.pos.toNat + offset)
    rw [found]
    dsimp only
    split_ifs <;> simp

/-! ## The decompressed kernel -/

/-- A buffer with its cursor at the start of data that fit its memory. -/
structure RewoundBuffer (buffer : SimpleBuffer) : Prop where
  nonnull : buffer.buffer ≠ 0
  start : buffer.pos = 0
  fits : buffer.length ≤ buffer.allocated

/-- The LZ4 loop stays in its output memory. -/
theorem decompressLz4Loop_buffer (turns : ℕ) (state : σ) (input output : SimpleBuffer)
    (trace : List CodecEvent) :
    (decompressLz4Loop build lz4 data turns state input output trace).output.buffer =
      output.buffer := by
  induction turns generalizing state input output trace with
  | zero => rfl
  | succ turns ih =>
    simp only [decompressLz4Loop]
    split_ifs
    · split
      · split_ifs
        · rfl
        · rw [ih]
      · rfl
    · rfl

/-- The ZSTD loop moves the cursor of its output and nothing else. -/
theorem decompressZstdLoop_output (zstd : ZstdCodec τ) (data : ByteStore) (turns : ℕ) (state : τ)
    (input output : SimpleBuffer) (trace : List CodecEvent) :
    ∃ pos, (decompressZstdLoop zstd data turns state input output trace).output =
      { output with pos := pos } := by
  induction turns generalizing state input output trace with
  | zero => exact ⟨output.pos, rfl⟩
  | succ turns ih =>
    simp only [decompressZstdLoop]
    split_ifs
    · exact ⟨output.pos, rfl⟩
    · obtain ⟨pos, moved⟩ := ih _ _ { output with pos := _ } _
      exact ⟨pos, moved⟩
    · exact ⟨output.pos, rfl⟩

theorem decompressLz4_rewound {turns : ℕ} {input output : SimpleBuffer}
    (success : (decompressLz4 build lz4 malloc data turns input output).outcome = .ok) :
    RewoundBuffer (decompressLz4 build lz4 malloc data turns input output).output := by
  obtain ⟨-, allocated, loops, same⟩ := decompressLz4_ok success
  obtain ⟨calls, final, produced, fedBy, length, space, _⟩ :=
    decompressLz4Loop_fed (lz4.consumed_le _ _) rfl UInt64.zero_le loops
  obtain ⟨fedTurns, fed⟩ := fedBy.fed
  dsimp only at fed length space
  rw [UInt64.zero_add] at length
  rw [UInt64.sub_zero] at fed
  rw [same, decompressLz4Calls]
  refine ⟨?_, rfl, ?_⟩
  · dsimp only
    rw [decompressLz4Loop_buffer]
    exact allocated
  · dsimp only
    rw [length, space]
    exact lz4.decoder.feed_produced_le fed

theorem decompressZstd_rewound {turns : ℕ} {input output : SimpleBuffer}
    (success : (decompressZstd build zstd malloc data turns input output).outcome = .ok) :
    RewoundBuffer (decompressZstd build zstd malloc data turns input output).output := by
  rw [decompressZstd] at success ⊢
  split at success
  · dsimp only at success ⊢
    split_ifs at success ⊢ with unsized
    rw [allocateSimpleBuffer_eq] at success ⊢
    split_ifs at success ⊢ with failed
    dsimp only at success ⊢
    split at success
    · contradiction
    · next state created =>
      rw [finish_ok_iff] at success
      obtain ⟨pos, moved⟩ := decompressZstdLoop_output zstd data turns state input
        _ _
      rw [finish_of_ok success]
      dsimp only
      rw [moved]
      exact ⟨failed, rfl, UInt64.le_refl _⟩
  · contradiction

/-- A successful decompression of a fresh input leaves the kernel in a buffer of its own, or in the
input. -/
theorem decompress_rewound {turns : ℕ} {input output : SimpleBuffer} (start : input.pos = 0)
    (success : (decompress build lz4 zstd malloc data turns input output).outcome = .ok) :
    RewoundBuffer (decompress build lz4 zstd malloc data turns input output).output := by
  rw [decompress] at success ⊢
  split_ifs at success ⊢ with invalid used
  split at success
  · dsimp only [DecompressResult.prepend] at success ⊢
    cases format : kernelFormat build data input with
    | zstd =>
      rw [format] at success
      exact decompressZstd_rewound success
    | lz4 =>
      rw [format] at success
      exact decompressLz4_rewound success
    | other =>
      rw [format] at success
      dsimp only at success ⊢
      split at success
      · split_ifs at success ⊢ with header
        refine ⟨fun null => invalid ?_, start, UInt64.le_refl _⟩
        rw [null]
        rfl
      · contradiction
      · contradiction
  · contradiction

end Decompress

section HandleImage

variable {build : Build} {services : Services} {image : SimpleBuffer} {memory : Memory}

/-- The assertion on the destination is not one of the accessors. -/
theorem relocateImage_ne_bufferAccessor (build : Build) (buffer : UInt64) (ctx : PeLoaderCtx)
    (st : LoaderState) :
    (relocateImage build buffer ctx st).1 ≠ .assertionFailed .bufferAccessor := by
  rcases relocateImage_cases build buffer ctx st with
    ⟨ends, _⟩ | ⟨_, _, ends⟩ | ⟨_, _, _, ends⟩ | ⟨_, _, ends⟩ <;> simp [ends]

theorem loadImage_ne_bufferAccessor (ctx : PeLoaderCtx) (st : LoaderState) :
    (loadImage build services ctx st).outcome ≠ .assertionFailed .bufferAccessor := by
  have relocation := relocateImage_ne_bufferAccessor build
    (destination services ctx).buffer ctx (headersCopied services ctx st)
  rw [loadImage]
  split
  · simp [failImage]
  · split
    · next known =>
      rcases installImage_returns services ctx (destination services ctx)
        (imageAddress (destination services ctx).buffer ctx.sizeOfImage ctx.entryPoint) _ with
        loaded | ⟨status, refused⟩
      · exact fun failed => nomatch loaded.symm.trans failed
      · exact fun failed => nomatch refused.symm.trans failed
    · simp [failImage]
    · next failed =>
      rw [failed] at relocation
      simpa using relocation
    · simp

/-- Behind a position with data the headers are read without a failed assertion. -/
theorem readHeaders_ne_assertionFailed {assertion : Assertion}
    (found : ∃ peOffset reads, peHeader build image memory.file = (.ok peOffset, reads)) :
    (readHeaders build image memory.file).1 ≠ .assertionFailed assertion := by
  obtain ⟨peOffset, reads, found⟩ := found
  rw [readHeaders, found]
  dsimp only
  split_ifs
  · simp
  · simp
  · rw [checkHeaders]
    dsimp only
    split_ifs <;> simp

/-- Loading a kernel fails an assertion of the accessors exactly when there is nothing to load. -/
theorem peHandleImage_assertionFailed_iff (build : Build) (services : Services) (memory : Memory)
    (rewound : RewoundBuffer image) :
    (peHandleImage build services image memory).outcome = .assertionFailed .bufferAccessor ↔
      build.ndebug = false ∧ image.length = 0 := by
  have continues (returns : ∃ peOffset reads, peHeader build image memory.file =
      (.ok peOffset, reads)) (length : UInt64) (known : bufferLen build image = .ok length) :
      (peHandleImage build services image memory).outcome ≠ .assertionFailed .bufferAccessor := by
    rw [peHandleImage, if_neg (by simpa using rewound.nonnull), known]
    dsimp only
    split_ifs
    · simp
    · split
      · simp
      · next failed =>
        exact absurd failed (readHeaders_ne_assertionFailed returns)
      · apply loadImage_ne_bufferAccessor
  by_cases empty : image.length = 0
  · have nothing : ¬ image.pos < image.length := by simp [empty]
    cases asserts : build.ndebug with
    | false =>
      rw [peHandleImage, if_neg (by simpa using rewound.nonnull),
        bufferLen_of_not_lt asserts fun both => nothing both.2]
      simp [empty]
    | true =>
      refine iff_of_false ?_ (by simp)
      exact continues (peHeader_of_ndebug asserts _ _) _ (bufferLen_of_ndebug asserts _)
  · have more : image.pos < image.length := by
      rw [rewound.start]
      exact UInt64.pos_iff_ne_zero.mpr empty
    refine iff_of_false ?_ fun both => empty both.2
    exact continues (peHeader_of_lt build rewound.nonnull (UInt64.lt_of_lt_of_le more rewound.fits)
      more _) _ (bufferLen_of_lt build rewound.nonnull more)

end HandleImage

end ZLoader
