import ZLoader.Model.Main
import ZLoader.Soundness.KernelBuffers

/-! # Failed decompressions

The code behind the label `end` releases the output buffer through the function stored in it. It is
also reached before there is a buffer, where no function is stored; and `decompress_zstd` has returns
of its own that leave fields of the buffer as they are.
-/

namespace ZLoader

/-- The addresses taken from the heap, and those given back. -/
def allocations (trace : List CodecEvent) : List UInt64 :=
  trace.filterMap fun event => match event with
    | .malloc _ address => some address
    | _ => none

def releases (trace : List CodecEvent) : List UInt64 :=
  trace.filterMap fun event => match event with
    | .free address => some address
    | _ => none

@[simp] theorem allocations_append (first second : List CodecEvent) :
    allocations (first ++ second) = allocations first ++ allocations second :=
  List.filterMap_append

@[simp] theorem releases_append (first second : List CodecEvent) :
    releases (first ++ second) = releases first ++ releases second :=
  List.filterMap_append

/-- `free_buffer`: what it gives back. -/
def freeBuffer (buffer : SimpleBuffer) : List CodecEvent :=
  if buffer.buffer != 0 then (buffer.free.map (releaseEvents buffer)).getD [] else []

/-- The decompression does not succeed: it returns an error or calls a release function that was
never set. -/
def Fails (result : DecompressResult) : Prop :=
  result.outcome = .nullCall ∨ ∃ status, result.outcome = .error status

instance (result : DecompressResult) : Decidable (Fails result) :=
  decidable_of_iff ((match result.outcome with
      | .nullCall => true
      | .error _ => true
      | _ => false) = true) (by
    rw [Fails]
    cases result.outcome <;> simp)

/-- A failure returns an error, has given back each buffer it had taken once, and leaves an output
that describes no data and with which nothing is given back later. -/
structure FailsCleanly (result : DecompressResult) : Prop where
  status : ∃ status, result.outcome = .error status ∧ efiError status = true
  released : (releases result.trace).Perm (allocations result.trace)
  settled : freeBuffer result.output = []
  empty : result.output.buffer = 0 ∧ result.output.allocated = 0 ∧ result.output.length = 0

/-- The LZ4 failures that are clean: there is no context, or the decoder reports an error before it
has produced anything. -/
def Lz4FailsEmpty {σ : Type} (codec : Lz4Codec σ) (malloc : UInt64 → UInt64) (data : ByteStore)
    (turns : ℕ) (input : SimpleBuffer) : Prop :=
  let info := codec.getFrameInfo (fun index => data (input.pos.toNat + index)) input.length
  codec.isError codec.createDecompressionContext = true ∨
    codec.isError info.result = false ∧ info.contentSize ≠ 0 ∧ malloc info.contentSize ≠ 0 ∧
      codec.decoder.failsBeforeOutput codec.isError turns info.state
        (fun index => data (info.consumed.toNat + index)) (input.length - info.consumed)
        info.contentSize = true

/-- The ZSTD failures that are clean: no content size is known, or it is zero and not even that can
be allocated. -/
def ZstdFailsEmpty {σ : Type} (codec : ZstdCodec σ) (malloc : UInt64 → UInt64) (data : ByteStore)
    (input : SimpleBuffer) : Prop :=
  let size := codec.getFrameContentSize (fun index => data (input.pos.toNat + index))
    (input.length - input.pos)
  size = zstdContentSizeError ∨ size = zstdContentSizeUnknown ∨ size = 0 ∧ malloc 0 = 0

theorem not_failsCleanly_of_nullCall {result : DecompressResult}
    (called : result.outcome = .nullCall) : ¬ FailsCleanly result := by
  intro clean
  obtain ⟨status, failed, _⟩ := clean.status
  cases called.symm.trans failed

section Lz4

variable {σ : Type} {build : Build} {codec : Lz4Codec σ} {malloc : UInt64 → UInt64}
  {data : ByteStore}

/-- A cursor that is moved by what fits is at the start if it was there and has not moved. -/
theorem cursor_eq_zero_iff {pos length amount : UInt64} (inside : pos ≤ length)
    (fits : amount ≤ length - pos) : pos + amount = 0 ↔ pos = 0 ∧ amount = 0 := by
  obtain ⟨moved, -, -⟩ := cursor_advance inside fits
  rw [← UInt64.toNat_inj, ← UInt64.toNat_inj, ← UInt64.toNat_inj, moved]
  exact Nat.add_eq_zero_iff

/-- What a failed loop leaves: the buffer as it was, on the heap nothing new, and a length that is
zero exactly when the decoder has failed before it produced anything. -/
structure LoopFailed (status : EfiStatus) (output : SimpleBuffer) (trace : List CodecEvent)
    (unproductive : Prop) (result : DecompressResult) : Prop where
  status : status = efiUnsupported
  allocated : result.output.allocated = output.allocated
  buffer : result.output.buffer = output.buffer
  free : result.output.free = output.free
  allocations : allocations result.trace = allocations trace
  releases : releases result.trace = releases trace
  length : result.output.length = 0 ↔ output.pos = 0 ∧ unproductive

theorem decompressLz4Loop_failed {turns : ℕ} {state : σ} {input output : SimpleBuffer}
    {trace : List CodecEvent} {status : EfiStatus} (inside : input.pos ≤ input.length)
    (filled : output.length = output.pos) (room : output.pos ≤ output.allocated)
    (failed : (decompressLz4Loop build codec data turns state input output trace).outcome =
      .error status) :
    LoopFailed status output trace
      (codec.decoder.failsBeforeOutput codec.isError turns state
        (fun index => data (input.pos.toNat + index)) (input.length - input.pos)
        (output.allocated - output.pos) = true)
      (decompressLz4Loop build codec data turns state input output trace) := by
  induction turns generalizing state input output trace with
  | zero =>
    rw [decompressLz4Loop] at failed
    dsimp only at failed
    split_ifs at failed
  | succ turns ih =>
    rw [decompressLz4Loop] at failed ⊢
    split_ifs at failed ⊢ with more
    have left := cursor_before_end more
    split at failed
    · next inEnd _ _ known cursor source =>
      obtain rfl := bufferLen_ok known
      dsimp only at failed ⊢
      split_ifs at failed ⊢ with error
      · refine ⟨by cases failed; rfl, rfl, rfl, rfl, ?_, ?_, ?_⟩
        · exact filterMap_decode (fun _ => rfl) trace _
        · exact filterMap_decode (fun _ => rfl) trace _
        · simp [StreamDecoder.failsBeforeOutput, filled, left, error]
      · obtain ⟨moved, stays, remaining, fits, space⟩ := codec.decoder.step_cursors state
          (fun index => data (input.pos.toNat + index)) inside room
        have rest := ih stays rfl fits failed
        have length := rest.length
        dsimp only at length
        rw [remaining, space, moved] at length
        simp only [Nat.add_assoc] at length
        refine ⟨rest.status, rest.allocated, rest.buffer, rest.free, ?_, ?_, ?_⟩
        · exact rest.allocations.trans (filterMap_decode (fun _ => rfl) trace _)
        · exact rest.releases.trans (filterMap_decode (fun _ => rfl) trace _)
        · rw [length, StreamDecoder.failsBeforeOutput]
          dsimp only
          rw [cursor_eq_zero_iff room (codec.decoder.produced_le ..)]
          simp [left, error, and_assoc]
    · cases failed

theorem decompressLz4Loop_ne_nullCall (turns : ℕ) (state : σ) (input output : SimpleBuffer)
    (trace : List CodecEvent) :
    (decompressLz4Loop build codec data turns state input output trace).outcome ≠ .nullCall := by
  induction turns generalizing state input output trace with
  | zero =>
    rw [decompressLz4Loop]
    dsimp only
    split_ifs <;> simp
  | succ turns ih =>
    rw [decompressLz4Loop]
    split_ifs with more
    · split
      · dsimp only
        split_ifs
        · simp
        · exact ih _ _ _ _
      · simp
    · simp

/-- The common end, where no release function has been stored. -/
theorem not_failsCleanly_finish {status : EfiStatus} {input output : SimpleBuffer}
    {trace : List CodecEvent} (unset : output.free = none) :
    ¬ FailsCleanly (DecompressResult.mk (.error status) input output trace).finish :=
  not_failsCleanly_of_nullCall (by simp [DecompressResult.finish, unset])

/-- The common end with a buffer: it is given back, and its length stays. -/
theorem failsCleanly_finish_iff {status : EfiStatus} {result : DecompressResult} {address : UInt64}
    (failed : result.outcome = .error status) (error : efiError status = true)
    (stored : result.output.free = some .freeSimpleBuffer) (owned : result.output.buffer = address)
    (taken : allocations result.trace = [address]) (kept : releases result.trace = []) :
    FailsCleanly result.finish ↔ result.output.allocated ≠ 0 ∧ result.output.length = 0 := by
  have finished : result.finish = { result with
      output := { result.output with allocated := 0, buffer := 0 }
      trace := result.trace ++ releaseEvents result.output .freeSimpleBuffer } := by
    rw [DecompressResult.finish, failed]
    dsimp only
    rw [stored]
  rw [finished]
  constructor
  · intro clean
    refine ⟨fun none => ?_, clean.empty.2.2⟩
    have released := clean.released
    rw [releases_append, allocations_append, taken, kept, releaseEvents,
      if_neg (by simp [none])] at released
    exact absurd released.length_eq Nat.zero_ne_one
  · rintro ⟨some, length⟩
    refine ⟨⟨status, failed, error⟩, ?_, rfl, rfl, rfl, length⟩
    rw [releases_append, allocations_append, taken, kept, releaseEvents, if_pos (by simp [some]),
      owned]
    exact .refl _

/-- The common end fails where the code in front of it has. -/
theorem fails_finish {result : DecompressResult} (fails : Fails result.finish)
    (uncalled : result.outcome ≠ .nullCall) : ∃ status, result.outcome = .error status := by
  rw [DecompressResult.finish] at fails
  cases known : result.outcome with
  | error status => exact ⟨status, rfl⟩
  | nullCall => exact absurd known uncalled
  | ok => simp [Fails, known] at fails
  | assertionFailed => simp [Fails, known] at fails
  | running => simp [Fails, known] at fails

/-- A failure of `decompress_lz4` is clean exactly when there was no context, or a buffer and no
output. -/
theorem decompressLz4_failsCleanly_iff {turns : ℕ} {input : SimpleBuffer}
    (fails : Fails (decompressLz4 build codec malloc data turns input zeroBuffer)) :
    FailsCleanly (decompressLz4 build codec malloc data turns input zeroBuffer) ↔
      Lz4FailsEmpty codec malloc data turns input := by
  rw [decompressLz4] at fails ⊢
  rw [Lz4FailsEmpty]
  split_ifs at fails ⊢ with context
  · exact iff_of_true ⟨⟨_, rfl, rfl⟩, .refl _, rfl, rfl, rfl, rfl⟩ (.inl context)
  · rw [or_iff_right context]
    split at fails
    · dsimp only at fails ⊢
      split_ifs at fails ⊢ with header size
      · exact iff_of_false (not_failsCleanly_finish rfl) fun empty => by simp [header] at empty
      · exact iff_of_false (not_failsCleanly_finish rfl) fun empty =>
          empty.2.1 (by simpa using size)
      · rw [allocateSimpleBuffer_eq] at fails ⊢
        split_ifs at fails ⊢ with failed
        · exact iff_of_false (not_failsCleanly_finish rfl) fun empty => empty.2.2.1 failed
        · dsimp only at fails ⊢
          obtain ⟨status, error⟩ := fails_finish fails (decompressLz4Loop_ne_nullCall _ _ _ _ _)
          have loop := decompressLz4Loop_failed (codec.consumed_le _ _) rfl UInt64.zero_le error
          have length := loop.length
          dsimp only at length
          rw [UInt64.sub_zero] at length
          rw [failsCleanly_finish_iff error (by rw [loop.status]; rfl) loop.free loop.buffer
            loop.allocations loop.releases, loop.allocated, length]
          simp only [beq_iff_eq] at size
          simp [header, size, failed]
    · rcases fails with called | ⟨status, failed⟩
      · cases called
      · cases failed

end Lz4

section Zstd

variable {σ : Type} {build : Build} {codec : ZstdCodec σ} {malloc : UInt64 → UInt64}
  {data : ByteStore}

theorem decompressZstdLoop_ne_nullCall (turns : ℕ) (state : σ) (input output : SimpleBuffer)
    (trace : List CodecEvent) :
    (decompressZstdLoop codec data turns state input output trace).outcome ≠ .nullCall := by
  induction turns generalizing state input output trace with
  | zero =>
    rw [decompressZstdLoop]
    dsimp only
    split_ifs <;> simp
  | succ turns ih =>
    rw [decompressZstdLoop]
    split_ifs with more
    · dsimp only
      split_ifs
      · simp
      · exact ih _ _ _ _
    · simp

theorem decompressZstdLoop_failed {turns : ℕ} {state : σ} {input output : SimpleBuffer}
    {trace : List CodecEvent} {status : EfiStatus}
    (failed : (decompressZstdLoop codec data turns state input output trace).outcome =
      .error status) : status = efiCompromisedData := by
  induction turns generalizing state input output trace with
  | zero =>
    rw [decompressZstdLoop] at failed
    dsimp only at failed
    split_ifs at failed
  | succ turns ih =>
    rw [decompressZstdLoop] at failed
    split_ifs at failed with more
    dsimp only at failed
    split_ifs at failed
    · cases failed
      rfl
    · exact ih failed

/-- A failure of `decompress_zstd` is clean exactly when the size of the output was not known, or
was zero and not even that could be allocated. -/
theorem decompressZstd_failsCleanly_iff {turns : ℕ} {input : SimpleBuffer}
    (fails : Fails (decompressZstd build codec malloc data turns input zeroBuffer)) :
    FailsCleanly (decompressZstd build codec malloc data turns input zeroBuffer) ↔
      ZstdFailsEmpty codec malloc data input := by
  rw [decompressZstd] at fails ⊢
  rw [ZstdFailsEmpty]
  split at fails
  · next length _ known =>
    obtain rfl := bufferLen_ok known
    dsimp only at fails ⊢
    generalize codec.getFrameContentSize (fun index => data (input.pos.toNat + index))
      (input.length - input.pos) = size at fails ⊢
    split_ifs at fails ⊢ with unsized
    · refine iff_of_true ⟨⟨_, rfl, rfl⟩, .refl _, rfl, rfl, rfl, rfl⟩ ?_
      simp only [Bool.or_eq_true, beq_iff_eq] at unsized
      exact or_assoc.mp (.inl unsized)
    · simp only [Bool.or_eq_true, beq_iff_eq] at unsized
      rw [← or_assoc, or_iff_right unsized]
      rw [allocateSimpleBuffer_eq] at fails ⊢
      split_ifs at fails ⊢ with failed
      · constructor
        · intro clean
          have zero : size = 0 := clean.empty.2.1
          exact ⟨zero, zero ▸ failed⟩
        · rintro ⟨zero, -⟩
          exact ⟨⟨_, rfl, rfl⟩, .refl _, rfl, rfl, zero, rfl⟩
      · refine iff_of_false (fun clean => ?_) fun empty => failed (empty.1 ▸ empty.2)
        dsimp only at fails clean
        cases created : codec.createDStream with
        | none =>
          rw [created] at clean
          exact failed clean.empty.1
        | some state =>
          rw [created] at fails clean
          obtain ⟨pos, output⟩ := decompressZstdLoop_output codec data turns state input
            ⟨malloc size, size, 0, size, some .freeSimpleBuffer⟩ [.malloc size (malloc size)]
          obtain ⟨status, error⟩ := fails_finish fails (decompressZstdLoop_ne_nullCall _ _ _ _ _)
          rw [failsCleanly_finish_iff error (by rw [decompressZstdLoop_failed error]; rfl)
            (congrArg SimpleBuffer.free output) (congrArg SimpleBuffer.buffer output)
            (decompressZstdLoop_silent (fun _ => rfl) ..)
            (decompressZstdLoop_silent (fun _ => rfl) ..), output] at clean
          exact clean.1 clean.2
  · rcases fails with called | ⟨status, failed⟩
    · cases called
    · cases failed

end Zstd

/-- Which failures of the two decompressions into a zero-initialised buffer are clean. -/
theorem failsCleanly_iff {σ τ : Type} (build : Build) (lz4 : Lz4Codec σ) (zstd : ZstdCodec τ)
    (malloc : UInt64 → UInt64) (data : ByteStore) (turns : ℕ) (input : SimpleBuffer) :
    (Fails (decompressLz4 build lz4 malloc data turns input zeroBuffer) →
      (FailsCleanly (decompressLz4 build lz4 malloc data turns input zeroBuffer) ↔
        Lz4FailsEmpty lz4 malloc data turns input)) ∧
    (Fails (decompressZstd build zstd malloc data turns input zeroBuffer) →
      (FailsCleanly (decompressZstd build zstd malloc data turns input zeroBuffer) ↔
        ZstdFailsEmpty zstd malloc data input)) :=
  ⟨decompressLz4_failsCleanly_iff, decompressZstd_failsCleanly_iff⟩

/-- The LZ4 library, unable to create a context. -/
def contextlessLz4 : Lz4Codec Unit := { smallLz4 true with createDecompressionContext := 0 - 1 }

/-- The LZ4 library on a frame whose header gives no content size. -/
def unsizedLz4 : Lz4Codec Unit :=
  { smallLz4 true with
    getFrameInfo := fun _ size => ⟨(), if size < 15 then size else 15, 0, 4⟩
    consumed_le := (smallLz4 true).consumed_le }

theorem failsCleanly_contextless :
    FailsCleanly
        (decompressLz4 defaultBuild contextlessLz4 smallMalloc smallStream 1 smallInput zeroBuffer) ∧
      FailsCleanly
        (decompressZstd defaultBuild smallZstd smallMalloc smallStream 1 smallInput zeroBuffer) :=
  have clean := failsCleanly_iff defaultBuild contextlessLz4 smallZstd smallMalloc smallStream 1
    smallInput
  ⟨(clean.1 (by decide)).mpr (.inl rfl), (clean.2 (by decide)).mpr (.inr (.inl rfl))⟩

/-- Without a content size the release function is called before it is set. -/
theorem not_failsCleanly_unsized :
    Fails (decompressLz4 defaultBuild unsizedLz4 smallMalloc smallStream 1 smallInput zeroBuffer) ∧
      ¬ FailsCleanly
        (decompressLz4 defaultBuild unsizedLz4 smallMalloc smallStream 1 smallInput zeroBuffer) :=
  ⟨by decide, not_failsCleanly_of_nullCall (by decide)⟩

end ZLoader
