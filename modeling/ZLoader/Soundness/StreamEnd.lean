import ZLoader.Model.Decompress

/-! # Success of the decompression against the end of the stream

Both loops run until the input is used up and print a message when the decoder is still hungry, but
report success either way. What a success is worth is what the last reply says: the stream is
complete exactly when it returned zero. The ZSTD branch also reports the announced content size as
the length of the output, whatever has been produced.
-/

namespace ZLoader

/-- The streaming calls of a trace, in order. -/
def decoderCalls (trace : List CodecEvent) : List DecoderCall :=
  trace.filterMap fun event => match event with
    | .decode call => some call
    | _ => none

/-- The stream was decoded to its end and the output buffer describes the bytes produced. -/
structure DecodedToEnd (result : DecompressResult) : Prop where
  ended : ∃ call, (decoderCalls result.trace).getLast? = some call ∧ call.result = 0
  cursor : result.output.pos = 0
  length : result.output.length.toNat =
    ((decoderCalls result.trace).map fun call => call.produced.toNat).sum
  allocated : result.output.length ≤ result.output.allocated

/-- A cursor that is not before the end is at the end. -/
theorem cursor_at_end {pos length : UInt64} (inside : pos ≤ length) (finished : ¬ pos < length) :
    length - pos = 0 := by
  rw [UInt64.le_antisymm inside (UInt64.not_lt.mp finished), UInt64.sub_self]

/-- Before the end something is left. -/
theorem cursor_before_end {pos length : UInt64} (more : pos < length) : length - pos ≠ 0 := by
  intro empty
  have zero := congrArg UInt64.toNat empty
  have bound := length.toNat_lt
  rw [UInt64.lt_iff_toNat_lt] at more
  rw [UInt64.toNat_sub] at zero
  change _ = 0 at zero
  omega

/-- Moving a cursor by what fits behind it. -/
theorem cursor_advance {pos length amount : UInt64} (inside : pos ≤ length)
    (fits : amount ≤ length - pos) :
    (pos + amount).toNat = pos.toNat + amount.toNat ∧ pos + amount ≤ length ∧
      length - (pos + amount) = length - pos - amount := by
  have bound := length.toNat_lt
  have same : length - (pos + amount) = length - pos - amount := by grind
  simp only [UInt64.le_iff_toNat_le, UInt64.toNat_sub, UInt64.toNat_add] at *
  exact ⟨by omega, by omega, same⟩

/-- The two cursors of a loop after a call: they stay in their buffers, and what is left there is
what the call has left. -/
structure CursorsMoved (inPos inEnd outPos outEnd consumed produced : UInt64) : Prop where
  moved : (inPos + consumed).toNat = inPos.toNat + consumed.toNat
  stays : inPos + consumed ≤ inEnd
  remaining : inEnd - (inPos + consumed) = inEnd - inPos - consumed
  fits : outPos + produced ≤ outEnd
  space : outEnd - (outPos + produced) = outEnd - outPos - produced

/-- A call of the decoder on the rest of both buffers moves them like this. -/
theorem StreamDecoder.step_cursors {σ : Type} (decoder : StreamDecoder σ) (state : σ)
    (data : ℕ → UInt8) {inPos inEnd outPos outEnd : UInt64} (inside : inPos ≤ inEnd)
    (room : outPos ≤ outEnd) :
    let reply := decoder.step state data (inEnd - inPos) (outEnd - outPos)
    CursorsMoved inPos inEnd outPos outEnd reply.consumed reply.produced := by
  obtain ⟨moved, stays, remaining⟩ := cursor_advance inside
    (decoder.consumed_le state data (inEnd - inPos) (outEnd - outPos))
  obtain ⟨-, fits, space⟩ := cursor_advance room
    (decoder.produced_le state data (inEnd - inPos) (outEnd - outPos))
  exact ⟨moved, stays, remaining, fits, space⟩

theorem allocateSimpleBuffer_true {malloc : UInt64 → UInt64} {length : UInt64}
    {buffer filled : SimpleBuffer} {trace : List CodecEvent}
    (allocated : allocateSimpleBuffer malloc length buffer = (true, filled, trace)) :
    filled = ⟨malloc length, 0, 0, length, some .freeSimpleBuffer⟩ ∧
      trace = [.malloc length (malloc length)] := by
  unfold allocateSimpleBuffer at allocated
  split_ifs at allocated
  · cases (Prod.mk.inj allocated).1
  · obtain ⟨_, rest⟩ := Prod.mk.inj allocated
    obtain ⟨same, logged⟩ := Prod.mk.inj rest
    exact ⟨same.symm, logged.symm⟩

/-- The label `end` keeps a success and resets the cursor of the output. -/
theorem finish_of_ok {result : DecompressResult} (success : result.outcome = .ok) :
    result.finish = { result with output.pos := 0 } := by
  unfold DecompressResult.finish
  rw [success]

theorem finish_ok_iff {result : DecompressResult} :
    result.finish.outcome = .ok ↔ result.outcome = .ok := by
  unfold DecompressResult.finish
  cases known : result.outcome with
  | error status => cases free : result.output.free <;> simp
  | _ => simp [known]

theorem finish_error {status : EfiStatus} {input output : SimpleBuffer} {trace : List CodecEvent} :
    (DecompressResult.mk (.error status) input output trace).finish.outcome ≠ .ok := by
  rw [ne_eq, finish_ok_iff]
  simp

theorem decoderCalls_append (trace : List CodecEvent) (calls : List DecoderCall) :
    decoderCalls (trace ++ calls.map .decode) = decoderCalls trace ++ calls := by
  unfold decoderCalls
  rw [List.filterMap_append, List.filterMap_map]
  congr 1
  exact List.filterMap_some

/-- What leaves out the calls of the decoder does not see another one. -/
theorem filterMap_decode {α : Type} {project : CodecEvent → Option α}
    (silent : ∀ call, project (.decode call) = none) (trace : List CodecEvent)
    (call : DecoderCall) :
    (trace ++ [CodecEvent.decode call]).filterMap project = trace.filterMap project := by
  rw [List.filterMap_append, List.filterMap_cons_none (silent call), List.filterMap_nil,
    List.append_nil]

/-- With the calls of a feed in its trace and the cursor reset, a result describes its output
exactly when the feed had input, ended with a complete frame and produced as much as is reported. -/
theorem decodedToEnd_iff_of_fedBy {σ : Type} {decoder : StreamDecoder σ} {state final : σ}
    {source : ℕ → UInt8} {size capacity produced : UInt64} {calls : List DecoderCall}
    {result : DecompressResult}
    (fedBy : decoder.FedBy state source size capacity calls final produced)
    (logged : decoderCalls result.trace = calls) (cursor : result.output.pos = 0)
    (bounded : result.output.length ≤ result.output.allocated) :
    DecodedToEnd result ↔
      size ≠ 0 ∧ decoder.complete final = true ∧ result.output.length = produced := by
  have length : result.output.length.toNat =
      ((decoderCalls result.trace).map fun call => call.produced.toNat).sum ↔
      result.output.length = produced := by
    rw [logged, fedBy.total, UInt64.toNat_inj]
  rw [← and_assoc, ← fedBy.ended_iff, ← logged, ← length]
  exact ⟨fun ⟨ended, _, described, _⟩ => ⟨ended, described⟩,
    fun ⟨ended, described⟩ => ⟨ended, cursor, described, bounded⟩⟩

section Lz4

variable {σ : Type} {build : Build} {codec : Lz4Codec σ} {malloc : UInt64 → UInt64}
  {data : ByteStore}

/-- The loop logs calls of the decoder only. -/
theorem decompressLz4Loop_silent {α : Type} {project : CodecEvent → Option α}
    (silent : ∀ call, project (.decode call) = none) (turns : ℕ) (state : σ)
    (input output : SimpleBuffer) (trace : List CodecEvent) :
    (decompressLz4Loop build codec data turns state input output trace).trace.filterMap project =
      trace.filterMap project := by
  induction turns generalizing state input output trace with
  | zero => rfl
  | succ turns ih =>
    rw [decompressLz4Loop]
    split_ifs with more
    · split
      · dsimp only
        split_ifs
        · exact filterMap_decode silent trace _
        · rw [ih]
          exact filterMap_decode silent trace _
      · rfl
    · rfl

/-- Behind its frame header the input has bytes left, and feeding them to the decoder ends with a
complete frame. -/
def Lz4StreamComplete (codec : Lz4Codec σ) (data : ByteStore) (input : SimpleBuffer) : Prop :=
  let info := codec.getFrameInfo (fun index => data (input.pos.toNat + index)) input.length
  info.consumed < input.length ∧
    ∃ turns final produced,
      codec.decoder.feed turns info.state (fun index => data (info.consumed.toNat + index))
        (input.length - info.consumed) info.contentSize = some (final, produced) ∧
      codec.decoder.complete final = true

/-- A property of the state and the two cursors that every call of the loop keeps, as long as there
is input and no call reports an error. -/
def Lz4LoopKeeps (codec : Lz4Codec σ) (data : ByteStore) (length room : UInt64)
    (holds : σ → UInt64 → UInt64 → Prop) : Prop :=
  ∀ state inPos outPos, inPos < length → outPos ≤ room → holds state inPos outPos →
    let reply := codec.decoder.step state (fun index => data (inPos.toNat + index)) (length - inPos)
      (room - outPos)
    codec.isError reply.result = false →
      holds reply.state (inPos + reply.consumed) (outPos + reply.produced)

/-- A loop that ends well has fed the rest of the input to the decoder, and what every call keeps
holds at the end of the input. -/
theorem decompressLz4Loop_keeps {holds : σ → UInt64 → UInt64 → Prop} {turns : ℕ} {state : σ}
    {input output : SimpleBuffer} {trace : List CodecEvent}
    (success : (decompressLz4Loop build codec data turns state input output trace).outcome = .ok)
    (inside : input.pos ≤ input.length) (filled : output.length = output.pos)
    (room : output.pos ≤ output.allocated)
    (keeps : Lz4LoopKeeps codec data input.length output.allocated holds)
    (starts : holds state input.pos output.pos) :
    let result := decompressLz4Loop build codec data turns state input output trace
    ∃ calls final produced,
      codec.decoder.FedBy state (fun index => data (input.pos.toNat + index))
        (input.length - input.pos) (output.allocated - output.pos) calls final produced ∧
      result.output.length = output.pos + produced ∧
      result.output.allocated = output.allocated ∧ result.trace = trace ++ calls.map .decode ∧
      holds final input.length (output.pos + produced) := by
  induction turns generalizing state input output trace with
  | zero =>
    simp only [decompressLz4Loop] at success ⊢
    split_ifs at success with more
    rw [UInt64.le_antisymm inside (UInt64.not_lt.mp more)] at starts
    exact ⟨[], state, 0, .nil _ _ _ _ (cursor_at_end inside more), by simp [filled, starts]⟩
  | succ turns ih =>
    simp only [decompressLz4Loop] at success ⊢
    split_ifs at success ⊢ with more
    · split at success
      · next inEnd _ _ known cursor source =>
        split_ifs at success ⊢ with failed
        obtain rfl := bufferLen_ok known
        obtain ⟨moved, stays, remaining, fits, space⟩ := codec.decoder.step_cursors state
          (fun index => data (input.pos.toNat + index)) inside room
        obtain ⟨calls, final, produced, fed, length, allocated, logged, ends⟩ := ih success stays
          rfl fits keeps (keeps state input.pos output.pos more room starts (by simpa using failed))
        dsimp only at fed ends
        rw [remaining, space, moved] at fed
        rw [UInt64.add_assoc] at ends
        simp only [Nat.add_assoc] at fed
        refine ⟨_, final, _, .cons (cursor_before_end more) fed, ?_, allocated, ?_, ends⟩
        · rw [length, UInt64.add_assoc]
        · rw [logged, List.append_assoc]
          rfl
      · contradiction
    · rw [UInt64.le_antisymm inside (UInt64.not_lt.mp more)] at starts
      exact ⟨[], state, 0, .nil _ _ _ _ (cursor_at_end inside more), by simp [filled, starts]⟩

theorem decompressLz4Loop_fed {turns : ℕ} {state : σ} {input output : SimpleBuffer}
    {trace : List CodecEvent} (inside : input.pos ≤ input.length)
    (filled : output.length = output.pos) (room : output.pos ≤ output.allocated)
    (success : (decompressLz4Loop build codec data turns state input output trace).outcome = .ok) :
    let result := decompressLz4Loop build codec data turns state input output trace
    ∃ calls final produced,
      codec.decoder.FedBy state (fun index => data (input.pos.toNat + index))
        (input.length - input.pos) (output.allocated - output.pos) calls final produced ∧
      result.output.length = output.pos + produced ∧
      result.output.allocated = output.allocated ∧ result.trace = trace ++ calls.map .decode := by
  have always : Lz4LoopKeeps codec data input.length output.allocated fun _ _ _ => True :=
    fun _ _ _ _ _ _ _ => trivial
  obtain ⟨calls, final, produced, fed, length, allocated, logged, -⟩ :=
    decompressLz4Loop_keeps success inside filled room always trivial
  exact ⟨calls, final, produced, fed, length, allocated, logged⟩

/-- The loop of `decompress_lz4` behind the header of the frame. -/
def decompressLz4Calls (build : Build) (codec : Lz4Codec σ) (malloc : UInt64 → UInt64)
    (data : ByteStore) (turns : ℕ) (input : SimpleBuffer) : DecompressResult :=
  let info := codec.getFrameInfo (fun index => data (input.pos.toNat + index)) input.length
  decompressLz4Loop build codec data turns info.state { input with pos := info.consumed }
    ⟨malloc info.contentSize, 0, 0, info.contentSize, some .freeSimpleBuffer⟩
    [.malloc info.contentSize (malloc info.contentSize)]

/-- A success is one of the header and one of the loop. -/
theorem decompressLz4_ok {turns : ℕ} {input output : SimpleBuffer}
    (success : (decompressLz4 build codec malloc data turns input output).outcome = .ok) :
    codec.isError (codec.getFrameInfo (fun index => data (input.pos.toNat + index))
        input.length).result = false ∧
      malloc (codec.getFrameInfo (fun index => data (input.pos.toNat + index))
        input.length).contentSize ≠ 0 ∧
      (decompressLz4Calls build codec malloc data turns input).outcome = .ok ∧
      decompressLz4 build codec malloc data turns input output =
        { decompressLz4Calls build codec malloc data turns input with output.pos := 0 } := by
  unfold decompressLz4 at success ⊢
  split_ifs at success ⊢ with failed
  split at success
  · dsimp only at success ⊢
    split_ifs at success ⊢ with malformed unsized
    · exact absurd success finish_error
    · exact absurd success finish_error
    · rw [allocateSimpleBuffer_eq] at success ⊢
      split_ifs at success ⊢ with unallocated
      · exact absurd success finish_error
      · rw [finish_ok_iff] at success
        exact ⟨by simpa using malformed, unallocated, success, finish_of_ok success⟩
  · contradiction

/-- A success of `decompress_lz4` has decoded the stream to its end exactly when the stream is
complete. -/
theorem decompressLz4_decodedToEnd_iff {turns : ℕ} {input output : SimpleBuffer}
    (success : (decompressLz4 build codec malloc data turns input output).outcome = .ok) :
    DecodedToEnd (decompressLz4 build codec malloc data turns input output) ↔
      Lz4StreamComplete codec data input := by
  obtain ⟨-, -, loops, same⟩ := decompressLz4_ok success
  obtain ⟨calls, final, produced, fedBy, length, space, logged⟩ :=
    decompressLz4Loop_fed (codec.consumed_le _ _) rfl UInt64.zero_le loops
  rw [same]
  dsimp only at fedBy length space
  rw [UInt64.zero_add] at length
  rw [UInt64.sub_zero] at fedBy
  obtain ⟨calledTurns, fed⟩ := fedBy.fed
  rw [decodedToEnd_iff_of_fedBy fedBy (by
      rw [decompressLz4Calls, logged, decoderCalls_append]; rfl) rfl (by
      rw [decompressLz4Calls, length, space]; exact codec.decoder.feed_produced_le fed)]
  unfold Lz4StreamComplete
  dsimp only
  constructor
  · rintro ⟨nonempty, complete, _⟩
    refine ⟨?_, calledTurns, final, produced, fed, complete⟩
    by_contra finished
    exact nonempty (cursor_at_end (codec.consumed_le _ _) finished)
  · rintro ⟨more, otherTurns, other, _, otherFed, complete⟩
    obtain ⟨rfl, rfl⟩ := Prod.mk.inj (codec.decoder.feed_unique fed otherFed)
    exact ⟨cursor_before_end more, complete, length⟩

end Lz4

section Zstd

variable {σ : Type} {build : Build} {codec : ZstdCodec σ} {malloc : UInt64 → UInt64}
  {data : ByteStore}

/-- There is input at the cursor, and feeding it to the decoder ends with a complete frame that has
the announced size. -/
def ZstdStreamComplete (codec : ZstdCodec σ) (data : ByteStore) (input : SimpleBuffer) : Prop :=
  let source := fun index => data (input.pos.toNat + index)
  let size := codec.getFrameContentSize source (input.length - input.pos)
  input.pos < input.length ∧
    ∃ state turns final, codec.createDStream = some state ∧
      codec.decoder.feed turns state source (input.length - input.pos) size = some (final, size) ∧
      codec.decoder.complete final = true

/-- The loop logs calls of the decoder only. -/
theorem decompressZstdLoop_silent {α : Type} {project : CodecEvent → Option α}
    (silent : ∀ call, project (.decode call) = none) (turns : ℕ) (state : σ)
    (input output : SimpleBuffer) (trace : List CodecEvent) :
    (decompressZstdLoop codec data turns state input output trace).trace.filterMap project =
      trace.filterMap project := by
  induction turns generalizing state input output trace with
  | zero => rfl
  | succ turns ih =>
    rw [decompressZstdLoop]
    split_ifs with more
    · dsimp only
      split_ifs
      · exact filterMap_decode silent trace _
      · rw [ih]
        exact filterMap_decode silent trace _
    · rfl

/-- A loop that ends well has fed the rest of the input to the decoder. -/
theorem decompressZstdLoop_fed {turns : ℕ} {state : σ} {input output : SimpleBuffer}
    {trace : List CodecEvent} (inside : input.pos ≤ input.length) (room : output.pos ≤ output.length)
    (success : (decompressZstdLoop codec data turns state input output trace).outcome = .ok) :
    let result := decompressZstdLoop codec data turns state input output trace
    ∃ calls final produced,
      codec.decoder.FedBy state (fun index => data (input.pos.toNat + index))
        (input.length - input.pos) (output.length - output.pos) calls final produced ∧
      result.output.length = output.length ∧ result.output.allocated = output.allocated ∧
      result.trace = trace ++ calls.map .decode := by
  induction turns generalizing state input output trace with
  | zero =>
    simp only [decompressZstdLoop] at success ⊢
    split_ifs at success with more
    exact ⟨[], state, 0, .nil _ _ _ _ (cursor_at_end inside more), by simp⟩
  | succ turns ih =>
    simp only [decompressZstdLoop] at success ⊢
    split_ifs at success ⊢ with more failed
    · obtain ⟨moved, stays, remaining, fits, space⟩ := codec.decoder.step_cursors state
        (fun index => data (input.pos.toNat + index)) inside room
      obtain ⟨calls, final, produced, fed, length, allocated, logged⟩ := ih stays fits success
      dsimp only at fed
      rw [remaining, space, moved] at fed
      simp only [Nat.add_assoc] at fed
      refine ⟨_, final, _, .cons (cursor_before_end more) fed, length, allocated, ?_⟩
      rw [logged, List.append_assoc]
      rfl
    · exact ⟨[], state, 0, .nil _ _ _ _ (cursor_at_end inside more), by simp⟩

/-- Without input the loop calls nothing. -/
theorem decompressZstdLoop_idle {turns : ℕ} {state : σ} {input output : SimpleBuffer}
    {trace : List CodecEvent} (finished : ¬ input.pos < input.length) :
    decompressZstdLoop codec data turns state input output trace = ⟨.ok, input, output, trace⟩ := by
  cases turns <;> simp [decompressZstdLoop, finished]

/-- A success of `decompress_zstd` has decoded the stream to its end exactly when the stream is
complete and has the announced size. -/
theorem decompressZstd_decodedToEnd_iff {turns : ℕ} {input output : SimpleBuffer}
    (success : (decompressZstd build codec malloc data turns input output).outcome = .ok) :
    DecodedToEnd (decompressZstd build codec malloc data turns input output) ↔
      ZstdStreamComplete codec data input := by
  unfold decompressZstd at success ⊢
  split at success
  · next _ _ _ length _ known =>
    obtain rfl := bufferLen_ok known
    dsimp only at success ⊢
    split_ifs at success ⊢ with unsized
    split at success
    · contradiction
    · next buffer trace allocated =>
      obtain ⟨rfl, rfl⟩ := allocateSimpleBuffer_true allocated
      split at success
      · contradiction
      · next state created =>
        rw [finish_ok_iff] at success
        rw [finish_of_ok success]
        by_cases more : input.pos < input.length
        · obtain ⟨calls, final, produced, fedBy, length, space, logged⟩ :=
            decompressZstdLoop_fed (UInt64.le_of_lt more) UInt64.zero_le
              success
          dsimp only at fedBy length space
          rw [UInt64.sub_zero] at fedBy
          obtain ⟨calledTurns, fed⟩ := fedBy.fed
          rw [decodedToEnd_iff_of_fedBy fedBy (by rw [logged, decoderCalls_append]; rfl) rfl (by
            rw [length, space]; exact UInt64.le_refl _)]
          unfold ZstdStreamComplete
          dsimp only
          rw [length]
          constructor
          · rintro ⟨nonempty, complete, rfl⟩
            exact ⟨more, state, calledTurns, final, created, fed, complete⟩
          · rintro ⟨_, other, otherTurns, otherFinal, otherCreated, otherFed, complete⟩
            obtain rfl := Option.some.inj (created.symm.trans otherCreated)
            obtain ⟨rfl, same⟩ := Prod.mk.inj (codec.decoder.feed_unique fed otherFed)
            exact ⟨cursor_before_end more, complete, same.symm⟩
        · refine iff_of_false (fun decoded => ?_) fun complete => more complete.1
          obtain ⟨call, chosen, _⟩ := decoded.ended
          rw [decompressZstdLoop_idle more] at chosen
          cases chosen
  · contradiction

end Zstd

/-- The input is a compressed stream of a kind that the build knows. -/
def isCompressed (build : Build) (data : ByteStore) (input : SimpleBuffer) : Bool :=
  kernelFormat build data input != .other

/-- The compressed stream in the input is complete. -/
def StreamComplete {σ τ : Type} (build : Build) (lz4 : Lz4Codec σ) (zstd : ZstdCodec τ)
    (data : ByteStore) (input : SimpleBuffer) : Prop :=
  match kernelFormat build data input with
  | .lz4 => Lz4StreamComplete lz4 data input
  | .zstd => ZstdStreamComplete zstd data input
  | .other => True

/-- Events before the first call of the decoder do not change what a result describes. -/
theorem decodedToEnd_prepend {events : List CodecEvent} {result : DecompressResult}
    (quiet : decoderCalls events = []) :
    DecodedToEnd (result.prepend events) ↔ DecodedToEnd result := by
  have calls : decoderCalls (result.prepend events).trace = decoderCalls result.trace := by
    change decoderCalls (events ++ result.trace) = _
    unfold decoderCalls at quiet ⊢
    rw [List.filterMap_append, quiet, List.nil_append]
  constructor
  · rintro ⟨ended, cursor, length, allocated⟩
    rw [calls] at ended length
    exact ⟨ended, cursor, length, allocated⟩
  · rintro ⟨ended, cursor, length, allocated⟩
    exact ⟨by rwa [calls], cursor, by rwa [calls], allocated⟩

theorem decoderCalls_magicReads (build : Build) (data : ByteStore) (input : SimpleBuffer) :
    decoderCalls (magicReads build data input) = [] := by
  unfold magicReads
  split_ifs <;> rfl

/-- A successful decompression of a compressed input has decoded the stream to its end, and reports
what was produced, exactly when the stream is complete. -/
theorem decompress_decodedToEnd_iff {σ τ : Type} {build : Build} {lz4 : Lz4Codec σ}
    {zstd : ZstdCodec τ} {malloc : UInt64 → UInt64} {data : ByteStore} {turns : ℕ}
    {input output : SimpleBuffer} (compressed : isCompressed build data input = true)
    (success : (decompress build lz4 zstd malloc data turns input output).outcome = .ok) :
    DecodedToEnd (decompress build lz4 zstd malloc data turns input output) ↔
      StreamComplete build lz4 zstd data input := by
  unfold decompress at success ⊢
  unfold isCompressed at compressed
  unfold StreamComplete
  split_ifs at success ⊢
  split at success
  · rw [decodedToEnd_prepend (decoderCalls_magicReads build data input)]
    cases format : kernelFormat build data input with
    | zstd =>
      rw [format] at success
      exact decompressZstd_decodedToEnd_iff success
    | lz4 =>
      rw [format] at success
      exact decompressLz4_decodedToEnd_iff success
    | other =>
      rw [format] at compressed
      contradiction
  · contradiction

/-! ## A small frame

Eight bytes of content behind a header of fifteen bytes. The decoder takes all input at once; with
the whole frame it fills the output, with a truncated one it asks for more. -/

def smallDecoder (whole : Bool) : StreamDecoder Unit where
  step _ _ size capacity := ⟨(), size, if whole then capacity else 0, if whole then 0 else 4⟩
  complete _ := whole
  consumed_le _ _ size _ := UInt64.le_refl size
  produced_le _ _ _ capacity := by
    cases whole
    · exact UInt64.zero_le
    · exact UInt64.le_refl capacity
  result_eq_zero_iff _ _ _ _ := by cases whole <;> simp

def smallLz4 (whole : Bool) : Lz4Codec Unit where
  createDecompressionContext := 0
  getFrameInfo _ size := ⟨(), if size < 15 then size else 15, 8, 4⟩
  decoder := smallDecoder whole
  isError code := code > 0 - 20
  consumed_le _ size := by
    dsimp only
    split_ifs with short
    · exact UInt64.le_refl size
    · exact UInt64.not_lt.mp short

def smallZstd : ZstdCodec Unit where
  getFrameContentSize _ _ := zstdContentSizeUnknown
  createDStream := none
  decoder := smallDecoder true
  isError code := code > 0 - 120

/-- A heap with room. -/
def smallMalloc (_ : UInt64) : UInt64 := 0x900000

def smallStream : ByteStore := .ofFields [(0, 4, 0x184d2204)]

def smallInput : SimpleBuffer := ⟨0x100000, 27, 0, 27, none⟩

def emptyBuffer : SimpleBuffer := ⟨0, 0, 0, 0, none⟩

theorem decompress_decodedToEnd_smallStream :
    DecodedToEnd (decompress defaultBuild (smallLz4 true) smallZstd smallMalloc smallStream 1
      smallInput emptyBuffer) :=
  (decompress_decodedToEnd_iff (by decide) (by decide)).mpr <|
    show Lz4StreamComplete (smallLz4 true) smallStream smallInput from
      ⟨by decide, 1, (), 8, by decide, rfl⟩

/-- A truncated frame is decompressed successfully, to nothing. -/
theorem not_decompress_decodedToEnd_smallStream :
    ¬ ∀ (σ τ : Type) (build : Build) (lz4 : Lz4Codec σ) (zstd : ZstdCodec τ)
      (malloc : UInt64 → UInt64) (data : ByteStore) (turns : ℕ) (input output : SimpleBuffer),
      isCompressed build data input = true →
      (decompress build lz4 zstd malloc data turns input output).outcome = .ok →
        DecodedToEnd (decompress build lz4 zstd malloc data turns input output) := by
  intro claim
  obtain ⟨call, chosen, zero⟩ := (claim Unit Unit defaultBuild (smallLz4 false) smallZstd smallMalloc
    smallStream 1 smallInput emptyBuffer (by decide) (by decide)).ended
  have last : some call = some ⟨12, 8, 12, 0, 4⟩ := chosen.symm.trans (by decide)
  obtain rfl := Option.some.inj last
  revert zero
  decide

end ZLoader
