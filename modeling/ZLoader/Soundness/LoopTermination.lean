import ZLoader.Soundness.KernelBuffers

/-! # The end of the LZ4 loop

The loop of `decompress_lz4` looks at its input only. A decoder makes progress as long as it has
input and room, so the loop ends unless the room, which is the content size that the frame announces,
is used up first; from there on it is the assertion in `buffer_pos` that ends the program, or the
decoder that has to do without room.
-/

namespace ZLoader

/-- The loop ends, both cursors stay inside of their buffers for as many turns as it takes, and no
assertion fails. -/
structure LoopSafe (run : ℕ → DecompressResult) : Prop where
  ends : ∃ turns, (run turns).outcome ≠ .running
  input : ∀ turns, (run turns).input.pos ≤ (run turns).input.length
  output : ∀ turns, (run turns).output.pos ≤ (run turns).output.allocated
  asserted : ∀ turns, (run turns).outcome ≠ .assertionFailed

/-- Two buffers to work on: there is memory, and it holds what the cursors can reach. -/
structure LoopStart (input output : SimpleBuffer) : Prop where
  source : input.buffer ≠ 0
  inside : input.pos ≤ input.length
  held : input.length ≤ input.allocated
  target : output.buffer ≠ 0
  room : output.pos ≤ output.allocated

/-- Where the decoder has used up the room with input left, assertions are compiled out and it still
uses up its input or reports an error. -/
def RoomSuffices {σ : Type} (build : Build) (codec : Lz4Codec σ) (state : σ) (data : ℕ → UInt8)
    (size capacity : UInt64) : Prop :=
  ∀ calls last rest left,
    codec.decoder.exhausted codec.isError calls state data size capacity =
      some (last, rest, left) →
    build.ndebug = true ∧ ∃ more, codec.decoder.drains codec.isError more last rest left 0 = true

section Loop

variable {σ : Type} {build : Build} {codec : Lz4Codec σ} {data : ByteStore}

/-- Every turn leaves the cursors in their buffers. -/
theorem decompressLz4Loop_cursors (turns : ℕ) (state : σ) {input output : SimpleBuffer}
    (trace : List CodecEvent) (inside : input.pos ≤ input.length)
    (room : output.pos ≤ output.allocated) :
    let result := decompressLz4Loop build codec data turns state input output trace
    result.input.pos ≤ result.input.length ∧ result.output.pos ≤ result.output.allocated := by
  induction turns generalizing state input output trace with
  | zero => exact ⟨inside, room⟩
  | succ turns ih =>
    rw [decompressLz4Loop]
    split_ifs with more
    · split
      · next inEnd _ _ known _ _ =>
        obtain rfl := bufferLen_ok known
        dsimp only
        split_ifs
        · exact ⟨inside, room⟩
        · obtain ⟨_, stays, _, fits, _⟩ := codec.decoder.step_cursors state
            (fun index => data (input.pos.toNat + index)) inside room
          exact ih _ _ stays fits
      · exact ⟨inside, room⟩
    · exact ⟨inside, room⟩

/-- A decoder that drains the input ends the loop, if no assertion does. -/
theorem decompressLz4Loop_ends {turns : ℕ} {state : σ} {input output : SimpleBuffer}
    {trace : List CodecEvent} (inside : input.pos ≤ input.length)
    (room : output.pos ≤ output.allocated)
    (drained : codec.decoder.drains codec.isError turns state
      (fun index => data (input.pos.toNat + index)) (input.length - input.pos)
      (output.allocated - output.pos) = true) :
    (decompressLz4Loop build codec data turns state input output trace).outcome ≠ .running := by
  induction turns generalizing state input output trace with
  | zero =>
    have finished : ¬ input.pos < input.length := fun more =>
      cursor_before_end more (by simpa [StreamDecoder.drains] using drained)
    simp [decompressLz4Loop, finished]
  | succ turns ih =>
    rw [decompressLz4Loop]
    split_ifs with more
    · split
      · next inEnd _ _ known _ _ =>
        obtain rfl := bufferLen_ok known
        dsimp only
        split_ifs with failed
        · simp
        · obtain ⟨moved, stays, remaining, fits, space⟩ := codec.decoder.step_cursors state
            (fun index => data (input.pos.toNat + index)) inside room
          apply ih stays fits
          dsimp only
          rw [remaining, space, moved]
          simpa [StreamDecoder.drains, cursor_before_end more, failed, Nat.add_assoc] using drained
      · simp
    · simp

/-- Without assertions nothing else does. -/
theorem drains_of_decompressLz4Loop_ends (quiet : build.ndebug = true) {turns : ℕ} {state : σ}
    {input output : SimpleBuffer} {trace : List CodecEvent} (inside : input.pos ≤ input.length)
    (room : output.pos ≤ output.allocated)
    (ended : (decompressLz4Loop build codec data turns state input output trace).outcome ≠ .running) :
    codec.decoder.drains codec.isError turns state (fun index => data (input.pos.toNat + index))
      (input.length - input.pos) (output.allocated - output.pos) = true := by
  induction turns generalizing state input output trace with
  | zero =>
    have finished : ¬ input.pos < input.length := fun more => ended (by simp [decompressLz4Loop, more])
    rw [StreamDecoder.drains, cursor_at_end inside finished]
    rfl
  | succ turns ih =>
    rw [StreamDecoder.drains]
    by_cases more : input.pos < input.length
    · rw [decompressLz4Loop, if_pos more, bufferLen_of_ndebug quiet, bufferPos_of_ndebug quiet,
        bufferPos_of_ndebug quiet] at ended
      dsimp only at ended ⊢
      split_ifs at ended with failed
      · simp [failed]
      · obtain ⟨moved, stays, remaining, fits, space⟩ := codec.decoder.step_cursors state
          (fun index => data (input.pos.toNat + index)) inside room
        have drained := ih stays fits ended
        dsimp only at drained
        rw [remaining, space, moved] at drained
        simp only [Nat.add_assoc] at drained
        simp [drained]
    · rw [cursor_at_end inside more]
      rfl

/-- The loop over a decoder that makes progress is safe exactly when the room suffices. -/
theorem loopSafe_iff (progresses : codec.decoder.Progresses codec.isError) (state : σ)
    {input output : SimpleBuffer} (trace : List CodecEvent) (start : LoopStart input output) :
    LoopSafe (fun turns => decompressLz4Loop build codec data turns state input output trace) ↔
      RoomSuffices build codec state (fun index => data (input.pos.toNat + index))
        (input.length - input.pos) (output.allocated - output.pos) := by
  have cursors (turns : ℕ) :
      (decompressLz4Loop build codec data turns state input output trace).input.pos ≤ _ ∧ _ :=
    decompressLz4Loop_cursors turns state trace start.inside start.room
  have drains := progresses.exists_drains_iff state (fun index => data (input.pos.toNat + index))
    (input.length - input.pos) (output.allocated - output.pos)
  cases quiet : build.ndebug with
  | true =>
    constructor
    · intro safe calls last rest left reached
      obtain ⟨turns, ended⟩ := safe.ends
      exact ⟨quiet, drains.mp ⟨turns, drains_of_decompressLz4Loop_ends quiet start.inside start.room
        ended⟩ calls last rest left reached⟩
    · intro enough
      obtain ⟨turns, drained⟩ := drains.mpr fun calls last rest left reached =>
        (enough calls last rest left reached).2
      exact ⟨⟨turns, decompressLz4Loop_ends start.inside start.room drained⟩,
        fun turns => (cursors turns).1, fun turns => (cursors turns).2,
        fun turns => decompressLz4Loop_of_ndebug quiet turns state input output trace⟩
  | false =>
    have asserted (turns : ℕ) :
        (decompressLz4Loop build codec data turns state input output trace).outcome =
          .assertionFailed ↔ _ :=
      decompressLz4Loop_assertionFailed_iff quiet start.source start.inside start.held start.target
        start.room
    simp only [StreamDecoder.exhaustsRoom_eq_isSome] at asserted
    constructor
    · intro safe calls last rest left reached
      exact absurd ((asserted calls).mpr (by rw [reached]; rfl)) (safe.asserted calls)
    · intro enough
      have never (turns : ℕ) : ¬ (codec.decoder.exhausted codec.isError turns state _ _ _).isSome =
          true := fun exhausts => by
        obtain ⟨⟨last, rest, left⟩, reached⟩ := Option.isSome_iff_exists.mp exhausts
        have loud := (enough turns last rest left reached).1
        rw [quiet] at loud
        cases loud
      obtain ⟨turns, drained⟩ := drains.mpr fun calls last rest left reached =>
        absurd (by rw [reached]; rfl) (never calls)
      exact ⟨⟨turns, decompressLz4Loop_ends start.inside start.room drained⟩,
        fun turns => (cursors turns).1, fun turns => (cursors turns).2,
        fun turns failed => never turns ((asserted turns).mp failed)⟩

end Loop

theorem smallDecoder_progresses (whole : Bool) (isError : UInt64 → Bool) :
    (smallDecoder whole).Progresses isError :=
  fun _ _ _ _ nonempty _ => .inr (.inl nonempty)

/-- A frame without trailing bytes. -/
theorem loopSafe_smallStream :
    LoopSafe (fun turns => decompressLz4Loop defaultBuild (smallLz4 true) smallStream turns ()
      { smallInput with pos := 15 } ⟨0x900000, 0, 0, 8, some .freeSimpleBuffer⟩ []) := by
  refine (loopSafe_iff (smallDecoder_progresses true _) () []
    ⟨by decide, by decide, by decide, by decide, by decide⟩).mpr fun calls last rest left reached => ?_
  -- The first call takes all of the input.
  cases calls with
  | zero => cases reached
  | succ calls => cases calls <;> cases reached

/-- A decoder for a frame of which twelve bytes are left: it stops at its end. -/
def twelveByteDecoder : StreamDecoder Bool where
  step _ _ size capacity := if size < 12 then ⟨false, size, 0, 4⟩ else ⟨true, 12, capacity, 0⟩
  complete := id
  consumed_le _ _ size _ := by
    split_ifs with short
    · exact UInt64.le_refl size
    · exact UInt64.not_lt.mp short
  produced_le _ _ _ capacity := by
    split_ifs
    · exact UInt64.zero_le
    · exact UInt64.le_refl capacity
  result_eq_zero_iff _ _ size _ := by
    split_ifs <;> simp

/-- The library with this decoder. -/
def twelveByteLz4 : Lz4Codec Bool where
  createDecompressionContext := 0
  getFrameInfo _ size := ⟨false, if size < 15 then size else 15, 8, 4⟩
  decoder := twelveByteDecoder
  isError := (smallLz4 true).isError
  consumed_le _ size := by
    split_ifs with short
    · exact UInt64.le_refl size
    · exact UInt64.not_lt.mp short

/-- Four bytes behind the end of a frame end the program, though the decoder makes progress. -/
theorem not_loopSafe_trailingBytes :
    twelveByteLz4.decoder.Progresses twelveByteLz4.isError ∧
      ¬ LoopSafe (fun turns => decompressLz4Loop defaultBuild twelveByteLz4 smallStream turns false
        ⟨0x100000, 31, 15, 31, none⟩ ⟨0x900000, 0, 0, 8, some .freeSimpleBuffer⟩ []) := by
  constructor
  · intro state data size capacity nonempty _
    refine .inr (.inl ?_)
    change (if size < 12 then _ else _ : DecoderReply Bool).consumed ≠ 0
    split_ifs
    · exact nonempty
    · exact (by decide : (12 : UInt64) ≠ 0)
  · intro safe
    exact safe.asserted 2 (by decide)

end ZLoader
