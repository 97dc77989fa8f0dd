import ZLoader.Soundness.Lz4FrameBegins

/-! # Calls of the frame decoder

Every turn leaves a stage in which some bytes of a frame have been taken and what its blocks stand for
has been given, or it ends the call. The turns that the input allows are enough. In front of the end of
a call the history is saved, so that the next call can go on wherever its input and its output stand.
-/

namespace ZLoader

section Turns

variable {call : Lz4fCall} {ours : Lz4fBuffers → Prop} {bufs : Lz4fBuffers}
  {memory : ByteStore} {tmp : Bool}
  {before given input output : List UInt8} {st : Lz4fState} {bound : ℕ}

theorem Lz4fState.le_left (call : Lz4fCall) (st : Lz4fState) :
    2 * (call.srcEnd - st.srcPtr) ≤ st.left call := Nat.le_add_right ..

theorem Lz4fState.lt_left (call : Lz4fCall) {st : Lz4fState}
    (stage : st.dctx.dStage = .copyDirect ∨ st.dctx.dStage = .getCBlock ∨
      st.dctx.dStage = .flushOut) :
    2 * (call.srcEnd - st.srcPtr) < st.left call := by
  rw [left, if_pos stage]
  omega

/-- A pass through the `switch`. -/
theorem lz4fStageTurn_ends (places : call.Places ours bufs) (allocates : call.Allocates ours bufs.header)
    (runs : st.Runs call memory before given tmp bufs input output)
    (holds : Lz4fHolds bufs call.dstBuffer st.dstPtr st.memory st.dctx tmp input output) :
    Lz4fTurnEnds call ours memory before given (st.left call) bufs.header
      (lz4fStageTurn call st) := by
  have le := Lz4fState.le_left call st
  cases holds with
  | getFrameHeader stage ready =>
    simp only [lz4fStageTurn, stage]
    exact lz4fGetFrameHeader_ends places ready stage runs le
  | storeFrameHeader stage ready more target =>
    simp only [lz4fStageTurn, stage]
    exact lz4fStoreFrameHeader_ends places ready stage more target runs le
  | init stage knows remaining none_ =>
    simp only [lz4fStageTurn, stage]
    exact lz4fInit_ends places allocates knows remaining none_ runs le
  | getBlockHeader stage behind =>
    simp only [lz4fStageTurn, stage]
    exact lz4fGetBlockHeader_ends places runs behind le
  | storeBlockHeader stage behind more =>
    simp only [lz4fStageTurn, stage]
    exact lz4fStoreBlockHeader_ends places runs stage behind more le
  | copyDirect stage behind small check =>
    simp only [lz4fStageTurn, stage]
    exact lz4fCopyDirect_ends places runs stage behind small check
      (Lz4fState.lt_left call (.inl stage))
  | getBlockChecksum stage behind small checked check more =>
    simp only [lz4fStageTurn, stage]
    exact lz4fGetBlockChecksum_ends places small checked runs stage behind check more le
  | getCBlock stage behind positive small target =>
    simp only [lz4fStageTurn, stage]
    exact lz4fGetCBlock_ends places positive small target runs behind
      (Lz4fState.lt_left call (.inr (.inl stage)))
  | storeCBlock stage behind positive small target more =>
    simp only [lz4fStageTurn, stage]
    exact lz4fStoreCBlock_ends places positive small target runs stage behind more le
  | flushOut stage knows fits covers all counts tmpOut size flush =>
    simp only [lz4fStageTurn, stage]
    exact lz4fFlushOut_ends places knows covers runs stage fits all counts tmpOut size flush
      (Lz4fState.lt_left call (.inr (.inr stage)))
  | getSuffix stage knows fits covers counts =>
    simp only [lz4fStageTurn, stage]
    exact lz4fGetSuffix_ends places runs knows fits covers counts
  | storeSuffix stage fits covers remaining sized checked hash more =>
    simp only [lz4fStageTurn, stage]
    exact lz4fStoreSuffix_ends places fits remaining sized checked hash covers stage more runs
  | getSFrameSize stage low ready =>
    simp only [lz4fStageTurn, stage]
    exact lz4fGetSFrameSize_ends places low ready runs le
  | storeSFrameSize stage low ready four more target =>
    simp only [lz4fStageTurn, stage]
    exact lz4fStoreSFrameSize_ends places low ready stage four more target runs le
  | skipSkippable stage low ready small =>
    simp only [lz4fStageTurn, stage]
    exact lz4fSkipSkippable_ends places low ready stage small runs

/-- Less is left with every turn, so the loop ends. -/
theorem lz4fTurns_ends {header turns : ℕ} {turn : Lz4fTurn} (allocates : call.Allocates ours header)
    (ends : Lz4fTurnEnds call ours memory before given bound header turn) (enough : bound ≤ turns) :
    Lz4fTurnEnds call ours memory before given 0 header (lz4fTurns call turns turn) := by
  induction turns generalizing turn bound with
  | zero =>
    obtain rfl := Nat.le_zero.mp enough
    exact ends
  | succ turns ih =>
    cases ends with
    | again places runs holds less =>
      exact ih (lz4fStageTurn_ends places allocates runs holds) (by omega)
    | stop places runs holds wants idle => exact .stop places runs holds wants idle
    | finished places runs stage ready whole bytes content =>
      exact .finished places runs stage ready whole bytes content
    | early places runs holds first empty => exact .early places runs holds first empty
    | failed error places runs refuses => exact .failed error places runs refuses

end Turns

end ZLoader
