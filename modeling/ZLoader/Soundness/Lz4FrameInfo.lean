import ZLoader.Soundness.Lz4FrameStages

/-! # Frames that begin with their header

`LZ4F_getFrameInfo` reads the header of a frame in front of the calls. It needs no more of the input
than the header, changes no memory, and leaves the context where a call that has read the header
leaves it.
-/

namespace ZLoader

section Info

variable {call : Lz4fCall} {memory : ByteStore} {frameInfo : Lz4fFrameInfo} {dctx : Lz4fDctx}

/-- The size of a header is read from its first five bytes. -/
theorem lz4fHeaderSize_ok {st st' : Lz4fState} {src srcSize hSize : ℕ}
    (sized : lz4fHeaderSize st src srcSize = (.ok hSize, st')) :
    7 ≤ hSize ∧ 5 ≤ srcSize ∧ st.ReadsHeader src srcSize st' ∧ st'.dctx = st.dctx ∧
      (st.memory.u32 src &&& 0xfffffff0 ≠ 0x184d2a50 →
        hSize = (lz4fFlags (st.memory (src + 4))).frameHeaderSize) := by
  have bounds := (lz4fFlags (st.memory (src + 4))).frameHeaderSize_bounds
  have start := Lz4fState.ReadsHeader.refl st src srcSize
  rw [lz4fHeaderSize] at sized
  split_ifs at sized with null short
  · simp at sized
  · simp at sized
  have five := Nat.not_lt.mp short
  have magic := start.load src 4 (Nat.le_refl _) (by omega)
  dsimp only at sized
  split_ifs at sized with skip other
  · obtain ⟨size, rfl⟩ := Prod.mk.inj sized
    obtain rfl := Except.ok.inj size
    exact ⟨by omega, five, magic, rfl, fun plain => absurd skip plain⟩
  · simp at sized
  · obtain ⟨size, rfl⟩ := Prod.mk.inj sized
    obtain rfl := Except.ok.inj size
    exact ⟨bounds.1, five, (magic.load src 4 (Nat.le_refl _) (by omega)).load (src + 4) 1
      (by omega) (by omega), rfl, fun _ => rfl⟩

theorem lz4fHeaderSize_error {st st' : Lz4fState} {src srcSize : ℕ} {code : Lz4fErrorCode}
    (sized : lz4fHeaderSize st src srcSize = (.error code, st')) :
    lz4fIsError (lz4fErr0r code) = true := by
  rw [lz4fHeaderSize] at sized
  dsimp only at sized
  split_ifs at sized
  all_goals first
    | obtain rfl := Except.error.inj (Prod.mk.inj sized).1
      decide
    | exact absurd (congrArg Prod.fst sized) (by simp)

/-- What has been read of a header that is in front of an input. -/
theorem Lz4fState.ReadsHeader.trans {st st' st'' : Lz4fState} {src size srcSize : ℕ}
    (reads : st.ReadsHeader src srcSize st') (more : st'.ReadsHeader src size st'')
    (le : size ≤ srcSize) : st.ReadsHeader src srcSize st'' where
  same := by rw [more.same, reads.same]
  reads := fun window member => (more.reads window member).elim (reads.reads window)
    fun inside => .inr ⟨inside.1, by omega⟩
  header := more.header.trans reads.header
  tmpIn := more.tmpIn.trans reads.tmpIn
  tmpOutBuffer := more.tmpOutBuffer.trans reads.tmpOutBuffer
  maxBufferSize := more.maxBufferSize.trans reads.maxBufferSize
  dict := more.dict.trans reads.dict
  dictSize := more.dictSize.trans reads.dictSize

/-- A header that has been read: the memory is as it was, and the context goes on behind the bytes
that have been taken. -/
structure Lz4fInfoReply.Begins (reply : Lz4fInfoReply) (call : Lz4fCall) (dctx : Lz4fDctx)
    (memory : ByteStore) : Prop where
  memory_eq : reply.st.memory = memory
  taken : reply.srcSize ≤ call.srcSize
  reads : ∀ window ∈ reply.st.reads, window.Inside ⟨call.srcBuffer, call.srcSize⟩
  writes : reply.st.writes = []
  owns : ∀ bufs, dctx.Owns bufs → reply.st.dctx.Owns bufs
  holds : ∀ bufs, Lz4fHolds bufs 0 0 memory reply.st.dctx false
    (memory.bytesAt call.srcBuffer reply.srcSize) []

variable {reply : Lz4fInfoReply} (stage : dctx.dStage = .getFrameHeader) (ready : dctx.Ready)
  (away : call.srcSize ≠ 0 → call.srcBuffer ≠ dctx.header)
  (returns : lz4fGetFrameInfo call frameInfo dctx memory = some reply)

include stage ready away returns

theorem lz4fGetFrameInfo_begins (fine : lz4fIsError reply.result = false) :
    reply.Begins call dctx memory := by
  obtain ⟨start, begun⟩ : ∃ start : Lz4fState, start =
      ⟨dctx, memory, call.srcBuffer, 0, [], [], []⟩ := ⟨_, rfl⟩
  rw [lz4fGetFrameInfo, stage, if_neg (by decide), if_neg (by decide), ← begun] at returns
  have nothing : start.reads = [] ∧ start.writes = [] ∧ start.memory = memory ∧ start.dctx = dctx := by
    rw [begun]
    exact ⟨rfl, rfl, rfl, rfl⟩
  obtain ⟨noReads, noWrites, same, context⟩ := nothing
  obtain ⟨size, st, sized⟩ : ∃ size st,
      lz4fHeaderSize start call.srcBuffer call.srcSize = (size, st) := ⟨_, _, rfl⟩
  rw [sized] at returns
  cases size with
  | error code =>
    obtain rfl := Option.some.inj returns
    exact absurd ((lz4fHeaderSize_error sized).symm.trans fine) (by decide)
  | ok hSize =>
    obtain ⟨seven, five, reads, kept, plain⟩ := lz4fHeaderSize_ok sized
    have memory_ : st.memory = start.memory := by rw [reads.same]
    dsimp only at returns
    split_ifs at returns with short
    · obtain rfl := Option.some.inj returns
      exact absurd (show lz4fIsError (lz4fErr0r .frameHeaderIncomplete) = false from fine) (by decide)
    have ends := lz4fDecodeHeader_ends st call.srcBuffer hSize seven fun other less => by
      rw [memory_] at other less
      exact absurd (plain other) (Nat.ne_of_lt less)
    generalize lz4fDecodeHeader st call.srcBuffer hSize = outcome at returns ends
    have reads_ {st' : Lz4fState} (more : st.ReadsHeader call.srcBuffer hSize st') :
        st'.memory = memory ∧ (∀ window ∈ st'.reads,
          window.Inside ⟨call.srcBuffer, call.srcSize⟩) ∧ st'.writes = [] ∧
          ∀ bufs, dctx.Owns bufs → st'.dctx.Owns bufs := by
      have all := reads.trans more (Nat.not_lt.mp short)
      refine ⟨?_, fun window member => ?_, ?_, fun bufs owns => ?_⟩
      · rw [all.same, same]
      · rcases all.reads window member with old | inside
        · rw [noReads] at old
          cases old
        · exact Window.inside_of_le inside.1 inside.2
      · rw [all.same, noWrites]
      · rw [← context] at owns
        exact ⟨all.header.trans owns.1, all.tmpIn.trans owns.2, all.tmpOutBuffer.trans owns.3,
          all.maxBufferSize.trans owns.4⟩
    have away_ : call.srcBuffer ≠ st.dctx.header := by
      rw [kept, context]
      exact away (by omega)
    have ready_ : st.dctx.Ready := by rwa [kept, context]
    have bytes_ : st.memory = memory := memory_.trans same
    cases ends with
    | failed error reads refuted =>
      obtain rfl := Option.some.inj returns
      exact absurd (error.symm.trans fine) (by decide)
    | stored more low magic remaining stage_ from_ => exact absurd from_ away_
    | @skippable st' more nibble low magic remaining stage_ =>
      obtain rfl := Option.some.inj returns
      obtain ⟨memory', inside, unwritten, owns⟩ := reads_ more
      refine ⟨memory', show 4 ≤ call.srcSize by omega, inside, unwritten, owns, fun bufs => ?_⟩
      dsimp only
      rw [← bytes_, ← ByteStore.leBytes_readLE, magic]
      exact .getSFrameSize stage_ low
        ⟨remaining.trans ready_.remaining, more.dictSize.trans ready_.dictSize⟩
    | incomplete more remaining stage_ from_ => exact absurd from_ away_
    | @whole st' more desc fits length bytes knows stage_ remaining =>
      obtain rfl := Option.some.inj returns
      obtain ⟨memory', inside, unwritten, owns⟩ := reads_ more
      refine ⟨memory', Nat.le_trans fits (Nat.not_lt.mp short), inside, unwritten, owns,
        fun bufs => ?_⟩
      dsimp only
      rw [← bytes_, bytes]
      refine .init stage_ knows (remaining.trans ?_) (more.dictSize.trans ready_.dictSize)
      rw [ready_.remaining]
      cases desc.contentSize <;> rfl

end Info

end ZLoader
