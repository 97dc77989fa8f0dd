import ZLoader.Soundness.Lz4FrameCalls
import ZLoader.Soundness.Lz4FrameInfo

/-! # Streams in LZ4 frames

A stream is given to the frame decoder part by part, with room for some of its content each time. What
the calls take and give is a frame and its content when a call returns zero; an error means that memory
has run out or that no frame begins like the stream.
-/

namespace ZLoader

section Replies

variable {call : Lz4fCall} {ours : Lz4fBuffers → Prop} {bufs : Lz4fBuffers}
  {memory memory' : ByteStore} {tmp : Bool} {before given input output : List UInt8}
  {st : Lz4fState} {dctx : Lz4fDctx} {reply : Lz4fReply}

/-- A call keeps to its input and output and to what belongs to the context. -/
structure Lz4fReply.Within (reply : Lz4fReply) (call : Lz4fCall) (ours : Lz4fBuffers → Prop)
    (header : ℕ) (memory : ByteStore) (bufs : Lz4fBuffers) : Prop where
  header_eq : bufs.header = header
  places : call.Places ours bufs
  owns : reply.st.dctx.Owns bufs
  confined : Lz4fConfined call bufs true memory reply.st.memory reply.st.reads reply.st.writes
  taken : reply.srcSize ≤ call.srcSize
  given : reply.dstSize ≤ call.dstSize

/-- What a call returns and leaves. -/
inductive Lz4fReplies (call : Lz4fCall) (ours : Lz4fBuffers → Prop) (header : ℕ)
    (memory : ByteStore) (before given : List UInt8) : Lz4fReply → Prop where
  | goes {tmp : Bool} {bufs : Lz4fBuffers} {reply : Lz4fReply}
      (within : reply.Within call ours header memory bufs)
      (result : reply.result ≠ 0 ∧ lz4fIsError reply.result = false)
      (holds : Lz4fHolds bufs 0 0 reply.st.memory reply.st.dctx tmp
        (before ++ memory.bytesAt call.srcBuffer reply.srcSize)
        (given ++ reply.st.memory.bytesAt call.dstBuffer reply.dstSize))
      (idle : reply.srcSize = call.srcSize ∨ reply.dstSize = call.dstSize) :
      Lz4fReplies call ours header memory before given reply
  | finished {bufs : Lz4fBuffers} {reply : Lz4fReply}
      (within : reply.Within call ours header memory bufs)
      (result : reply.result = 0) (stage : reply.st.dctx.dStage = .getFrameHeader)
      (ready : reply.st.dctx.Ready) (whole : FrameUnit)
      (bytes : before ++ memory.bytesAt call.srcBuffer reply.srcSize = whole.bytes contentHash)
      (content : given ++ reply.st.memory.bytesAt call.dstBuffer reply.dstSize = whole.content) :
      Lz4fReplies call ours header memory before given reply
  | failed {bufs : Lz4fBuffers} {reply : Lz4fReply}
      (within : reply.Within call ours header memory bufs)
      (error : lz4fIsError reply.result = true)
      (refuses : reply.result = lz4fErr0r .allocationFailed ∨
        Refuted contentHash (before ++ memory.bytesAt call.srcBuffer call.srcSize)) :
      Lz4fReplies call ours header memory before given reply

theorem lz4fIsError_hint {hint : ℕ} (wants : hint ≠ 0 ∧ hint < 2 ^ 33) :
    UInt64.ofNat hint ≠ 0 ∧ lz4fIsError (UInt64.ofNat hint) = false := by
  have size : (UInt64.ofNat hint).toNat = hint := UInt64.toNat_ofNat_of_lt' (by
    have bound : UInt64.size = 2 ^ 64 := rfl
    omega)
  have codes : (lz4fErr0r .maxCode).toNat = 2 ^ 64 - 20 := by decide
  refine ⟨fun zero => wants.1 ?_, decide_eq_false ?_⟩
  · rw [← size, zero]
    rfl
  · rw [UInt64.lt_iff_toNat_lt, size, codes]
    omega

/-- The cursors of a call that ends. -/
theorem Lz4fState.Runs.within (places : call.Places ours bufs)
    (runs : st.Runs call memory before given tmp bufs input output) (result : UInt64) {src dst : ℕ}
    (taken : src ≤ st.srcPtr - call.srcBuffer) (put : dst ≤ st.dstPtr - call.dstBuffer) :
    Lz4fReply.Within ⟨result, src, dst, st⟩ call ours bufs.header memory bufs := by
  have high := runs.srcHigh
  have limit := runs.dstHigh
  rw [Lz4fCall.srcEnd] at high
  exact ⟨rfl, places, runs.owns, runs.confined.mono (fun _ _ => ⟨.inl rfl, rfl⟩)
    fun _ writable => ⟨⟨.inl rfl, writable.2⟩, rfl⟩, show src ≤ _ by omega, show dst ≤ _ by omega⟩

/-- Before the blocks the buffers do not count. -/
theorem Lz4fHolds.early {start cursor : ℕ}
    (holds : Lz4fHolds bufs start cursor memory dctx false input output) :
    Lz4fHolds bufs 0 0 memory dctx false input output := by
  cases holds with
  | getFrameHeader stage ready => exact .getFrameHeader stage ready
  | storeFrameHeader stage ready more target => exact .storeFrameHeader stage ready more target
  | init stage knows remaining none_ => exact .init stage knows remaining none_
  | getSFrameSize stage low ready => exact .getSFrameSize stage low ready
  | storeSFrameSize stage low ready four more target =>
    exact .storeSFrameSize stage low ready four more target
  | skipSkippable stage low ready small => exact .skipSkippable stage low ready small

/-- Every call returns, from wherever the one before it has left the context. -/
theorem lz4fDecompress_replies (places : call.Places ours bufs)
    (allocates : call.Allocates ours bufs.header)
    (unstable : call.stableDst = false) (owns : dctx.Owns bufs)
    (holds : Lz4fHolds bufs call.dstBuffer call.dstBuffer memory dctx tmp before given) :
    ∃ reply, lz4fDecompress call dctx memory = some reply ∧
      Lz4fReplies call ours bufs.header memory before given reply := by
  obtain ⟨start, begun⟩ : ∃ start : Lz4fState, start =
      ⟨dctx, memory, call.srcBuffer, call.dstBuffer, [], [], []⟩ := ⟨_, rfl⟩
  have runs : start.Runs call memory before given tmp bufs before given := by
    rw [begun]
    refine ⟨owns, confined_nil .., Nat.le_refl _, Nat.le_add_right .., Nat.le_refl _,
      Nat.le_add_right .., ?_, ?_⟩
    · rw [Nat.sub_self]
      exact (List.append_nil _).symm
    · rw [Nat.sub_self]
      exact (List.append_nil _).symm
  have left := start.left_le call
  have ends : Lz4fTurnEnds call ours memory before given 0 bufs.header
      (lz4fTurns call (2 * call.srcSize + 2) (lz4fStageTurn call start)) := lz4fTurns_ends allocates
    (lz4fStageTurn_ends places allocates runs (by rw [begun]; exact holds)) (by
      rw [begun] at left ⊢
      change _ ≤ 2 * (call.srcBuffer + call.srcSize - call.srcBuffer) + 1 at left
      omega)
  rw [lz4fDecompress, ← begun]
  generalize lz4fTurns call (2 * call.srcSize + 2) (lz4fStageTurn call start) = turn at ends
  generalize bufs.header = header at ends ⊢
  cases ends with
  | again places runs holds less => exact absurd less (Nat.not_lt_zero _)
  | @stop tmp bufs input output st hint places runs holds wants idle =>
    obtain ⟨src, dst, moved, after⟩ := holds.preserve places unstable runs
    refine ⟨_, rfl, @Lz4fReplies.goes call ours bufs.header memory before given tmp bufs _
      (moved.within places _ (Nat.le_refl _) (Nat.le_refl _)) (lz4fIsError_hint wants) ?_ ?_⟩
    · rw [moved.input_eq, moved.output_eq] at after
      exact after
    · have low := runs.srcLow
      have below := runs.dstLow
      rw [Lz4fCall.srcEnd, places.dstEnd] at idle
      dsimp only
      rw [src, dst]
      omega
  | @finished tmp bufs input output st places runs stage ready whole bytes content =>
    have early : lz4fPreserveHistory call st = st :=
      lz4fPreserveHistory_early (.inl (by rw [stage]; decide))
    refine ⟨_, rfl, ?_⟩
    rw [early]
    refine .finished (runs.within places _ (Nat.le_refl _) (Nat.le_refl _)) rfl stage ready whole
      (runs.input_eq.symm.trans bytes) (runs.output_eq.symm.trans content)
  | @early bufs input output st places runs holds first empty =>
    obtain ⟨rfl, rfl⟩ := first
    have low := runs.srcLow
    have nothing : before = [] ∧ st.srcPtr - call.srcBuffer = 0 := by
      have input_ := List.nil_eq_append_iff.mp runs.input_eq
      refine ⟨input_.1, ?_⟩
      have length := congrArg List.length input_.2
      rwa [ByteStore.bytesAt_length] at length
    have unused := (List.nil_eq_append_iff.mp runs.output_eq).1
    refine ⟨_, rfl, @Lz4fReplies.goes call ours bufs.header memory before given false bufs _
      (runs.within places _ (Nat.zero_le _) (Nat.zero_le _))
      (lz4fIsError_hint ⟨by decide, by decide⟩) ?_ (.inl ?_)⟩
    · rw [nothing.1, unused]
      exact holds.early
    · rw [Lz4fCall.srcEnd] at empty
      dsimp only
      omega
  | @failed tmp bufs input output st code error places runs refuses =>
    exact ⟨_, rfl, .failed (runs.within places _ (Nat.zero_le _) (Nat.zero_le _)) error
      (refuses.imp_left (congrArg lz4fErr0r))⟩

end Replies

/-! ## Streams -/

/-- A call for a context with these buffers. -/
structure Lz4fCall.Serves (call : Lz4fCall) (ours : Lz4fBuffers → Prop) (bufs : Lz4fBuffers) :
    Prop where
  places : call.Places ours bufs
  allocates : call.Allocates ours bufs.header
  unstable : call.stableDst = false

/-- The calls for one frame so far: the memory and the context that they leave, what they have taken
and what they have given. A frame may begin with its header alone. Between two calls what belongs to
the context stays. -/
inductive Lz4fStream (ours : Lz4fBuffers → Prop) :
    ByteStore → Lz4fDctx → List UInt8 → List UInt8 → Prop where
  | begin {memory : ByteStore} {dctx : Lz4fDctx} (stage : dctx.dStage = .getFrameHeader)
      (ready : dctx.Ready) : Lz4fStream ours memory dctx [] []
  | info {memory : ByteStore} {dctx : Lz4fDctx} {call : Lz4fCall} {frameInfo : Lz4fFrameInfo}
      {reply : Lz4fInfoReply} (stage : dctx.dStage = .getFrameHeader) (ready : dctx.Ready)
      (away : call.srcSize ≠ 0 → call.srcBuffer ≠ dctx.header)
      (returns : lz4fGetFrameInfo call frameInfo dctx memory = some reply)
      (fine : lz4fIsError reply.result = false) :
      Lz4fStream ours reply.st.memory reply.st.dctx
        (memory.bytesAt call.srcBuffer reply.srcSize) []
  | goes {memory memory' : ByteStore} {dctx : Lz4fDctx} {input output : List UInt8}
      {bufs : Lz4fBuffers} {call : Lz4fCall} {reply : Lz4fReply}
      (stream : Lz4fStream ours memory dctx input output) (owns : dctx.Owns bufs)
      (keep : bufs.Keep memory memory') (serves : call.Serves ours bufs)
      (returns : lz4fDecompress call dctx memory' = some reply)
      (more : reply.result ≠ 0 ∧ lz4fIsError reply.result = false) :
      Lz4fStream ours reply.st.memory reply.st.dctx
        (input ++ memory'.bytesAt call.srcBuffer reply.srcSize)
        (output ++ reply.st.memory.bytesAt call.dstBuffer reply.dstSize)

/-- A stream can begin with a context that has just been created. -/
theorem lz4fStream_created {ours : Lz4fBuffers → Prop} {context : ℕ} {dctx : Lz4fDctx}
    {heap : List (Movement ℕ)} (created : lz4fCreateDecompressionContext context = (.ok dctx, heap))
    (memory : ByteStore) : Lz4fStream ours memory dctx [] [] := by
  rw [lz4fCreateDecompressionContext] at created
  split_ifs at created with null
  · cases created
  · cases created
    exact .begin rfl ⟨rfl, rfl⟩

/-! ## A small stream

A block of 16 bytes with a match, in independent blocks of 64 KiB. The first call gets the header
and a part of the block, the second one the rest from the same place. -/

/-- A context that has just been created. -/
def createdDctx : Lz4fDctx := lz4fNewContext 0x100000

theorem createdDctx_created :
    lz4fCreateDecompressionContext 0x100000 = (.ok createdDctx, [.grant 0x100000]) := rfl

def createdBuffers : Lz4fBuffers := ⟨0x1000e0, 0, 0, 0, 0⟩

theorem createdDctx_owns : createdDctx.Owns createdBuffers := ⟨rfl, rfl, rfl, rfl⟩

/-- A heap with two places. -/
def smallAlloc (size : ℕ) : ℕ :=
  if size = 65540 then 0x400000 else if size = 65536 then 0x500000 else 0

/-- The buffers of a context, with the size of the first one. -/
def Lz4fDctx.buffers (dctx : Lz4fDctx) (room : ℕ) : Lz4fBuffers :=
  ⟨dctx.header, dctx.tmpIn, room, dctx.tmpOutBuffer, dctx.maxBufferSize⟩

theorem Lz4fDctx.owns_buffers (dctx : Lz4fDctx) (room : ℕ) : dctx.Owns (dctx.buffers room) :=
  ⟨rfl, rfl, rfl, rfl⟩

def grantedBuffers : Lz4fBuffers := ⟨0x1000e0, 0x400000, 65540, 0x500000, 65536⟩

/-- Up to 64 bytes of input, and room for 64. -/
def smallCall (srcSize : ℕ) : Lz4fCall :=
  ⟨true, 0x300000, 64, 0x200000, srcSize, false, smallAlloc⟩

/-- Some bytes in place of the last input. -/
def ByteStore.given (memory : ByteStore) (bytes : List UInt8) : ByteStore :=
  (Patch.copy 0x200000 bytes.length (fun index => bytes.getD index 0) 0).apply memory

def noBytes : ByteStore := fun _ => 0

/-- The header and the first bytes of the block. -/
def smallFront : List UInt8 :=
  [0x04, 0x22, 0x4d, 0x18, 0x68, 0x40, 0x18, 0, 0, 0, 0, 0, 0, 0, 0x4f, 0x10, 0, 0, 0, 0x48, 0x41,
    0x42, 0x43, 0x44, 0x04]

/-- The other bytes of the block and the end mark. -/
def smallBack : List UInt8 := [0, 0x80, 0x6b, 0x65, 0x72, 0x6e, 0x65, 0x6c, 0x21, 0x0a, 0, 0, 0, 0]

/-- The match reaches in front of the content. -/
def brokenBack : List UInt8 := [1, 0x80, 0x6b, 0x65, 0x72, 0x6e, 0x65, 0x6c, 0x21, 0x0a, 0, 0, 0, 0]

theorem smallCall_places {srcSize : ℕ} (short : srcSize ≤ 64) :
    (smallCall srcSize).Places (fun _ => True) grantedBuffers where
  apart := fun a b other => (Window.disjoint_iff _ _).mpr (by
    cases a <;> cases b <;> first
      | exact absurd rfl other
      | simp only [Lz4fBuffers.window, grantedBuffers, smallCall]
        omega)
  gap := fun _ => .inl (show 0x300000 + 64 ≤ 0x500000 by decide)
  dest := .inr (show 65536 ≤ 0x300000 by decide)
  source := fun _ => Nat.succ_ne_zero _
  highSrc := by
    change 0x200000 + srcSize + 2 ^ 33 ≤ 2 ^ 64
    omega
  highDst := show 0x300000 + 64 + 2 ^ 33 ≤ 2 ^ 64 by decide
  allocated := .some 4 (by decide) (by decide) rfl (.inl rfl) (by decide) (by decide) (by decide)
    (by decide)
  owned := fun _ => trivial

theorem smallCall_serves {srcSize : ℕ} (short : srcSize ≤ 64) {bufs : Lz4fBuffers}
    (either : bufs = createdBuffers ∨ bufs = grantedBuffers) :
    (smallCall srcSize).Serves (fun _ => True) bufs := by
  have granted := smallCall_places short
  refine ⟨?_, fun id linked four eight first second => ?_, rfl⟩
  · rcases either with rfl | rfl
    · exact granted.dropped 0 0
    · exact granted
  · have smallest : id = 4 ∧ linked = false := by
      obtain rfl | rfl | rfl | rfl : id = 4 ∨ id = 5 ∨ id = 6 ∨ id = 7 := by omega
      all_goals cases linked <;> first | exact ⟨rfl, rfl⟩ | exact absurd rfl second
    obtain ⟨rfl, rfl⟩ := smallest
    rcases either with rfl | rfl <;> exact granted

/-- The input is no part of the context. -/
theorem ByteStore.given_keep (memory : ByteStore) {bytes : List UInt8} (short : bytes.length ≤ 64) :
    grantedBuffers.Keep memory (memory.given bytes) := by
  intro index inside
  refine Patch.apply_copy_outside _ _ ?_
  simp only [Window.contains_mk, grantedBuffers] at inside
  omega

/-- The first call takes all that it gets, and allocates the buffers. -/
theorem lz4fDecompress_smallFront : ∃ first,
    lz4fDecompress (smallCall 25) createdDctx (noBytes.given smallFront) = some first ∧
    first.st.dctx.Owns grantedBuffers ∧
    Lz4fStream (fun _ => True) first.st.memory first.st.dctx
      ([] ++ (noBytes.given smallFront).bytesAt 0x200000 first.srcSize)
      ([] ++ first.st.memory.bytesAt 0x300000 first.dstSize) ∧
    (lz4fDecompress (smallCall 14) first.st.dctx (first.st.memory.given smallBack)).map
      (·.result) = some 0 ∧
    (lz4fDecompress (smallCall 14) first.st.dctx (first.st.memory.given brokenBack)).map
      (·.result) = some (lz4fErr0r .decompressionFailed) := by
  have facts : (lz4fDecompress (smallCall 25) createdDctx (noBytes.given smallFront)).map
      (fun first => (first.st.dctx.buffers 65540, first.result,
        (lz4fDecompress (smallCall 14) first.st.dctx (first.st.memory.given smallBack)).map
          (·.result),
        (lz4fDecompress (smallCall 14) first.st.dctx (first.st.memory.given brokenBack)).map
          (·.result))) =
      some (grantedBuffers, 14, some 0, some (lz4fErr0r .decompressionFailed)) := by decide +kernel
  obtain ⟨first, returns, same⟩ := Option.map_eq_some_iff.mp facts
  simp only [Prod.mk.injEq] at same
  obtain ⟨owned, result, back, broken⟩ := same
  have more : first.result ≠ 0 ∧ lz4fIsError first.result = false := by
    rw [result]
    decide
  exact ⟨first, returns, owned ▸ first.st.dctx.owns_buffers 65540,
    .goes (lz4fStream_created createdDctx_created _) createdDctx_owns (fun _ _ => rfl)
      (smallCall_serves (by decide) (.inl rfl)) returns more, back, broken⟩

section Streams

variable {call : Lz4fCall} {ours : Lz4fBuffers → Prop} {bufs : Lz4fBuffers}
  {memory memory' : ByteStore} {input output : List UInt8} {dctx : Lz4fDctx} {reply : Lz4fReply}

/-- The size of the one buffer tells that of the other. -/
theorem Lz4fDctx.Owns.unique {other : Lz4fBuffers} (owns : dctx.Owns bufs) (owned : dctx.Owns other)
    (allocated : bufs.Allocated) (allocated' : other.Allocated) : bufs = other := by
  have size := owns.maxBufferSize.symm.trans owned.maxBufferSize
  have room : bufs.room = other.room := by
    cases allocated with
    | none room none_ =>
      cases allocated' with
      | none room' none_' => exact room.trans room'.symm
      | some id four eight room' large =>
        have positive := Nat.two_pow_pos (8 + 2 * id)
        omega
    | some id four eight room large =>
      have positive := Nat.two_pow_pos (8 + 2 * id)
      cases allocated' with
      | none room' none_' => omega
      | some id' four' eight' room' large' =>
        have same : id = id' := by
          obtain rfl | rfl | rfl | rfl : id = 4 ∨ id = 5 ∨ id = 6 ∨ id = 7 := by omega
          all_goals
            obtain rfl | rfl | rfl | rfl : id' = 4 ∨ id' = 5 ∨ id' = 6 ∨ id' = 7 := by omega
            all_goals omega
        rw [room, room', same]
  have header := owns.header.symm.trans owned.header
  have tmpIn := owns.tmpIn.symm.trans owned.tmpIn
  have tmpOut := owns.tmpOutBuffer.symm.trans owned.tmpOutBuffer
  cases bufs
  cases other
  simp_all

/-- In a stream the context holds what has been taken and given. -/
theorem Lz4fStream.holds (stream : Lz4fStream ours memory dctx input output)
    (owns : dctx.Owns bufs) (allocated : bufs.Allocated) : ∃ tmp, Lz4fHolds bufs 0 0 memory dctx tmp input output := by
  induction stream generalizing bufs with
  | begin stage ready => exact ⟨_, .getFrameHeader stage ready⟩
  | info stage ready away returns fine =>
    have begins := lz4fGetFrameInfo_begins stage ready away returns fine
    have holds := begins.holds bufs
    rw [← begins.memory_eq] at holds ⊢
    exact ⟨_, holds⟩
  | @goes memory memory' dctx input output buffers call reply stream owned keep serves returns more
      ih =>
    obtain ⟨tmp, holds⟩ := ih owned serves.places.allocated
    obtain ⟨answer, answers, replies⟩ := lz4fDecompress_replies serves.places serves.allocates
      serves.unstable owned (holds.enter keep call.dstBuffer)
    obtain rfl : answer = reply := Option.some.inj (answers.symm.trans returns)
    cases replies with
    | goes within result after =>
      obtain rfl := owns.unique within.owns allocated within.places.allocated
      exact ⟨_, after⟩
    | finished within result => exact absurd result more.1
    | failed within error => exact absurd (error.symm.trans more.2) (by decide)

variable (stream : Lz4fStream ours memory dctx input output) (owns : dctx.Owns bufs)
  (keep : bufs.Keep memory memory') (serves : call.Serves ours bufs)

include stream owns keep serves

/-- The next call of a stream. -/
theorem Lz4fStream.replies : ∃ reply, lz4fDecompress call dctx memory' = some reply ∧
    Lz4fReplies call ours bufs.header memory' input output reply := by
  obtain ⟨tmp, holds⟩ := stream.holds owns serves.places.allocated
  exact lz4fDecompress_replies serves.places serves.allocates serves.unstable owns
    (holds.enter keep call.dstBuffer)

/-- Every call of a stream returns and keeps to its regions; unless it is the last, all of the input
has been taken, or all of the output is used. -/
theorem lz4fDecompress_contained : ∃ reply after, lz4fDecompress call dctx memory' = some reply ∧
    reply.Within call ours dctx.header memory' after ∧
    (reply.result ≠ 0 → lz4fIsError reply.result = false →
      reply.srcSize = call.srcSize ∨ reply.dstSize = call.dstSize) := by
  obtain ⟨reply, returns, replies⟩ := stream.replies owns keep serves
  rw [← owns.header] at replies
  cases replies with
  | goes within result holds idle => exact ⟨_, _, returns, within, fun _ _ => idle⟩
  | finished within result => exact ⟨_, _, returns, within, fun more _ => absurd result more⟩
  | failed within error =>
    exact ⟨_, _, returns, within, fun _ fine => absurd (error.symm.trans fine) (by decide)⟩

omit stream owns keep serves in
/-- The second of two calls. -/
theorem lz4fDecompress_contained_small : ∃ first reply after,
    lz4fDecompress (smallCall 25) createdDctx (noBytes.given smallFront) = some first ∧
    lz4fDecompress (smallCall 14) first.st.dctx (first.st.memory.given smallBack) = some reply ∧
    reply.Within (smallCall 14) (fun _ => True) first.st.dctx.header
      (first.st.memory.given smallBack) after ∧
    (reply.result ≠ 0 → lz4fIsError reply.result = false →
      reply.srcSize = 14 ∨ reply.dstSize = 64) := by
  obtain ⟨first, returns, owns, stream, -, -⟩ := lz4fDecompress_smallFront
  obtain ⟨reply, after, contained⟩ := lz4fDecompress_contained stream owns
    (first.st.memory.given_keep (show smallBack.length ≤ 64 by decide))
    (smallCall_serves (show 14 ≤ 64 by decide) (.inr rfl))
  exact ⟨first, reply, after, returns, contained⟩

variable (returns : lz4fDecompress call dctx memory' = some reply)

include returns

/-- When a call returns zero, the stream has been a frame, or has been skipped, and its content has
been given. The next stream can begin. -/
theorem lz4fDecompress_whole (done : reply.result = 0) :
    (∃ whole : FrameUnit,
      input ++ memory'.bytesAt call.srcBuffer reply.srcSize = whole.bytes contentHash ∧
      output ++ reply.st.memory.bytesAt call.dstBuffer reply.dstSize = whole.content) ∧
    Lz4fStream ours reply.st.memory reply.st.dctx [] [] := by
  obtain ⟨answer, answers, replies⟩ := stream.replies owns keep serves
  obtain rfl : answer = reply := Option.some.inj (answers.symm.trans returns)
  cases replies with
  | goes within result => exact absurd done result.1
  | finished within result stage ready whole bytes content =>
    exact ⟨⟨whole, bytes, content⟩, .begin stage ready⟩
  | failed within error =>
    rw [done] at error
    exact absurd error (by decide)

omit stream owns keep serves returns in
/-- The two calls have decoded a frame. -/
theorem lz4fDecompress_whole_small : ∃ first reply,
    lz4fDecompress (smallCall 25) createdDctx (noBytes.given smallFront) = some first ∧
    lz4fDecompress (smallCall 14) first.st.dctx (first.st.memory.given smallBack) = some reply ∧
    (∃ whole : FrameUnit,
      [] ++ (noBytes.given smallFront).bytesAt 0x200000 first.srcSize ++
        (first.st.memory.given smallBack).bytesAt 0x200000 reply.srcSize = whole.bytes contentHash ∧
      [] ++ first.st.memory.bytesAt 0x300000 first.dstSize ++
        reply.st.memory.bytesAt 0x300000 reply.dstSize = whole.content) ∧
    Lz4fStream (fun _ => True) reply.st.memory reply.st.dctx [] [] := by
  obtain ⟨first, returns, owns, stream, back, -⟩ := lz4fDecompress_smallFront
  obtain ⟨reply, returned, done⟩ := Option.map_eq_some_iff.mp back
  exact ⟨first, reply, returns, returned, lz4fDecompress_whole stream owns
    (first.st.memory.given_keep (by decide)) (smallCall_serves (by decide) (.inr rfl)) returned done⟩

/-- An error means that a buffer could not be allocated, or that the stream does not begin with a
frame or a part of one, nor with what is skipped. -/
theorem lz4fDecompress_refuses (error : lz4fIsError reply.result = true) :
    reply.result = lz4fErr0r .allocationFailed ∨
      ∀ whole : FrameUnit, whole.EndsWell → ∀ rest tail,
        input ++ memory'.bytesAt call.srcBuffer call.srcSize ++ rest ≠
          whole.bytes contentHash ++ tail := by
  obtain ⟨answer, answers, replies⟩ := stream.replies owns keep serves
  obtain rfl : answer = reply := Option.some.inj (answers.symm.trans returns)
  cases replies with
  | goes within result => exact absurd (error.symm.trans result.2) (by decide)
  | finished within result =>
    rw [result] at error
    exact absurd error (by decide)
  | failed within error refuses => exact refuses

omit stream owns keep serves returns in
/-- The second of two calls refuses the block. -/
theorem lz4fDecompress_refuses_broken : ∃ first reply,
    lz4fDecompress (smallCall 25) createdDctx (noBytes.given smallFront) = some first ∧
    lz4fDecompress (smallCall 14) first.st.dctx (first.st.memory.given brokenBack) = some reply ∧
    (reply.result = lz4fErr0r .allocationFailed ∨
      ∀ whole : FrameUnit, whole.EndsWell → ∀ rest tail,
        [] ++ (noBytes.given smallFront).bytesAt 0x200000 first.srcSize ++
          (first.st.memory.given brokenBack).bytesAt 0x200000 14 ++ rest ≠
          whole.bytes contentHash ++ tail) := by
  obtain ⟨first, returns, owns, stream, -, broken⟩ := lz4fDecompress_smallFront
  obtain ⟨reply, returned, result⟩ := Option.map_eq_some_iff.mp broken
  exact ⟨first, reply, returns, returned, lz4fDecompress_refuses stream owns
    (first.st.memory.given_keep (by decide)) (smallCall_serves (by decide) (.inr rfl)) returned (by
      rw [result]
      decide)⟩

end Streams

end ZLoader
