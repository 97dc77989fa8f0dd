import ZLoader.Soundness.InitrdRegistration

/-! # Serving the registered initrd

The kernel asks for the size and then for the data, in any order and as often as it likes. The
callback only reads its static buffer, and writes nothing but the memory that the caller gives it, so
every call is answered as if it were the first. The registration however replaces the static buffer
before the firmware is asked, and what the firmware refuses stays there.
-/

namespace ZLoader

section Callback

variable {build : Build} {statics : InitrdStatics} {initrd : SimpleBuffer} {call : LoadFileCall}
  {bufferSize length : UInt64}

/-- The arguments that the protocol asks for. -/
structure LoadFileCall.Valid (statics : InitrdStatics) (call : LoadFileCall) (bufferSize : UInt64) :
    Prop where
  this : call.this = statics.loadFile2 ∧ call.this ≠ 0
  path : ∃ node, call.filePath = some node ∧ isDevicePathEndNode node = true
  policy : call.bootPolicy = false
  size : call.bufferSize = some bufferSize

/-- A call with valid arguments goes by the static buffer. -/
theorem fl2LoadFile_valid (valid : call.Valid statics bufferSize) (nonnull : initrd.buffer ≠ 0) :
    fl2LoadFile build statics initrd call = (bufferLen build initrd).bind fun length =>
      if length == 0 then call.refuse efiNotFound
      else if call.buffer == 0 || bufferSize < length then
        .ok ⟨efiBufferTooSmall, some length, none⟩
      else (bufferPos build initrd).bind fun position =>
        .ok ⟨efiSuccess, some length, some (position, length)⟩ := by
  obtain ⟨⟨same, this⟩, ⟨node, path, ends⟩, policy, size⟩ := valid
  rw [same] at this
  simp [fl2LoadFile, path, size, same, this, policy, ends, nonnull]

/-- Any other call is refused, whatever the static buffer is. -/
theorem fl2LoadFile_invalid (invalid : ∀ bufferSize, ¬ call.Valid statics bufferSize) :
    ∃ status, efiError status = true ∧
      ∀ initrd, fl2LoadFile build statics initrd call = call.refuse status := by
  cases size : call.bufferSize with
  | none => exact ⟨efiInvalidParameter, by decide, fun initrd => by rw [fl2LoadFile, size]⟩
  | some bufferSize =>
    cases path : call.filePath with
    | none =>
      exact ⟨efiInvalidParameter, by decide, fun initrd => by rw [fl2LoadFile, size, path]⟩
    | some node =>
      by_cases other : (call.this == 0 || call.this != statics.loadFile2) = true
      · refine ⟨efiInvalidParameter, by decide, fun initrd => ?_⟩
        rw [fl2LoadFile, size, path]
        exact if_pos other
      · cases policy : call.bootPolicy with
        | true =>
          refine ⟨efiUnsupported, by decide, fun initrd => ?_⟩
          rw [fl2LoadFile, size, path, policy]
          exact if_neg other
        | false =>
          have inner : isDevicePathEndNode node = false := by
            by_contra ends
            simp only [Bool.or_eq_true, beq_iff_eq, bne_iff_ne, not_or, not_not] at other
            exact invalid bufferSize
              ⟨⟨other.2, other.1⟩, ⟨node, path, Bool.eq_true_of_not_eq_false ends⟩, policy, size⟩
          refine ⟨efiUnsupported, by decide, fun initrd => ?_⟩
          rw [fl2LoadFile, size, path, policy]
          dsimp only
          rw [if_neg other, inner]
          rfl

end Callback

/-! ## The kernel's calls -/

section Service

variable {build : Build} {statics : InitrdStatics} {initrd : SimpleBuffer} {call : LoadFileCall}
  {bufferSize : UInt64}

/-- The data of a buffer: from its cursor to its end, by addresses. -/
def SimpleBuffer.data (buffer : SimpleBuffer) : Window :=
  ⟨(buffer.buffer + buffer.pos).toNat, (buffer.length - buffer.pos).toNat⟩

/-- The call is given a buffer that is large enough. -/
def LoadFileCall.Fetches (call : LoadFileCall) (bufferSize : UInt64) (initrd : SimpleBuffer) :
    Prop :=
  call.buffer ≠ 0 ∧ initrd.length - initrd.pos ≤ bufferSize

/-- The memory that a call is given for the data is not where the data is, as `memcpy` requires. -/
def LoadFileCall.Apart (statics : InitrdStatics) (initrd : SimpleBuffer) (call : LoadFileCall) :
    Prop :=
  ∀ bufferSize, call.Valid statics bufferSize → call.Fetches bufferSize initrd →
    Window.Disjoint ⟨call.buffer.toNat, initrd.data.length⟩ initrd.data

theorem remaining_ne_zero (nonempty : initrd.pos < initrd.length) :
    initrd.length - initrd.pos ≠ 0 := by
  intro same
  have size := UInt64.toNat_sub_of_le _ _ (UInt64.le_of_lt nonempty)
  rw [same] at size
  exact Nat.sub_ne_zero_of_lt (UInt64.lt_iff_toNat_lt.mp nonempty) size.symm

/-- The answer to a call for these registered bytes, and what it does to the memory. -/
structure AnswersCall (statics : InitrdStatics) (initrd : SimpleBuffer) (registered : List UInt8)
    (call : LoadFileCall) (reply : Outcome LoadFileReply) (before after : ByteStore) : Prop where
  tooSmall : ∀ bufferSize, call.Valid statics bufferSize → ¬ call.Fetches bufferSize initrd →
    reply = .ok ⟨efiBufferTooSmall, some (initrd.length - initrd.pos), none⟩ ∧ after = before
  fetched : ∀ bufferSize, call.Valid statics bufferSize → call.Fetches bufferSize initrd →
    (∃ copied, reply = .ok ⟨efiSuccess, some (initrd.length - initrd.pos), copied⟩) ∧
      after.bytesAt call.buffer.toNat registered.length = registered ∧
      ByteStore.Keeps (fun address => ¬ (Window.mk call.buffer.toNat registered.length).Contains address)
        before after
  refused : (∀ bufferSize, ¬ call.Valid statics bufferSize) → ∃ status, efiError status = true ∧
    reply = .ok ⟨status, call.bufferSize, none⟩ ∧ after = before

/-- A call that cannot be given the data is told its size. -/
theorem fl2LoadFile_query (quiet : build.ndebug = true) (nonnull : initrd.buffer ≠ 0)
    (nonempty : initrd.pos < initrd.length) (valid : call.Valid statics bufferSize)
    (short : ¬ call.Fetches bufferSize initrd) :
    fl2LoadFile build statics initrd call =
      .ok ⟨efiBufferTooSmall, some (initrd.length - initrd.pos), none⟩ := by
  have some_ := remaining_ne_zero nonempty
  have tooSmall : (call.buffer == 0 || decide (bufferSize < initrd.length - initrd.pos)) = true := by
    rw [Bool.or_eq_true, beq_iff_eq, decide_eq_true_eq, ← UInt64.not_le]
    exact or_iff_not_and_not.mpr fun both => short ⟨both.1, not_not.mp both.2⟩
  rw [fl2LoadFile_valid valid nonnull, bufferLen_of_ndebug quiet, Outcome.bind,
    if_neg (by simpa using some_), if_pos tooSmall]

/-- A call with room for the data is given the data. -/
theorem fl2LoadFile_fetch (quiet : build.ndebug = true) (nonnull : initrd.buffer ≠ 0)
    (nonempty : initrd.pos < initrd.length) (valid : call.Valid statics bufferSize)
    (fetches : call.Fetches bufferSize initrd) :
    fl2LoadFile build statics initrd call =
      .ok ⟨efiSuccess, some (initrd.length - initrd.pos),
        some (initrd.buffer + initrd.pos, initrd.length - initrd.pos)⟩ := by
  have some_ := remaining_ne_zero nonempty
  have room : ¬ (call.buffer == 0 || decide (bufferSize < initrd.length - initrd.pos)) = true := by
    rw [Bool.or_eq_true, beq_iff_eq, decide_eq_true_eq, ← UInt64.not_le, not_or, not_not]
    exact fetches
  rw [fl2LoadFile_valid valid nonnull, bufferLen_of_ndebug quiet, Outcome.bind,
    if_neg (by simpa using some_), if_neg room, bufferPos_of_ndebug quiet]
  rfl

/-- The registered bytes: those of the data, in the memory at the registration. -/
def SimpleBuffer.bytes (buffer : SimpleBuffer) (memory : ByteStore) : List UInt8 :=
  memory.bytesAt buffer.data.start buffer.data.length

/-- The static buffer is still the registered one, and its data are where they were. -/
structure InitrdKept (start st : LoadFileState) : Prop where
  initrd : st.initrd = start.initrd
  data : ByteStore.Keeps start.initrd.data.Contains start.memory st.memory

theorem InitrdKept.bytes {start st : LoadFileState} (kept : InitrdKept start st) :
    st.memory.bytesAt start.initrd.data.start start.initrd.data.length =
      start.initrd.bytes start.memory := by
  apply List.map_congr_left
  intro index member
  have bound := List.mem_range.mp member
  exact kept.data _ ⟨Nat.le_add_right _ _, Nat.add_lt_add_left bound _⟩

theorem serve_initrd (call : LoadFileCall) (st : LoadFileState) :
    (call.serve build statics st).2.initrd = st.initrd := by
  rw [LoadFileCall.serve]
  split <;> rfl

section Step

variable {start st : LoadFileState} (quiet : build.ndebug = true) (nonnull : start.initrd.buffer ≠ 0)
  (nonempty : start.initrd.pos < start.initrd.length) (kept : InitrdKept start st)

include quiet nonnull nonempty kept

/-- A call is answered for the registered bytes. -/
theorem answersCall (call : LoadFileCall) :
    AnswersCall statics start.initrd (start.initrd.bytes start.memory) call
      (call.serve build statics st).1 st.memory (call.serve build statics st).2.memory := by
  refine ⟨fun bufferSize valid short => ?_, fun bufferSize valid fetches => ?_, fun invalid => ?_⟩
  · rw [LoadFileCall.serve, kept.initrd, fl2LoadFile_query quiet nonnull nonempty valid short]
    exact ⟨rfl, rfl⟩
  · have size : (start.initrd.bytes start.memory).length = start.initrd.data.length := by
      simp [SimpleBuffer.bytes, ByteStore.bytesAt]
    rw [LoadFileCall.serve, kept.initrd, fl2LoadFile_fetch quiet nonnull nonempty valid fetches, size]
    refine ⟨⟨_, rfl⟩, ?_, ByteStore.keeps_apply _ _ fun _ outside => outside⟩
    rw [← kept.bytes]
    exact ByteStore.bytesAt_apply_copy ..
  · obtain ⟨status, error, same⟩ := @fl2LoadFile_invalid build statics call invalid
    refine ⟨status, error, ?_⟩
    rw [LoadFileCall.serve, same]
    exact ⟨rfl, rfl⟩

/-- A call keeps the registered bytes when its memory is apart from them. -/
theorem InitrdKept.serve {call : LoadFileCall} (apart : call.Apart statics start.initrd) :
    InitrdKept start (call.serve build statics st).2 := by
  have answered := @answersCall _ statics _ _ quiet nonnull nonempty kept call
  refine ⟨(serve_initrd call st).trans kept.initrd, kept.data.trans ?_⟩
  by_cases valid : ∃ bufferSize, call.Valid statics bufferSize
  · obtain ⟨bufferSize, valid⟩ := valid
    by_cases fetches : call.Fetches bufferSize start.initrd
    · have size : (start.initrd.bytes start.memory).length = start.initrd.data.length := by
        simp [SimpleBuffer.bytes, ByteStore.bytesAt]
      obtain ⟨-, -, outside⟩ := answered.fetched bufferSize valid fetches
      rw [size] at outside
      exact outside.mono fun address inside written => apart bufferSize valid fetches address written inside
    · rw [(answered.tooSmall bufferSize valid fetches).2]
      exact .refl _ _
  · obtain ⟨_, _, _, same⟩ := answered.refused (not_exists.mp valid)
    rw [same]
    exact .refl _ _

end Step

/-- After every run of calls the registered bytes are where they were. -/
theorem initrdKept_run (quiet : build.ndebug = true) {start : LoadFileState}
    (nonnull : start.initrd.buffer ≠ 0) (nonempty : start.initrd.pos < start.initrd.length)
    {calls before : List LoadFileCall} (apart : ∀ call ∈ calls, call.Apart statics start.initrd)
    (reached : before <+: calls) :
    InitrdKept start (serveAll (LoadFileCall.serve build statics) start before) := by
  refine serveAll_invariant (LoadFileCall.serve build statics) (fun st _ => InitrdKept start st)
    ⟨rfl, .refl _ _⟩ (fun before call within kept => ?_) reached
  have member : call ∈ calls := within.subset (by simp)
  exact kept.serve quiet nonnull nonempty (apart call member)

/-- In every run of calls, each one is answered for the registered bytes, and as if it were the
first. -/
structure ServesRegistered (build : Build) (statics : InitrdStatics) (start : LoadFileState)
    (calls : List LoadFileCall) : Prop where
  answers : ∀ before call, before ++ [call] <+: calls →
    let st := serveAll (LoadFileCall.serve build statics) start before
    AnswersCall statics start.initrd (start.initrd.bytes start.memory) call
      (call.serve build statics st).1 st.memory (call.serve build statics st).2.memory
  unchanged : ∀ before, before <+: calls → ∀ call : LoadFileCall,
    loadFileAnswer build statics (serveAll (LoadFileCall.serve build statics) start before) call =
      loadFileAnswer build statics start call

theorem InitrdKept.answer (quiet : build.ndebug = true) {start st : LoadFileState}
    (nonnull : start.initrd.buffer ≠ 0) (nonempty : start.initrd.pos < start.initrd.length)
    (kept : InitrdKept start st) (call : LoadFileCall) :
    loadFileAnswer build statics st call = loadFileAnswer build statics start call := by
  rw [loadFileAnswer, loadFileAnswer, kept.initrd]
  by_cases valid : ∃ bufferSize, call.Valid statics bufferSize
  · obtain ⟨bufferSize, valid⟩ := valid
    by_cases fetches : call.Fetches bufferSize start.initrd
    · rw [fl2LoadFile_fetch quiet nonnull nonempty valid fetches]
      have same := kept.bytes
      simp only [SimpleBuffer.bytes, SimpleBuffer.data] at same
      simp only [Outcome.bind, Option.map_some, same]
    · rw [fl2LoadFile_query quiet nonnull nonempty valid fetches]
      rfl
  · obtain ⟨status, -, same⟩ := @fl2LoadFile_invalid build statics call (not_exists.mp valid)
    rw [same]
    rfl

/-- The static buffer after a successful registration is the registered one. -/
theorem initrdRegister_initrd {D : Type} {firmware : Firmware D} {st next : InitrdState D}
    (nonnull : initrd.buffer ≠ 0) (nonempty : initrd.length ≠ 0)
    (registered : initrdRegister firmware statics initrd st = (efiSuccess, next)) :
    next.initrd = initrd := by
  rw [initrdRegister, if_neg (by simp [nonnull, nonempty])] at registered
  split at registered
  · obtain ⟨-, rfl⟩ := Prod.mk.inj registered
    rfl
  · obtain ⟨-, rfl⟩ := Prod.mk.inj registered
    rfl

/-- And there is a handle for it. -/
theorem initrdRegister_initrdHandle {D : Type} {firmware : Firmware D} {st next : InitrdState D}
    (nonnull : initrd.buffer ≠ 0) (nonempty : initrd.length ≠ 0)
    (registered : initrdRegister firmware statics initrd st = (efiSuccess, next)) :
    next.initrdHandle.isSome := by
  rw [initrdRegister, if_neg (by simp [nonnull, nonempty])] at registered
  split at registered
  · obtain ⟨-, rfl⟩ := Prod.mk.inj registered
    rfl
  · exact absurd (Prod.mk.inj registered).1 (failure_ne_success _)

/-- Once an initrd with data has been registered, the kernel's calls are served from it, in any
order and number. -/
theorem servesRegistered {D : Type} {firmware : Firmware D} {st next : InitrdState D}
    (quiet : build.ndebug = true) (nonnull : initrd.buffer ≠ 0) (nonempty : initrd.pos < initrd.length)
    (registered : initrdRegister firmware statics initrd st = (efiSuccess, next))
    (memory : ByteStore) {calls : List LoadFileCall}
    (apart : ∀ call ∈ calls, call.Apart statics initrd) :
    ServesRegistered build statics ⟨next.initrd, memory⟩ calls := by
  have some_ : initrd.length ≠ 0 := by
    intro none
    rw [none] at nonempty
    exact UInt64.not_lt_zero nonempty
  rw [initrdRegister_initrd nonnull some_ registered]
  refine ⟨fun before call within => ?_, fun before within call => ?_⟩
  · have kept := @initrdKept_run _ statics quiet ⟨initrd, memory⟩ nonnull nonempty _ _ apart
      ((List.prefix_append before [call]).trans within)
    exact answersCall quiet nonnull nonempty kept call
  · have kept := @initrdKept_run _ statics quiet ⟨initrd, memory⟩ nonnull nonempty _ _ apart within
    exact kept.answer quiet nonnull nonempty call

/-- Query, fetch, and a call with a path that does not end. -/
def smallCalls : List LoadFileCall :=
  [⟨0x403000, some ⟨0x7f, 0xff, 4⟩, false, some 0, 0⟩,
    ⟨0x403000, some ⟨0x7f, 0xff, 4⟩, false, some 64, 0x600000⟩,
    ⟨0x403000, some ⟨4, 3, 20⟩, false, some 64, 0x600000⟩]

theorem servesRegistered_smallCalls :
    ServesRegistered { defaultBuild with ndebug := true } smallStatics
      ⟨smallInitrd, fun address => UInt8.ofNat address⟩ smallCalls := by
  have buffers : ∀ call ∈ smallCalls, call.buffer = 0 ∨
      Window.Disjoint ⟨call.buffer.toNat, smallInitrd.data.length⟩ smallInitrd.data := by
    decide +kernel
  have registered : initrdRegister smallFirmware smallStatics smallInitrd unregisteredState =
    (efiSuccess, _) := rfl
  apply servesRegistered rfl (by decide) (by decide) registered _
  intro call member bufferSize valid fetches
  exact (buffers call member).resolve_left fetches.1

end Service

/-! ## A refused registration -/

section Refused

variable {D : Type} {build : Build} {firmware : Firmware D} {statics : InitrdStatics}
  {initrd first second : SimpleBuffer} {call : LoadFileCall} {bufferSize : UInt64}

/-- The bytes of a buffer through its accessors. -/
def heldBytes (build : Build) (memory : ByteStore) (buffer : SimpleBuffer) (length : UInt64) :
    Outcome (List UInt8) :=
  (bufferPos build buffer).bind fun position => .ok (memory.bytesAt position.toNat length.toNat)

/-- Two buffers hold as many bytes, and the same ones; none are looked at where there are none. -/
structure HoldSame (build : Build) (memory : ByteStore) (first second : SimpleBuffer) : Prop where
  length : bufferLen build first = bufferLen build second
  bytes : ∀ length, bufferLen build first = .ok length → length ≠ 0 →
    heldBytes build memory first length = heldBytes build memory second length

/-- The callback answers every call as it did before. -/
def AnswersKept (build : Build) (statics : InitrdStatics) (memory : ByteStore)
    (before after : InitrdState D) : Prop :=
  ∀ call, loadFileAnswer build statics ⟨before.initrd, memory⟩ call =
    loadFileAnswer build statics ⟨after.initrd, memory⟩ call

/-- The answer to a valid call in terms of the bytes held. -/
theorem loadFileAnswer_valid (memory : ByteStore) (valid : call.Valid statics bufferSize)
    (nonnull : initrd.buffer ≠ 0) :
    loadFileAnswer build statics ⟨initrd, memory⟩ call = (bufferLen build initrd).bind fun length =>
      if length = 0 then .ok ⟨efiNotFound, some bufferSize, none⟩
      else if call.buffer = 0 ∨ bufferSize < length then
        .ok ⟨efiBufferTooSmall, some length, none⟩
      else (heldBytes build memory initrd length).bind fun bytes =>
        .ok ⟨efiSuccess, some length, some bytes⟩ := by
  rw [loadFileAnswer, fl2LoadFile_valid valid nonnull]
  cases bufferLen build initrd with
  | ok length =>
    simp only [Outcome.bind, beq_iff_eq, Bool.or_eq_true, decide_eq_true_eq]
    split_ifs
    · rw [LoadFileCall.refuse, valid.size]
      rfl
    · rfl
    · rw [heldBytes]
      cases bufferPos build initrd <;> rfl
  | error status => rfl
  | assertionFailed assertion => rfl

/-- A query and a fetch of so many bytes. -/
def queryCall (statics : InitrdStatics) : LoadFileCall :=
  ⟨statics.loadFile2, some ⟨endDevicePathType, endEntireDevicePathSubtype, 4⟩, false, some 0, 0⟩

def fetchCall (statics : InitrdStatics) (length : UInt64) : LoadFileCall :=
  { queryCall statics with bufferSize := some length, buffer := 1 }

theorem queryCall_valid (loaded : statics.loadFile2 ≠ 0) : (queryCall statics).Valid statics 0 :=
  ⟨⟨rfl, loaded⟩, ⟨_, rfl, rfl⟩, rfl, rfl⟩

theorem fetchCall_valid (loaded : statics.loadFile2 ≠ 0) (length : UInt64) :
    (fetchCall statics length).Valid statics length :=
  ⟨⟨rfl, loaded⟩, ⟨_, rfl, rfl⟩, rfl, rfl⟩

theorem loadFileAnswer_query (loaded : statics.loadFile2 ≠ 0) (memory : ByteStore)
    (nonnull : initrd.buffer ≠ 0) :
    loadFileAnswer build statics ⟨initrd, memory⟩ (queryCall statics) =
      (bufferLen build initrd).bind fun length =>
        .ok (if length = 0 then ⟨efiNotFound, some 0, none⟩
          else ⟨efiBufferTooSmall, some length, none⟩) := by
  have null : (queryCall statics).buffer = 0 := rfl
  rw [loadFileAnswer_valid memory (queryCall_valid loaded) nonnull]
  cases bufferLen build initrd with
  | ok length =>
    simp only [Outcome.bind, null, true_or, if_true]
    split_ifs <;> rfl
  | error status => rfl
  | assertionFailed assertion => rfl

/-- Equal answers to a query are for equal lengths. -/
theorem bufferLen_of_query (loaded : statics.loadFile2 ≠ 0) {memory : ByteStore}
    (nonnull : first.buffer ≠ 0) (other : second.buffer ≠ 0)
    (same : loadFileAnswer build statics ⟨first, memory⟩ (queryCall statics) =
      loadFileAnswer build statics ⟨second, memory⟩ (queryCall statics)) :
    bufferLen build first = bufferLen build second := by
  have distinct : efiNotFound ≠ efiBufferTooSmall := by decide
  rw [loadFileAnswer_query loaded memory nonnull, loadFileAnswer_query loaded memory other] at same
  rcases bufferLen_cases build first with known | aborted <;>
    rcases bufferLen_cases build second with known' | aborted'
  · rw [known, known'] at same ⊢
    simp only [Outcome.bind, Outcome.ok.injEq] at same
    split_ifs at same with none none' none'
    · rw [none, none']
    · exact absurd (congrArg LoadFileAnswer.status same) distinct
    · exact absurd (congrArg LoadFileAnswer.status same) distinct.symm
    · rw [Option.some.inj (congrArg LoadFileAnswer.bufferSize same)]
  · rw [known, aborted'] at same
    cases same
  · rw [aborted, known'] at same
    cases same
  · rw [aborted, aborted']

/-- Equal answers to a fetch are for equal bytes. -/
theorem heldBytes_of_fetch (loaded : statics.loadFile2 ≠ 0) {memory : ByteStore} {length : UInt64}
    (nonnull : first.buffer ≠ 0) (other : second.buffer ≠ 0)
    (known : bufferLen build first = .ok length) (known' : bufferLen build second = .ok length)
    (nonempty : length ≠ 0)
    (same : loadFileAnswer build statics ⟨first, memory⟩ (fetchCall statics length) =
      loadFileAnswer build statics ⟨second, memory⟩ (fetchCall statics length)) :
    heldBytes build memory first length = heldBytes build memory second length := by
  have valid := fetchCall_valid loaded length
  have room : ¬ ((fetchCall statics length).buffer = 0 ∨ length < length) :=
    not_or.mpr ⟨by simp [fetchCall], UInt64.lt_irrefl _⟩
  rw [loadFileAnswer_valid memory valid nonnull, loadFileAnswer_valid memory valid other, known,
    known'] at same
  simp only [Outcome.bind, if_neg nonempty, if_neg room] at same
  cases held : heldBytes build memory first length <;>
    cases held' : heldBytes build memory second length <;> simp_all

/-- Two buffers give the same answers exactly when they hold the same bytes. -/
theorem answers_eq_iff (loaded : statics.loadFile2 ≠ 0) (memory : ByteStore)
    (nonnull : first.buffer ≠ 0) (other : second.buffer ≠ 0) :
    (∀ call, loadFileAnswer build statics ⟨first, memory⟩ call =
      loadFileAnswer build statics ⟨second, memory⟩ call) ↔ HoldSame build memory first second := by
  constructor
  · intro same
    have length := bufferLen_of_query loaded nonnull other (same (queryCall statics))
    refine ⟨length, fun size known nonempty => ?_⟩
    exact heldBytes_of_fetch loaded nonnull other known (length.symm.trans known) nonempty (same _)
  · rintro ⟨length, bytes⟩ call
    by_cases valid : ∃ bufferSize, call.Valid statics bufferSize
    · obtain ⟨bufferSize, valid⟩ := valid
      rw [loadFileAnswer_valid memory valid nonnull, loadFileAnswer_valid memory valid other, ← length]
      cases known : bufferLen build first with
      | ok size =>
        simp only [Outcome.bind]
        split_ifs with none short
        · rfl
        · rfl
        · rw [bytes size known none]
      | error status => rfl
      | assertionFailed assertion => rfl
    · obtain ⟨status, -, refused⟩ := @fl2LoadFile_invalid build statics call (not_exists.mp valid)
      rw [loadFileAnswer, loadFileAnswer, refused, refused]

/-- What the firmware refuses is in the static buffer already. -/
theorem initrdRegister_refused {st : InitrdState D}
    (refused : efiError (initrdRegister firmware statics second st).1 = true) :
    second.buffer ≠ 0 ∧ (initrdRegister firmware statics second st).2.initrd = second := by
  rw [initrdRegister] at refused ⊢
  split_ifs at refused ⊢ with empty
  · exact absurd refused (by simp [efiError, efiSuccess])
  · simp only [Bool.or_eq_true, beq_iff_eq, not_or] at empty
    refine ⟨empty.1, ?_⟩
    split <;> rfl

/-- The callback goes on serving the same bytes after a refused registration exactly when the
refused buffer holds the bytes that were registered. -/
theorem answersKept_iff (loaded : statics.loadFile2 ≠ 0) (memory : ByteStore) {st : InitrdState D}
    (registered : st.initrd.buffer ≠ 0)
    (refused : efiError (initrdRegister firmware statics second st).1 = true) :
    AnswersKept build statics memory st (initrdRegister firmware statics second st).2 ↔
      HoldSame build memory st.initrd second := by
  obtain ⟨nonnull, replaced⟩ := initrdRegister_refused refused
  rw [AnswersKept, replaced]
  exact answers_eq_iff loaded memory registered nonnull

/-- Registering the same bytes once more is refused and changes nothing. -/
theorem answersKept_smallInitrd :
    AnswersKept defaultBuild smallStatics (fun address => UInt8.ofNat address)
      (initrdRegister smallFirmware smallStatics smallInitrd unregisteredState).2
      (initrdRegister smallFirmware smallStatics smallInitrd
        (initrdRegister smallFirmware smallStatics smallInitrd unregisteredState).2).2 :=
  (answersKept_iff (by decide) _ (by decide) (by decide)).mpr ⟨rfl, fun _ _ _ => rfl⟩

/-- A refused registration of other bytes has them served. -/
theorem not_answersKept_otherInitrd :
    ¬ ∀ (build : Build) (D : Type) (firmware : Firmware D) (statics : InitrdStatics)
      (start st : InitrdState D) (first second : SimpleBuffer) (memory : ByteStore),
      StubLoaded firmware statics start → first.buffer ≠ 0 → first.length ≠ 0 →
        initrdRegister firmware statics first start = (efiSuccess, st) →
          efiError (initrdRegister firmware statics second st).1 = true →
            AnswersKept build statics memory st (initrdRegister firmware statics second st).2 := by
  intro claim
  have kept := claim { defaultBuild with ndebug := true } SmallDatabase smallFirmware smallStatics
    unregisteredState _ smallInitrd { smallInitrd with length := 32 } (fun _ => 0)
    stubLoaded_smallFirmware (by decide) (by decide) rfl (by decide) (queryCall smallStatics)
  revert kept
  decide

end Refused

end ZLoader
