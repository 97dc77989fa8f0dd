import ZLoader.Model.Enrolment
import ZLoader.Soundness.FileBuffers

/-! # Enrolling the keys in order

Whatever the firmware answers, the keys are written in one order and the platform key last, only in
setup mode and only once all three files have been read; a write that fails is the last one.
-/

namespace ZLoader

/-- The variables in the order in which they are written. -/
def enrolmentOrder : List (Guid × List Char) :=
  [(efiGlobalVariableGuid, "KEK".toList), (efiImageSecurityDatabase1Guid, "db".toList),
    (efiGlobalVariableGuid, "PK".toList)]

section Order

variable {V : Type} (firmware : LockdownFirmware V)

/-- The variables after some writes. -/
def LockdownFirmware.after (vars : V) (writes : List VariableWrite) : V :=
  writes.foldl
    (fun vars write =>
      (firmware.setVariable vars write.guid write.name write.attributes write.data).2) vars

/-- The platform is in a mode that a variable reports. -/
def LockdownFirmware.InMode (vars : V) (name : List Char) : Prop :=
  efiError (firmware.getVariable vars efiGlobalVariableGuid name).1 = false ∧
    (firmware.getVariable vars efiGlobalVariableGuid name).2 = 1

/-- A run writes the variables of a plan from the front, stops behind a write that fails, and
succeeds if it has written all of them and the platform is in secure mode then. -/
structure WritesInOrder (plan : List (Guid × List Char)) (vars : V) (run : LockdownRun V) :
    Prop where
  order : (run.writes.map fun write => (write.guid, write.name)) <+: plan
  attributes : ∀ write ∈ run.writes, write.attributes = enrolmentAttributes
  stops : ∀ write ∈ run.writes.dropLast, efiError write.status = false
  vars : run.vars = firmware.after vars run.writes
  success : run.ended = .returned efiSuccess ↔
    run.writes.length = plan.length ∧ (∀ write ∈ run.writes, efiError write.status = false) ∧
      firmware.InMode run.vars "SecureBoot".toList

variable {firmware} {vars : V}

/-- A run that ends in front of its first write without success. -/
theorem writesInOrder_stop {plan : List (Guid × List Char)} {ended : ReadFileEnd}
    (more : plan ≠ []) (failed : ended ≠ .returned efiSuccess) :
    WritesInOrder firmware plan vars (.stop ended vars) where
  order := List.nil_prefix
  attributes write member := absurd member List.not_mem_nil
  stops write member := absurd member List.not_mem_nil
  vars := rfl
  success := by
    refine ⟨fun ended => absurd ended failed, fun ⟨length, _⟩ => ?_⟩
    exact absurd (List.length_eq_zero_iff.mp length.symm) more

theorem ne_success_of_efiError {status : EfiStatus} (failed : efiError status = true) :
    ReadFileEnd.returned status ≠ .returned efiSuccess := by
  intro same
  rw [ReadFileEnd.returned.inj same] at failed
  exact absurd failed (by decide)

theorem writesInOrder_checkSecureBoot :
    WritesInOrder firmware [] vars (checkSecureBoot firmware vars) := by
  have nothing (ended : ReadFileEnd)
      (success : ended = .returned efiSuccess ↔ firmware.InMode vars "SecureBoot".toList) :
      WritesInOrder firmware [] vars (.stop ended vars) :=
    { order := List.nil_prefix
      attributes := fun write member => absurd member List.not_mem_nil
      stops := fun write member => absurd member List.not_mem_nil
      vars := rfl
      success := by simpa [LockdownRun.stop] using success }
  rw [checkSecureBoot]
  dsimp only
  split_ifs with failed other
  · exact nothing _ ⟨fun same => absurd same (ne_success_of_efiError failed),
      fun secure => absurd (secure.1.symm.trans failed) Bool.false_ne_true⟩
  · exact nothing _ ⟨fun same => absurd same (by decide), fun secure => absurd secure.2 (bne_iff_ne.mp other)⟩
  · exact nothing _ (iff_of_true rfl ⟨Bool.not_eq_true _ ▸ failed, by simpa using other⟩)

/-- A write in front of a plan. -/
theorem writesInOrder_enrol {plan : List (Guid × List Char)} {next : V → LockdownRun V} {guid : Guid}
    {name : List Char} {memory : ByteStore} {buffer : SimpleBuffer}
    (later : ∀ vars, WritesInOrder firmware plan vars (next vars)) :
    WritesInOrder firmware ((guid, name) :: plan) vars
      (enrol firmware guid name memory buffer vars next) := by
  rw [enrol]
  split
  case h_2 => exact writesInOrder_stop (List.cons_ne_nil _ _) (by decide)
  case h_1 length position _ _ =>
    dsimp only
    split_ifs with failed
    · -- the write has failed, and is the only one
      refine ⟨?_, ?_, ?_, rfl, ?_⟩
      · exact (List.prefix_cons_inj _).mpr List.nil_prefix
      · simp [LockdownRun.afterWrite, LockdownRun.stop]
      · simp [LockdownRun.afterWrite, LockdownRun.stop]
      · refine ⟨fun same => absurd same (ne_success_of_efiError failed), fun ⟨_, all, _⟩ => ?_⟩
        have succeeded := all _ List.mem_cons_self
        rw [failed] at succeeded
        cases succeeded
    · have rest := later (firmware.setVariable vars guid name enrolmentAttributes
        (memory.bytesAt position.toNat length.toNat)).2
      generalize next _ = run at rest
      refine ⟨(List.prefix_cons_inj _).mpr rest.order, ?_, ?_, rest.vars, ?_⟩
      · simpa [LockdownRun.afterWrite] using rest.attributes
      · intro write member
        rcases List.eq_nil_or_concat run.writes with none_ | ⟨front, last, some_⟩
        · rw [LockdownRun.afterWrite, none_] at member
          exact absurd member List.not_mem_nil
        · rw [LockdownRun.afterWrite, List.dropLast_cons_of_ne_nil (by simp [some_])] at member
          rcases List.mem_cons.mp member with rfl | other
          · simpa using failed
          · exact rest.stops write other
      · refine rest.success.trans ?_
        simp [LockdownRun.afterWrite, failed]

theorem writesInOrder_enrolKeys (memory : ByteStore) (kek db pk : SimpleBuffer) :
    WritesInOrder firmware enrolmentOrder vars (enrolKeys firmware memory kek db pk vars) :=
  writesInOrder_enrol fun _ => writesInOrder_enrol fun _ => writesInOrder_enrol fun _ =>
    writesInOrder_checkSecureBoot

/-- Runs that differ in nothing but their memory. -/
structure LockdownRun.Like (run other : LockdownRun V) : Prop where
  ended : run.ended = other.ended
  vars : run.vars = other.vars
  writes : run.writes = other.writes

/-- The scope of memory plays no part. -/
theorem LockdownRun.inScope_like (before cleanup : List (Movement UInt64)) (run : LockdownRun V) :
    (run.inScope before cleanup).Like run := ⟨rfl, rfl, rfl⟩

theorem WritesInOrder.of_like {plan : List (Guid × List Char)} {run other : LockdownRun V}
    (inOrder : WritesInOrder firmware plan vars other) (like : run.Like other) :
    WritesInOrder firmware plan vars run := by
  obtain ⟨order, attributes, stops, same, success⟩ := inOrder
  rw [← like.writes] at order attributes stops same success
  rw [← like.vars] at same success
  rw [← like.ended] at success
  exact ⟨order, attributes, stops, same, success⟩

/-- A run that writes nothing and does not succeed. -/
def StopsEarly (vars : V) (run : LockdownRun V) : Prop :=
  ∃ ended ≠ ReadFileEnd.returned efiSuccess, run.Like (.stop ended vars)

theorem stopsEarly_stop {ended : ReadFileEnd} (failed : ended ≠ .returned efiSuccess) :
    StopsEarly vars (.stop ended vars) := ⟨ended, failed, rfl, rfl, rfl⟩

theorem stopsEarly_of_efiError {status : EfiStatus} (failed : efiError status = true) :
    StopsEarly vars (.stop (.returned status) vars) :=
  stopsEarly_stop (ne_success_of_efiError failed)

end Order

section Loading

variable {V : Type} (firmware : LockdownFirmware V) (memory : ByteStore)

def LockdownFirmware.kekRead : ReadFileRun :=
  readFileToBuffer firmware.build (firmware.file "KEK.auth".toList) memory zeroBuffer

def LockdownFirmware.dbRead : ReadFileRun :=
  readFileToBuffer firmware.build (firmware.file "db.auth".toList) (firmware.kekRead memory).memory
    zeroBuffer

def LockdownFirmware.pkRead : ReadFileRun :=
  readFileToBuffer firmware.build (firmware.file "PK.auth".toList) (firmware.dbRead memory).memory
    zeroBuffer

/-- A file has been read. -/
def ReadFileRun.Loaded (run : ReadFileRun) : Prop :=
  ∃ status, run.ended = .returned status ∧ efiError status = false

/-- The platform is in setup mode, and all three files can be read. -/
structure LockdownFirmware.Ready (vars : V) : Prop where
  setupMode : firmware.InMode vars "SetupMode".toList
  kek : (firmware.kekRead memory).Loaded
  db : (firmware.dbRead memory).Loaded
  pk : (firmware.pkRead memory).Loaded

variable {firmware memory} {vars : V}

/-- What follows a file happens if it has been read. -/
theorem loadFile_cases (filename : List Char) (next : ByteStore → SimpleBuffer → LockdownRun V)
    {read : ReadFileRun}
    (reads : readFileToBuffer firmware.build (firmware.file filename) memory zeroBuffer = read) :
    (read.Loaded ∧
        (loadFile firmware filename memory vars next).Like (next read.memory read.buffer)) ∨
      StopsEarly vars (loadFile firmware filename memory vars next) := by
  rw [loadFile, reads]
  have scope := LockdownRun.inScope_like (V := V) read.movements (freeBufferMovements read.buffer)
  cases ended : read.ended with
  | returned status =>
    cases failed : efiError status with
    | true =>
      simp only [failed, if_true]
      exact .inr ⟨_, ne_success_of_efiError failed, scope _⟩
    | false =>
      simp only [failed, Bool.false_eq_true, if_false]
      exact .inl ⟨⟨status, ended, failed⟩, scope _⟩
  | assertionFailed => exact .inr ⟨.assertionFailed, by decide, scope _⟩
  | nullCall => exact .inr ⟨.nullCall, by decide, scope _⟩

theorem LockdownRun.Like.trans {first second third : LockdownRun V} (left : first.Like second)
    (right : second.Like third) : first.Like third :=
  ⟨left.ended.trans right.ended, left.vars.trans right.vars, left.writes.trans right.writes⟩

theorem StopsEarly.of_like {run other : LockdownRun V} (like : run.Like other)
    (stops : StopsEarly vars other) : StopsEarly vars run := by
  obtain ⟨ended, failed, same⟩ := stops
  exact ⟨ended, failed, like.trans same⟩

variable (firmware memory vars) in
/-- The keys are enrolled if all three files have been read. -/
theorem loadKeys_cases :
    ((firmware.kekRead memory).Loaded ∧ (firmware.dbRead memory).Loaded ∧
        (firmware.pkRead memory).Loaded ∧
        (loadKeys firmware memory vars).Like
          (enrolKeys firmware (firmware.pkRead memory).memory (firmware.kekRead memory).buffer
            (firmware.dbRead memory).buffer (firmware.pkRead memory).buffer vars)) ∨
      StopsEarly vars (loadKeys firmware memory vars) := by
  rw [loadKeys]
  rcases loadFile_cases "KEK.auth".toList _ rfl with ⟨kek, first⟩ | stops
  · rcases loadFile_cases "db.auth".toList _ rfl with ⟨db, second⟩ | stops
    · rcases loadFile_cases "PK.auth".toList _ rfl with ⟨pk, third⟩ | stops
      · exact .inl ⟨kek, db, pk, first.trans (second.trans third)⟩
      · exact .inr (.of_like (first.trans second) stops)
    · exact .inr (.of_like first stops)
  · exact .inr stops

variable (firmware memory vars) in
/-- The keys are enrolled if the platform is ready for it. -/
theorem lockdownMain_cases :
    (firmware.Ready memory vars ∧ (lockdownMain firmware memory vars).Like
        (enrolKeys firmware (firmware.pkRead memory).memory (firmware.kekRead memory).buffer
          (firmware.dbRead memory).buffer (firmware.pkRead memory).buffer vars)) ∨
      StopsEarly vars (lockdownMain firmware memory vars) := by
  rw [lockdownMain]
  dsimp only
  split_ifs with failed other noFile
  · exact .inr (stopsEarly_of_efiError failed)
  · exact .inr (stopsEarly_stop (by decide))
  · exact .inr (stopsEarly_stop (by decide))
  · cases firmware.dirname firmware.pathname with
    | none => exact .inr (stopsEarly_stop (by decide))
    | some directory =>
      dsimp only
      split_ifs with closed
      · exact .inr (.of_like (LockdownRun.inScope_like ..) (stopsEarly_of_efiError closed))
      · rcases loadKeys_cases firmware memory vars with
          ⟨kek, db, pk, like⟩ | stops
        · refine .inl ⟨⟨⟨Bool.not_eq_true _ ▸ failed, by simpa using other⟩, kek, db, pk⟩, ?_⟩
          exact .trans (LockdownRun.inScope_like ..) like
        · exact .inr (.of_like (LockdownRun.inScope_like ..) stops)

variable (firmware memory vars) in
/-- The keys are written in order, and only if the platform is ready for it. -/
theorem lockdownMain_writesInOrder :
    WritesInOrder firmware enrolmentOrder vars (lockdownMain firmware memory vars) ∧
      ((lockdownMain firmware memory vars).writes ≠ [] → firmware.Ready memory vars) := by
  rcases lockdownMain_cases firmware memory vars with
    ⟨ready, like⟩ | ⟨ended, failed, like⟩
  · exact ⟨(writesInOrder_enrolKeys ..).of_like like, fun _ => ready⟩
  · exact ⟨(writesInOrder_stop (by decide) failed).of_like like,
      fun some_ => absurd like.writes some_⟩

end Loading

/-! ## What is written -/

/-- The buffer is empty behind its allocation, whether or not there was memory. -/
theorem allocateSimpleBuffer_zero (malloc : UInt64 → UInt64) (length : UInt64) :
    (allocateSimpleBuffer malloc length zeroBuffer).2.1.pos = 0 := by
  rw [allocateSimpleBuffer_eq]
  split_ifs <;> rfl

/-- What a call leaves that has read a file. -/
theorem readFileToBuffer_loaded {build : Build} {firmware : FileFirmware} {memory : ByteStore}
    {run : ReadFileRun} (reads : readFileToBuffer build firmware memory zeroBuffer = run)
    (loaded : run.Loaded) :
    run.buffer.pos = 0 ∧ run.buffer.length.toNat = run.bytes.length ∧
      run.memory = (Patch.copy run.buffer.buffer.toNat run.bytes.length
        (ByteStore.ofList run.bytes memory) 0).apply memory := by
  obtain ⟨status, ended, succeeded⟩ := loaded
  have returned {other : EfiStatus} (failed : efiError other = true)
      (same : ReadFileEnd.returned other = .returned status) : False := by
    rw [ReadFileEnd.returned.inj same, succeeded] at failed
    cases failed
  rw [readFileToBuffer] at reads
  dsimp only at reads
  subst reads
  split_ifs at ended ⊢ with failed
  · exact (returned failed ended).elim
  rcases informed : (libGetFileInfo firmware.info).result with reason | ⟨address, answer⟩
  · simp only [informed] at ended
    exact (returned (by decide) ended).elim
  simp only [informed] at ended ⊢
  split_ifs at ended ⊢ with empty
  · exact (returned (by decide) ended).elim
  have unread := allocateSimpleBuffer_zero firmware.malloc answer.fileSize
  generalize allocateSimpleBuffer firmware.malloc answer.fileSize zeroBuffer = allocated
    at ended unread ⊢
  obtain ⟨success, buffer, events⟩ := allocated
  dsimp only at ended unread ⊢
  rcases bufferPos_cases build buffer with position | aborted
  · have short := firmware.reads (buffer.buffer + buffer.pos) answer.fileSize
    simp only [position] at ended ⊢
    split_ifs at ended ⊢ with wrong
    · split at ended
      · cases ended
      · exact (returned wrong ended).elim
    · refine ⟨unread, ?_, ?_⟩
      · exact UInt64.toNat_ofNat_of_lt' (short.trans_lt answer.fileSize.toNat_lt)
      · simp only [unread, UInt64.add_zero]
  · rw [aborted] at ended
    cases ended

/-- Where the bytes of a file are stored. -/
def ReadFileRun.window (run : ReadFileRun) : Window := ⟨run.buffer.buffer.toNat, run.bytes.length⟩

/-- The buffer of a file, in the memory at the time of the write. -/
structure ReadFileRun.StandsIn (run : ReadFileRun) (memory : ByteStore) : Prop where
  pos : run.buffer.pos = 0
  length : run.buffer.length.toNat = run.bytes.length
  bytes : memory.bytesAt run.buffer.buffer.toNat run.bytes.length = run.bytes

section Data

variable {V : Type} {firmware : LockdownFirmware V} {memory : ByteStore} {vars : V}
  {run other : ReadFileRun}

theorem ReadFileRun.Loaded.standsIn {build : Build} {file : FileFirmware} (loaded : run.Loaded)
    (reads : readFileToBuffer build file memory zeroBuffer = run) : run.StandsIn run.memory := by
  obtain ⟨pos, length, stored⟩ := readFileToBuffer_loaded reads loaded
  refine ⟨pos, length, ?_⟩
  rw [stored]
  exact bytesAt_copy ..

/-- Reading another file elsewhere leaves the buffer alone. -/
theorem ReadFileRun.StandsIn.read {build : Build} {file : FileFirmware}
    (stands : run.StandsIn memory) (loaded : other.Loaded)
    (reads : readFileToBuffer build file memory zeroBuffer = other)
    (apart : run.window.Disjoint other.window) : run.StandsIn other.memory := by
  obtain ⟨-, -, stored⟩ := readFileToBuffer_loaded reads loaded
  refine ⟨stands.pos, stands.length, ?_⟩
  refine Eq.trans ?_ stands.bytes
  apply List.map_congr_left
  intro index member
  rw [stored]
  apply Patch.apply_outside
  exact apart _ ⟨Nat.le_add_right .., Nat.add_lt_add_left (List.mem_range.mp member) _⟩

/-- A write is of the bytes of the file. -/
theorem enrol_data {guid : Guid} {name : List Char} {next : V → LockdownRun V}
    {later : List (List UInt8)} (stands : run.StandsIn memory)
    (rest : ∀ vars, ((next vars).writes.map VariableWrite.data) <+: later) :
    ((enrol firmware guid name memory run.buffer vars next).writes.map VariableWrite.data) <+:
      run.bytes :: later := by
  rw [enrol]
  rcases bufferLen_cases firmware.build run.buffer with length | aborted
  · rcases bufferPos_cases firmware.build run.buffer with position | aborted
    · simp only [length, position, stands.pos, UInt64.add_zero, UInt64.sub_zero, stands.length,
        stands.bytes]
      apply (List.prefix_cons_inj _).mpr
      split_ifs
      · exact List.nil_prefix
      · exact rest _
    · rw [length, aborted]
      exact List.nil_prefix
  · rw [aborted]
    exact List.nil_prefix

variable (firmware memory) in
/-- The files are stored in memory of their own. -/
structure LockdownFirmware.FilesApart : Prop where
  kekDb : (firmware.kekRead memory).window.Disjoint (firmware.dbRead memory).window
  kekPk : (firmware.kekRead memory).window.Disjoint (firmware.pkRead memory).window
  dbPk : (firmware.dbRead memory).window.Disjoint (firmware.pkRead memory).window

/-- The variables get the bytes of their files. -/
theorem lockdownMain_writes_files (vars : V) (apart : firmware.FilesApart memory) :
    ((lockdownMain firmware memory vars).writes.map VariableWrite.data) <+:
      [(firmware.kekRead memory).bytes, (firmware.dbRead memory).bytes,
        (firmware.pkRead memory).bytes] := by
  rcases lockdownMain_cases firmware memory vars with
    ⟨ready, like⟩ | ⟨ended, failed, like⟩
  · rw [like.writes]
    have kek := ((ready.kek.standsIn rfl).read ready.db rfl apart.kekDb).read ready.pk rfl apart.kekPk
    have db := (ready.db.standsIn rfl).read ready.pk rfl apart.dbPk
    have pk := ready.pk.standsIn rfl
    exact enrol_data kek fun _ => enrol_data db fun _ => enrol_data pk fun _ => by
      rw [checkSecureBoot]
      dsimp only
      split_ifs <;> exact List.nil_prefix
  · rw [like.writes]
    exact List.nil_prefix

/-- A file of some bytes that is stored at an address. -/
def storedFile (address : UInt64) (bytes : List UInt8) : FileFirmware where
  openStatus := efiSuccess
  handle := 0x100
  info := .settled 0x200 ⟨efiSuccess, UInt64.ofNat bytes.length⟩ rfl
  malloc _ := address
  read _ size := ⟨efiSuccess, bytes.take size.toNat⟩
  opens _ := by decide
  reads _ _ := List.length_take_le ..

/-- A platform in setup mode with a short file for each key. -/
def setupPlatform : LockdownFirmware Unit where
  build := defaultBuild
  getVariable _ _ _ := (efiSuccess, 1)
  setVariable _ _ _ _ _ := (efiSuccess, ())
  filePath index := [4, 4, 8, 0].getD index 0
  dirname _ := some (0x300, fun _ => 0)
  openDirectory _ := efiSuccess
  file filename :=
    if filename = "KEK.auth".toList then storedFile 0x1000 [1, 2, 3]
    else if filename = "db.auth".toList then storedFile 0x2000 [4, 5] else storedFile 0x3000 [6]

theorem setupPlatform_writes_files :
    ((lockdownMain setupPlatform (fun _ => 0) ()).writes.map VariableWrite.data) <+:
      [(setupPlatform.kekRead fun _ => 0).bytes, (setupPlatform.dbRead fun _ => 0).bytes,
        (setupPlatform.pkRead fun _ => 0).bytes] :=
  lockdownMain_writes_files () ⟨by decide, by decide, by decide⟩

end Data

/-! ## Memory -/

theorem libGetFileInfo_leaves (attempts : Attempts UInt64 FileInfoAnswer FileInfoAnswer.tooSmall) :
    Leaves (libGetFileInfo attempts).kept (libGetFileInfo attempts).movements :=
  Attempts.fetch_settles _ attempts

/-- A call that returns holds nothing but the memory of its buffer, which `free_buffer` frees. -/
theorem readFileToBuffer_leaves {build : Build} {firmware : FileFirmware} {memory : ByteStore}
    {run : ReadFileRun} {status : EfiStatus}
    (reads : readFileToBuffer build firmware memory zeroBuffer = run)
    (ended : run.ended = .returned status) :
    ∃ kept, Leaves kept run.movements ∧ freeBufferMovements run.buffer = kept.map .release := by
  rw [readFileToBuffer] at reads
  dsimp only at reads
  subst reads
  have fetched := libGetFileInfo_leaves firmware.info
  split_ifs at ended ⊢ with failed
  · exact ⟨[], leaves_nil, rfl⟩
  rcases informed : (libGetFileInfo firmware.info).result with reason | ⟨address, answer⟩
  · rw [Fetched.kept, informed] at fetched
    exact ⟨[], fetched, rfl⟩
  rw [Fetched.kept, informed] at fetched
  simp only [informed] at ended ⊢
  split_ifs at ended ⊢ with empty
  · exact ⟨[], fetched.release, rfl⟩
  have some_ : answer.fileSize ≠ 0 := by simpa using empty
  rw [allocateSimpleBuffer_eq] at ended ⊢
  split_ifs at ended ⊢ with refused
  · rcases bufferPos_cases build { zeroBuffer with buffer := 0 } with position | aborted
    · simp only [position] at ended ⊢
      split_ifs at ended ⊢
      · cases ended
      · refine ⟨[], ?_, rfl⟩
        rw [List.filterMap_nil, List.append_nil]
        exact fetched.release
    · rw [aborted] at ended
      cases ended
  · have held := fetched.append (leaves_grant (firmware.malloc answer.fileSize))
    rcases bufferPos_cases build ⟨firmware.malloc answer.fileSize, 0, 0, answer.fileSize,
      some .freeSimpleBuffer⟩ with position | aborted
    · simp only [position] at ended ⊢
      split_ifs
      · refine ⟨[], ?_, rfl⟩
        simp only [releaseEvents, bne_iff_ne, ne_eq, some_, not_false_eq_true, if_true]
        exact held.release.release
      · refine ⟨[firmware.malloc answer.fileSize], held.release_second, ?_⟩
        simp [freeBufferMovements, refused, releaseEvents, some_, CodecEvent.movement]
    · rw [aborted] at ended
      cases ended

section Memory

variable {V : Type} (firmware : LockdownFirmware V)

/-- A run that returns has given back all memory that it was granted. -/
def LockdownRun.GivesBack (run : LockdownRun V) : Prop :=
  ∀ status, run.ended = .returned status → Leaves [] run.movements

theorem givesBack_stop (ended : ReadFileEnd) (vars : V) :
    (LockdownRun.stop ended vars).GivesBack := fun _ _ => leaves_nil

theorem LockdownRun.GivesBack.inScope {run : LockdownRun V} (inner : run.GivesBack)
    {before : List (Movement UInt64)} {kept : List UInt64} (leaves : Leaves kept before) :
    (run.inScope before (kept.map .release)).GivesBack := fun status ended => by
  have returned : run.ended = .returned status := ended
  rw [LockdownRun.inScope, returned]
  have both := leaves.append (inner status returned)
  rw [List.nil_append, ← List.append_nil kept] at both
  exact leaves_releases both

theorem givesBack_loadFile (filename : List Char) (memory : ByteStore) (vars : V)
    {next : ByteStore → SimpleBuffer → LockdownRun V}
    (later : ∀ memory buffer, (next memory buffer).GivesBack) :
    (loadFile firmware filename memory vars next).GivesBack := by
  rw [loadFile]
  cases ended : (readFileToBuffer firmware.build (firmware.file filename) memory zeroBuffer).ended with
  | returned status =>
    obtain ⟨kept, leaves, freed⟩ := readFileToBuffer_leaves rfl ended
    rw [freed]
    apply LockdownRun.GivesBack.inScope _ leaves
    dsimp only
    split_ifs
    · exact givesBack_stop _ vars
    · exact later _ _
  | assertionFailed => exact fun status returned => ReadFileEnd.noConfusion returned
  | nullCall => exact fun status returned => ReadFileEnd.noConfusion returned

theorem givesBack_enrol (guid : Guid) (name : List Char) (memory : ByteStore) (buffer : SimpleBuffer)
    (vars : V) {next : V → LockdownRun V} (later : ∀ vars, (next vars).GivesBack) :
    (enrol firmware guid name memory buffer vars next).GivesBack := by
  rw [enrol]
  split
  · dsimp only
    split_ifs
    · exact fun _ _ => leaves_nil
    · exact later _
  · exact givesBack_stop _ vars

theorem givesBack_checkSecureBoot (vars : V) : (checkSecureBoot firmware vars).GivesBack := by
  rw [checkSecureBoot]
  dsimp only
  split_ifs <;> exact givesBack_stop _ vars

theorem givesBack_loadKeys (memory : ByteStore) (vars : V) :
    (loadKeys firmware memory vars).GivesBack :=
  givesBack_loadFile _ _ _ _ fun _ _ => givesBack_loadFile _ _ _ _ fun _ _ =>
    givesBack_loadFile _ _ _ _ fun _ _ => givesBack_enrol _ _ _ _ _ _ fun _ =>
      givesBack_enrol _ _ _ _ _ _ fun _ => givesBack_enrol _ _ _ _ _ _ fun vars =>
        givesBack_checkSecureBoot _ vars

/-- Every way back to the firmware gives back the memory that was allocated, each piece once. -/
theorem lockdownMain_settles (memory : ByteStore) (vars : V) (status : EfiStatus)
    (ended : (lockdownMain firmware memory vars).ended = .returned status) :
    Settles [] (lockdownMain firmware memory vars).movements := by
  apply Leaves.settles
  revert status
  change (lockdownMain firmware memory vars).GivesBack
  rw [lockdownMain]
  dsimp only
  split_ifs
  · exact givesBack_stop _ vars
  · exact givesBack_stop _ vars
  · exact givesBack_stop _ vars
  · split
    · exact givesBack_stop _ vars
    · rename_i address path _
      apply LockdownRun.GivesBack.inScope _ (leaves_grant address)
      split_ifs
      · exact givesBack_stop _ vars
      · exact givesBack_loadKeys firmware memory vars

theorem setupPlatform_settles :
    Settles [] (lockdownMain setupPlatform (fun _ => 0) ()).movements :=
  lockdownMain_settles setupPlatform (fun _ => 0) () efiSuccess (by decide)

end Memory

end ZLoader
