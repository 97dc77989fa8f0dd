import ZLoader.Model.ReadFile

/-! # The buffer of a file

The cleanup closes what the variable holds behind a failed `open` too, and the memory for the bytes
is used without asking whether there is any. On all other ways everything is given back once.
-/

namespace ZLoader

/-- A call returns, with the bytes of the file in a buffer of its own or with an error and no
buffer; it closes the file if it has opened it, and gives back all other memory once. -/
structure ReadsFile (firmware : FileFirmware) (run : ReadFileRun) : Prop where
  returned : ∃ status, run.ended = .returned status ∧
    (status = efiSuccess ∧ run.buffer.pos = 0 ∧ run.buffer.length.toNat = run.bytes.length ∧
        run.memory.bytesAt run.buffer.buffer.toNat run.bytes.length = run.bytes ∧
        Settles [] (run.movements ++ [.release run.buffer.buffer]) ∨
      efiError status = true ∧ run.buffer = zeroBuffer ∧ Settles [] run.movements)
  closed : run.closed = if efiError firmware.openStatus then [] else [firmware.handle]

/-- A failed `open` leaves no handle behind, and there is memory for the bytes once it is asked
for. -/
structure FileFits (firmware : FileFirmware) : Prop where
  unopened : efiError firmware.openStatus = true → firmware.handle = 0
  allocated : efiError firmware.openStatus = false → ∀ address answer,
    (libGetFileInfo firmware.info).result = .ok (address, answer) → answer.fileSize ≠ 0 →
      firmware.malloc answer.fileSize ≠ 0

/-- Bytes that are stored can be read. -/
theorem bytesAt_copy (bytes : List UInt8) (memory : ByteStore) (start : ℕ) :
    ((Patch.copy start bytes.length (ByteStore.ofList bytes memory) 0).apply memory).bytesAt start
      bytes.length = bytes := by
  have stored := ByteStore.bytesAt_ofList [] bytes [] memory
  rw [List.nil_append, List.append_nil] at stored
  rw [ByteStore.bytesAt_apply_copy]
  exact stored

section Call

variable {build : Build} {firmware : FileFirmware} {memory : ByteStore} {buffer : SimpleBuffer}
  {address : UInt64} {answer : FileInfoAnswer}

theorem readFileToBuffer_unopened (failed : efiError firmware.openStatus = true) :
    readFileToBuffer build firmware memory buffer =
      ⟨.returned firmware.openStatus, buffer, memory, [], closeFile firmware.handle, []⟩ := by
  rw [readFileToBuffer, if_pos failed]

theorem closeFile_opened (opened : efiError firmware.openStatus = false) :
    closeFile firmware.handle = [firmware.handle] := by
  rw [closeFile, if_pos (bne_iff_ne.mpr (firmware.opens opened))]

/-- Memory of the information is all that is held behind it. -/
theorem libGetFileInfo_settles (attempts : Attempts UInt64 FileInfoAnswer FileInfoAnswer.tooSmall)
    (rest : List (Movement UInt64)) :
    Settles [] ((libGetFileInfo attempts).movements ++ rest) ↔
      Settles (libGetFileInfo attempts).kept rest := by
  rw [libGetFileInfo, Attempts.fetch_settles, List.append_nil]

/-- A call without information on the file. -/
theorem readsFile_uninformed {reason : Option FileInfoAnswer}
    (opened : efiError firmware.openStatus = false)
    (missing : (libGetFileInfo firmware.info).result = .error reason) :
    ReadsFile firmware (readFileToBuffer build firmware memory zeroBuffer) := by
  have settles := libGetFileInfo_settles firmware.info []
  rw [List.append_nil, Fetched.kept, missing] at settles
  simp only [readFileToBuffer, opened, missing, Bool.false_eq_true, if_false,
    closeFile_opened opened]
  exact ⟨⟨_, rfl, .inr ⟨by decide, rfl, settles.mpr rfl⟩⟩, by rw [opened]; rfl⟩

/-- A call for a file without bytes. -/
theorem readsFile_empty (opened : efiError firmware.openStatus = false)
    (informed : (libGetFileInfo firmware.info).result = .ok (address, answer))
    (empty : answer.fileSize = 0) :
    ReadsFile firmware (readFileToBuffer build firmware memory zeroBuffer) := by
  have settles := libGetFileInfo_settles firmware.info [.release address]
  rw [Fetched.kept, informed] at settles
  simp only [readFileToBuffer, opened, informed, empty, Bool.false_eq_true, if_false,
    beq_self_eq_true, if_true, closeFile_opened opened]
  exact ⟨⟨_, rfl, .inr ⟨by decide, rfl, settles.mpr ((settles_release_last [] _ []).mpr rfl)⟩⟩,
    by rw [opened]; rfl⟩

/-- A call that has memory for the bytes. -/
theorem readsFile_allocated (opened : efiError firmware.openStatus = false)
    (informed : (libGetFileInfo firmware.info).result = .ok (address, answer))
    (some_ : answer.fileSize ≠ 0) (allocated : firmware.malloc answer.fileSize ≠ 0) :
    ReadsFile firmware (readFileToBuffer build firmware memory zeroBuffer) := by
  have room : bufferPos build ⟨firmware.malloc answer.fileSize, 0, 0, answer.fileSize,
      some .freeSimpleBuffer⟩ = .ok (firmware.malloc answer.fileSize + 0) :=
    bufferPos_of_lt build allocated (UInt64.pos_iff_ne_zero.mpr some_)
  have settles := libGetFileInfo_settles firmware.info
  simp only [Fetched.kept, informed] at settles
  have short := firmware.reads (firmware.malloc answer.fileSize + 0) answer.fileSize
  have bound := answer.fileSize.toNat_lt
  simp only [readFileToBuffer, opened, informed, beq_iff_eq, some_, if_false, Bool.false_eq_true,
    allocateSimpleBuffer_eq, allocated, room, closeFile_opened opened]
  split_ifs with failed
  · refine ⟨⟨_, rfl, .inr ⟨failed, rfl, ?_⟩⟩, by rw [opened]; rfl⟩
    simp [List.append_assoc, settles, releaseEvents, some_, CodecEvent.movement]
  · refine ⟨⟨_, rfl, .inl ⟨rfl, rfl, ?_, ?_, ?_⟩⟩, by rw [opened]; rfl⟩
    · exact UInt64.toNat_ofNat_of_lt (short.trans_lt bound)
    · rw [UInt64.add_zero]
      exact bytesAt_copy _ _ _
    · simp [List.append_assoc, settles, CodecEvent.movement]

/-- A call that has none. -/
theorem not_readsFile_unallocated (opened : efiError firmware.openStatus = false)
    (informed : (libGetFileInfo firmware.info).result = .ok (address, answer))
    (some_ : answer.fileSize ≠ 0) (refused : firmware.malloc answer.fileSize = 0) :
    ¬ ReadsFile firmware (readFileToBuffer build firmware memory zeroBuffer) := by
  have settles := libGetFileInfo_settles firmware.info
  simp only [Fetched.kept, informed] at settles
  rintro ⟨⟨status, returned, outcome⟩, -⟩
  simp only [readFileToBuffer, opened, informed, beq_iff_eq, some_, if_false, Bool.false_eq_true,
    allocateSimpleBuffer_eq, refused, if_true] at returned outcome
  rcases bufferPos_cases build { zeroBuffer with buffer := 0 } with position | aborted
  · rw [position] at returned outcome
    dsimp only [zeroBuffer] at returned outcome
    split_ifs at returned outcome
    cases returned
    rcases outcome with ⟨-, -, -, -, owned⟩ | ⟨error, -⟩
    · simp [List.append_assoc, settles, Settles] at owned
    · exact absurd error (by decide)
  · rw [aborted] at returned
    cases returned

/-- A call reads the file exactly where a failed `open` leaves no handle and there is memory. -/
theorem readsFile_iff (build : Build) (firmware : FileFirmware) (memory : ByteStore) :
    ReadsFile firmware (readFileToBuffer build firmware memory zeroBuffer) ↔
      FileFits firmware := by
  constructor
  · intro reads
    refine ⟨fun failed => ?_, fun opened address answer informed some_ refused =>
      not_readsFile_unallocated opened informed some_ refused reads⟩
    have closed := reads.closed
    rw [readFileToBuffer_unopened failed, if_pos failed, closeFile] at closed
    by_contra held
    rw [if_pos (bne_iff_ne.mpr held)] at closed
    cases closed
  · intro fits
    cases failed : efiError firmware.openStatus with
    | true =>
        rw [readFileToBuffer_unopened failed, fits.unopened failed]
        exact ⟨⟨_, rfl, .inr ⟨failed, rfl, rfl⟩⟩, by rw [failed]; rfl⟩
    | false =>
        cases informed : (libGetFileInfo firmware.info).result with
        | error reason => exact readsFile_uninformed failed informed
        | ok info =>
            obtain ⟨address, answer⟩ := info
            rcases eq_or_ne answer.fileSize 0 with empty | some_
            · exact readsFile_empty failed informed empty
            · exact readsFile_allocated failed informed some_
                (fits.allocated failed address answer informed some_)

/-- A file that does not exist, and a variable that still holds what was there before. -/
def missingFile : FileFirmware where
  openStatus := efiNotFound
  handle := 0x1000
  info := .refused
  malloc _ := 0
  read _ _ := ⟨efiNotFound, []⟩
  opens opened := absurd opened (by decide)
  reads _ _ := Nat.zero_le _

/-- A handle is closed that was never opened. -/
theorem not_readsFile_missingFile :
    ¬ ReadsFile missingFile
      (readFileToBuffer defaultBuild missingFile (fun _ => 0) zeroBuffer) := by
  intro reads
  have closed := reads.closed
  revert closed
  decide

end Call

end ZLoader
