import ZLoader.Model.Lib.FileInfo
import ZLoader.Model.Main

/-! # Reading a file

`read_file_to_buffer` of `lockdown.c`, with the cleanups of its two variables: `close_file_p` runs
on every way out behind the declaration of `handle`, and `free_p` behind that of `info`.
-/

namespace ZLoader

/-- What `read` answers: its status and the bytes that it stores. -/
structure ReadAnswer where
  status : EfiStatus
  bytes : List UInt8
deriving DecidableEq, Repr

/-- The answers of the firmware in a call. `handle` is what the variable holds behind `open`; it is
not initialised, and only a successful `open` has to set it. -/
structure FileFirmware where
  openStatus : EfiStatus
  handle : UInt64
  info : Attempts UInt64 FileInfoAnswer FileInfoAnswer.tooSmall
  malloc : UInt64 → UInt64
  read : UInt64 → UInt64 → ReadAnswer
  opens : efiError openStatus = false → handle ≠ 0
  reads : ∀ address size, (read address size).bytes.length ≤ size.toNat

/-- How a call ends. -/
inductive ReadFileEnd where
  | returned (status : EfiStatus)
  | assertionFailed
  | nullCall
deriving DecidableEq, Repr

/-- A call with the buffer and the memory it leaves, the bytes that `read` has stored, the handles
that were closed and the memory allocated and freed. -/
structure ReadFileRun where
  ended : ReadFileEnd
  buffer : SimpleBuffer
  memory : ByteStore
  bytes : List UInt8
  closed : List UInt64
  movements : List (Movement UInt64)

/-- `malloc` and `free` as movements of memory. -/
def CodecEvent.movement : CodecEvent → Option (Movement UInt64)
  | .malloc _ address => some (.grant address)
  | .free address => some (.release address)
  | _ => none

/-- `close_file_p`. -/
def closeFile (handle : UInt64) : List UInt64 := if handle != 0 then [handle] else []

/-- `read_file_to_buffer`. -/
def readFileToBuffer (build : Build) (firmware : FileFirmware) (memory : ByteStore)
    (buffer : SimpleBuffer) : ReadFileRun :=
  let closed := closeFile firmware.handle
  if efiError firmware.openStatus then
    ⟨.returned firmware.openStatus, buffer, memory, [], closed, []⟩
  else
    let info := libGetFileInfo firmware.info
    match info.result with
    | .error _ => ⟨.returned efiOutOfResources, buffer, memory, [], closed, info.movements⟩
    | .ok (address, answer) =>
        let size := answer.fileSize
        if size == 0 then
          ⟨.returned efiInvalidParameter, buffer, memory, [], closed,
            info.movements ++ [.release address]⟩
        else
          -- the result of the allocation is not looked at
          let (_, buffer, events) := allocateSimpleBuffer firmware.malloc size buffer
          let movements := info.movements ++ events.filterMap CodecEvent.movement
          match bufferPos build buffer with
          | .ok position =>
              let answer := firmware.read position size
              let memory := (Patch.copy position.toNat answer.bytes.length
                (ByteStore.ofList answer.bytes memory) 0).apply memory
              if efiError answer.status then
                match buffer.free with
                | none => ⟨.nullCall, buffer, memory, answer.bytes, [], movements⟩
                | some release =>
                    let freed := (releaseEvents buffer release).filterMap CodecEvent.movement
                    ⟨.returned answer.status, zeroBuffer, memory, answer.bytes, closed,
                      movements ++ freed ++ [.release address]⟩
              else
                ⟨.returned efiSuccess, { buffer with length := UInt64.ofNat answer.bytes.length },
                  memory, answer.bytes, closed, movements ++ [.release address]⟩
          | _ => ⟨.assertionFailed, buffer, memory, [], [], movements⟩

end ZLoader
