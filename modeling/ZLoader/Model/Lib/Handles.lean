import ZLoader.Foundation.Attempts
import ZLoader.Model.Efi.Status

/-! # Finding handles and protocols

`lib_find_handles` and `lib_get_protocol_interface` (`efilib/efilib.c`). The sizes that are asked
for go to the firmware only, whose answers are data here.
-/

namespace ZLoader

/-- `sizeof(efi_handle_t)`. -/
def sizeofHandle : UInt64 := 8

/-- What `locate_handle` answers: its status, the size it leaves, and the buffer. -/
structure LocateAnswer where
  status : EfiStatus
  size : UInt64
  handles : ℕ → UInt64

/-- The buffer was too small. -/
def LocateAnswer.tooSmall (answer : LocateAnswer) : Bool := answer.status == efiBufferTooSmall

/-- What `open_protocol` answers: its status, and what `interface` points to after the call. -/
structure OpenAnswer where
  status : EfiStatus
  interface : UInt64
deriving DecidableEq, Repr

/-- The firmware in a call: the buffers from the pool with the answers of `locate_handle`, and the
answer to each `open_protocol`. -/
structure HandleFirmware where
  locate : Attempts UInt64 LocateAnswer LocateAnswer.tooSmall
  openProtocol : ℕ → UInt64 → OpenAnswer

/-- `*length` and `*handles`, with the buffer that the caller has to free. -/
structure HandleList where
  buffer : UInt64
  length : ℕ
  handles : ℕ → UInt64

/-- The result of `lib_find_handles`, with the memory that it allocates and frees. -/
structure FindHandlesRun where
  result : Except EfiStatus HandleList
  movements : List (Movement UInt64)

/-- `lib_find_handles`. -/
def libFindHandles (attempts : Attempts UInt64 LocateAnswer LocateAnswer.tooSmall) :
    FindHandlesRun :=
  let fetched := attempts.fetch fun answer => efiError answer.status
  { result :=
      match fetched.result with
      | .error none => .error efiOutOfResources
      | .error (some answer) => .error answer.status
      | .ok (buffer, answer) =>
          .ok ⟨buffer, (answer.size / sizeofHandle).toNat, answer.handles⟩
    movements := fetched.movements }

/-- The argument `handle`, in the memory of the caller. A pointer other than `NULL` points to a
handle; what there is at the address zero depends on the firmware. -/
structure HandleArgument where
  pointer : UInt64
  memory : UInt64 → Option UInt64
  points : pointer ≠ 0 → (memory pointer).isSome

/-- The state of the loop: `err`, `*interface`, what has been stored through `handle`, and whether an
access has faulted. -/
structure OpenState where
  err : EfiStatus
  interface : UInt64
  stores : List (UInt64 × UInt64)
  faulted : Bool
deriving DecidableEq, Repr

/-- `if (*handle) *handle = value`. -/
def OpenState.store (st : OpenState) (handle : HandleArgument) (value : UInt64) : OpenState :=
  match handle.memory handle.pointer with
  | none => { st with faulted := true }
  | some word =>
      if word != 0 then { st with stores := st.stores ++ [(handle.pointer, value)] } else st

/-- The loop over the handles, with `left` to go. -/
def openHandles (openProtocol : ℕ → UInt64 → OpenAnswer) (handle : HandleArgument)
    (handles : ℕ → UInt64) : (left i : ℕ) → OpenState → OpenState
  | 0, _, st => st
  | left + 1, i, st =>
      let answer := openProtocol i (handles i)
      let st := { st with err := answer.status, interface := answer.interface }
      if answer.status == efiSuccess then st.store handle (handles i)
      else openHandles openProtocol handle handles left (i + 1) st

/-- A run: the status, if it returns, with `*interface`, the stores and the memory allocated and
freed. -/
structure ProtocolRun where
  status : Option EfiStatus
  interface : UInt64
  stores : List (UInt64 × UInt64)
  movements : List (Movement UInt64)

/-- `lib_get_protocol_interface`, with what `*interface` is before. -/
def libGetProtocolInterface (firmware : HandleFirmware) (handle : HandleArgument)
    (interface : UInt64) : ProtocolRun :=
  let found := libFindHandles firmware.locate
  match found.result with
  | .error err => ⟨some err, interface, [], found.movements⟩
  | .ok list =>
      let st := openHandles firmware.openProtocol handle list.handles list.length 0
        ⟨efiSuccess, interface, [], false⟩
      if st.faulted then ⟨none, st.interface, st.stores, found.movements⟩
      else
        ⟨some (if efiError st.err then st.err else efiSuccess), st.interface, st.stores,
          found.movements ++ [.release list.buffer]⟩

end ZLoader
