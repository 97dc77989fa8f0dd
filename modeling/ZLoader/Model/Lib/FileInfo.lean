import ZLoader.Foundation.Attempts
import ZLoader.Model.Efi.Status

/-! # The information on a file

`lib_get_file_info` of `efilib/efilib.c`.
-/

namespace ZLoader

/-- What `get_info` answers: its status, and `file_size` of the information. -/
structure FileInfoAnswer where
  status : EfiStatus
  fileSize : UInt64
deriving DecidableEq, Repr

/-- The memory was too small. -/
def FileInfoAnswer.tooSmall (answer : FileInfoAnswer) : Bool := answer.status == efiBufferTooSmall

/-- `lib_get_file_info`, which gives no reason when it returns `NULL`. -/
def libGetFileInfo (attempts : Attempts UInt64 FileInfoAnswer FileInfoAnswer.tooSmall) :
    Fetched UInt64 FileInfoAnswer :=
  attempts.fetch fun answer => efiError answer.status

end ZLoader
