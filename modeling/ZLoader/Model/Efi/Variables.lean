import ZLoader.Foundation.ByteList
import ZLoader.Model.Efi.Status

/-! # EFI variables

The variables of the EFI global namespace as the firmware keeps them, and how the library reads
and writes them (`efilib/efivar.c`, `efilib/var.h`). A variable has at least one byte: writing none
deletes it. Attributes of variables play no part in what is modelled.
-/

namespace ZLoader

/-- The names of the boot manager's variables; `entry` is `Boot` followed by digits. -/
inductive VariableName where
  | bootNext
  | bootOrder
  | bootCurrent
  | entry (digits : List Char)
deriving DecidableEq, Repr

abbrev Variables := VariableName → Option (List UInt8)

/-- `RT->set_variable`. -/
def Variables.set (vars : Variables) (name : VariableName) (data : List UInt8) : Variables :=
  Function.update vars name (if data.isEmpty then none else some data)

@[simp] theorem Variables.set_same (vars : Variables) (name : VariableName)
    (data : List UInt8) : vars.set name data name = if data.isEmpty then none else some data :=
  Function.update_self ..

theorem Variables.set_of_ne (vars : Variables) {name other : VariableName} (data : List UInt8)
    (different : other ≠ name) : vars.set name data other = vars other :=
  Function.update_of_ne different ..

/-- A variable read into pool memory: its address, its length and the memory from there on. -/
structure PoolVariable where
  address : UInt64
  length : UInt64
  bytes : ByteStore

/-- `efi_var_get_pool`: the address zero is a failed allocation. -/
def efiVarGetPool (vars : Variables) (pool : VariableName → UInt64) (behind : ByteStore)
    (name : VariableName) : Option PoolVariable :=
  match vars name with
  | none => none
  | some data =>
      if data.isEmpty || pool name == 0 then none
      else some ⟨pool name, UInt64.ofNat data.length, .ofList data behind⟩

/-- `hex`, the digits of `efilib/efiprint.c`. -/
def hexDigits : List Char :=
  ['0', '1', '2', '3', '4', '5', '6', '7', '8', '9', 'a', 'b', 'c', 'd', 'e', 'f']

/-- The loop of `value_to_hex_string`: a digit for every nibble up to the highest that is set. -/
def valueToHexLoop : ℕ → UInt64 → List Char → List Char
  | 0, _, digits => digits
  | turns + 1, value, digits =>
      if value == 0 then digits
      else
        valueToHexLoop turns (value >>> 4) (hexDigits.getD (value &&& 0xf).toNat '0' :: digits)

/-- `value_to_hex_string`. -/
def valueToHexString (value : UInt64) : List Char :=
  if value == 0 then ['0'] else valueToHexLoop 16 value []

/-- What `%04hx` prints. -/
def printShortHex (value : UInt16) : List Char :=
  (valueToHexString value.toUInt64).leftpad 4 '0'

/-- `wsprintf(boot_order_name, 9, u"Boot%04hx", entry_num)`. -/
def bootEntryName (number : UInt16) : VariableName := .entry (printShortHex number)

end ZLoader
