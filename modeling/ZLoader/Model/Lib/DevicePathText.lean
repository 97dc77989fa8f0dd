import Mathlib.Data.Fin.VecNotation
import ZLoader.Model.Efi.DevicePath
import ZLoader.Model.Lib.NumberText
import ZLoader.Model.Lib.Print

/-! # Device paths as text

`device_path_to_string` of `efilib/efidp.c`, which is built in one of two ways: it copies the text
that the firmware's protocol returns, or it describes one node after another through `wsprintf`.
The second is a state machine over the nodes in which `_print` runs for every description.
-/

namespace ZLoader

/-! ## The buffer -/

/-- `buffer = value_to_hex_string(buffer, value)`. -/
def TextBuffer.putHex (buffer : TextBuffer) (value : UInt64) : TextBuffer :=
  (buffer.puts ((valueToHexString value).map wide)).store 0

/-- The loop of `wcsncpy` with the units left to copy, from an index on. -/
def wcsncpy (src : ℕ → UInt16) : ℕ → ℕ → List UInt16
  | 0, _ => []
  | n + 1, index => if src index != 0 then src index :: wcsncpy src n (index + 1) else []

/-! ## The firmware's text -/

/-- `device_path_to_string` with `EFILIB_USE_DEVICE_PATH_TO_TEXT_PROTOCOL`, from the text `tmp`. -/
def protocolPathToString (buffer : TextBuffer) (tmp : ℕ → UInt16) : TextBuffer :=
  (buffer.puts (wcsncpy tmp printItemBufferLen 0)).store 0

/-! ## Formats -/

/-- Letters that start no directive and hold no NUL. -/
def isPlain (letters : String) : Bool :=
  (letters.toList.all fun c => wide c != 0 && wide c != wide '%') &&
    decide (letters.toList.length < noFieldWidth)

/-- A part of a format with its argument: letters, or a directive named by its characters (`hex` is
`%X`, `hex4` is `%04x`). -/
inductive FormatPiece where
  | text (letters : String) (plain : isPlain letters = true := by rfl)
  | lx (word : UInt64)
  | x (word : UInt64)
  | hex (word : UInt64)
  | hex4 (word : UInt64)
  | hu (word : UInt64)
  | u (word : UInt64)
  | d (word : UInt64)
  | g (guid : Guid)
  | ls (string : String) (plain : isPlain string = true := by rfl)

namespace FormatPiece

/-- The part as it stands in the format. -/
def letters : FormatPiece → List Char
  | text letters _ => letters.toList
  | lx _ => ['%', 'l', 'x']
  | x _ => ['%', 'x']
  | hex _ => ['%', 'X']
  | hex4 _ => ['%', '0', '4', 'x']
  | hu _ => ['%', 'h', 'u']
  | u _ => ['%', 'u']
  | d _ => ['%', 'd']
  | g _ => ['%', 'g']
  | ls _ _ => ['%', 'l', 's']

def arguments : FormatPiece → List Argument
  | text _ _ => []
  | lx word | x word | hex word | hex4 word | hu word | u word | d word => [.ofWord word]
  | g guid => [{ Argument.ofWord 0 with guid := guid }]
  | ls string _ =>
      [{ Argument.ofWord 0 with wideString := some ⟨string.toList.map wide, fun _ => 0⟩ }]

end FormatPiece

/-- `_print` for `wsprintf(buffer, _PRINT_ITEM_BUFFER_LEN - 1, ...)`. -/
def wsprintfStart (buffer : TextBuffer) (pieces : List FormatPiece) : PrintState :=
  vswprintfStart (printItemBufferLen - 1) (fun index => buffer.units (buffer.pos + index))
    ⟨(pieces.flatMap FormatPiece.letters).map wide, fun _ => 0⟩
    (argumentList (pieces.flatMap FormatPiece.arguments))

/-- `buffer + len` behind a `wsprintf` with its output. -/
def TextBuffer.printed (buffer : TextBuffer) (out : Output) : TextBuffer :=
  { units := fun index =>
      if index < buffer.pos then buffer.units index else out.buffer (index - buffer.pos)
    pos := buffer.pos + out.len
    stores := out.stores.map (fun index => buffer.pos + index) ++ buffer.stores }

/-! ## The text of a node -/

/-- The GUID at an offset. -/
def Guid.read (data : ByteStore) (offset : ℕ) : Guid :=
  { ms1 := data.u32 offset
    ms2 := data.u16 (offset + 4)
    ms3 := data.u16 (offset + 6)
    ms4 := fun index => data (offset + 8 + index) }

/-- `guidcmp`, by the fields that the two words of a GUID consist of. -/
def guidcmp (a b : Guid) : Bool :=
  a.ms1 == b.ms1 && a.ms2 == b.ms2 && a.ms3 == b.ms3 &&
    (List.finRange 8).all fun index => a.ms4 index == b.ms4 index

/-- What is written for a node: a description by `wsprintf`, a text by `wcsncpy`, a description in
front of the data of a vendor node, a comma, or nothing. -/
inductive NodeText where
  | printed (pieces : List FormatPiece)
  | copied (text : List UInt16)
  | vendor (pieces : List FormatPiece)
  | separator
  | nothing

section Node

variable (data : ByteStore) (dp : ℕ)

/-- A byte of the node as an argument. -/
def byteArgument (offset : ℕ) : UInt64 := (data (dp + offset)).toUInt64

def u16Argument (offset : ℕ) : UInt64 := (data.u16 (dp + offset)).toUInt64

def u32Argument (offset : ℕ) : UInt64 := (data.u32 (dp + offset)).toUInt64

/-- `_device_path_pci`. -/
def devicePathPci : NodeText :=
  .printed [.text "Pci(0x", .lx (byteArgument data dp 5), .text ",0x", .x (byteArgument data dp 4),
    .text ")"]

/-- `_device_path_memmap`. -/
def devicePathMemmap : NodeText :=
  .printed [.text "MemMap(", .hu (u32Argument data dp 4), .text ",0x", .lx (data.u64 (dp + 8)),
    .text ",0x", .lx (data.u64 (dp + 16)), .text ")"]

/-- `uboot_guid`. -/
def ubootGuid : Guid :=
  { ms1 := 0xe61d73b9
    ms2 := 0xa384
    ms3 := 0x4acc
    ms4 := ![0xae, 0xab, 0x82, 0xe8, 0x28, 0xf3, 0x62, 0x8b] }

/-- `uboot_virtio_guid`. -/
def ubootVirtioGuid : Guid :=
  { ms1 := 0x63293792
    ms2 := 0xadf5
    ms3 := 0x9325
    ms4 := ![0xb9, 0x9f, 0x4e, 0x0e, 0x45, 0x5c, 0x1b, 0x1e] }

/-- `sizeof(struct efi_vendor_device_path)`, where the data begins. -/
def sizeofVendorDevicePath : ℕ := 20

/-- `_device_path_vendor` in front of the data. -/
def devicePathVendor : NodeText :=
  let guid := Guid.read data (dp + 4)
  if guidcmp guid ubootGuid then .printed [.text "UBoot"]
  else if guidcmp guid ubootVirtioGuid then
    .printed [.text "Virtio(", .u (byteArgument data dp sizeofVendorDevicePath), .text ")"]
  else
    let type := (DevicePathNode.read data dp).type
    if type == hardwareDevicePath then .vendor [.text "VenHw(", .g guid]
    else if type == messagingDevicePath then .vendor [.text "VenMedia(", .g guid]
    else if type == mediaDevicePath then .vendor [.text "VenMedia(", .g guid]
    else .vendor [.text "Ven?(", .g guid]

/-- `EISA_PNP_NUM`. -/
def eisaPnpNum (id : UInt32) : UInt16 := (id >>> 16).toUInt16

/-- `_device_path_acpi`. -/
def devicePathAcpi : NodeText :=
  let num := eisaPnpNum (data.u32 (dp + 4))
  let uid := u32Argument data dp 8
  if num != 0 then
    if num == 0x60a then .printed [.text "Floppy(", .d uid, .text ")"]
    else if num == 0xa03 then .printed [.text "PciRoot(", .d uid, .text ")"]
    else if num == 0xa08 then .printed [.text "PcieRoot(", .d uid, .text ")"]
    else .printed [.text "Acpi(PNP", .hex4 num.toUInt64, .text ",", .d uid, .text ")"]
  else .printed [.text "Acpi(0x", .hex (u32Argument data dp 4), .text ",", .d uid, .text ")"]

/-- `_device_path_scsi`. -/
def devicePathScsi : NodeText :=
  .printed [.text "Scsi(", .hu (u16Argument data dp 4), .text ",", .hu (u16Argument data dp 6),
    .text ")"]

/-- `_device_path_usb`. -/
def devicePathUsb : NodeText :=
  .printed [.text "USB(", .hu (byteArgument data dp 4), .text ",", .hu (byteArgument data dp 5),
    .text ")"]

/-- `_device_path_sata`. -/
def devicePathSata : NodeText :=
  .printed [.text "Sata(", .hu (u16Argument data dp 4), .text ",", .hu (u16Argument data dp 6),
    .text ",", .hu (u16Argument data dp 8), .text ")"]

/-- `_device_path_sd`. -/
def devicePathSd : NodeText :=
  .printed [if (DevicePathNode.read data dp).subtype == msgSdDp then .ls "SD" else .ls "eMMC",
    .text "(", .hu (byteArgument data dp 4), .text ")"]

/-- `_device_path_partition`. -/
def devicePathPartition : NodeText :=
  let number := u32Argument data dp 4
  let signatureType := data (dp + 41)
  if signatureType == signatureTypeGuid then
    .printed [.text "HD(", .hu number, .text ",GPT,", .g (Guid.read data (dp + 24)), .text ")"]
  else if signatureType == signatureTypeMbr then
    .printed [.text "HD(", .hu number, .text ",MBR,0x", .hex (u32Argument data dp 24), .text ")"]
  else
    .printed [.text "HD(", .hu number, .text ",", .hu (byteArgument data dp 41), .text ",0)"]

/-- `_device_path_filepath`. -/
def devicePathFilepath : NodeText :=
  let pathname := (DevicePathNode.read data dp).length.toUInt64 - sizeofDevicePathNode.toUInt64
  .copied (wcsncpy (fun index => data.u16 (dp + sizeofDevicePathNode + 2 * index))
    (min (pathname / 2).toNat (printItemBufferLen - 1)) 0)

/-- `_device_path_unknown`. -/
def devicePathUnknown : NodeText :=
  let type := (DevicePathNode.read data dp).type
  let subtype := byteArgument data dp 1
  if type == hardwareDevicePath then .printed [.text "HardwarePath(", .hu subtype, .text ")"]
  else if type == acpiDevicePath then .printed [.text "AcpiPath(", .hu subtype, .text ")"]
  else if type == messagingDevicePath then .printed [.text "MsgPath(", .hu subtype, .text ")"]
  else if type == mediaDevicePath then .printed [.text "MediaPath(", .hu subtype, .text ")"]
  else .printed [.text "Path(", .hu (byteArgument data dp 0), .text ",", .hu subtype, .text ")"]

/-- The branches of the loop over the nodes. -/
def nodeText : NodeText :=
  let dp' := DevicePathNode.read data dp
  if dp'.type == hardwareDevicePath then
    if dp'.subtype == hwPciDp then devicePathPci data dp
    else if dp'.subtype == hwMemmapDp then devicePathMemmap data dp
    else if dp'.subtype == hwVendorDp then devicePathVendor data dp
    else devicePathUnknown data dp
  else if dp'.type == acpiDevicePath then
    if dp'.subtype == acpiDp then devicePathAcpi data dp
    else devicePathUnknown data dp
  else if dp'.type == mediaDevicePath then
    if dp'.subtype == mediaPartitionDp then devicePathPartition data dp
    else if dp'.subtype == mediaVendorDp then devicePathVendor data dp
    else if dp'.subtype == mediaFilepathDp then devicePathFilepath data dp
    else devicePathUnknown data dp
  else if dp'.type == messagingDevicePath then
    if dp'.subtype == msgScsiDp then devicePathScsi data dp
    else if dp'.subtype == msgSataDp then devicePathSata data dp
    else if dp'.subtype == msgUsbDp then devicePathUsb data dp
    else if dp'.subtype == msgSdDp then devicePathSd data dp
    else devicePathUnknown data dp
  else if dp'.type == endDevicePathType then
    if dp'.subtype == endInstanceDevicePathSubtype then .separator else .nothing
  else devicePathUnknown data dp

/-- `n` of `_device_path_vendor`: the difference is taken without a sign. -/
def vendorDataLength : UInt32 :=
  (DevicePathNode.read data dp).length.toUInt32 - sizeofVendorDevicePath.toUInt32

end Node

/-! ## The loop over the nodes -/

/-- The loop that runs: the one over the nodes, the turns of `_print` with whether they print in
front of the data of a vendor node, or the loop over this data with its `uint16_t` counter. -/
inductive DevicePathControl where
  | nodes
  | printing (ps : PrintState) (vendor : Bool)
  | vendorData (i : UInt16)
  | returned

structure DevicePathState where
  dp : ℕ
  buffer : TextBuffer
  control : DevicePathControl

section Turns

variable (data : ByteStore) (st : DevicePathState)

/-- `*buffer = u'\0'` and the step to the next node. -/
def endNode (buffer : TextBuffer) : DevicePathState :=
  { st with
    dp := nextDevicePathNode data st.dp
    buffer := buffer.store 0
    control := .nodes }

/-- What is written for a node, up to the first loop. -/
def writeNode (buffer : TextBuffer) : NodeText → DevicePathState
  | .printed pieces =>
      { st with buffer := buffer, control := .printing (wsprintfStart buffer pieces) false }
  | .vendor pieces =>
      { st with buffer := buffer, control := .printing (wsprintfStart buffer pieces) true }
  | .copied text => endNode data st (buffer.puts text)
  | .separator => endNode data st (buffer.put (wide ','))
  | .nothing => endNode data st buffer

/-- A turn of the loop over the nodes. -/
def nodesTurn : DevicePathState :=
  if isDevicePathEndNode (DevicePathNode.read data st.dp) then { st with control := .returned }
  else writeNode data st (st.buffer.put (wide '/')) (nodeText data st.dp)

/-- What follows a `wsprintf` that has returned. -/
def printedTurn (ps : PrintState) (vendor : Bool) : DevicePathState :=
  let buffer := st.buffer.printed (vswprintfEnd ps)
  if vendor then
    if 0 < vendorDataLength data st.dp then
      { st with buffer := buffer.put (wide ','), control := .vendorData 0 }
    else endNode data st (buffer.put (wide ')'))
  else endNode data st buffer

/-- A turn of the loop over the data of a vendor node. -/
def vendorDataTurn (i : UInt16) : DevicePathState :=
  if i.toUInt32 < vendorDataLength data st.dp then
    let value := data (st.dp + sizeofVendorDevicePath + i.toNat)
    { st with buffer := st.buffer.putHex value.toUInt64, control := .vendorData (i + 1) }
  else endNode data st (st.buffer.put (wide ')'))

/-- `device_path_to_string`, one turn after another. -/
def devicePathTurn : Option DevicePathState :=
  match st.control with
  | .nodes => some (nodesTurn data st)
  | .printing ps vendor =>
      match printTurn ps with
      | some next => some { st with control := .printing next vendor }
      | none => some (printedTurn data st ps vendor)
  | .vendorData i => some (vendorDataTurn data st i)
  | .returned => none

end Turns

/-- `device_path_to_string` without the firmware's protocol, on its first node. -/
def devicePathStart (buffer : ℕ → UInt16) (dp : ℕ) : DevicePathState :=
  ⟨dp, ⟨buffer, 0, []⟩, .nodes⟩

end ZLoader
