import ZLoader.Foundation.LittleEndian

/-! # Device path nodes

The header that every node of a device path starts with (`efi/device_path.h`), and the paths that
are chains of such nodes.
-/

namespace ZLoader

def endDevicePathType : UInt8 := 0x7f
def endEntireDevicePathSubtype : UInt8 := 0xff
def endInstanceDevicePathSubtype : UInt8 := 0x01

/-- `struct efi_device_path_protocol`. -/
structure DevicePathNode where
  type : UInt8
  subtype : UInt8
  length : UInt16
deriving DecidableEq, Repr

/-- `sizeof(struct efi_device_path_protocol)`. -/
def sizeofDevicePathNode : ℕ := 4

/-- The node at an offset. -/
def DevicePathNode.read (data : ByteStore) (offset : ℕ) : DevicePathNode :=
  ⟨data offset, data (offset + 1), data.u16 (offset + 2)⟩

/-- `IsDevicePathEndNode`. -/
def isDevicePathEndNode (node : DevicePathNode) : Bool :=
  node.type == endDevicePathType && node.subtype == endEntireDevicePathSubtype

/-- `HARDWARE_DEVICE_PATH`. -/
def hardwareDevicePath : UInt8 := 1

def acpiDevicePath : UInt8 := 0x02
def messagingDevicePath : UInt8 := 0x03
def mediaDevicePath : UInt8 := 0x04

def hwPciDp : UInt8 := 0x01

/-- `HW_MEMMAP_DP`. -/
def hwMemmapDp : UInt8 := 3

def hwVendorDp : UInt8 := 0x04
def acpiDp : UInt8 := 0x01
def msgScsiDp : UInt8 := 0x02
def msgUsbDp : UInt8 := 0x05
def msgSataDp : UInt8 := 0x12
def msgSdDp : UInt8 := 0x1a

/-- `MEDIA_PARTITION_DP`. -/
def mediaPartitionDp : UInt8 := 0x01

def mediaVendorDp : UInt8 := 0x03
def mediaFilepathDp : UInt8 := 0x04
def signatureTypeMbr : UInt8 := 0x01

/-- `SIGNATURE_TYPE_GUID`. -/
def signatureTypeGuid : UInt8 := 0x02

/-- `IsDevicePathNode`. -/
def isDevicePathNode (node : DevicePathNode) (type subtype : UInt8) : Bool :=
  node.type == type && node.subtype == subtype

/-- `NextDevicePathNode`. -/
def nextDevicePathNode (data : ByteStore) (dp : ℕ) : ℕ :=
  dp + (DevicePathNode.read data dp).length.toNat

/-- The nodes of a path in front of its end node, which stands at the last offset. Every node has
room for its header. -/
inductive DevicePathChain (data : ByteStore) : ℕ → List ℕ → ℕ → Prop where
  | last {dp : ℕ} (isEnd : isDevicePathEndNode (DevicePathNode.read data dp) = true) :
      DevicePathChain data dp [] dp
  | node {dp last : ℕ} {nodes : List ℕ}
      (more : isDevicePathEndNode (DevicePathNode.read data dp) = false)
      (room : sizeofDevicePathNode ≤ (DevicePathNode.read data dp).length.toNat)
      (rest : DevicePathChain data (nextDevicePathNode data dp) nodes last) :
      DevicePathChain data dp (dp :: nodes) last

/-- A well-formed device path in memory. -/
structure DevicePath where
  data : ByteStore
  start : ℕ
  nodes : List ℕ
  last : ℕ
  chain : DevicePathChain data start nodes last

end ZLoader
