import ZLoader.Model.Efi.DevicePath
import ZLoader.Model.Efi.Status

/-! # The UUID of a partition

`get_part_uuid_from_device_path` of `util.c`, with the memory that holds both the path and the GUID
of the caller. Offsets are addresses.
-/

namespace ZLoader

/-- `sizeof(struct efi_guid)`. -/
def sizeofGuid : ℕ := 16

/-- `part->signature`. -/
def partSignature (dp : ℕ) : ℕ := dp + 24

/-- `part->signature_type`. -/
def partSignatureType (data : ByteStore) (dp : ℕ) : UInt8 := data (dp + 41)

/-- `guidcpy(a, b)`: the first argument is the target. -/
def guidcpy (a b : ℕ) (data : ByteStore) : ByteStore :=
  (Patch.copy a sizeofGuid data b).apply data

/-- The loop with the node that it has come to, the memory, the nodes whose partition fields have
been read, and the status once it has returned. -/
structure PartUuidState where
  dp : ℕ
  data : ByteStore
  partitionReads : List ℕ
  status : Option EfiStatus

/-- The body of the loop. -/
def partUuidBody (guid : ℕ) (st : PartUuidState) : PartUuidState :=
  if isDevicePathNode (DevicePathNode.read st.data st.dp) mediaDevicePath mediaPartitionDp then st
  else
    let st := { st with partitionReads := st.dp :: st.partitionReads }
    if partSignatureType st.data st.dp != signatureTypeGuid then st
    else { st with data := guidcpy (partSignature st.dp) guid st.data }

/-- `get_part_uuid_from_device_path`, one node after another. -/
def partUuidTurn (guid : ℕ) (st : PartUuidState) : Option PartUuidState :=
  match st.status with
  | some _ => none
  | none =>
      if isDevicePathEndNode (DevicePathNode.read st.data st.dp) then
        some { st with status := some efiNotFound }
      else
        let st := partUuidBody guid st
        some { st with dp := nextDevicePathNode st.data st.dp }

/-- The start of the loop. -/
def partUuidStart (path : ℕ) (data : ByteStore) : PartUuidState := ⟨path, data, [], none⟩

end ZLoader
