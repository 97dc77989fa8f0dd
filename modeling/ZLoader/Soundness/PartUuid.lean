import ZLoader.Foundation.ByteList
import ZLoader.Foundation.Trace
import ZLoader.Model.Util.PartUuid

/-! # The partition of a device path

The search should find the GUID of a partition node. Its filter passes over the partition nodes and
takes all others for partitions, it copies the caller's GUID into the path, and it never reports
that it has found one.
-/

namespace ZLoader

open StateTransition

/-- A partition node. -/
def IsPartition (data : ByteStore) (dp : ℕ) : Prop :=
  isDevicePathNode (DevicePathNode.read data dp) mediaDevicePath mediaPartitionDp = true

/-- A partition node with a GUID. -/
def HasPartUuid (data : ByteStore) (dp : ℕ) : Prop :=
  IsPartition data dp ∧ partSignatureType data dp = signatureTypeGuid

/-- The GUID at one address is the one that stood at another. -/
def SameGuid (data : ByteStore) (guid : ℕ) (before : ByteStore) (source : ℕ) : Prop :=
  ∀ index < sizeofGuid, data (guid + index) = before (source + index)

/-- The search ends, reads partition fields of partition nodes only, leaves the path alone, and
reports the GUID of a partition node where there is one. -/
structure PartUuidFound (path : DevicePath) (guid : ℕ) (last : PartUuidState) : Prop where
  ended : last ∈ eval (partUuidTurn guid) (partUuidStart path.start path.data)
  reads : ∀ dp ∈ last.partitionReads, IsPartition path.data dp
  path_kept : ByteStore.Keeps
    (fun offset => path.start ≤ offset ∧ offset < path.last + sizeofDevicePathNode)
    path.data last.data
  found : (∃ dp ∈ path.nodes, HasPartUuid path.data dp) → last.status = some efiSuccess ∧
    ∃ dp ∈ path.nodes, HasPartUuid path.data dp ∧
      SameGuid last.data guid path.data (partSignature dp)
  missing : (¬ ∃ dp ∈ path.nodes, HasPartUuid path.data dp) →
    last.status = some efiNotFound ∧ SameGuid last.data guid path.data guid

/-- `get_part_uuid_from_device_path` does what it should. -/
def FindsPartUuid (path : DevicePath) (guid : ℕ) : Prop := ∃ last, PartUuidFound path guid last

section Walk

variable {guid : ℕ} {st : PartUuidState}

/-- What has been read stays read. -/
theorem partitionReads_mono {reached : PartUuidState}
    (run : Reaches (partUuidTurn guid) st reached) :
    st.partitionReads ⊆ reached.partitionReads := by
  refine reaches_invariant (fun state : PartUuidState => st.partitionReads ⊆ state.partitionReads)
    (fun state next kept stepped => ?_) run (List.Subset.refl _)
  rw [partUuidTurn] at stepped
  split at stepped
  · cases stepped
  · split_ifs at stepped with ended
    · cases stepped
      exact kept
    · cases stepped
      apply List.Subset.trans kept
      simp only [partUuidBody]
      split_ifs
      · exact List.Subset.refl _
      · exact List.subset_cons_self ..
      · exact List.subset_cons_self ..

/-- The status is never a success. -/
theorem partUuid_status {reached : PartUuidState}
    (run : Reaches (partUuidTurn guid) st reached) (running : st.status = none) :
    reached.status = none ∨ reached.status = some efiNotFound := by
  refine reaches_invariant
    (fun state : PartUuidState => state.status = none ∨ state.status = some efiNotFound)
    (fun state next _ stepped => ?_) run (.inl running)
  rw [partUuidTurn] at stepped
  split at stepped
  · cases stepped
  · rename_i running
    split_ifs at stepped with ended
    · cases stepped
      exact .inr rfl
    · cases stepped
      refine .inl ?_
      simp only [partUuidBody]
      split_ifs <;> exact running

/-- A partition node is passed over. -/
theorem partUuidTurn_partition (running : st.status = none)
    (more : isDevicePathEndNode (DevicePathNode.read st.data st.dp) = false)
    (partition : IsPartition st.data st.dp) :
    partUuidTurn guid st = some { st with dp := nextDevicePathNode st.data st.dp } := by
  rw [IsPartition] at partition
  simp only [partUuidTurn, running, more, partUuidBody, partition, Bool.false_eq_true, ite_false,
    ite_true]

/-- Any other node is read as if it were a partition. -/
theorem partUuidTurn_other (running : st.status = none)
    (more : isDevicePathEndNode (DevicePathNode.read st.data st.dp) = false)
    (other : ¬ IsPartition st.data st.dp) :
    ∃ next, partUuidTurn guid st = some next ∧ st.dp ∈ next.partitionReads := by
  rw [IsPartition, Bool.not_eq_true] at other
  simp only [partUuidTurn, running, more, partUuidBody, other, Bool.false_eq_true, ite_false]
  refine ⟨_, rfl, ?_⟩
  split_ifs <;> exact List.mem_cons_self

theorem partUuidTurn_end (running : st.status = none)
    (isEnd : isDevicePathEndNode (DevicePathNode.read st.data st.dp) = true) :
    partUuidTurn guid st = some { st with status := some efiNotFound } := by
  simp only [partUuidTurn, running, isEnd, ite_true]

/-- Where partition fields are read of partitions only, the path has no other nodes. -/
theorem partitions_of_reads {nodes : List ℕ} {behind : ℕ} {last : PartUuidState}
    (chain : DevicePathChain st.data st.dp nodes behind) (running : st.status = none)
    (ended : last ∈ eval (partUuidTurn guid) st)
    (reads : ∀ dp ∈ last.partitionReads, IsPartition st.data dp) :
    ∀ dp ∈ nodes, IsPartition st.data dp := by
  obtain ⟨dp, data, seen, status⟩ := st
  dsimp only at chain running reads ⊢
  induction chain with
  | last isEnd => exact fun _ member => absurd member List.not_mem_nil
  | @node dp behind nodes more room rest ih =>
      have partition : IsPartition data dp := by
        by_contra other
        obtain ⟨next, stepped, member⟩ := @partUuidTurn_other guid ⟨dp, data, seen, status⟩
          running more other
        have reached := reaches_of_eval ended (.single stepped)
        exact other (reads dp (partitionReads_mono reached member))
      have stepped := @partUuidTurn_partition guid ⟨dp, data, seen, status⟩ running more partition
      rw [reaches_eval (.single stepped)] at ended
      exact List.forall_mem_cons.mpr ⟨partition, ih ended⟩

/-- A path of partitions is walked to its end, and nothing is read or written. -/
theorem walk_partitions {nodes : List ℕ} {behind : ℕ}
    (chain : DevicePathChain st.data st.dp nodes behind) (running : st.status = none)
    (partitions : ∀ dp ∈ nodes, IsPartition st.data dp) :
    { st with dp := behind, status := some efiNotFound } ∈ eval (partUuidTurn guid) st := by
  obtain ⟨dp, data, seen, status⟩ := st
  dsimp only at chain running partitions ⊢
  induction chain with
  | last isEnd =>
      exact mem_eval.mpr ⟨.single (partUuidTurn_end running isEnd), rfl⟩
  | node more room rest ih =>
      obtain ⟨partition, partitions⟩ := List.forall_mem_cons.mp partitions
      have stepped := @partUuidTurn_partition guid ⟨_, data, seen, status⟩ running more partition
      rw [reaches_eval (.single stepped)]
      exact ih partitions

end Walk

/-- A search that does what it should has no partition with a GUID to find: it would not report
it. -/
theorem PartUuidFound.none {path : DevicePath} {guid : ℕ} {last : PartUuidState}
    (call : PartUuidFound path guid last) : ¬ ∃ dp ∈ path.nodes, HasPartUuid path.data dp := by
  intro present
  obtain ⟨success, -⟩ := call.found present
  obtain ⟨run, -⟩ := mem_eval.mp call.ended
  rcases partUuid_status run rfl with running | missing
  · rw [running] at success
    cases success
  · rw [missing] at success
    exact absurd (Option.some.inj success) (by decide)

/-- The search does what it should for the paths that have no nodes but partitions without a
GUID. -/
theorem findsPartUuid_iff (path : DevicePath) (guid : ℕ) :
    FindsPartUuid path guid ↔
      ∀ dp ∈ path.nodes, IsPartition path.data dp ∧
        partSignatureType path.data dp ≠ signatureTypeGuid := by
  constructor
  · rintro ⟨last, call⟩ dp member
    have partition := partitions_of_reads path.chain rfl call.ended call.reads dp member
    exact ⟨partition, fun typed => call.none ⟨dp, member, partition, typed⟩⟩
  · intro partitions
    have missing : ¬ ∃ dp ∈ path.nodes, HasPartUuid path.data dp := by
      rintro ⟨dp, member, -, typed⟩
      exact (partitions dp member).2 typed
    exact ⟨_,
      { ended := walk_partitions path.chain rfl fun dp member => (partitions dp member).1
        reads := fun _ member => absurd member List.not_mem_nil
        path_kept := .refl _ _
        found := fun present => absurd present missing
        missing := fun _ => ⟨rfl, fun _ _ => rfl⟩ }⟩

/-- A partition node with a GUID, and the end node. -/
def partitionPathBytes : List UInt8 :=
  [0x04, 0x01, 42, 0, 1, 0, 0, 0,
    0, 8, 0, 0, 0, 0, 0, 0, 0, 0, 2, 0, 0, 0, 0, 0,
    0x82, 0xb0, 0x67, 0x4a, 0x4c, 0x0a, 0xcf, 0x41, 0xb6, 0xc7, 0x44, 0x0b, 0x29, 0xbb, 0x8c, 0x4f,
    0x02, 0x02,
    0x7f, 0xff, 4, 0]

/-- The path of a partition. -/
def partitionPath : DevicePath where
  data := .ofList partitionPathBytes fun _ => 0
  start := 0
  nodes := [0]
  last := 42
  chain := .node (by decide) (by decide) (.last (by decide))

/-- Its GUID is not found. -/
theorem not_findsPartUuid_partitionPath : ¬ FindsPartUuid partitionPath 0x1000 := by
  rintro ⟨last, call⟩
  exact call.none ⟨0, List.mem_cons_self, rfl, rfl⟩

end ZLoader
