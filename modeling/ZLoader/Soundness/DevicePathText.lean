import ZLoader.Foundation.Trace
import ZLoader.Soundness.FormatPieces
import ZLoader.Soundness.TextBuffers

/-! # The texts of device paths

`device_path_to_string` writes into the buffer of an item. The text of the firmware is copied up to
the size of the buffer and ended behind that. The nodes are described one behind the other, each as
if the buffer were empty, and the loop over the data of a vendor node runs for good where the node
has no room for its GUID.
-/

namespace ZLoader

open StateTransition Relation

/-! ## What is claimed -/

/-- A call of `device_path_to_string`: for a text that the firmware returns, or for the nodes of a
path. -/
inductive DevicePathCall where
  | protocol (text : Terminated UInt16)
  | nodes (path : DevicePath)

/-- The call returns and has written only units of the item's buffer. -/
def DevicePathCall.WritesInside : DevicePathCall → Prop
  | .protocol text =>
      ∀ scratch, ∀ index ∈ (protocolPathToString ⟨scratch, 0, []⟩ text.get).stores,
        index < printItemBufferLen
  | .nodes path =>
      ∀ scratch, ∃ last ∈ eval (devicePathTurn path.data) (devicePathStart scratch path.start),
        ∀ index ∈ last.buffer.stores, index < printItemBufferLen

section Width

variable (data : ByteStore) (dp : ℕ)

/-- The bytes of a vendor node behind its GUID. -/
def vendorBytes : ℕ := (DevicePathNode.read data dp).length.toNat - sizeofVendorDevicePath

/-- The digits of a vendor node's bytes from an index on. -/
def vendorDigits (first count : ℕ) : ℕ :=
  ((List.range' first count).map fun index =>
    hexWidth (data (dp + sizeofVendorDevicePath + index)).toNat).sum

/-- The units written for a node. -/
def NodeText.width : NodeText → ℕ
  | .printed pieces => formatWidth pieces
  | .copied text => text.length
  | .vendor pieces =>
      formatWidth pieces +
        (if vendorBytes data dp = 0 then 0 else 1 + vendorDigits data dp 0 (vendorBytes data dp)) + 1
  | .separator => 1
  | .nothing => 0

/-- A vendor node whose data is written has room for its GUID. -/
def NodeText.RoomForGuid : NodeText → Prop
  | .vendor _ => sizeofVendorDevicePath ≤ (DevicePathNode.read data dp).length.toNat
  | _ => True

end Width

/-- The slash and the text of every node. -/
def nodesWidth (data : ByteStore) (nodes : List ℕ) : ℕ :=
  (nodes.map fun dp => 1 + (nodeText data dp).width data dp).sum

/-- When the text and its terminator fit. -/
def DevicePathCall.Fits : DevicePathCall → Prop
  | .protocol text => (text.units.takeWhile (· != 0)).length < printItemBufferLen
  | .nodes path =>
      (∀ dp ∈ path.nodes, (nodeText path.data dp).RoomForGuid path.data dp) ∧
        nodesWidth path.data path.nodes < printItemBufferLen

/-! ## Writing into the buffer -/

namespace TextBuffer

theorem adds_putHex (buffer : TextBuffer) (value : UInt64) :
    buffer.Adds (buffer.putHex value) (hexWidth value.toNat) := by
  have digits := buffer.adds_puts ((valueToHexString value).map wide)
  rw [List.length_map, hex_length] at digits
  exact digits.trans (adds_store _ 0)

/-- A `wsprintf` that has returned. -/
theorem adds_printed (buffer : TextBuffer) {ps : PrintState} {count : ℕ}
    (len : ps.out.len = count) (pos : ps.out.pos = count)
    (stores : ∀ index ∈ ps.out.stores, index < ps.out.pos) :
    buffer.Adds (buffer.printed (vswprintfEnd ps)) count := by
  refine ⟨congrArg (buffer.pos + ·) len, fun index member => ?_⟩
  rcases List.mem_append.mp member with inside | earlier
  · obtain ⟨store, from_, rfl⟩ := List.mem_map.mp inside
    have bound : store ≤ ps.out.pos := by
      rcases List.mem_cons.mp from_ with rfl | before
      · exact Nat.le_refl _
      · exact Nat.le_of_lt (stores store before)
    refine .inr (Nat.add_le_add_left ?_ _)
    change store ≤ ps.out.len
    rw [len, ← pos]
    exact bound
  · exact .inl earlier

end TextBuffer

/-! ## The text of the firmware -/

/-- What `wcsncpy` copies of a text. -/
theorem wcsncpy_terminated (text : Terminated UInt16) (n : ℕ) :
    wcsncpy text.get n 0 = (text.units.takeWhile (· != 0)).take n := by
  suffices copied : ∀ index ≤ text.units.length,
      wcsncpy text.get n index = ((text.units.drop index).takeWhile (· != 0)).take n from
    copied 0 (Nat.zero_le _)
  induction n with
  | zero => exact fun _ _ => List.take_zero.symm
  | succ n ih =>
    intro index inside
    rcases Nat.eq_or_lt_of_le inside with rfl | before
    · rw [wcsncpy, Terminated.get_length, List.drop_length]
      rfl
    · rw [wcsncpy, Terminated.get_of_lt _ before, List.drop_eq_getElem_cons before,
        List.takeWhile_cons]
      split_ifs
      · rw [List.take_succ_cons, ih (index + 1) before]
      · rfl

theorem protocol_writesInside_iff (text : Terminated UInt16) :
    (DevicePathCall.protocol text).WritesInside ↔ (DevicePathCall.protocol text).Fits := by
  have length : (wcsncpy text.get printItemBufferLen 0).length =
      min printItemBufferLen (text.units.takeWhile (· != 0)).length := by
    rw [wcsncpy_terminated, List.length_take]
  have adds : ∀ scratch, (⟨scratch, 0, []⟩ : TextBuffer).Adds
      (protocolPathToString ⟨scratch, 0, []⟩ text.get) _ := fun scratch =>
    (TextBuffer.adds_puts _ _).trans (TextBuffer.adds_store _ 0)
  constructor
  · intro inside
    have last := inside (fun _ => 0) _ List.mem_cons_self
    have pos := (TextBuffer.adds_puts ⟨fun _ => 0, 0, []⟩
      (wcsncpy text.get printItemBufferLen 0)).pos
    rw [pos, length] at last
    rw [DevicePathCall.Fits]
    omega
  · intro fits scratch index member
    rcases (adds scratch).stores index member with none | bound
    · cases none
    · rw [(adds scratch).pos, length] at bound
      rw [DevicePathCall.Fits] at fits
      change index ≤ 0 + _ at bound
      omega

/-! ## The text of a node -/

section Runs

variable {data : ByteStore} {dp : ℕ} {buffer : TextBuffer}

/-- The run of `_print` inside of a description. -/
theorem printing_reaches {ps last : PrintState} {vendor : Bool} (ended : last ∈ eval printTurn ps) :
    Reaches (devicePathTurn data) ⟨dp, buffer, .printing ps vendor⟩
      (printedTurn data ⟨dp, buffer, .printing last vendor⟩ last vendor) := by
  obtain ⟨run, final⟩ := mem_eval.mp ended
  have lifted : Reaches (devicePathTurn data) ⟨dp, buffer, .printing ps vendor⟩
      ⟨dp, buffer, .printing last vendor⟩ := by
    refine ReflTransGen.lift (fun ps : PrintState =>
      (⟨dp, buffer, .printing ps vendor⟩ : DevicePathState)) ?_ ps last run
    intro before after stepped
    have turned : printTurn before = some after := stepped
    change devicePathTurn data _ = some _
    simp only [devicePathTurn, turned]
  apply lifted.tail
  change devicePathTurn data _ = some _
  simp only [devicePathTurn, final]

/-- The node is left with its terminator behind the text. -/
def LeavesNode (data : ByteStore) (dp : ℕ) (buffer : TextBuffer) (count : ℕ)
    (st : DevicePathState) : Prop :=
  ∃ after, Reaches (devicePathTurn data) st ⟨nextDevicePathNode data dp, after, .nodes⟩ ∧
    buffer.Adds after count ∧ after.pos ∈ after.stores

theorem LeavesNode.endNode {written : TextBuffer} {count : ℕ} (control : DevicePathControl)
    (adds : buffer.Adds written count) :
    LeavesNode data dp buffer count (endNode data ⟨dp, buffer, control⟩ written) :=
  ⟨written.store 0, .refl, adds.trans (TextBuffer.adds_store written 0), List.mem_cons_self⟩

theorem LeavesNode.head {middle : TextBuffer} {count count' : ℕ} {st st' : DevicePathState}
    (reached : Reaches (devicePathTurn data) st st') (adds : buffer.Adds middle count)
    (leaves : LeavesNode data dp middle count' st') :
    LeavesNode data dp buffer (count + count') st := by
  obtain ⟨after, run, adds', stored⟩ := leaves
  exact ⟨after, reached.trans run, adds.trans adds', stored⟩

/-- A description and what follows it. -/
theorem LeavesNode.printing {pieces : List FormatPiece} {vendor : Bool} {count : ℕ}
    (behind : ∀ ps, LeavesNode data dp (buffer.printed (vswprintfEnd ps)) count
      (printedTurn data ⟨dp, buffer, .printing ps vendor⟩ ps vendor)) :
    LeavesNode data dp buffer (formatWidth pieces + count)
      ⟨dp, buffer, .printing (wsprintfStart buffer pieces) vendor⟩ := by
  obtain ⟨last, ended, len, pos, stores⟩ := wsprintf_returns buffer pieces
  exact .head (printing_reaches ended) (buffer.adds_printed len pos stores) (behind last)

/-! ## The data of a vendor node -/

theorem vendorDataLength_toNat
    (room : sizeofVendorDevicePath ≤ (DevicePathNode.read data dp).length.toNat) :
    (vendorDataLength data dp).toNat = vendorBytes data dp := by
  have wide : (sizeofVendorDevicePath.toUInt32).toNat = sizeofVendorDevicePath := rfl
  rw [vendorDataLength, UInt32.toNat_sub_of_le, UInt16.toNat_toUInt32, wide, vendorBytes]
  rw [UInt32.le_iff_toNat_le, UInt16.toNat_toUInt32]
  exact room

/-- The difference of a length below the size of the GUID's header is beyond the counter. -/
theorem vendorDataLength_wraps
    (short : (DevicePathNode.read data dp).length.toNat < sizeofVendorDevicePath) :
    2 ^ 16 ≤ (vendorDataLength data dp).toNat := by
  have wide : (sizeofVendorDevicePath.toUInt32).toNat = 20 := rfl
  have bound : (DevicePathNode.read data dp).length.toNat < 20 := short
  rw [vendorDataLength, UInt32.toNat_sub, UInt16.toNat_toUInt32, wide]
  omega

/-- A turn of the loop over the data. -/
theorem vendorData_turn {i : UInt16} (more : i.toUInt32 < vendorDataLength data dp) :
    devicePathTurn data ⟨dp, buffer, .vendorData i⟩ =
      some ⟨dp, buffer.putHex (data (dp + sizeofVendorDevicePath + i.toNat)).toUInt64,
        .vendorData (i + 1)⟩ := by
  simp only [devicePathTurn, vendorDataTurn, if_pos more]

/-- The loop over the data writes the digits that are left and the parenthesis. The induction is on
the bytes that are left. -/
theorem vendorData_leaves
    (room : sizeofVendorDevicePath ≤ (DevicePathNode.read data dp).length.toNat) {left : ℕ}
    {i : UInt16} (rest : i.toNat + left = vendorBytes data dp) :
    LeavesNode data dp buffer (vendorDigits data dp i.toNat left + 1)
      ⟨dp, buffer, .vendorData i⟩ := by
  have length := vendorDataLength_toNat room
  have counter : i.toUInt32.toNat = i.toNat := UInt16.toNat_toUInt32 i
  induction left generalizing i buffer with
  | zero =>
    have done : ¬ i.toUInt32 < vendorDataLength data dp := by
      rw [UInt32.lt_iff_toNat_lt, counter, length]
      omega
    have turned : devicePathTurn data ⟨dp, buffer, .vendorData i⟩ =
        some (endNode data ⟨dp, buffer, .vendorData i⟩ (buffer.put (wide ')'))) := by
      simp only [devicePathTurn, vendorDataTurn, if_neg done]
    exact .head (.single turned) (.refl buffer) (.endNode (.vendorData i) (buffer.adds_put _))
  | succ left ih =>
    have more : i.toUInt32 < vendorDataLength data dp := by
      rw [UInt32.lt_iff_toNat_lt, counter, length]
      omega
    have next : (i + 1).toNat = i.toNat + 1 := by
      have bound := (DevicePathNode.read data dp).length.toNat_lt
      rw [vendorBytes, sizeofVendorDevicePath] at rest
      rw [UInt16.toNat_add]
      exact Nat.mod_eq_of_lt (by change i.toNat + 1 < 2 ^ 16; omega)
    have leaves : LeavesNode data dp
        (buffer.putHex (data (dp + sizeofVendorDevicePath + i.toNat)).toUInt64)
        (vendorDigits data dp (i + 1).toNat left + 1) _ := ih (by omega) (UInt16.toNat_toUInt32 _)
    have digits := LeavesNode.head (.single (vendorData_turn more)) (buffer.adds_putHex _) leaves
    rw [next, ← Nat.add_assoc] at digits
    exact digits

/-- Without room for the GUID the loop does not end. -/
theorem vendorData_neverEnds
    (short : (DevicePathNode.read data dp).length.toNat < sizeofVendorDevicePath) (i : UInt16) :
    NeverEnds (devicePathTurn data) ⟨dp, buffer, .vendorData i⟩ := by
  have closed : ∀ st : DevicePathState, (st.dp = dp ∧ ∃ i, st.control = .vendorData i) →
      ∃ next, devicePathTurn data st = some next ∧
        next.dp = dp ∧ ∃ i, next.control = .vendorData i := by
    rintro ⟨dp', buffer, _⟩ ⟨same, i, rfl⟩
    obtain rfl : dp' = dp := same
    have more : i.toUInt32 < vendorDataLength data dp' := by
      have wraps := vendorDataLength_wraps short
      have bound := i.toNat_lt
      rw [UInt32.lt_iff_toNat_lt, UInt16.toNat_toUInt32]
      omega
    exact ⟨_, vendorData_turn more, rfl, i + 1, rfl⟩
  exact neverEnds_of_closed closed ⟨rfl, i, rfl⟩

/-- What follows the description of a vendor node. -/
theorem printedTurn_leaves
    (room : sizeofVendorDevicePath ≤ (DevicePathNode.read data dp).length.toNat) (ps : PrintState)
    (control : DevicePathControl) :
    LeavesNode data dp (buffer.printed (vswprintfEnd ps))
      ((if vendorBytes data dp = 0 then 0
        else 1 + vendorDigits data dp 0 (vendorBytes data dp)) + 1)
      (printedTurn data ⟨dp, buffer, control⟩ ps true) := by
  have length := vendorDataLength_toNat room
  rw [printedTurn, if_pos rfl]
  by_cases empty : vendorBytes data dp = 0
  · have none : ¬ 0 < vendorDataLength data dp := by
      rw [UInt32.lt_iff_toNat_lt, length, empty]
      exact Nat.lt_irrefl 0
    rw [if_pos empty, if_neg none]
    exact LeavesNode.endNode control (TextBuffer.adds_put _ _)
  · have some : 0 < vendorDataLength data dp := by
      rw [UInt32.lt_iff_toNat_lt, length]
      exact Nat.pos_of_ne_zero empty
    rw [if_neg empty, if_pos some, Nat.add_assoc]
    exact .head .refl (TextBuffer.adds_put _ _) (vendorData_leaves room (Nat.zero_add _))

/-! ## The nodes of a path -/

theorem devicePathTurn_node (more : isDevicePathEndNode (DevicePathNode.read data dp) = false) :
    devicePathTurn data ⟨dp, buffer, .nodes⟩ =
      some (writeNode data ⟨dp, buffer, .nodes⟩ (buffer.put (wide '/')) (nodeText data dp)) := by
  simp only [devicePathTurn, nodesTurn, more, Bool.false_eq_true, if_false]

/-- A node is left behind its slash and its text. -/
theorem node_leaves (more : isDevicePathEndNode (DevicePathNode.read data dp) = false)
    (room : (nodeText data dp).RoomForGuid data dp) :
    LeavesNode data dp buffer (1 + (nodeText data dp).width data dp) ⟨dp, buffer, .nodes⟩ := by
  refine .head (.single (devicePathTurn_node more)) (buffer.adds_put (wide '/')) ?_
  cases text : nodeText data dp with
  | printed pieces =>
    rw [NodeText.width, ← Nat.add_zero (formatWidth pieces)]
    exact .printing fun ps => .endNode (.printing ps false) (.refl _)
  | vendor pieces =>
    rw [text] at room
    rw [NodeText.width, Nat.add_assoc]
    exact .printing fun ps => printedTurn_leaves room ps (.printing ps true)
  | copied units => exact .endNode .nodes (TextBuffer.adds_puts _ units)
  | separator => exact .endNode .nodes (TextBuffer.adds_put _ (wide ','))
  | nothing => exact .endNode .nodes (.refl _)

/-- A vendor node without room for its GUID is not left. -/
theorem node_neverEnds (more : isDevicePathEndNode (DevicePathNode.read data dp) = false)
    (cramped : ¬ (nodeText data dp).RoomForGuid data dp) :
    NeverEnds (devicePathTurn data) ⟨dp, buffer, .nodes⟩ := by
  have written := @devicePathTurn_node data dp buffer more
  cases text : nodeText data dp with
  | vendor pieces =>
    rw [text] at cramped written
    have short : (DevicePathNode.read data dp).length.toNat < sizeofVendorDevicePath :=
      Nat.lt_of_not_le cramped
    have some : 0 < vendorDataLength data dp := by
      have wraps := vendorDataLength_wraps short
      rw [UInt32.lt_iff_toNat_lt]
      exact Nat.lt_of_lt_of_le (by decide) wraps
    obtain ⟨last, ended, -⟩ := wsprintf_returns (buffer.put (wide '/')) pieces
    have printed := @printing_reaches data dp (buffer.put (wide '/')) _ _ true ended
    rw [printedTurn, if_pos rfl, if_pos some] at printed
    exact (vendorData_neverEnds short 0).of_reaches (.head written printed)
  | printed | copied | separator | nothing =>
    rw [text] at cramped
    exact absurd trivial cramped

theorem devicePathTurn_end (isEnd : isDevicePathEndNode (DevicePathNode.read data dp) = true) :
    devicePathTurn data ⟨dp, buffer, .nodes⟩ = some ⟨dp, buffer, .returned⟩ := by
  simp only [devicePathTurn, nodesTurn, isEnd, if_true]

/-- A path whose vendor nodes have room is written to its end. The induction is on the chain. -/
theorem chain_ends {last : ℕ} {nodes : List ℕ} (chain : DevicePathChain data dp nodes last)
    (room : ∀ node ∈ nodes, (nodeText data node).RoomForGuid data node) :
    ∃ after, ⟨last, after, .returned⟩ ∈ eval (devicePathTurn data) ⟨dp, buffer, .nodes⟩ ∧
      buffer.Adds after (nodesWidth data nodes) ∧ (nodes ≠ [] → after.pos ∈ after.stores) := by
  induction chain generalizing buffer with
  | last isEnd =>
    exact ⟨buffer, mem_eval.mpr ⟨.single (devicePathTurn_end isEnd), rfl⟩, .refl buffer,
      fun nonempty => absurd rfl nonempty⟩
  | @node dp last nodes more _ rest ih =>
    obtain ⟨roomHere, roomBehind⟩ := List.forall_mem_cons.mp room
    obtain ⟨middle, run, adds, stored⟩ := @node_leaves data dp buffer more roomHere
    obtain ⟨after, ended, adds', stored'⟩ := @ih middle roomBehind
    refine ⟨after, by rwa [reaches_eval run], ?_, fun _ => ?_⟩
    · rw [nodesWidth, List.map_cons, List.sum_cons]
      exact adds.trans adds'
    · cases rest with
      | last isEnd =>
        obtain ⟨reached, -⟩ := mem_eval.mp ended
        have same := Part.mem_unique ended
          (mem_eval.mpr ⟨.single (devicePathTurn_end isEnd), rfl⟩)
        cases same
        exact stored
      | node => exact stored' (List.cons_ne_nil _ _)

/-- A path with a vendor node that has no room is not. -/
theorem chain_neverEnds {last : ℕ} {nodes : List ℕ} (chain : DevicePathChain data dp nodes last)
    (cramped : ¬ ∀ node ∈ nodes, (nodeText data node).RoomForGuid data node) :
    NeverEnds (devicePathTurn data) ⟨dp, buffer, .nodes⟩ := by
  induction chain generalizing buffer with
  | last isEnd => exact absurd (fun _ member => absurd member List.not_mem_nil) cramped
  | @node dp last nodes more _ rest ih =>
    by_cases roomHere : (nodeText data dp).RoomForGuid data dp
    · obtain ⟨middle, run, -, -⟩ := @node_leaves data dp buffer more roomHere
      have later : ¬ ∀ node ∈ nodes, (nodeText data node).RoomForGuid data node :=
        fun room => cramped (List.forall_mem_cons.mpr ⟨roomHere, room⟩)
      exact (@ih middle later).of_reaches run
    · exact node_neverEnds more roomHere

end Runs

theorem nodes_writesInside_iff (path : DevicePath) :
    (DevicePathCall.nodes path).WritesInside ↔ (DevicePathCall.nodes path).Fits := by
  constructor
  · intro inside
    obtain ⟨last, ended, bound⟩ := inside fun _ => 0
    have room : ∀ dp ∈ path.nodes, (nodeText path.data dp).RoomForGuid path.data dp := by
      by_contra cramped
      exact (chain_neverEnds path.chain cramped).not_eval ended
    obtain ⟨after, ended', adds, stored⟩ := @chain_ends _ _ ⟨fun _ => 0, 0, []⟩ _ _ path.chain room
    obtain rfl := Part.mem_unique ended ended'
    refine ⟨room, ?_⟩
    by_cases empty : path.nodes = []
    · rw [empty]
      change 0 < printItemBufferLen
      decide
    · have last := bound _ (stored empty)
      change after.pos < _ at last
      rw [adds.pos, Nat.zero_add] at last
      exact last
  · rintro ⟨room, fits⟩ scratch
    obtain ⟨after, ended, adds, -⟩ := @chain_ends _ _ ⟨scratch, 0, []⟩ _ _ path.chain room
    refine ⟨_, ended, fun index member => ?_⟩
    rcases adds.stores index member with none | bound
    · cases none
    · rw [adds.pos, Nat.zero_add] at bound
      exact Nat.lt_of_le_of_lt bound fits

/-- `device_path_to_string` returns and writes only units of the item's buffer exactly where the text
of the path and its terminator fit, and every vendor node has room for its GUID. -/
theorem devicePathToString_inside_iff (call : DevicePathCall) : call.WritesInside ↔ call.Fits := by
  cases call with
  | protocol text => exact protocol_writesInside_iff text
  | nodes path => exact nodes_writesInside_iff path

/-- A text of as many units as the buffer has. -/
theorem not_devicePathToString_inside_full :
    ¬ (DevicePathCall.protocol
      ⟨List.replicate printItemBufferLen (wide 'a'), fun _ => 0⟩).WritesInside := by
  rw [protocol_writesInside_iff, DevicePathCall.Fits, List.takeWhile_replicate,
    if_pos (by decide), List.length_replicate]
  exact Nat.lt_irrefl _

end ZLoader
