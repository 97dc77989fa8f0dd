import ZLoader.Model.DevicetreeFixup
import ZLoader.Soundness.InitrdRegistration

/-! # The DeviceTree that is installed

A fixup that succeeds at once has been applied to the blob before it is copied; one that asks for
more room is applied to the copy. The copy is as long as the blob, and the new buffer belongs to the
caller until the table is installed. The blob is copied before the status of the first call is
looked at, so a call that fails and leaves a smaller size than it was given makes the new buffer too
small.
-/

namespace ZLoader

section Contracts

/-- A fixup succeeds in place, fails in some way, or asks for more room and changes nothing. -/
structure FixupContract (call : FixupCall) : Prop where
  inPlace : ∀ dtb size memory, efiError (call dtb size memory).status = false →
    (call dtb size memory).size = size
  tooSmall : ∀ dtb size memory, (call dtb size memory).status = efiBufferTooSmall →
    size < (call dtb size memory).size ∧ (call dtb size memory).memory = memory

/-- The blob lies in memory and is not empty. -/
structure DevicetreeBlob (fdt : SimpleBuffer) : Prop where
  nonempty : fdt.pos < fdt.length
  inMemory : fdt.buffer.toNat + fdt.length.toNat ≤ 2 ^ 64

/-- Memory from the pool is apart from that of the blob. -/
structure PoolContract (allocatePool : UInt64 → Option UInt64) (fdt : SimpleBuffer) : Prop where
  nonnull : ∀ size address, allocatePool size = some address → address ≠ 0
  fresh : ∀ size address, allocatePool size = some address →
    Window.Disjoint ⟨address.toNat, size.toNat⟩ ⟨fdt.buffer.toNat, fdt.length.toNat⟩

end Contracts

section Run

variable (firmware : DevicetreeFirmware) (fdt : SimpleBuffer) (memory : ByteStore)

/-- The blob that the protocol is called for, and its answer. -/
def SimpleBuffer.blob (fdt : SimpleBuffer) : UInt64 × UInt64 :=
  (fdt.buffer + fdt.pos, fdt.length - fdt.pos)

def DevicetreeFirmware.first : FixupAnswer := firmware.fixup fdt.blob.1 fdt.blob.2 memory

/-- The memory once the blob has been copied. -/
def DevicetreeFirmware.copied (address : UInt64) : ByteStore :=
  (Patch.copy address.toNat fdt.blob.2.toNat (firmware.first fdt memory).memory
    fdt.blob.1.toNat).apply (firmware.first fdt memory).memory

/-- The new buffer, and what has been done by the time `fdt` is it. -/
def DevicetreeFirmware.fixed (address : UInt64) : SimpleBuffer :=
  ⟨address, (firmware.first fdt memory).size, 0, (firmware.first fdt memory).size,
    some .freeSimpleBuffer⟩

def DevicetreeFirmware.swapEvents (address : UInt64) : List DevicetreeEvent :=
  [.fixup fdt.blob.1 fdt.blob.2 (firmware.first fdt memory).status,
    .allocate address (firmware.first fdt memory).size, .copy address fdt.blob.1 fdt.blob.2] ++
    freeDevicetree fdt

/-- The answer that decides, and the second call if there is one. -/
def DevicetreeFirmware.last (address : UInt64) : FixupAnswer × List DevicetreeEvent :=
  retryFixup firmware (firmware.first fdt memory) (firmware.fixed fdt memory address)
    (firmware.copied fdt memory address)

/-- The run gets to the copy of the blob, to a new buffer at an address. -/
structure DevicetreeFirmware.Copies (address : UInt64) : Prop where
  located : efiError firmware.locate = false
  revision : efiDtFixupProtocolRevision ≤ firmware.revision
  pool : firmware.allocatePool (firmware.first fdt memory).size = some address

/-- Where the blob is copied, a first call that failed for another reason than want of room has left
no smaller size than that of the blob. -/
def RoomKept : Prop :=
  ∀ address, firmware.Copies fdt memory address →
    efiError (firmware.first fdt memory).status = true →
    (firmware.first fdt memory).status ≠ efiBufferTooSmall →
    fdt.blob.2 ≤ (firmware.first fdt memory).size

/-- The ways out of the function. -/
inductive DevicetreeExit : DevicetreeRun → Prop where
  | refused {status : EfiStatus} {after : ByteStore} {events : List DevicetreeEvent}
      (error : efiError status = true)
      (called : events ⊆ [.fixup fdt.blob.1 fdt.blob.2 (firmware.first fdt memory).status]) :
      DevicetreeExit ⟨status, fdt, after, events⟩
  | unfixed {address : UInt64}
      (copies : firmware.Copies fdt memory address)
      (error : efiError (firmware.last fdt memory address).1.status = true) :
      DevicetreeExit ⟨(firmware.last fdt memory address).1.status, firmware.fixed fdt memory address,
        (firmware.last fdt memory address).1.memory,
        firmware.swapEvents fdt memory address ++ (firmware.last fdt memory address).2⟩
  | uninstalled {address : UInt64} {status : EfiStatus}
      (copies : firmware.Copies fdt memory address)
      (fixed : efiError (firmware.last fdt memory address).1.status = false)
      (error : efiError status = true) :
      DevicetreeExit ⟨status, firmware.fixed fdt memory address,
        (firmware.last fdt memory address).1.memory,
        firmware.swapEvents fdt memory address ++ (firmware.last fdt memory address).2 ++
          [.install address status]⟩
  | installed {address : UInt64} {status : EfiStatus}
      (copies : firmware.Copies fdt memory address)
      (fixed : efiError (firmware.last fdt memory address).1.status = false)
      (success : efiError status = false) :
      DevicetreeExit ⟨efiSuccess, { firmware.fixed fdt memory address with free := none },
        (firmware.last fdt memory address).1.memory,
        firmware.swapEvents fdt memory address ++ (firmware.last fdt memory address).2 ++
          [.install address status]⟩

variable {firmware fdt memory}

/-- A run that gets its new buffer goes on with the copy. -/
theorem runDevicetreeFixup_copies {address : UInt64} (copies : firmware.Copies fdt memory address) :
    runDevicetreeFixup firmware fdt memory =
      installFixed firmware (firmware.first fdt memory) (firmware.fixed fdt memory address)
        (firmware.copied fdt memory address) (firmware.swapEvents fdt memory address) := by
  have pool := copies.pool
  rw [DevicetreeFirmware.first] at pool
  rw [runDevicetreeFixup, copies.located, if_neg Bool.false_ne_true,
    if_neg (UInt64.not_lt.mpr copies.revision)]
  dsimp only [SimpleBuffer.blob] at pool ⊢
  rw [pool]
  rfl

theorem devicetreeExit : DevicetreeExit firmware fdt memory (runDevicetreeFixup firmware fdt memory) := by
  by_cases copied : ∃ address, firmware.Copies fdt memory address
  · obtain ⟨address, copies⟩ := copied
    rw [runDevicetreeFixup_copies copies, installFixed]
    change DevicetreeExit firmware fdt memory
      (if efiError (firmware.last fdt memory address).1.status then _ else _)
    split_ifs with failed
    · exact .unfixed copies failed
    · have fixed := Bool.eq_false_of_not_eq_true failed
      dsimp only
      split_ifs with rejected
      · exact .uninstalled copies fixed rejected
      · exact .installed copies fixed (Bool.eq_false_of_not_eq_true rejected)
  · rw [runDevicetreeFixup]
    split_ifs with absent old
    · exact .refused absent (List.nil_subset _)
    · exact .refused (by decide) (List.nil_subset _)
    · dsimp only
      split
      · exact .refused (by decide) (List.Subset.refl _)
      · next address pool =>
        exact absurd ⟨address, Bool.eq_false_of_not_eq_true absent, UInt64.not_lt.mp old, pool⟩ copied

/-- A successful call of the protocol. -/
def DevicetreeEvent.fixes : DevicetreeEvent → Bool
  | .fixup _ _ status => !efiError status
  | _ => false

/-- The blob in the new buffer has been fixed once: in place before it was copied, or as a copy of
the original. -/
inductive InstalledBlob (firmware : DevicetreeFirmware) (fdt : SimpleBuffer) (memory : ByteStore)
    (address : UInt64) (installed : ByteStore) : Prop where
  | inPlace (success : efiError (firmware.first fdt memory).status = false)
      (whole : (firmware.first fdt memory).size = fdt.blob.2)
      (copied : installed.bytesAt address.toNat fdt.blob.2.toNat =
        (firmware.first fdt memory).memory.bytesAt fdt.blob.1.toNat fdt.blob.2.toNat)
  | copied (tooSmall : (firmware.first fdt memory).status = efiBufferTooSmall)
      (original : ByteStore)
      (unfixed : original.bytesAt address.toNat fdt.blob.2.toNat =
        memory.bytesAt fdt.blob.1.toNat fdt.blob.2.toNat)
      (success : efiError
        (firmware.retry address (firmware.first fdt memory).size original).status = false)
      (fixed : installed =
        (firmware.retry address (firmware.first fdt memory).size original).memory)

/-- What a run does with the two buffers. -/
structure FixesDevicetree (fdt : SimpleBuffer) (firmware : DevicetreeFirmware) (memory : ByteStore)
    (run : DevicetreeRun) : Prop where
  copies : ∀ target source length, .copy target source length ∈ run.events →
    (fdt.buffer.toNat ≤ source.toNat ∧
      source.toNat + length.toNat ≤ fdt.buffer.toNat + fdt.length.toNat) ∧
    ∃ size, .allocate target size ∈ run.events ∧ length ≤ size
  once : ∀ address status, .install address status ∈ run.events →
    run.events.countP DevicetreeEvent.fixes = 1 ∧
      InstalledBlob firmware fdt memory address run.memory
  succeeds : efiError run.status = false → run.fdt.free = none ∧
    ∃ status, efiError status = false ∧ .install run.fdt.buffer status ∈ run.events
  fails : efiError run.status = true →
    ∀ address status, .install address status ∈ run.events → efiError status = true
  owned : ∀ address size, .allocate address size ∈ run.events → run.fdt.buffer = address ∧
    run.events.count (.free address) = 0 ∧
    (freeDevicetree run.fdt).count (.free address) = if efiError run.status then 1 else 0
  original : (run.events ++ freeDevicetree run.fdt).count (.free fdt.buffer) =
    (freeDevicetree fdt).count (.free fdt.buffer)

end Run

section Results

variable {firmware : DevicetreeFirmware} {fdt : SimpleBuffer} {memory : ByteStore}

/-- The second call of the protocol, or none. -/
theorem last_cases (firmware : DevicetreeFirmware) (fdt : SimpleBuffer) (memory : ByteStore)
    (address : UInt64) :
    ((firmware.first fdt memory).status = efiBufferTooSmall ∧
      firmware.last fdt memory address =
        (firmware.retry address (firmware.first fdt memory).size (firmware.copied fdt memory address),
          [.fixup address (firmware.first fdt memory).size
            (firmware.retry address (firmware.first fdt memory).size
              (firmware.copied fdt memory address)).status])) ∨
    ((firmware.first fdt memory).status ≠ efiBufferTooSmall ∧
      firmware.last fdt memory address =
        ({ firmware.first fdt memory with memory := firmware.copied fdt memory address }, [])) := by
  rw [DevicetreeFirmware.last, retryFixup]
  by_cases tooSmall : (firmware.first fdt memory).status = efiBufferTooSmall
  · have start : (firmware.fixed fdt memory address).buffer + (firmware.fixed fdt memory address).pos =
        address := UInt64.add_zero address
    rw [if_pos (by simpa using tooSmall), start]
    exact .inl ⟨tooSmall, rfl⟩
  · rw [if_neg (by simpa using tooSmall)]
    exact .inr ⟨tooSmall, rfl⟩

/-- Freeing a buffer does nothing else. -/
theorem mem_freeDevicetree {buffer : SimpleBuffer} {event : DevicetreeEvent}
    (member : event ∈ freeDevicetree buffer) : event = .free buffer.buffer := by
  rw [freeDevicetree] at member
  split_ifs at member
  · exact List.mem_singleton.mp member
  · cases member

theorem mem_last {address : UInt64} {event : DevicetreeEvent}
    (member : event ∈ (firmware.last fdt memory address).2) :
    ∃ dtb size status, event = .fixup dtb size status := by
  rcases last_cases firmware fdt memory address with ⟨-, same⟩ | ⟨-, same⟩
  · rw [same] at member
    exact ⟨_, _, _, List.mem_singleton.mp member⟩
  · rw [same] at member
    cases member

/-- What is in the events of a run that has got its new buffer. -/
theorem mem_swapEvents {address : UInt64} {event : DevicetreeEvent}
    (member : event ∈ firmware.swapEvents fdt memory address) :
    (∃ dtb size status, event = .fixup dtb size status) ∨
      event = .allocate address (firmware.first fdt memory).size ∨
      event = .copy address fdt.blob.1 fdt.blob.2 ∨ event = .free fdt.buffer := by
  rcases List.mem_append.mp member with early | freed
  · simp only [List.mem_cons, List.not_mem_nil, or_false] at early
    rcases early with rfl | rfl | rfl
    · exact .inl ⟨_, _, _, rfl⟩
    · exact .inr (.inl rfl)
    · exact .inr (.inr (.inl rfl))
  · exact .inr (.inr (.inr (mem_freeDevicetree freed)))

/-- The events of a run after the swap, with what it does last. -/
theorem mem_swapped {address : UInt64} {event : DevicetreeEvent} {installs : List DevicetreeEvent}
    (member : event ∈ firmware.swapEvents fdt memory address ++ (firmware.last fdt memory address).2 ++
      installs) :
    (∃ dtb size status, event = .fixup dtb size status) ∨
      event = .allocate address (firmware.first fdt memory).size ∨
      event = .copy address fdt.blob.1 fdt.blob.2 ∨ event = .free fdt.buffer ∨ event ∈ installs := by
  rcases List.mem_append.mp member with early | late
  · rcases List.mem_append.mp early with swap | retried
    · rcases mem_swapEvents swap with called | allocated | copied | freed
      · exact .inl called
      · exact .inr (.inl allocated)
      · exact .inr (.inr (.inl copied))
      · exact .inr (.inr (.inr (.inl freed)))
    · exact .inl (mem_last retried)
  · exact .inr (.inr (.inr (.inr late)))

section Blob

variable (blob : DevicetreeBlob fdt)

include blob

/-- Where the blob is. -/
theorem DevicetreeBlob.inside : fdt.blob.1.toNat = fdt.buffer.toNat + fdt.pos.toNat ∧
    fdt.blob.2.toNat = fdt.length.toNat - fdt.pos.toNat ∧ fdt.pos.toNat < fdt.length.toNat := by
  have nonempty := UInt64.lt_iff_toNat_lt.mp blob.nonempty
  have bound := blob.inMemory
  refine ⟨?_, UInt64.toNat_sub_of_le _ _ (UInt64.le_of_lt blob.nonempty), nonempty⟩
  rw [SimpleBuffer.blob, UInt64.toNat_add]
  exact Nat.mod_eq_of_lt (by omega)

variable (room : fdt.blob.2 ≤ (firmware.first fdt memory).size) {address : UInt64}
  (pool : PoolContract firmware.allocatePool fdt)
  (allocated : firmware.allocatePool (firmware.first fdt memory).size = some address)

omit blob in
/-- The new buffer is not smaller than the blob, where a failing call has kept its size. -/
theorem blob_le_size (contract : FixupContract firmware.fixup) (kept : RoomKept firmware fdt memory)
    (copies : firmware.Copies fdt memory address) :
    fdt.blob.2 ≤ (firmware.first fdt memory).size := by
  cases failed : efiError (firmware.first fdt memory).status with
  | false => exact UInt64.le_of_eq (contract.inPlace _ _ _ failed).symm
  | true =>
    by_cases tooSmall : (firmware.first fdt memory).status = efiBufferTooSmall
    · exact UInt64.le_of_lt (contract.tooSmall _ _ _ tooSmall).1
    · exact kept address copies failed tooSmall

include room

theorem size_pos : 0 < (firmware.first fdt memory).size.toNat := by
  have bound := UInt64.le_iff_toNat_le.mp room
  obtain ⟨-, length, nonempty⟩ := blob.inside
  omega

include pool allocated

/-- The new buffer is another one. -/
theorem address_ne : fdt.buffer ≠ address := by
  rintro rfl
  have apart := pool.fresh _ _ allocated
  obtain ⟨-, -, nonempty⟩ := blob.inside
  have positive := size_pos blob room
  exact apart fdt.buffer.toNat ⟨Nat.le_refl _, Nat.lt_add_of_pos_right positive⟩
    ⟨Nat.le_refl _, Nat.lt_add_of_pos_right (Nat.lt_of_le_of_lt (Nat.zero_le _) nonempty)⟩

end Blob

/-- The bytes of the copy. -/
theorem copied_bytes (address : UInt64) :
    (firmware.copied fdt memory address).bytesAt address.toNat fdt.blob.2.toNat =
      (firmware.first fdt memory).memory.bytesAt fdt.blob.1.toNat fdt.blob.2.toNat :=
  ByteStore.bytesAt_apply_copy ..

/-- A run whose deciding call succeeds has the blob fixed once. -/
theorem installedBlob (contract : FixupContract firmware.fixup) {address : UInt64}
    (fixed : efiError (firmware.last fdt memory address).1.status = false) :
    InstalledBlob firmware fdt memory address (firmware.last fdt memory address).1.memory := by
  rcases last_cases firmware fdt memory address with ⟨tooSmall, same⟩ | ⟨enough, same⟩
  · rw [same] at fixed ⊢
    refine .copied tooSmall _ ?_ fixed rfl
    rw [copied_bytes]
    exact congrArg (ByteStore.bytesAt · _ _) (contract.tooSmall _ _ _ tooSmall).2
  · rw [same] at fixed ⊢
    exact .inPlace fixed (contract.inPlace _ _ _ fixed) (copied_bytes address)

theorem countP_fixes_freeDevicetree (buffer : SimpleBuffer) :
    (freeDevicetree buffer).countP DevicetreeEvent.fixes = 0 := by
  rw [List.countP_eq_zero]
  intro event member
  rw [mem_freeDevicetree member]
  exact Bool.false_ne_true

/-- And one call has succeeded. -/
theorem countP_fixes {address : UInt64}
    (fixed : efiError (firmware.last fdt memory address).1.status = false) :
    (firmware.swapEvents fdt memory address ++ (firmware.last fdt memory address).2).countP
      DevicetreeEvent.fixes = 1 := by
  rw [List.countP_append, DevicetreeFirmware.swapEvents, List.countP_append,
    countP_fixes_freeDevicetree]
  rcases last_cases firmware fdt memory address with ⟨tooSmall, same⟩ | ⟨enough, same⟩
  · have failed : efiError efiBufferTooSmall = true := by decide
    rw [same] at fixed ⊢
    simp [DevicetreeEvent.fixes, tooSmall, failed, fixed]
  · rw [same] at fixed ⊢
    simp [DevicetreeEvent.fixes, fixed]

/-- The new buffer is given back by its owner; a buffer that went to the table is not. -/
theorem freeDevicetree_fixed {address : UInt64} (nonnull : address ≠ 0)
    (nonempty : 0 < (firmware.first fdt memory).size.toNat) :
    freeDevicetree (firmware.fixed fdt memory address) = [.free address] ∧
      freeDevicetree { firmware.fixed fdt memory address with free := none } = [] := by
  have size : (firmware.first fdt memory).size ≠ 0 := fun zero => by
    rw [zero] at nonempty
    exact Nat.lt_irrefl 0 nonempty
  simp [freeDevicetree, DevicetreeFirmware.fixed, nonnull, size]

section Swapped

variable {address : UInt64} {installs : List DevicetreeEvent}
  (installed : installs = [] ∨ ∃ status, installs = [.install address status])

include installed

/-- Within both buffers. -/
theorem swapped_copies (blob : DevicetreeBlob fdt)
    (room : fdt.blob.2 ≤ (firmware.first fdt memory).size) :
    let events := firmware.swapEvents fdt memory address ++
      (firmware.last fdt memory address).2 ++ installs
    ∀ target source length, .copy target source length ∈ events →
      (fdt.buffer.toNat ≤ source.toNat ∧
        source.toNat + length.toNat ≤ fdt.buffer.toNat + fdt.length.toNat) ∧
      ∃ size, .allocate target size ∈ events ∧ length ≤ size := by
  intro events target source length member
  have same : DevicetreeEvent.copy target source length = .copy address fdt.blob.1 fdt.blob.2 := by
    rcases mem_swapped member with ⟨_, _, _, other⟩ | other | same | other | other
    · cases other
    · cases other
    · exact same
    · cases other
    · rcases installed with rfl | ⟨status, rfl⟩
      · cases other
      · cases List.mem_singleton.mp other
  cases same
  obtain ⟨start, size, nonempty⟩ := blob.inside
  refine ⟨⟨by omega, by omega⟩, (firmware.first fdt memory).size, ?_, room⟩
  simp [events, DevicetreeFirmware.swapEvents]

/-- The buffer from the pool is the new one, which the function does not free. -/
theorem swapped_owned (different : fdt.buffer ≠ address) :
    let events := firmware.swapEvents fdt memory address ++
      (firmware.last fdt memory address).2 ++ installs
    ∀ target size, .allocate target size ∈ events →
      target = address ∧ events.count (.free address) = 0 := by
  intro events target size member
  refine ⟨?_, List.count_eq_zero.mpr fun freed => ?_⟩
  · rcases mem_swapped member with ⟨_, _, _, other⟩ | same | other | other | other
    · cases other
    · exact (DevicetreeEvent.allocate.inj same).1
    · cases other
    · cases other
    · rcases installed with rfl | ⟨status, rfl⟩
      · cases other
      · cases List.mem_singleton.mp other
  · rcases mem_swapped freed with ⟨_, _, _, other⟩ | other | other | same | other
    · cases other
    · cases other
    · cases other
    · exact different (DevicetreeEvent.free.inj same).symm
    · rcases installed with rfl | ⟨status, rfl⟩
      · cases other
      · cases List.mem_singleton.mp other

/-- The function frees the old buffer as its owner would have. -/
theorem swapped_original :
    (firmware.swapEvents fdt memory address ++ (firmware.last fdt memory address).2 ++
      installs).count (.free fdt.buffer) = (freeDevicetree fdt).count (.free fdt.buffer) := by
  have retried : (firmware.last fdt memory address).2.count (.free fdt.buffer) = 0 := by
    apply List.count_eq_zero.mpr
    intro member
    obtain ⟨_, _, _, other⟩ := mem_last member
    cases other
  have late : installs.count (.free fdt.buffer) = 0 := by
    rcases installed with rfl | ⟨status, rfl⟩
    · rfl
    · simp
  rw [List.count_append, List.count_append, retried, late, DevicetreeFirmware.swapEvents]
  simp

variable (firmware memory) in
/-- The two buffers of a run that ends with the new one, freed by the caller if it returns an error. -/
theorem swapped_settled (different : fdt.buffer ≠ address) {status : EfiStatus} {left : SimpleBuffer}
    (same : left.buffer = address)
    (freed : freeDevicetree left = if efiError status then [.free address] else []) :
    let events := firmware.swapEvents fdt memory address ++
      (firmware.last fdt memory address).2 ++ installs
    (∀ target size, .allocate target size ∈ events → left.buffer = target ∧
      events.count (.free target) = 0 ∧
      (freeDevicetree left).count (.free target) = if efiError status then 1 else 0) ∧
    (events ++ freeDevicetree left).count (.free fdt.buffer) =
      (freeDevicetree fdt).count (.free fdt.buffer) := by
  intro events
  refine ⟨fun target size member => ?_, ?_⟩
  · obtain ⟨rfl, kept⟩ := swapped_owned installed different target size member
    refine ⟨same, kept, ?_⟩
    rw [freed]
    split_ifs
    · exact List.count_singleton_self
    · rfl
  · have other : (freeDevicetree left).count (.free fdt.buffer) = 0 := by
      rw [freed]
      split_ifs
      · simp [Ne.symm different]
      · rfl
    rw [List.count_append, swapped_original installed, other, Nat.add_zero]

omit installed in
/-- Nothing else installs a table. -/
theorem swapped_install {target : UInt64} {status : EfiStatus}
    (member : .install target status ∈ firmware.swapEvents fdt memory address ++
      (firmware.last fdt memory address).2 ++ installs) : .install target status ∈ installs := by
  rcases mem_swapped member with ⟨_, _, _, other⟩ | other | other | other | late
  · cases other
  · cases other
  · cases other
  · cases other
  · exact late

end Swapped

/-- A run whose failing first call has kept its size. -/
theorem fixesDevicetree_of_roomKept (blob : DevicetreeBlob fdt)
    (contract : FixupContract firmware.fixup) (pool : PoolContract firmware.allocatePool fdt)
    (kept : RoomKept firmware fdt memory) :
    FixesDevicetree fdt firmware memory (runDevicetreeFixup firmware fdt memory) := by
  have exit := @devicetreeExit firmware fdt memory
  revert exit
  generalize runDevicetreeFixup firmware fdt memory = run
  intro exit
  cases exit with
  | @refused status after events error called =>
    have only : ∀ event ∈ events, event =
        .fixup fdt.blob.1 fdt.blob.2 (firmware.first fdt memory).status :=
      fun event member => List.mem_singleton.mp (called member)
    refine ⟨fun _ _ _ member => ?_, fun _ _ member => ?_, fun success => ?_, fun _ _ _ member => ?_,
      fun _ _ member => ?_, ?_⟩
    · cases only _ member
    · cases only _ member
    · rw [error] at success
      cases success
    · cases only _ member
    · cases only _ member
    · have unfreed : events.count (.free fdt.buffer) = 0 :=
        List.count_eq_zero.mpr fun member => by cases only _ member
      rw [List.count_append, unfreed, Nat.zero_add]
  | @unfixed address copies error =>
    have room := blob_le_size contract kept copies
    have allocated := copies.pool
    have nonempty := size_pos blob room
    have different := address_ne blob room pool allocated
    have owned := (freeDevicetree_fixed (pool.nonnull _ _ allocated) nonempty).1
    have inside := @swapped_copies firmware fdt memory address [] (.inl rfl) blob room
    have settled := swapped_settled firmware memory (.inl rfl) different rfl
      (owned.trans (if_pos error).symm)
    have none : ∀ target status, .install target status ∉ firmware.swapEvents fdt memory address ++
        (firmware.last fdt memory address).2 ++ [] := fun _ _ member => by
      cases swapped_install member
    rw [List.append_nil] at inside settled none
    refine ⟨inside, fun target status member => absurd member (none target status), fun success => ?_,
      fun _ target status member => absurd member (none target status), settled.1, settled.2⟩
    rw [error] at success
    cases success
  | @uninstalled address status copies fixed error =>
    have room := blob_le_size contract kept copies
    have allocated := copies.pool
    have nonempty := size_pos blob room
    have different := address_ne blob room pool allocated
    have owned := (freeDevicetree_fixed (pool.nonnull _ _ allocated) nonempty).1
    have settled := swapped_settled firmware memory (.inr ⟨status, rfl⟩) different rfl
      (owned.trans (if_pos error).symm)
    refine ⟨swapped_copies (.inr ⟨status, rfl⟩) blob room, fun target _ member => ?_,
      fun success => ?_, fun _ target _ member => ?_, settled.1, settled.2⟩
    · cases List.mem_singleton.mp (swapped_install member)
      refine ⟨?_, installedBlob contract fixed⟩
      rw [List.countP_append, countP_fixes fixed]
      rfl
    · rw [error] at success
      cases success
    · cases List.mem_singleton.mp (swapped_install member)
      exact error
  | @installed address status copies fixed success =>
    have room := blob_le_size contract kept copies
    have allocated := copies.pool
    have nonempty := size_pos blob room
    have different := address_ne blob room pool allocated
    have owned := (freeDevicetree_fixed (pool.nonnull _ _ allocated) nonempty).2
    have settled := @swapped_settled firmware fdt memory address _ (.inr ⟨status, rfl⟩) different
      efiSuccess _ rfl owned
    refine ⟨swapped_copies (.inr ⟨status, rfl⟩) blob room, fun target _ member => ?_,
      fun _ => ⟨rfl, status, success, ?_⟩, fun failed => ?_, settled.1, settled.2⟩
    · cases List.mem_singleton.mp (swapped_install member)
      refine ⟨?_, installedBlob contract fixed⟩
      rw [List.countP_append, countP_fixes fixed]
      rfl
    · simp [DevicetreeFirmware.fixed]
    · cases failed

/-- The copy is in the run, whatever comes after it. -/
theorem copy_mem_events {address : UInt64} (copies : firmware.Copies fdt memory address) :
    .copy address fdt.blob.1 fdt.blob.2 ∈ (runDevicetreeFixup firmware fdt memory).events := by
  have swapped : DevicetreeEvent.copy address fdt.blob.1 fdt.blob.2 ∈
      firmware.swapEvents fdt memory address := by
    simp [DevicetreeFirmware.swapEvents]
  rw [runDevicetreeFixup_copies copies, installFixed]
  dsimp only
  split_ifs <;> simp [swapped]

/-- A run that copies the blob gets one buffer from the pool, of the size that the first call
left. -/
theorem DevicetreeExit.allocated {run : DevicetreeRun} {address target size : UInt64}
    (exit : DevicetreeExit firmware fdt memory run)
    (copied : .copy address fdt.blob.1 fdt.blob.2 ∈ run.events)
    (member : .allocate target size ∈ run.events) : size = (firmware.first fdt memory).size := by
  have swapped : ∀ other installs, .allocate target size ∈ firmware.swapEvents fdt memory other ++
      (firmware.last fdt memory other).2 ++ installs → DevicetreeEvent.allocate target size ∉ installs →
      size = (firmware.first fdt memory).size := fun other installs member late => by
    rcases mem_swapped member with ⟨_, _, _, other⟩ | same | other | other | other
    · cases other
    · exact (DevicetreeEvent.allocate.inj same).2
    · cases other
    · cases other
    · exact absurd other late
  cases exit with
  | refused error called => cases List.mem_singleton.mp (called copied)
  | @unfixed other =>
    exact swapped other [] (by rwa [List.append_nil]) List.not_mem_nil
  | @uninstalled other => exact swapped other _ member (by simp)
  | @installed other => exact swapped other _ member (by simp)

/-- The copy stays within the buffers, what is installed has been fixed once and exactly one owner
is left for every buffer: that is so whatever the blob and the firmware's answers, except where the
first call fails, not for want of room, and leaves a size below that of the blob. -/
theorem fixesDevicetree_iff (blob : DevicetreeBlob fdt) (contract : FixupContract firmware.fixup)
    (pool : PoolContract firmware.allocatePool fdt) (memory : ByteStore) :
    FixesDevicetree fdt firmware memory (runDevicetreeFixup firmware fdt memory) ↔
      RoomKept firmware fdt memory := by
  refine ⟨fun fixes address copies _ _ => ?_, fixesDevicetree_of_roomKept blob contract pool⟩
  obtain ⟨-, size, allocated, room⟩ := fixes.copies _ _ _ (copy_mem_events copies)
  rwa [devicetreeExit.allocated (copy_mem_events copies) allocated] at room

end Results

/-- A protocol that needs 64 bytes and marks the blob. -/
def smallFixup : FixupCall := fun dtb size memory =>
  if size < 64 then ⟨efiBufferTooSmall, 64, memory⟩
  else ⟨efiSuccess, size, (Patch.fill dtb.toNat 4 0xff).apply memory⟩

def smallDevicetreeFirmware : DevicetreeFirmware where
  locate := efiSuccess
  revision := efiDtFixupProtocolRevision
  fixup := smallFixup
  retry := smallFixup
  allocatePool size := if size ≤ 0x10000 then some 0x800000 else none
  installConfigurationTable _ := efiSuccess

def smallDevicetree : SimpleBuffer := { zeroBuffer with buffer := 0x500000, length := 40 }

theorem smallFixup_contract : FixupContract smallFixup where
  inPlace dtb size memory success := by
    rw [smallFixup] at success ⊢
    split_ifs at success ⊢
    · cases success
    · rfl
  tooSmall dtb size memory answered := by
    rw [smallFixup] at answered ⊢
    split_ifs at answered ⊢ with small
    · exact ⟨small, rfl⟩
    · have distinct : efiSuccess ≠ efiBufferTooSmall := by decide
      exact absurd answered distinct

theorem smallDevicetree_blob : DevicetreeBlob smallDevicetree := ⟨by decide, by decide⟩

theorem smallDevicetreeFirmware_pool :
    PoolContract smallDevicetreeFirmware.allocatePool smallDevicetree where
  nonnull size address allocated := by
    simp only [smallDevicetreeFirmware] at allocated
    split_ifs at allocated
    cases allocated
    decide
  fresh size address allocated := by
    simp only [smallDevicetreeFirmware] at allocated
    split_ifs at allocated with bounded
    cases allocated
    have limit : size.toNat ≤ 0x10000 := UInt64.le_iff_toNat_le.mp bounded
    have pool : (0x800000 : UInt64).toNat = 0x800000 := rfl
    have blob : smallDevicetree.buffer.toNat + smallDevicetree.length.toNat = 0x500028 := rfl
    rw [Window.disjoint_iff]
    dsimp only
    omega

theorem fixesDevicetree_smallDevicetree :
    FixesDevicetree smallDevicetree smallDevicetreeFirmware (fun _ => 0)
      (runDevicetreeFixup smallDevicetreeFirmware smallDevicetree fun _ => 0) :=
  (fixesDevicetree_iff smallDevicetree_blob smallFixup_contract smallDevicetreeFirmware_pool _).mpr
    fun _ _ _ enough => absurd rfl enough

/-- A protocol that does not take the blob and says so with a size of 8 bytes. -/
def shrinkingFixup : FixupCall := fun _ _ memory => ⟨efiInvalidParameter, 8, memory⟩

theorem shrinkingFixup_contract : FixupContract shrinkingFixup where
  inPlace _ _ _ success := by
    cases success
  tooSmall _ _ _ answered := by
    have distinct : efiInvalidParameter ≠ efiBufferTooSmall := by decide
    exact absurd answered distinct

/-- The 40 bytes of the blob are copied to a buffer of 8. -/
theorem not_fixesDevicetree_shrinking :
    DevicetreeBlob smallDevicetree ∧ FixupContract shrinkingFixup ∧
      PoolContract smallDevicetreeFirmware.allocatePool smallDevicetree ∧
      ¬ FixesDevicetree smallDevicetree { smallDevicetreeFirmware with fixup := shrinkingFixup }
        (fun _ => 0) (runDevicetreeFixup { smallDevicetreeFirmware with fixup := shrinkingFixup }
          smallDevicetree fun _ => 0) := by
  refine ⟨smallDevicetree_blob, shrinkingFixup_contract, smallDevicetreeFirmware_pool, fun fixes => ?_⟩
  have copies : DevicetreeFirmware.Copies { smallDevicetreeFirmware with fixup := shrinkingFixup }
      smallDevicetree (fun _ => 0) 0x800000 := ⟨by decide, by decide, rfl⟩
  obtain ⟨-, size, allocated, room⟩ := fixes.copies _ _ _ (copy_mem_events copies)
  rw [devicetreeExit.allocated (copy_mem_events copies) allocated] at room
  revert room
  decide

end ZLoader
