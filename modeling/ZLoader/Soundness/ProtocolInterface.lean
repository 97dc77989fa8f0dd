import Mathlib.Order.Nat
import ZLoader.Model.Lib.Handles

/-! # The interface of a protocol

The handle that opened is stored where `*handle` is not zero, not where `handle` is not: a `NULL`
pointer is read, and a handle that is still `NULL` is not set. Behind the loop only the last status
counts.
-/

namespace ZLoader

section Interface

variable (firmware : HandleFirmware) (list : HandleList)

/-- The answer to opening the handle at an index. -/
def HandleFirmware.opened (index : ℕ) : OpenAnswer :=
  firmware.openProtocol index (list.handles index)

/-- The first handle that opens. -/
structure FirstOpen (index : ℕ) : Prop where
  inside : index < list.length
  opens : (firmware.opened list index).status = efiSuccess
  before : ∀ j < index, (firmware.opened list j).status ≠ efiSuccess

/-- No handle opens. -/
def NoneOpens : Prop := ∀ index < list.length, (firmware.opened list index).status ≠ efiSuccess

/-- A call gives the interface of the first handle that opens, stores that handle where there is a
pointer for it, fails if there is none, and frees the list. -/
structure GetsInterface (handle : HandleArgument) (interface : UInt64) : Prop where
  found : ∀ list index, (libFindHandles firmware.locate).result = .ok list →
    FirstOpen firmware list index →
      (libGetProtocolInterface firmware handle interface).status = some efiSuccess ∧
      (libGetProtocolInterface firmware handle interface).interface =
        (firmware.opened list index).interface ∧
      (libGetProtocolInterface firmware handle interface).stores =
        if handle.pointer ≠ 0 then [(handle.pointer, list.handles index)] else []
  missing : (∀ list, (libFindHandles firmware.locate).result = .ok list →
      NoneOpens firmware list) →
    (∃ status, (libGetProtocolInterface firmware handle interface).status = some status ∧
      efiError status = true) ∧
      (libGetProtocolInterface firmware handle interface).stores = []
  freed : Settles [] (libGetProtocolInterface firmware handle interface).movements

/-- Where a handle opens, there is a word to read at the pointer, which is zero for `NULL` only;
where none does, there are handles, and opening the last of them is an error. -/
structure InterfaceKept (handle : HandleArgument) : Prop where
  found : ∀ list index, (libFindHandles firmware.locate).result = .ok list →
    FirstOpen firmware list index →
      ∃ word, handle.memory handle.pointer = some word ∧ (word ≠ 0 ↔ handle.pointer ≠ 0)
  missing : ∀ list, (libFindHandles firmware.locate).result = .ok list → NoneOpens firmware list →
    0 < list.length ∧ efiError (firmware.opened list (list.length - 1)).status = true

variable {firmware list}

/-- Some handle is the first to open, or none opens. -/
theorem firstOpen_or_noneOpens (firmware : HandleFirmware) (list : HandleList) :
    (∃ index, FirstOpen firmware list index) ∨ NoneOpens firmware list := by
  classical
  apply or_iff_not_imp_right.mpr
  intro some_
  simp only [NoneOpens, not_forall, not_not, exists_prop] at some_
  obtain ⟨inside, opens⟩ := Nat.find_spec some_
  exact ⟨Nat.find some_, inside, opens, fun j below opens =>
    Nat.find_min some_ below ⟨below.trans inside, opens⟩⟩

/-- The list is held behind a successful search, and nothing behind one that failed. -/
theorem libFindHandles_settles (attempts : Attempts UInt64 LocateAnswer LocateAnswer.tooSmall)
    (rest : List (Movement UInt64)) :
    Settles [] ((libFindHandles attempts).movements ++ rest) ↔
      match (libFindHandles attempts).result with
      | .ok list => Settles [list.buffer] rest
      | .error _ => Settles [] rest := by
  rw [libFindHandles, Attempts.fetch_settles]
  generalize attempts.fetch (fun answer => efiError answer.status) = fetched
  obtain ⟨(_ | answer) | kept, movements⟩ := fetched <;> rfl

/-- A search fails with an error. -/
theorem libFindHandles_error {attempts : Attempts UInt64 LocateAnswer LocateAnswer.tooSmall}
    {err : EfiStatus} (failed : (libFindHandles attempts).result = .error err) :
    efiError err = true := by
  rw [libFindHandles] at failed
  dsimp only at failed
  split at failed
  · cases failed
    decide
  · rename_i answer ended
    cases failed
    have error := Attempts.failed_of_fetch ended
    exact error
  · cases failed

section Loop

variable {openProtocol : ℕ → UInt64 → OpenAnswer} {handle : HandleArgument}
  {handles : ℕ → UInt64}

/-- The loop stops at the first handle that opens. -/
theorem openHandles_first {index left i : ℕ} {st : OpenState} (reached : i ≤ index)
    (inside : index < i + left)
    (opens : (openProtocol index (handles index)).status = efiSuccess)
    (before : ∀ j, i ≤ j → j < index → (openProtocol j (handles j)).status ≠ efiSuccess) :
    openHandles openProtocol handle handles left i st =
      { st with
        err := efiSuccess
        interface := (openProtocol index (handles index)).interface }.store handle
          (handles index) := by
  induction left generalizing i st with
  | zero => omega
  | succ left ih =>
      rw [openHandles]
      rcases Nat.eq_or_lt_of_le reached with rfl | behind
      · simp only [opens, beq_self_eq_true, ite_true]
      · have closed := before i (Nat.le_refl i) behind
        simp only [beq_iff_eq, closed, ite_false]
        exact ih behind (by omega) fun j from_ below => before j (by omega) below

/-- Where none opens the loop runs to its end. -/
theorem openHandles_none {left i : ℕ} {st : OpenState}
    (closed : ∀ j, i ≤ j → j < i + left → (openProtocol j (handles j)).status ≠ efiSuccess) :
    (openHandles openProtocol handle handles left i st).stores = st.stores ∧
    (openHandles openProtocol handle handles left i st).faulted = st.faulted ∧
    (openHandles openProtocol handle handles left i st).err =
      if left = 0 then st.err
      else (openProtocol (i + left - 1) (handles (i + left - 1))).status := by
  induction left generalizing i st with
  | zero => exact ⟨rfl, rfl, rfl⟩
  | succ left ih =>
      have first := closed i (Nat.le_refl i) (by omega)
      simp only [openHandles, beq_iff_eq, first, ite_false, Nat.add_one_ne_zero]
      obtain ⟨stores, faulted, err⟩ := @ih (i + 1)
        { st with
          err := (openProtocol i (handles i)).status
          interface := (openProtocol i (handles i)).interface }
        fun j from_ below => closed j (by omega) (by omega)
      refine ⟨stores, faulted, err.trans ?_⟩
      split_ifs with none_
      · rw [none_]
        rfl
      · rw [show i + 1 + left - 1 = i + (left + 1) - 1 by omega]

end Loop

section Call

variable {handle : HandleArgument} {interface : UInt64}

/-- A call without a list of handles. -/
theorem libGetProtocolInterface_error {err : EfiStatus}
    (failed : (libFindHandles firmware.locate).result = .error err) :
    libGetProtocolInterface firmware handle interface =
      ⟨some err, interface, [], (libFindHandles firmware.locate).movements⟩ := by
  simp only [libGetProtocolInterface, failed]

/-- A call with a list that has a handle to open. -/
theorem libGetProtocolInterface_first {index : ℕ}
    (listed : (libFindHandles firmware.locate).result = .ok list)
    (first : FirstOpen firmware list index) :
    libGetProtocolInterface firmware handle interface =
      match handle.memory handle.pointer with
      | none => ⟨none, (firmware.opened list index).interface, [],
          (libFindHandles firmware.locate).movements⟩
      | some word =>
          ⟨some efiSuccess, (firmware.opened list index).interface,
            if word ≠ 0 then [(handle.pointer, list.handles index)] else [],
            (libFindHandles firmware.locate).movements ++ [.release list.buffer]⟩ := by
  have loop := @openHandles_first firmware.openProtocol handle list.handles index list.length 0
    ⟨efiSuccess, interface, [], false⟩ (Nat.zero_le index)
    (by rw [Nat.zero_add]; exact first.inside) first.opens fun j _ below => first.before j below
  simp only [libGetProtocolInterface, listed, loop, OpenState.store]
  cases handle.memory handle.pointer with
  | none => rfl
  | some word =>
      dsimp only
      rcases eq_or_ne word 0 with rfl | stored
      · rfl
      · simp only [bne_iff_ne, ne_eq, stored, not_false_eq_true, ite_true, Bool.false_eq_true,
          ite_false, List.nil_append]
        rfl

/-- A call with a list that has none. -/
theorem libGetProtocolInterface_none
    (listed : (libFindHandles firmware.locate).result = .ok list)
    (closed : NoneOpens firmware list) :
    ∃ last, libGetProtocolInterface firmware handle interface =
      ⟨some (if 0 < list.length ∧
          efiError (firmware.opened list (list.length - 1)).status = true then
        (firmware.opened list (list.length - 1)).status else efiSuccess), last, [],
        (libFindHandles firmware.locate).movements ++ [.release list.buffer]⟩ := by
  obtain ⟨stores, faulted, err⟩ := @openHandles_none firmware.openProtocol handle list.handles
    list.length 0 ⟨efiSuccess, interface, [], false⟩
    fun j _ below => closed j (by omega)
  refine ⟨(openHandles firmware.openProtocol handle list.handles list.length 0
    ⟨efiSuccess, interface, [], false⟩).interface, ?_⟩
  simp only [libGetProtocolInterface, listed, stores, faulted, err, Bool.false_eq_true, ite_false]
  rw [Nat.zero_add]
  rcases Nat.eq_zero_or_pos list.length with empty | some_
  · simp [empty]
  · simp only [Nat.ne_of_gt some_, ite_false, some_, true_and]
    rfl

/-- The list of a call that returns is freed. -/
theorem libGetProtocolInterface_freed
    (listed : (libFindHandles firmware.locate).result = .ok list) :
    Settles [] ((libFindHandles firmware.locate).movements ++ [.release list.buffer]) := by
  rw [libFindHandles_settles, listed]
  exact (settles_release_last [] _ []).mpr rfl

/-- Without a list the error is passed on. -/
theorem getsInterface_of_error {err : EfiStatus}
    (failed : (libFindHandles firmware.locate).result = .error err) :
    GetsInterface firmware handle interface where
  found list index listed := by
    rw [failed] at listed
    cases listed
  missing _ := by
    rw [libGetProtocolInterface_error failed]
    exact ⟨⟨err, rfl, libFindHandles_error failed⟩, rfl⟩
  freed := by
    have settles := libFindHandles_settles firmware.locate []
    rw [List.append_nil, failed] at settles
    rw [libGetProtocolInterface_error failed]
    exact settles.mpr rfl

/-- The pointer and the last status are what a call with a list depends on. -/
theorem GetsInterface.kept (gets : GetsInterface firmware handle interface) :
    InterfaceKept firmware handle := by
  refine ⟨?_, ?_⟩
  · intro list index listed first
    obtain ⟨status, -, stores⟩ := gets.found list index listed first
    rw [libGetProtocolInterface_first listed first] at status stores
    cases read : handle.memory handle.pointer with
    | none =>
        rw [read] at status
        cases status
    | some word =>
        rw [read] at stores
        refine ⟨word, rfl, ?_⟩
        dsimp only at stores
        split_ifs at stores with word_ pointer_ pointer_
        · exact iff_of_true word_ pointer_
        · exact iff_of_false word_ pointer_
  · intro list listed closed
    obtain ⟨⟨status, returned, error⟩, -⟩ := gets.missing fun other listed' =>
      Except.ok.inj (listed.symm.trans listed') ▸ closed
    obtain ⟨_, call⟩ := libGetProtocolInterface_none listed closed
    rw [call] at returned
    by_contra fine
    rw [if_neg fine] at returned
    cases returned
    exact absurd error (by decide)

theorem InterfaceKept.gets (kept : InterfaceKept firmware handle)
    (listed : (libFindHandles firmware.locate).result = .ok list) :
    GetsInterface firmware handle interface := by
  refine ⟨?_, ?_, ?_⟩
  · intro other index listed' first
    obtain ⟨word, read, guarded⟩ := kept.found other index listed' first
    rw [libGetProtocolInterface_first listed' first, read]
    exact ⟨rfl, rfl, if_congr guarded rfl rfl⟩
  · intro closed
    obtain ⟨_, call⟩ := libGetProtocolInterface_none listed (closed list listed)
    have failed := kept.missing list listed (closed list listed)
    rw [call, if_pos failed]
    exact ⟨⟨_, rfl, failed.2⟩, rfl⟩
  · rcases firstOpen_or_noneOpens firmware list with ⟨index, first⟩ | closed
    · obtain ⟨word, read, -⟩ := kept.found list index listed first
      rw [libGetProtocolInterface_first listed first, read]
      exact libGetProtocolInterface_freed listed
    · obtain ⟨_, call⟩ := libGetProtocolInterface_none listed closed
      rw [call]
      exact libGetProtocolInterface_freed listed

/-- A call does what it should exactly where the interface is kept. -/
theorem getsInterface_iff (firmware : HandleFirmware) (handle : HandleArgument)
    (interface : UInt64) :
    GetsInterface firmware handle interface ↔ InterfaceKept firmware handle := by
  refine ⟨GetsInterface.kept, fun kept => ?_⟩
  cases listed : (libFindHandles firmware.locate).result with
  | error err => exact getsInterface_of_error listed
  | ok list => exact kept.gets listed

/-- A firmware with one handle, which opens, and no memory at the address zero. -/
def oneHandleFirmware : HandleFirmware where
  locate := .settled 0x2000 ⟨efiSuccess, 8, fun _ => 0x3000⟩ rfl
  openProtocol _ _ := ⟨efiSuccess, 0x4000⟩

/-- A `NULL` pointer for the handle. -/
def noHandleArgument : HandleArgument := ⟨0, fun _ => none, fun given => absurd rfl given⟩

/-- The call that all callers make faults. -/
theorem not_getsInterface_null : ¬ GetsInterface oneHandleFirmware noHandleArgument 0 := by
  intro gets
  have first : FirstOpen oneHandleFirmware ⟨0x2000, 1, fun _ => 0x3000⟩ 0 :=
    ⟨by decide, rfl, fun _ below => absurd below (Nat.not_lt_zero _)⟩
  have status := (gets.found _ 0 rfl first).1
  revert status
  decide

end Call

end Interface

end ZLoader
