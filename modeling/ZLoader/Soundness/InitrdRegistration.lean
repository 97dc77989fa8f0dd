import ZLoader.Foundation.CallRun
import ZLoader.Model.Initrd

/-! # Registrations of the initrd against the handle database

The static handle and the firmware's database agree after every run of calls: the handle is NULL and
nothing refers to the stub, or both protocols are installed on it. A deregistration of an installed
initrd breaks the rest of the contract, because the firmware is asked about the address of the
variable instead of the handle in it, and that address is no handle.
-/

namespace ZLoader

variable {D : Type} (firmware : Firmware D) (statics : InitrdStatics)

/-- Both protocols are installed on one handle. -/
def InitrdInstalled (st : InitrdState D) : Prop :=
  ∃ handle, firmware.InstalledOn st.database handle statics.interfaces

/-- Some handle refers to a protocol structure of the stub. -/
def InitrdReferenced (st : InitrdState D) : Prop :=
  firmware.Refers st.database statics.interfaces

/-- The call registered an initrd; registering an empty buffer registers nothing. -/
def InitrdCall.registered : InitrdCall → EfiStatus → Bool
  | .register initrd, status => initrd.buffer != 0 && initrd.length != 0 && status == efiSuccess
  | .deregister, _ => false

/-- Some registration succeeded and no deregistration followed it. -/
def registrationStands (log : List (InitrdCall × EfiStatus)) : Bool :=
  log.foldl (fun stands entry => match entry.1 with
    | .register _ => stands || entry.1.registered entry.2
    | .deregister => false) false

@[simp] theorem registrationStands_register (log : List (InitrdCall × EfiStatus))
    (initrd : SimpleBuffer) (status : EfiStatus) :
    registrationStands (log ++ [(.register initrd, status)]) =
      (registrationStands log || (InitrdCall.register initrd).registered status) :=
  List.foldl_append ..

@[simp] theorem registrationStands_deregister (log : List (InitrdCall × EfiStatus))
    (status : EfiStatus) : registrationStands (log ++ [(.deregister, status)]) = false :=
  List.foldl_append ..

/-- The state after some calls, and the log of them. -/
def initrdState (start : InitrdState D) (calls : List InitrdCall) : InitrdState D :=
  serveAll (InitrdCall.serve firmware statics) start calls

def initrdLog (start : InitrdState D) (calls : List InitrdCall) : List (InitrdCall × EfiStatus) :=
  callLog (InitrdCall.serve firmware statics) start calls

/-- In every state of the run the protocols are installed exactly when a registration stands, every
deregistration that follows one succeeds, and a successful one leaves no reference behind. -/
structure FollowsRegistrations (start : InitrdState D) (calls : List InitrdCall) : Prop where
  installed_iff : ∀ before, before <+: calls →
    (InitrdInstalled firmware statics (initrdState firmware statics start before) ↔
      registrationStands (initrdLog firmware statics start before) = true)
  released : ∀ before, before ++ [.deregister] <+: calls →
    (initrdDeregister firmware statics (initrdState firmware statics start before)).1 =
      efiSuccess →
    ¬ InitrdReferenced firmware statics
      (initrdState firmware statics start (before ++ [.deregister]))
  succeeds : ∀ before, before ++ [.deregister] <+: calls →
    registrationStands (initrdLog firmware statics start before) = true →
    (initrdDeregister firmware statics (initrdState firmware statics start before)).1 = efiSuccess

/-- The stub has just been loaded: it has registered nothing yet, and its static variable lies in
its own image, where the firmware places no handle. -/
structure StubLoaded (start : InitrdState D) : Prop where
  unregistered : start.initrdHandle = none
  unreferenced : ¬ InitrdReferenced firmware statics start
  unknown : ∀ protocol, firmware.lookup start.database statics.handleVariable protocol = none
  apart : ∀ db interfaces target next, firmware.install db none interfaces = .ok (target, next) →
    target ≠ statics.handleVariable

/-- The static handle tells what is in the database, which never has a handle at the address of the
variable. -/
structure HandleAgrees (st : InitrdState D) (log : List (InitrdCall × EfiStatus)) : Prop where
  unknown : ∀ protocol, firmware.lookup st.database statics.handleVariable protocol = none
  unreferenced : st.initrdHandle = none → ¬ InitrdReferenced firmware statics st
  installed : ∀ handle, st.initrdHandle = some handle →
    firmware.InstalledOn st.database handle statics.interfaces
  held : registrationStands log = true → st.initrdHandle ≠ none

/-- A registration that registers nothing keeps the handle and the database; otherwise the firmware
has installed the group. -/
theorem initrdRegister_cases (initrd : SimpleBuffer) (st : InitrdState D) :
    ((InitrdCall.register initrd).registered (initrdRegister firmware statics initrd st).1 = false ∧
      (initrdRegister firmware statics initrd st).2.database = st.database ∧
      (initrdRegister firmware statics initrd st).2.initrdHandle = st.initrdHandle) ∨
    ((InitrdCall.register initrd).registered (initrdRegister firmware statics initrd st).1 = true ∧
      ∃ handle, firmware.install st.database st.initrdHandle statics.interfaces =
          .ok (handle, (initrdRegister firmware statics initrd st).2.database) ∧
        (initrdRegister firmware statics initrd st).2.initrdHandle = some handle) := by
  unfold initrdRegister
  split_ifs with empty
  · refine .inl ⟨?_, rfl, rfl⟩
    simp only [Bool.or_eq_true, beq_iff_eq] at empty
    rcases empty with null | nothing
    · simp [InitrdCall.registered, null]
    · simp [InitrdCall.registered, nothing]
  · simp only [Bool.or_eq_true, beq_iff_eq, not_or] at empty
    cases answer : firmware.install st.database st.initrdHandle statics.interfaces with
    | ok installed =>
      exact .inr ⟨by simp [InitrdCall.registered, empty], installed.1, rfl, rfl⟩
    | error failure =>
      exact .inl ⟨by simp [InitrdCall.registered, failure_ne_success failure], rfl, rfl⟩

variable {firmware statics}

theorem interfaceFor_statics (entry : Protocol × UInt64) (member : entry ∈ statics.interfaces) :
    interfaceFor statics.interfaces entry.1 = some entry.2 := by
  simp only [InitrdStatics.interfaces, List.mem_cons, List.not_mem_nil, or_false] at member
  rcases member with rfl | rfl <;> rfl

/-- An installed group refers to the stub. -/
theorem InitrdInstalled.referenced {st : InitrdState D}
    (installed : InitrdInstalled firmware statics st) : InitrdReferenced firmware statics st := by
  obtain ⟨handle, all⟩ := installed
  exact ⟨handle, _, _, List.mem_cons_self, all _ List.mem_cons_self⟩

/-- A registration keeps the handle and the database in agreement. -/
theorem HandleAgrees.register (apart : ∀ db interfaces target next,
      firmware.install db none interfaces = .ok (target, next) → target ≠ statics.handleVariable)
    {st : InitrdState D} {log : List (InitrdCall × EfiStatus)}
    (agrees : HandleAgrees firmware statics st log) (initrd : SimpleBuffer) :
    HandleAgrees firmware statics (initrdRegister firmware statics initrd st).2
      (log ++ [(.register initrd, (initrdRegister firmware statics initrd st).1)]) := by
  obtain ⟨unknown, unreferenced, installed, held⟩ := agrees
  rcases initrdRegister_cases firmware statics initrd st with
    ⟨idle, database, handle⟩ | ⟨registered, handle, accepted, kept⟩
  · refine ⟨?_, ?_, ?_, ?_⟩
    · rwa [database]
    · unfold InitrdReferenced at *
      rwa [handle, database]
    · rwa [handle, database]
    · rwa [registrationStands_register, idle, Bool.or_false, handle]
  · -- the group is installed only while the handle is NULL
    have null : st.initrdHandle = none := by
      by_contra holds
      obtain ⟨holder, same⟩ := Option.ne_none_iff_exists'.mp holds
      rw [same] at accepted
      exact firmware.install_of_occupied List.mem_cons_self
        (installed holder same _ List.mem_cons_self) accepted
    rw [null] at accepted
    refine ⟨fun protocol => ?_, fun none => ?_, fun holder same => ?_, fun _ => ?_⟩
    · rw [firmware.lookup_of_install_ne accepted (apart _ _ _ _ accepted).symm]
      exact unknown protocol
    · rw [kept] at none
      contradiction
    · obtain rfl := Option.some.inj (kept.symm.trans same)
      exact firmware.installedOn_of_install interfaceFor_statics accepted
    · simp [kept]

/-- The deregistration of an installed initrd is refused. -/
theorem HandleAgrees.deregister_refused {st : InitrdState D} {log : List (InitrdCall × EfiStatus)}
    (agrees : HandleAgrees firmware statics st log) (held : st.initrdHandle ≠ none) :
    (initrdDeregister firmware statics st).1 ≠ efiSuccess ∧
      (initrdDeregister firmware statics st).2 = st := by
  obtain ⟨handle, held⟩ := Option.ne_none_iff_exists'.mp held
  unfold initrdDeregister
  rw [held]
  dsimp only
  split
  · next accepted =>
    exact absurd accepted (firmware.uninstall_of_unknown agrees.unknown (by
      simp [InitrdStatics.interfaces]))
  · next failure _ => exact ⟨failure_ne_success failure, rfl⟩

/-- Without a handle there is nothing to do. -/
theorem initrdDeregister_idle {st : InitrdState D} (unregistered : st.initrdHandle = none) :
    initrdDeregister firmware statics st = (efiSuccess, st) := by
  unfold initrdDeregister
  rw [unregistered]

/-- Every call keeps the handle and the database in agreement. -/
theorem HandleAgrees.serve (apart : ∀ db interfaces target next,
      firmware.install db none interfaces = .ok (target, next) → target ≠ statics.handleVariable)
    {st : InitrdState D} {log : List (InitrdCall × EfiStatus)}
    (agrees : HandleAgrees firmware statics st log) (call : InitrdCall) :
    HandleAgrees firmware statics (call.serve firmware statics st).2
      (log ++ [(call, (call.serve firmware statics st).1)]) := by
  cases call with
  | register initrd => exact agrees.register apart initrd
  | deregister =>
    have same : (initrdDeregister firmware statics st).2 = st := by
      by_cases null : st.initrdHandle = none
      · rw [initrdDeregister_idle null]
      · exact (agrees.deregister_refused null).2
    change HandleAgrees firmware statics (initrdDeregister firmware statics st).2 _
    rw [same]
    exact ⟨agrees.unknown, agrees.unreferenced, agrees.installed, by simp⟩

theorem HandleAgrees.start {start : InitrdState D} (loaded : StubLoaded firmware statics start) :
    HandleAgrees firmware statics start [] where
  unknown := loaded.unknown
  unreferenced _ := loaded.unreferenced
  installed handle held := by
    rw [loaded.unregistered] at held
    contradiction
  held stands := by contradiction

/-- The handle and the database agree after every run. -/
theorem handleAgrees_run {start : InitrdState D} (loaded : StubLoaded firmware statics start)
    (calls : List InitrdCall) :
    HandleAgrees firmware statics (initrdState firmware statics start calls)
      (initrdLog firmware statics start calls) :=
  serveAll_invariant _ _ (.start loaded) (fun _ call _ agrees => agrees.serve loaded.apart call)
    (List.prefix_refl calls)

/-- The handle is NULL at every deregistration of the run. -/
def DeregistersIdle (firmware : Firmware D) (statics : InitrdStatics) (start : InitrdState D)
    (calls : List InitrdCall) : Prop :=
  ∀ before, before ++ [.deregister] <+: calls →
    (initrdState firmware statics start before).initrdHandle = none

/-- As long as nothing installed is deregistered, a handle is held only while a registration
stands. -/
theorem stands_of_deregistersIdle {start : InitrdState D} {calls : List InitrdCall}
    (loaded : StubLoaded firmware statics start)
    (idle : DeregistersIdle firmware statics start calls) {before : List InitrdCall}
    (reached : before <+: calls)
    (held : (initrdState firmware statics start before).initrdHandle ≠ none) :
    registrationStands (initrdLog firmware statics start before) = true := by
  refine serveAll_invariant (InitrdCall.serve firmware statics)
    (fun st log => st.initrdHandle ≠ none → registrationStands log = true)
    (fun held => absurd loaded.unregistered held) (fun before call within ih => ?_) reached held
  cases call with
  | register initrd =>
    intro held
    rw [registrationStands_register, Bool.or_eq_true]
    rcases initrdRegister_cases firmware statics initrd
      (initrdState firmware statics start before) with ⟨_, _, handle⟩ | ⟨registered, _⟩
    · exact .inl (ih fun null => held (handle.trans null))
    · exact .inr registered
  | deregister =>
    intro held
    have null := idle before within
    change (initrdDeregister firmware statics
      (initrdState firmware statics start before)).2.initrdHandle ≠ none at held
    rw [initrdDeregister_idle null] at held
    exact absurd null held

/-- The contract of the two functions holds in a run exactly when no deregistration comes while the
stub holds a handle. -/
theorem followsRegistrations_iff {start : InitrdState D} {calls : List InitrdCall}
    (loaded : StubLoaded firmware statics start) :
    FollowsRegistrations firmware statics start calls ↔
      DeregistersIdle firmware statics start calls := by
  constructor
  · intro follows before reached
    have agrees := handleAgrees_run loaded before
    by_contra held
    obtain ⟨handle, same⟩ := Option.ne_none_iff_exists'.mp held
    have stands := (follows.installed_iff before
      ((List.prefix_append before [.deregister]).trans reached)).mp ⟨handle, agrees.installed handle same⟩
    exact (agrees.deregister_refused held).1 (follows.succeeds before reached stands)
  · intro idle
    refine ⟨fun before reached => ?_, fun before reached _ => ?_, fun before reached stands => ?_⟩
    · have agrees := handleAgrees_run loaded before
      constructor
      · intro installed
        apply stands_of_deregistersIdle loaded idle reached
        intro null
        exact agrees.unreferenced null installed.referenced
      · intro stands
        obtain ⟨handle, same⟩ := Option.ne_none_iff_exists'.mp (agrees.held stands)
        exact ⟨handle, agrees.installed handle same⟩
    · have null := idle before reached
      have unchanged : initrdState firmware statics start (before ++ [.deregister]) =
          initrdState firmware statics start before := by
        apply (serveAll_snoc _ _ _ _).trans
        exact congrArg Prod.snd (initrdDeregister_idle null)
      rw [unchanged]
      exact (handleAgrees_run loaded before).unreferenced null
    · rw [initrdDeregister_idle (idle before reached)]

/-! ## A small firmware

It hands out one handle, to an empty database. -/

abbrev SmallDatabase := List (Handle × Protocol × UInt64)

def smallFirmware : Firmware SmallDatabase :=
  .ofEntries
    (fun entries =>
      if empty : entries = [] then some ⟨⟨0x900000, by decide⟩, by simp [empty]⟩ else none)
    ⟨efiInvalidParameter, by decide⟩

def smallStatics : InitrdStatics := ⟨⟨0x401000, by decide⟩, 0x402000, 0x403000⟩

def smallInitrd : SimpleBuffer := ⟨0x500000, 64, 0, 64, none⟩

def unregisteredState : InitrdState SmallDatabase := ⟨[], ⟨0, 0, 0, 0, none⟩, none⟩

theorem stubLoaded_smallFirmware : StubLoaded smallFirmware smallStatics unregisteredState where
  unregistered := rfl
  unreferenced := by
    rintro ⟨handle, protocol, entry, _, found⟩
    cases found
  unknown protocol := rfl
  apart db interfaces target next accepted := by
    by_cases empty : db = []
    · subst empty
      obtain ⟨rfl, _⟩ := Prod.mk.inj (Except.ok.inj accepted)
      decide
    · simp [smallFirmware, HandleDatabase.ofEntries, empty] at accepted

theorem followsRegistrations_registeredTwice :
    FollowsRegistrations smallFirmware smallStatics unregisteredState
      [.deregister, .register smallInitrd, .register smallInitrd] := by
  apply (followsRegistrations_iff stubLoaded_smallFirmware).mpr
  rintro before ⟨rest, same⟩
  rcases before with _ | ⟨first, _ | ⟨second, _ | ⟨third, before⟩⟩⟩
  · rfl
  all_goals simp at same

/-- After one registration the deregistration fails. -/
theorem not_followsRegistrations_deregistered :
    ¬ ∀ (D : Type) (firmware : Firmware D) (statics : InitrdStatics) (start : InitrdState D)
      (calls : List InitrdCall), StubLoaded firmware statics start →
        FollowsRegistrations firmware statics start calls := by
  intro claim
  have follows := claim SmallDatabase smallFirmware smallStatics unregisteredState
    [.register smallInitrd, .deregister] stubLoaded_smallFirmware
  have succeeds := follows.succeeds [.register smallInitrd] List.prefix_rfl (by decide)
  revert succeeds
  decide

end ZLoader
