import Mathlib.Data.List.Find
import Mathlib.Data.Nat.Notation
import Mathlib.Tactic.Common

/-! # Handle databases

A handle database keeps interfaces on handles, at most one for each protocol. Interfaces are
installed and uninstalled in groups, and a group that cannot be handled as a whole changes nothing:
a refused call has no database to return. Installing without a handle creates one that nothing is
installed on; uninstalling asks for every interface of the group on exactly the handle it is given.

A database here carries that contract, so results hold for every implementation of it.
-/

namespace ZLoader

/-- The interface a group has for a protocol. -/
def interfaceFor {P I : Type} [DecidableEq P] (interfaces : List (P × I)) (protocol : P) :
    Option I :=
  (interfaces.find? fun entry => entry.1 = protocol).map fun entry => entry.2

/-- A handle database with its contract: `D` are its contents, `H` the handles, `P` the protocols,
`I` the interfaces and `E` the reasons of a refusal. -/
structure HandleDatabase (D H P I E : Type) [DecidableEq H] [DecidableEq P] where
  lookup : D → H → P → Option I
  install : D → Option H → List (P × I) → Except E (H × D)
  uninstall : D → H → List (P × I) → Except E D
  install_target : ∀ db handle interfaces target next,
    install db (some handle) interfaces = .ok (target, next) → target = handle
  install_fresh : ∀ db interfaces target next, install db none interfaces = .ok (target, next) →
    ∀ protocol, lookup db target protocol = none
  install_free : ∀ db handle interfaces target next,
    install db handle interfaces = .ok (target, next) →
      ∀ entry ∈ interfaces, lookup db target entry.1 = none
  lookup_install : ∀ db handle interfaces target next,
    install db handle interfaces = .ok (target, next) → ∀ other protocol,
      lookup next other protocol =
        if other = target then (interfaceFor interfaces protocol).or (lookup db target protocol)
        else lookup db other protocol
  uninstall_iff : ∀ db handle interfaces, (∃ next, uninstall db handle interfaces = .ok next) ↔
    ∀ entry ∈ interfaces, lookup db handle entry.1 = some entry.2
  lookup_uninstall : ∀ db handle interfaces next, uninstall db handle interfaces = .ok next →
    ∀ other protocol, lookup next other protocol =
      if other = handle ∧ (interfaceFor interfaces protocol).isSome then none
      else lookup db other protocol

namespace HandleDatabase

variable {D H P I E : Type} [DecidableEq H] [DecidableEq P] (database : HandleDatabase D H P I E)

/-- Some handle refers to an interface of the group. -/
def Refers (db : D) (interfaces : List (P × I)) : Prop :=
  ∃ handle protocol entry, entry ∈ interfaces ∧ database.lookup db handle protocol = some entry.2

/-- The whole group is installed on the handle. -/
def InstalledOn (db : D) (handle : H) (interfaces : List (P × I)) : Prop :=
  ∀ entry ∈ interfaces, database.lookup db handle entry.1 = some entry.2

/-- A handle that nothing is installed on is refused. -/
theorem uninstall_of_unknown {db : D} {handle : H} {interfaces : List (P × I)}
    (unknown : ∀ protocol, database.lookup db handle protocol = none) (nonempty : interfaces ≠ [])
    {next : D} : database.uninstall db handle interfaces ≠ .ok next := by
  intro accepted
  obtain ⟨entry, member⟩ := List.exists_mem_of_ne_nil interfaces nonempty
  have found := (database.uninstall_iff db handle interfaces).mp ⟨next, accepted⟩ entry member
  rw [unknown] at found
  contradiction

/-- A handle with a protocol of the group is refused. -/
theorem install_of_occupied {db : D} {handle target : H} {interfaces : List (P × I)} {next : D}
    {entry : P × I} (member : entry ∈ interfaces) {interface : I}
    (occupied : database.lookup db handle entry.1 = some interface) :
    database.install db (some handle) interfaces ≠ .ok (target, next) := by
  intro accepted
  obtain rfl := database.install_target _ _ _ _ _ accepted
  have free := database.install_free _ _ _ _ _ accepted entry member
  rw [occupied] at free
  contradiction

/-- With one interface for each of its protocols, an installed group is found on its handle. -/
theorem installedOn_of_install {db next : D} {handle : Option H} {target : H}
    {interfaces : List (P × I)}
    (unique : ∀ entry ∈ interfaces, interfaceFor interfaces entry.1 = some entry.2)
    (accepted : database.install db handle interfaces = .ok (target, next)) :
    database.InstalledOn next target interfaces := by
  intro entry member
  rw [database.lookup_install _ _ _ _ _ accepted, if_pos rfl, unique entry member, Option.some_or]

/-- A group installed on a new handle leaves the other handles alone. -/
theorem lookup_of_install_ne {db next : D} {handle : Option H} {target other : H}
    {interfaces : List (P × I)} (accepted : database.install db handle interfaces = .ok (target, next))
    (elsewhere : other ≠ target) (protocol : P) :
    database.lookup next other protocol = database.lookup db other protocol := by
  rw [database.lookup_install _ _ _ _ _ accepted, if_neg elsewhere]

end HandleDatabase

/-! ## A database as a list

The entries in a list, with a rule that chooses the new handles. -/

section Entries

variable {H P I E : Type} [DecidableEq H] [DecidableEq P]

/-- The interface among the entries. -/
def entryLookup (entries : List (H × P × I)) (handle : H) (protocol : P) : Option I :=
  (entries.find? fun entry => entry.1 = handle ∧ entry.2.1 = protocol).map fun entry => entry.2.2

theorem entryLookup_fresh {entries : List (H × P × I)} {handle : H}
    (fresh : ∀ entry ∈ entries, entry.1 ≠ handle) (protocol : P) :
    entryLookup entries handle protocol = none := by
  unfold entryLookup
  rw [Option.map_eq_none_iff, List.find?_eq_none]
  intro entry member
  simp [fresh entry member]

theorem entryLookup_append (entries : List (H × P × I)) (interfaces : List (P × I))
    (target other : H) (protocol : P) :
    entryLookup (interfaces.map (fun entry => (target, entry)) ++ entries) other protocol =
      if other = target then (interfaceFor interfaces protocol).or (entryLookup entries target protocol)
      else entryLookup entries other protocol := by
  unfold entryLookup interfaceFor
  rw [List.find?_append, List.find?_map]
  split_ifs with same
  · subst same
    cases found : interfaces.find? fun entry => entry.1 = protocol <;> simp [found]
  · have none : interfaces.find? (fun _ => false) = none := by simp
    simp [Ne.symm same, none]

theorem entryLookup_filter (entries : List (H × P × I)) (gone : P → Bool) (handle other : H)
    (protocol : P) :
    entryLookup (entries.filter fun entry => !(entry.1 = handle && gone entry.2.1)) other protocol =
      if other = handle ∧ gone protocol then none else entryLookup entries other protocol := by
  unfold entryLookup
  rw [List.find?_filter]
  split_ifs with removed
  · rw [Option.map_eq_none_iff, List.find?_eq_none]
    rintro ⟨owner, name, interface⟩ _
    obtain ⟨rfl, there⟩ := removed
    simp only [decide_eq_true_eq, not_and]
    rintro kept rfl rfl
    simp [there] at kept
  · congr 1
    refine List.find?_congr ?_
    rintro ⟨owner, name, interface⟩ _
    rw [decide_eq_decide]
    refine ⟨fun both => by simpa using both.2, fun same => ⟨?_, by simpa using same⟩⟩
    obtain ⟨rfl, rfl⟩ := same
    simpa [imp_iff_not_or] using removed

/-- The database of the entries in a list; `fresh` chooses new handles and may refuse to. -/
def HandleDatabase.ofEntries [DecidableEq I]
    (fresh : (entries : List (H × P × I)) → Option { handle // ∀ entry ∈ entries, entry.1 ≠ handle })
    (refusal : E) : HandleDatabase (List (H × P × I)) H P I E where
  lookup := entryLookup
  install db handle interfaces :=
    match handle with
    | some handle =>
        if ∀ entry ∈ interfaces, entryLookup db handle entry.1 = none then
          .ok (handle, interfaces.map (fun entry => (handle, entry)) ++ db)
        else .error refusal
    | none =>
        match fresh db with
        | some target => .ok (target.1, interfaces.map (fun entry => (target.1, entry)) ++ db)
        | none => .error refusal
  uninstall db handle interfaces :=
    if ∀ entry ∈ interfaces, entryLookup db handle entry.1 = some entry.2 then
      .ok (db.filter fun entry =>
        !(entry.1 = handle && (interfaceFor interfaces entry.2.1).isSome))
    else .error refusal
  install_target db handle interfaces target next accepted := by
    dsimp only at accepted
    split_ifs at accepted
    exact (Prod.mk.inj (Except.ok.inj accepted)).1.symm
  install_fresh db interfaces target next accepted protocol := by
    dsimp only at accepted
    split at accepted
    · next chosen _ =>
      obtain ⟨rfl, _⟩ := Prod.mk.inj (Except.ok.inj accepted)
      exact entryLookup_fresh chosen.2 protocol
    · contradiction
  install_free db handle interfaces target next accepted entry member := by
    cases handle with
    | some handle =>
      dsimp only at accepted
      split_ifs at accepted with free
      obtain ⟨rfl, _⟩ := Prod.mk.inj (Except.ok.inj accepted)
      exact free entry member
    | none =>
      dsimp only at accepted
      split at accepted
      · next chosen _ =>
        obtain ⟨rfl, _⟩ := Prod.mk.inj (Except.ok.inj accepted)
        exact entryLookup_fresh chosen.2 entry.1
      · contradiction
  lookup_install db handle interfaces target next accepted other protocol := by
    cases handle with
    | some handle =>
      dsimp only at accepted
      split_ifs at accepted with free
      obtain ⟨rfl, rfl⟩ := Prod.mk.inj (Except.ok.inj accepted)
      exact entryLookup_append db interfaces handle other protocol
    | none =>
      dsimp only at accepted
      split at accepted
      · next chosen _ =>
        obtain ⟨rfl, rfl⟩ := Prod.mk.inj (Except.ok.inj accepted)
        exact entryLookup_append db interfaces chosen.1 other protocol
      · contradiction
  uninstall_iff db handle interfaces := by
    split_ifs with installed
    · exact ⟨fun _ => installed, fun _ => ⟨_, rfl⟩⟩
    · exact ⟨fun ⟨_, accepted⟩ => by contradiction, fun all => absurd all installed⟩
  lookup_uninstall db handle interfaces next accepted other protocol := by
    split_ifs at accepted with installed
    obtain rfl := Except.ok.inj accepted
    exact entryLookup_filter db (fun name => (interfaceFor interfaces name).isSome) handle other
      protocol

end Entries

end ZLoader
