import Mathlib.Algebra.GroupWithZero.Nat
import Mathlib.Data.Nat.Notation
import Mathlib.Tactic.Common

/-! # Streaming decoders

A streaming decoder is called again and again with the rest of its input and the rest of its output
space. What it may do is its contract: it consumes at most what it is offered, produces at most
what fits, and returns zero exactly when the frame it works on has been decoded completely. A
decoder here carries its contract, so results hold for every behaviour that the contract allows.

`feed` offers an input until all of it is consumed. A caller whose loop looks only at its input
cursor performs a feed, and what it may conclude afterwards is what the last reply says.
-/

namespace ZLoader

/-- What one call did: the next state, the numbers of bytes consumed and produced and the value
returned. -/
structure DecoderReply (σ : Type) where
  state : σ
  consumed : UInt64
  produced : UInt64
  result : UInt64

/-- One call: what was offered and what came back. -/
structure DecoderCall where
  offered : UInt64
  capacity : UInt64
  consumed : UInt64
  produced : UInt64
  result : UInt64
deriving DecidableEq, Repr

/-- A decoder with its contract. -/
structure StreamDecoder (σ : Type) where
  step : σ → (ℕ → UInt8) → UInt64 → UInt64 → DecoderReply σ
  complete : σ → Bool
  consumed_le : ∀ state data size capacity, (step state data size capacity).consumed ≤ size
  produced_le : ∀ state data size capacity, (step state data size capacity).produced ≤ capacity
  result_eq_zero_iff : ∀ state data size capacity,
    (step state data size capacity).result = 0 ↔
      complete (step state data size capacity).state = true

namespace StreamDecoder

variable {σ : Type} (decoder : StreamDecoder σ)

/-- Offer the input until it is consumed, in at most so many calls: the final state and the number
of bytes produced. -/
def feed : ℕ → σ → (ℕ → UInt8) → UInt64 → UInt64 → Option (σ × UInt64)
  | 0, state, _, size, _ => if size = 0 then some (state, 0) else none
  | calls + 1, state, data, size, capacity =>
      if size = 0 then some (state, 0)
      else
        let reply := decoder.step state data size capacity
        (feed calls reply.state (fun index => data (reply.consumed.toNat + index))
          (size - reply.consumed) (capacity - reply.produced)).map
            fun (final, produced) => (final, reply.produced + produced)

@[simp] theorem feed_empty (calls : ℕ) (state : σ) (data : ℕ → UInt8) (capacity : UInt64) :
    decoder.feed calls state data 0 capacity = some (state, 0) := by
  cases calls <;> simp [feed]

/-- More calls than needed change nothing. -/
theorem feed_mono {calls more : ℕ} (bound : calls ≤ more) {state : σ} {data : ℕ → UInt8}
    {size capacity : UInt64} {result : σ × UInt64}
    (fed : decoder.feed calls state data size capacity = some result) :
    decoder.feed more state data size capacity = some result := by
  induction calls generalizing more state data size capacity result with
  | zero =>
    simp only [feed, Option.ite_none_right_eq_some] at fed
    obtain ⟨rfl, same⟩ := fed
    rw [feed_empty, same]
  | succ calls ih =>
    obtain ⟨more, rfl⟩ : ∃ rest, more = rest + 1 := ⟨more - 1, by omega⟩
    simp only [feed] at fed ⊢
    split_ifs at fed ⊢ with empty
    · exact fed
    · obtain ⟨inner, reached, same⟩ := Option.map_eq_some_iff.mp fed
      rw [ih (by omega) reached, Option.map_some, same]

/-- The final state and the output of a feed do not depend on how many calls were allowed. -/
theorem feed_unique {calls more : ℕ} {state : σ} {data : ℕ → UInt8} {size capacity : UInt64}
    {first second : σ × UInt64} (one : decoder.feed calls state data size capacity = some first)
    (two : decoder.feed more state data size capacity = some second) : first = second := by
  have one := decoder.feed_mono (Nat.le_max_left calls more) one
  have two := decoder.feed_mono (Nat.le_max_right calls more) two
  exact Option.some.inj (one.symm.trans two)

/-- A feed produces at most what fits. -/
theorem feed_produced_le {calls : ℕ} {state final : σ} {data : ℕ → UInt8}
    {size capacity produced : UInt64}
    (fed : decoder.feed calls state data size capacity = some (final, produced)) :
    produced ≤ capacity := by
  induction calls generalizing state data size capacity produced with
  | zero =>
    simp only [feed, Option.ite_none_right_eq_some, Option.some.injEq, Prod.mk.injEq] at fed
    obtain ⟨_, _, rfl⟩ := fed
    exact UInt64.zero_le
  | succ calls ih =>
    simp only [feed] at fed
    split_ifs at fed with empty
    · obtain ⟨_, rfl⟩ := Prod.mk.inj (Option.some.inj fed)
      exact UInt64.zero_le
    · obtain ⟨⟨last, rest⟩, reached, same⟩ := Option.map_eq_some_iff.mp fed
      dsimp only at same
      obtain ⟨rfl, rfl⟩ := Prod.mk.inj same
      have later := ih reached
      have head := decoder.produced_le state data size capacity
      have bound := capacity.toNat_lt
      rw [UInt64.le_iff_toNat_le] at *
      rw [UInt64.toNat_sub] at later
      rw [UInt64.toNat_add]
      omega

/-- Some call comes with input left but without room, and no call before it reports an error. -/
def exhaustsRoom (isError : UInt64 → Bool) : ℕ → σ → (ℕ → UInt8) → UInt64 → UInt64 → Bool
  | 0, _, _, _, _ => false
  | calls + 1, state, data, size, capacity =>
      size != 0 &&
        (capacity == 0 ||
          let reply := decoder.step state data size capacity
          !isError reply.result &&
            exhaustsRoom isError calls reply.state
              (fun index => data (reply.consumed.toNat + index)) (size - reply.consumed)
              (capacity - reply.produced))

/-- What is left when for the first time there is input but no room: the state, the rest of the
input and its size. -/
def exhausted (isError : UInt64 → Bool) :
    ℕ → σ → (ℕ → UInt8) → UInt64 → UInt64 → Option (σ × (ℕ → UInt8) × UInt64)
  | 0, _, _, _, _ => none
  | calls + 1, state, data, size, capacity =>
      if size = 0 then none
      else if capacity = 0 then some (state, data, size)
      else
        let reply := decoder.step state data size capacity
        if isError reply.result then none
        else
          exhausted isError calls reply.state (fun index => data (reply.consumed.toNat + index))
            (size - reply.consumed) (capacity - reply.produced)

theorem exhaustsRoom_eq_isSome (isError : UInt64 → Bool) (calls : ℕ) (state : σ)
    (data : ℕ → UInt8) (size capacity : UInt64) :
    decoder.exhaustsRoom isError calls state data size capacity =
      (decoder.exhausted isError calls state data size capacity).isSome := by
  induction calls generalizing state data size capacity with
  | zero => rfl
  | succ calls ih =>
    rw [exhaustsRoom, exhausted]
    split_ifs with empty full
    · simp [empty]
    · simp [empty, full]
    · have nonempty : (size != 0) = true := bne_iff_ne.mpr empty
      have room : (capacity == 0) = false := beq_false_of_ne full
      rw [nonempty, room]
      dsimp only
      split_ifs with failed
      · simp [failed]
      · simp [failed, ih]

/-- Within so many calls the input is used up, or a call reports an error. -/
def drains (isError : UInt64 → Bool) : ℕ → σ → (ℕ → UInt8) → UInt64 → UInt64 → Bool
  | 0, _, _, size, _ => size == 0
  | calls + 1, state, data, size, capacity =>
      size == 0 ||
        let reply := decoder.step state data size capacity
        isError reply.result ||
          drains isError calls reply.state (fun index => data (reply.consumed.toNat + index))
            (size - reply.consumed) (capacity - reply.produced)

/-- A call with input and room consumes or produces something, or reports an error. -/
def Progresses (isError : UInt64 → Bool) : Prop :=
  ∀ state data size capacity, size ≠ 0 → capacity ≠ 0 →
    let reply := decoder.step state data size capacity
    isError reply.result = true ∨ reply.consumed ≠ 0 ∨ reply.produced ≠ 0

variable {decoder} in
/-- A decoder that makes progress uses up its input, reports an error or runs out of room: input
and room together shrink with every call. -/
theorem Progresses.drains_or_exhausted {isError : UInt64 → Bool}
    (progresses : decoder.Progresses isError) (state : σ) (data : ℕ → UInt8)
    (size capacity : UInt64) :
    ∃ calls, decoder.drains isError calls state data size capacity = true ∨
      (decoder.exhausted isError calls state data size capacity).isSome = true := by
  induction total : size.toNat + capacity.toNat using Nat.strongRecOn
    generalizing state data size capacity with
  | ind total ih =>
    by_cases empty : size = 0
    · exact ⟨0, .inl (by simp [drains, empty])⟩
    by_cases full : capacity = 0
    · exact ⟨1, .inr (by simp [exhausted, empty, full])⟩
    by_cases failed : isError (decoder.step state data size capacity).result = true
    · exact ⟨1, .inl (by simp [drains, failed])⟩
    have consumed := decoder.consumed_le state data size capacity
    have produced := decoder.produced_le state data size capacity
    have moved : (decoder.step state data size capacity).consumed.toNat +
        (decoder.step state data size capacity).produced.toNat ≠ 0 := by
      have progress := progresses state data size capacity empty full
      dsimp only at progress
      rw [ne_eq, Nat.add_eq_zero_iff]
      rintro ⟨still, nothing⟩
      rcases progress with error | consumes | produces
      · exact failed error
      · exact consumes (UInt64.toNat_inj.mp still)
      · exact produces (UInt64.toNat_inj.mp nothing)
    obtain ⟨calls, ends⟩ := ih _ (by
      rw [UInt64.toNat_sub_of_le _ _ consumed, UInt64.toNat_sub_of_le _ _ produced]
      rw [UInt64.le_iff_toNat_le] at consumed produced
      omega) (decoder.step state data size capacity).state
      (fun index => data ((decoder.step state data size capacity).consumed.toNat + index))
      (size - (decoder.step state data size capacity).consumed)
      (capacity - (decoder.step state data size capacity).produced) rfl
    refine ⟨calls + 1, ends.imp (fun drained => ?_) fun exhausts => ?_⟩
    · simp [drains, drained]
    · simpa [exhausted, empty, full, failed] using exhausts

/-- A decoder that has run out of room drains its input from there, or not at all. -/
theorem exists_drains_iff_of_exhausted {isError : UInt64 → Bool} {calls : ℕ} {state last : σ}
    {data rest : ℕ → UInt8} {size left capacity : UInt64}
    (reached : decoder.exhausted isError calls state data size capacity = some (last, rest, left)) :
    (∃ more, decoder.drains isError more state data size capacity = true) ↔
      ∃ more, decoder.drains isError more last rest left 0 = true := by
  induction calls generalizing state data size capacity with
  | zero => cases reached
  | succ calls ih =>
    rw [exhausted] at reached
    split_ifs at reached with empty full
    · obtain ⟨rfl, same⟩ := Prod.mk.inj (Option.some.inj reached)
      obtain ⟨rfl, rfl⟩ := Prod.mk.inj same
      rw [full]
    · dsimp only at reached
      split_ifs at reached with failed
      rw [← ih reached]
      constructor
      · rintro ⟨more, drained⟩
        cases more with
        | zero => exact absurd (by simpa [drains] using drained) empty
        | succ more => exact ⟨more, by simpa [drains, empty, failed] using drained⟩
      · rintro ⟨more, drained⟩
        exact ⟨more + 1, by simp [drains, drained]⟩

variable {decoder} in
/-- Whether a decoder that makes progress drains its input is decided where it runs out of room. -/
theorem Progresses.exists_drains_iff {isError : UInt64 → Bool}
    (progresses : decoder.Progresses isError) (state : σ) (data : ℕ → UInt8)
    (size capacity : UInt64) :
    (∃ more, decoder.drains isError more state data size capacity = true) ↔
      ∀ calls last rest left,
        decoder.exhausted isError calls state data size capacity = some (last, rest, left) →
          ∃ more, decoder.drains isError more last rest left 0 = true := by
  constructor
  · intro drained calls last rest left reached
    exact (decoder.exists_drains_iff_of_exhausted reached).mp drained
  · intro drained
    obtain ⟨calls, ends | exhausts⟩ := progresses.drains_or_exhausted state data size capacity
    · exact ⟨calls, ends⟩
    · obtain ⟨⟨last, rest, left⟩, reached⟩ := Option.isSome_iff_exists.mp exhausts
      exact (decoder.exists_drains_iff_of_exhausted reached).mpr (drained _ _ _ _ reached)

/-- The first call that reports an error comes before anything is produced. -/
def failsBeforeOutput (isError : UInt64 → Bool) :
    ℕ → σ → (ℕ → UInt8) → UInt64 → UInt64 → Bool
  | 0, _, _, _, _ => false
  | calls + 1, state, data, size, capacity =>
      size != 0 &&
        let reply := decoder.step state data size capacity
        isError reply.result ||
          reply.produced == 0 &&
            failsBeforeOutput isError calls reply.state
              (fun index => data (reply.consumed.toNat + index)) (size - reply.consumed)
              (capacity - reply.produced)

/-- The call of one step. -/
def call (state : σ) (data : ℕ → UInt8) (size capacity : UInt64) : DecoderCall :=
  let reply := decoder.step state data size capacity
  ⟨size, capacity, reply.consumed, reply.produced, reply.result⟩

/-- The calls are those of a feed: their output adds up to its output, and the last of them returns
zero exactly when the feed ends with a complete frame. -/
structure FedBy (state : σ) (data : ℕ → UInt8) (size capacity : UInt64)
    (calls : List DecoderCall) (final : σ) (produced : UInt64) : Prop where
  fed : ∃ turns, decoder.feed turns state data size capacity = some (final, produced)
  total : (calls.map fun call => call.produced.toNat).sum = produced.toNat
  last : ∀ call, calls.getLast? = some call → (call.result = 0 ↔ decoder.complete final = true)
  idle : calls = [] ↔ size = 0

theorem FedBy.nil (state : σ) (data : ℕ → UInt8) {size : UInt64} (capacity : UInt64)
    (empty : size = 0) : decoder.FedBy state data size capacity [] state 0 := by
  subst empty
  exact ⟨⟨0, feed_empty ..⟩, rfl, by simp, by simp⟩

/-- A step in front of a feed. -/
theorem FedBy.cons {decoder : StreamDecoder σ} {state : σ} {data : ℕ → UInt8}
    {size capacity : UInt64} (nonempty : size ≠ 0) {calls : List DecoderCall} {final : σ}
    {produced : UInt64}
    (rest : decoder.FedBy (decoder.step state data size capacity).state
      (fun index => data ((decoder.step state data size capacity).consumed.toNat + index))
      (size - (decoder.step state data size capacity).consumed)
      (capacity - (decoder.step state data size capacity).produced) calls final produced) :
    decoder.FedBy state data size capacity (decoder.call state data size capacity :: calls) final
      ((decoder.step state data size capacity).produced + produced) := by
  obtain ⟨turns, fed⟩ := rest.fed
  refine ⟨⟨turns + 1, by simp [feed, nonempty, fed]⟩, ?_, ?_, by simp [nonempty]⟩
  · have bound := decoder.feed_produced_le fed
    have head := decoder.produced_le state data size capacity
    have limit := capacity.toNat_lt
    rw [UInt64.le_iff_toNat_le] at bound head
    rw [UInt64.toNat_sub] at bound
    rw [List.map_cons, List.sum_cons, rest.total, UInt64.toNat_add]
    change (decoder.step state data size capacity).produced.toNat + _ = _
    omega
  · intro last chosen
    cases calls with
    | nil =>
      obtain rfl := Option.some.inj chosen
      have consumed := rest.idle.mp rfl
      rw [consumed] at fed
      rw [feed_empty] at fed
      obtain ⟨rfl, _⟩ := Prod.mk.inj (Option.some.inj fed)
      exact decoder.result_eq_zero_iff state data size capacity
    | cons next calls => exact rest.last last (by simpa using chosen)

/-- The last call of a feed returns zero exactly when there was input and it ended with a complete
frame. -/
theorem FedBy.ended_iff {decoder : StreamDecoder σ} {state final : σ} {data : ℕ → UInt8}
    {size capacity produced : UInt64} {calls : List DecoderCall}
    (fedBy : decoder.FedBy state data size capacity calls final produced) :
    (∃ call, calls.getLast? = some call ∧ call.result = 0) ↔
      size ≠ 0 ∧ decoder.complete final = true := by
  constructor
  · rintro ⟨call, chosen, zero⟩
    refine ⟨fun empty => ?_, (fedBy.last call chosen).mp zero⟩
    rw [fedBy.idle.mpr empty] at chosen
    contradiction
  · rintro ⟨nonempty, complete⟩
    have some : calls ≠ [] := fun none => nonempty (fedBy.idle.mp none)
    exact ⟨calls.getLast some, List.getLast?_eq_some_getLast some,
      (fedBy.last _ (List.getLast?_eq_some_getLast some)).mpr complete⟩

end StreamDecoder

end ZLoader
