import Mathlib.Algebra.Group.Nat.Defs
import Mathlib.Tactic.Common
import ZLoader.Model.Lib.Clock

/-! # The monotonic clock

The microseconds of a reading are the ticks times a million, divided by the ticks of a second. The
product wraps, and the stall gives the ticks of a microsecond: on that branch the result is right
only as long as it is zero.
-/

namespace ZLoader

/-- The frequency that the measurement determines, in ticks a second. -/
def Measurement.hertz (measured : Measurement) : ℕ :=
  match measured.arch with
  | .aarch64 => measured.cntfrq.toNat
  | _ => 2000 * measured.stallTicks.toNat

/-- The microseconds of a reading. -/
def Measurement.usecs (measured : Measurement) (counter : UInt64) : UInt64 :=
  monotonicTimeUsec measured.arch (ticksFreq measured) counter

/-- The clock works up to a reading: there is a frequency to divide by, and all readings so far are
turned into whole microseconds, in their order. -/
structure ClockWorks (measured : Measurement) (last : UInt64) : Prop where
  divides : (initializeClock measured).isSome
  value : ∀ t ≤ last, (measured.usecs t).toNat =
    (ticksRead measured.arch t).toNat * 1000000 / measured.hertz
  monotone : ∀ early late, early ≤ late → late ≤ last → measured.usecs early ≤ measured.usecs late

/-- A frequency in hertz and a product that does not wrap, or a stall of at least 500 ticks and no
whole microsecond yet. -/
def Measurement.InRange (measured : Measurement) (last : UInt64) : Prop :=
  match measured.arch with
  | .aarch64 => measured.cntfrq ≠ 0 ∧ 1000000 * last.toNat < 2 ^ 64
  | _ => 500 ≤ measured.stallTicks.toNat ∧ 1000000 * last.toNat < measured.stallTicks.toNat / 500

theorem initializeClock_isSome (measured : Measurement) :
    (initializeClock measured).isSome ↔ ticksFreq measured ≠ 0 := by
  simp only [initializeClock, beq_iff_eq]
  split_ifs with zero
  · simp [zero]
  · simp [zero]

/-- What is computed, without the guards: both agree with the division. -/
theorem usecs_toNat (measured : Measurement) (counter : UInt64) :
    (measured.usecs counter).toNat =
      (1000000 * (ticksRead measured.arch counter).toNat) % 2 ^ 64 / (ticksFreq measured).toNat := by
  simp only [Measurement.usecs, monotonicTimeUsec, beq_iff_eq]
  split_ifs with ticks freq
  · simp [ticks]
  · simp [freq]
  · rw [UInt64.toNat_div, UInt64.toNat_mul]
    rfl

/-- A product that wraps loses at least a unit of the quotient. -/
theorem wrapped_div_lt {product divisor : ℕ} (positive : 0 < divisor) (small : divisor < 2 ^ 64)
    (wraps : 2 ^ 64 ≤ product) : product % 2 ^ 64 / divisor < product / divisor := by
  have split := Nat.mod_add_div product (2 ^ 64)
  have many : 1 ≤ product / 2 ^ 64 := (Nat.one_le_div_iff (by decide)).mpr wraps
  have enough : product % 2 ^ 64 + divisor ≤ product := by
    have : 2 ^ 64 ≤ 2 ^ 64 * (product / 2 ^ 64) := Nat.le_mul_of_pos_right _ many
    omega
  calc product % 2 ^ 64 / divisor
      < product % 2 ^ 64 / divisor + 1 := Nat.lt_succ_self _
    _ = (product % 2 ^ 64 + divisor) / divisor := (Nat.add_div_right _ positive).symm
    _ ≤ product / divisor := Nat.div_le_div_right enough

section Works

variable {measured : Measurement} {last : UInt64}

/-- Values that are right are in order. -/
theorem ClockWorks.of_value (divides : (initializeClock measured).isSome)
    (value : ∀ t ≤ last, (measured.usecs t).toNat =
      (ticksRead measured.arch t).toNat * 1000000 / measured.hertz) :
    ClockWorks measured last := by
  refine ⟨divides, value, fun early late ordered bound => ?_⟩
  have read : (ticksRead measured.arch early).toNat ≤ (ticksRead measured.arch late).toNat := by
    cases measured.arch with
    | x86_64 | i386 | aarch64 => exact UInt64.le_iff_toNat_le.mp ordered
    | other => exact Nat.le_refl _
  rw [UInt64.le_iff_toNat_le, value early (UInt64.le_trans ordered bound), value late bound]
  exact Nat.div_le_div_right (Nat.mul_le_mul_right _ read)

/-- The branch with a frequency in hertz. -/
theorem clockWorks_aarch64 (arch : measured.arch = .aarch64) :
    ClockWorks measured last ↔ measured.cntfrq ≠ 0 ∧ 1000000 * last.toNat < 2 ^ 64 := by
  have freq : ticksFreq measured = measured.cntfrq := by rw [ticksFreq, arch]
  have hertz : measured.hertz = measured.cntfrq.toNat := by rw [Measurement.hertz, arch]
  have read : ∀ t, ticksRead measured.arch t = t := fun t => by rw [arch]; rfl
  constructor
  · intro works
    have nonzero := (initializeClock_isSome measured).mp works.divides
    rw [freq] at nonzero
    refine ⟨nonzero, Nat.not_le.mp fun wraps => ?_⟩
    have value := works.value last (UInt64.le_refl last)
    rw [usecs_toNat, read, freq, hertz, Nat.mul_comm last.toNat] at value
    have positive : 0 < measured.cntfrq.toNat := Nat.pos_of_ne_zero fun zero =>
      nonzero (UInt64.toNat_inj.mp zero)
    exact Nat.ne_of_lt (wrapped_div_lt positive measured.cntfrq.toNat_lt wraps) value
  · rintro ⟨nonzero, fits⟩
    refine .of_value ((initializeClock_isSome measured).mpr (freq ▸ nonzero)) fun t before => ?_
    have bound := UInt64.le_iff_toNat_le.mp before
    rw [usecs_toNat, read, freq, hertz, Nat.mul_comm t.toNat, Nat.mod_eq_of_lt (by omega)]

theorem ticksFreq_stall (arch : measured.arch ≠ .aarch64) :
    (ticksFreq measured).toNat = measured.stallTicks.toNat / 500 := by
  have freq : ticksFreq measured = measured.stallTicks / 500 := by
    rw [ticksFreq]
    cases same : measured.arch with
    | x86_64 | i386 | other => rfl
    | aarch64 => exact absurd same arch
  rw [freq, UInt64.toNat_div]
  rfl

theorem hertz_stall (arch : measured.arch ≠ .aarch64) :
    measured.hertz = 2000 * measured.stallTicks.toNat := by
  rw [Measurement.hertz]
  cases same : measured.arch with
  | x86_64 | i386 | other => rfl
  | aarch64 => exact absurd same arch

/-- A stall that some ticks passed in was measured with a counter. -/
theorem ticksRead_of_stallTicks (some : measured.stallTicks.toNat ≠ 0) (counter : UInt64) :
    ticksRead measured.arch counter = counter := by
  cases same : measured.arch with
  | x86_64 | i386 | aarch64 => rfl
  | other =>
    rw [Measurement.stallTicks, same] at some
    exact absurd (rfl : (0 - 0 : UInt64).toNat = 0) some

/-- A quotient by the ticks of a microsecond is too large as soon as it is positive. -/
theorem stall_value_lt {t stall : ℕ} (ticks : 500 ≤ stall) (reached : stall / 500 ≤ 1000000 * t) :
    t * 1000000 / (2000 * stall) < 1000000 * t / (stall / 500) := by
  have positive : 0 < stall / 500 := Nat.div_pos ticks (by decide)
  have one : 1 ≤ 1000000 * t / (stall / 500) := (Nat.one_le_div_iff positive).mpr reached
  have multiple : 1000000 * (t / (stall / 500)) ≤ 1000000 * t / (stall / 500) :=
    Nat.mul_div_le_mul_div_assoc ..
  have right : t * 1000000 / (2000 * stall) ≤ t / (stall / 500) := by
    calc t * 1000000 / (2000 * stall)
        ≤ t * 1000000 / (stall / 500 * 1000000) := by
          refine Nat.div_le_div_left ?_ (Nat.mul_pos positive (by decide))
          omega
      _ = t / (stall / 500) := Nat.mul_div_mul_right _ _ (by decide)
  omega

/-- The branch with the ticks of a microsecond. -/
theorem clockWorks_stall (arch : measured.arch ≠ .aarch64) :
    ClockWorks measured last ↔ 500 ≤ measured.stallTicks.toNat ∧
      1000000 * last.toNat < measured.stallTicks.toNat / 500 := by
  have freq := ticksFreq_stall arch
  have hertz := hertz_stall arch
  have small := measured.stallTicks.toNat_lt
  constructor
  · intro works
    have nonzero := (initializeClock_isSome measured).mp works.divides
    have ticks : 500 ≤ measured.stallTicks.toNat := by
      apply Nat.le_of_not_lt
      intro few
      apply nonzero
      rw [← UInt64.toNat_inj, freq]
      exact Nat.div_eq_of_lt few
    refine ⟨ticks, Nat.not_le.mp fun reached => ?_⟩
    -- the first reading whose product is a tick count of a microsecond
    have first : UInt64.ofNat ((measured.stallTicks.toNat / 500 + 999999) / 1000000) ≤ last := by
      rw [UInt64.le_iff_toNat_le, UInt64.toNat_ofNat_of_lt' (by simp only [UInt64.size]; omega)]
      omega
    have value := works.value _ first
    rw [usecs_toNat, ticksRead_of_stallTicks (by omega), freq, hertz,
      UInt64.toNat_ofNat_of_lt' (by simp only [UInt64.size]; omega),
      Nat.mod_eq_of_lt (by omega)] at value
    exact Nat.ne_of_gt (stall_value_lt ticks (by omega)) value
  · rintro ⟨ticks, before⟩
    have positive : 0 < measured.stallTicks.toNat / 500 := Nat.div_pos ticks (by decide)
    have nonzero : ticksFreq measured ≠ 0 := by
      rw [ne_eq, ← UInt64.toNat_inj, freq]
      exact Nat.ne_of_gt positive
    refine .of_value ((initializeClock_isSome measured).mpr nonzero) fun t early => ?_
    have bound := UInt64.le_iff_toNat_le.mp early
    rw [usecs_toNat, ticksRead_of_stallTicks (by omega), freq, hertz, Nat.mod_eq_of_lt (by omega),
      Nat.div_eq_of_lt (by omega), Nat.div_eq_of_lt (by omega)]

end Works

/-- The clock works up to a reading exactly where it is in range. -/
theorem clockWorks_iff (measured : Measurement) (last : UInt64) :
    ClockWorks measured last ↔ measured.InRange last := by
  rw [Measurement.InRange]
  cases arch : measured.arch with
  | aarch64 => exact clockWorks_aarch64 arch
  | x86_64 | i386 | other => exact clockWorks_stall (by rw [arch]; decide)

/-- At three gigahertz the first second is given as a million seconds. -/
theorem not_clockWorks_three_gigahertz :
    ¬ ClockWorks ⟨.x86_64, 0, 0, 1500000, 0⟩ 3000000000 := by
  intro works
  have value := works.value 3000000000 (UInt64.le_refl _)
  revert value
  decide

end ZLoader
