import Mathlib.Data.Nat.Notation

/-! # The clock

The clock of `efilib/efilib.c`: a counter of the processor, its frequency as `initialize_library`
measures it, and the microseconds that `monotonic_time_usec` makes of them.
-/

namespace ZLoader

/-- The architectures that the conditional compilation tells apart. -/
inductive Architecture where
  | x86_64
  | i386
  | aarch64
  | other
deriving DecidableEq, Repr

/-- What the instructions answer while the frequency is determined: the counter when the library is
entered and around the stall of 500 microseconds, and `cntfrq_el0`. -/
structure Measurement where
  arch : Architecture
  atEntry : UInt64
  beforeStall : UInt64
  afterStall : UInt64
  cntfrq : UInt64

/-- `ticks_read`, where the counter has a value. -/
def ticksRead (arch : Architecture) (counter : UInt64) : UInt64 :=
  match arch with
  | .x86_64 | .i386 | .aarch64 => counter
  | .other => 0

/-- The ticks of the counter that the stall took. -/
def Measurement.stallTicks (measured : Measurement) : UInt64 :=
  ticksRead measured.arch measured.afterStall - ticksRead measured.arch measured.beforeStall

/-- `ticks_freq`. -/
def ticksFreq (measured : Measurement) : UInt64 :=
  match measured.arch with
  | .aarch64 => measured.cntfrq
  | _ => measured.stallTicks / 500

/-- `freq` and `BOOT_TIME_USECS`. -/
structure Clock where
  freq : UInt64
  bootTimeUsecs : UInt64
deriving DecidableEq, Repr

/-- The division that sets `BOOT_TIME_USECS` in `initialize_library`; there is no result when it is
by zero. -/
def initializeClock (measured : Measurement) : Option Clock :=
  let freq := ticksFreq measured
  if freq == 0 then none
  else some ⟨freq, 1000000 * ticksRead measured.arch measured.atEntry / freq⟩

/-- `monotonic_time_usec`. -/
def monotonicTimeUsec (arch : Architecture) (freq counter : UInt64) : UInt64 :=
  let ticks := ticksRead arch counter
  if ticks == 0 then 0
  else if freq == 0 then 0
  else 1000000 * ticks / freq

end ZLoader
