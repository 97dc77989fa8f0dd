import ZLoader.Foundation.ByteStore
import ZLoader.Model.Efi.Status

/-! # Memory

`malloc`, `free`, `memcpy` and `memmove` of `efilib/efirtlib.c`, without `EFILIB_USE_EFI_COPY_MEM`.
The store is the memory of the program by address.
-/

namespace ZLoader

/-- The boot services for pool memory: what they answer, and the memory they leave. -/
structure PoolServices where
  allocatePool : ByteStore → UInt64 → EfiStatus × UInt64 × ByteStore
  freePool : ByteStore → UInt64 → ByteStore

/-- `malloc`, which returns `NULL` for an error. -/
def malloc (pool : PoolServices) (memory : ByteStore) (size : UInt64) : UInt64 × ByteStore :=
  let (err, ptr, memory) := pool.allocatePool memory size
  if efiError err then (0, memory) else (ptr, memory)

/-- The loop of `memcpy` with the bytes that are left. -/
def memcpyLoop : ℕ → UInt64 → UInt64 → ByteStore → ByteStore
  | 0, _, _, memory => memory
  | size + 1, d, s, memory =>
      memcpyLoop size (d + 1) (s + 1) (Function.update memory d.toNat (memory s.toNat))

/-- `memcpy`: the pointer returned, and the memory. -/
def memcpy (memory : ByteStore) (dst src size : UInt64) : UInt64 × ByteStore :=
  (dst, memcpyLoop size.toNat dst src memory)

/-- `memmove`; the assertion is made with `EFILIB_DEBUG`. -/
def memmove (debug : Bool) (pool : PoolServices) (memory : ByteStore) (dst src size : UInt64) :
    Outcome (UInt64 × ByteStore) :=
  if dst + size < src || src + size < dst then .ok (memcpy memory dst src size)
  else
    let (tmp, memory) := malloc pool memory size
    if debug && tmp == 0 then .assertionFailed .other
    else
      let (_, memory) := memcpy memory tmp src size
      let (_, memory) := memcpy memory dst tmp size
      .ok (dst, pool.freePool memory tmp)

end ZLoader
