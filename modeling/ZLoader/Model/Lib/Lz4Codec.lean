import ZLoader.Model.Decompress
import ZLoader.Model.Lib.Lz4Frame

/-! # The frame decoder behind `decompress_lz4`

The library in `lib/lz4` as the codec that `decompress_lz4` calls. Input, output and context stand
in one memory; what the caller offers stands behind what has been taken, and what it gets behind
what has been given.
-/

namespace ZLoader

/-- How the library is built, where the input, the output and the context stand, what `ALLOC`
returns for a size, and the memory. -/
structure Lz4fSetting where
  fastDecLoop : Bool
  source : ℕ
  dest : ℕ
  context : ℕ
  alloc : ℕ → ℕ
  memory : ByteStore

/-- A context between two calls, how much has been taken and given, and whether the last call has
returned zero. -/
structure Lz4fSession where
  dctx : Lz4fDctx
  memory : ByteStore
  taken : ℕ
  given : ℕ
  ended : Bool

section Codec

variable (setting : Lz4fSetting)

/-- The memory with the rest of the input. -/
def Lz4fSession.offered (session : Lz4fSession) (data : ByteStore) (size : ℕ) : ByteStore :=
  (Patch.copy (setting.source + session.taken) size data 0).apply session.memory

/-- The arguments of a call; `decompress_lz4` gives no options. -/
def Lz4fSession.call (session : Lz4fSession) (size capacity : ℕ) : Lz4fCall :=
  ⟨setting.fastDecLoop, setting.dest + session.given, capacity, setting.source + session.taken, size,
    false, setting.alloc⟩

def lz4fNewSession : Lz4fSession :=
  ⟨lz4fNewContext setting.context, setting.memory, 0, 0, false⟩

/-- `LZ4F_createDecompressionContext` and `LZ4F_getFrameInfo`. -/
def lz4fStart (data : ByteStore) (size : UInt64) : Lz4FrameInfo Lz4fSession :=
  let session := lz4fNewSession setting
  match lz4fGetFrameInfo (session.call setting size.toNat 0) .zero session.dctx
      (session.offered setting data size.toNat) with
  | none => ⟨session, 0, 0, lz4fErr0r .generic⟩
  | some reply =>
      let consumed := min reply.srcSize size.toNat
      ⟨⟨reply.st.dctx, reply.st.memory, consumed, 0, false⟩, UInt64.ofNat consumed,
        reply.frameInfo.contentSize, reply.result⟩

/-- `LZ4F_decompress`. -/
def lz4fStep (session : Lz4fSession) (data : ByteStore) (size capacity : UInt64) :
    DecoderReply Lz4fSession :=
  match lz4fDecompress (session.call setting size.toNat capacity.toNat) session.dctx
      (session.offered setting data size.toNat) with
  | none => ⟨{ session with ended := false }, 0, 0, lz4fErr0r .generic⟩
  | some reply =>
      let consumed := min reply.srcSize size.toNat
      let produced := min reply.dstSize capacity.toNat
      ⟨⟨reply.st.dctx, reply.st.memory, session.taken + consumed, session.given + produced,
        reply.result == 0⟩, UInt64.ofNat consumed, UInt64.ofNat produced, reply.result⟩

/-- A number that does not exceed another one. -/
theorem ofNat_min_le (count : ℕ) (bound : UInt64) : UInt64.ofNat (min count bound.toNat) ≤ bound := by
  have limit := bound.toNat_lt
  rw [UInt64.le_iff_toNat_le, UInt64.toNat_ofNat_of_lt' (Nat.lt_of_le_of_lt (Nat.min_le_right ..) limit)]
  exact Nat.min_le_right ..

/-- The codec. Its replies keep the contract whatever the library returns. -/
def lz4fCodec : Lz4Codec Lz4fSession where
  createDecompressionContext :=
    match (lz4fCreateDecompressionContext setting.context).1 with
    | .ok _ => 0
    | .error code => lz4fErr0r code
  getFrameInfo := lz4fStart setting
  decoder :=
    { step := lz4fStep setting
      complete := Lz4fSession.ended
      consumed_le := fun session data size capacity => by
        rw [lz4fStep]
        split
        · exact UInt64.zero_le
        · exact ofNat_min_le _ size
      produced_le := fun session data size capacity => by
        rw [lz4fStep]
        split
        · exact UInt64.zero_le
        · exact ofNat_min_le _ capacity
      result_eq_zero_iff := fun session data size capacity => by
        rw [lz4fStep]
        split
        · exact iff_of_false (show lz4fErr0r .generic ≠ 0 by decide) Bool.false_ne_true
        · exact beq_iff_eq.symm }
  isError := lz4fIsError
  consumed_le := fun data size => by
    rw [lz4fStart]
    dsimp only
    split
    · exact UInt64.zero_le
    · exact ofNat_min_le _ size

end Codec

end ZLoader
