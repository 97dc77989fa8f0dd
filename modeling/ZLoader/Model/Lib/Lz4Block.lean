import ZLoader.Foundation.LittleEndian

/-! # Decoding an LZ4 block

`LZ4_decompress_generic` of `lib/lz4/lz4.c` with the directives that `LZ4_decompress_safe_usingDict`
gives it: the end of the input ends the block, and all of it is decoded. Pointers are addresses in
one memory, and every window that is read or written is recorded. A turn of either loop ends in one
of the loops, or the block; `memmove` copies.
-/

namespace ZLoader

/-- `dict_directive`. -/
inductive DictDirective where
  | noDict
  | withPrefix64k
  | usingExtDict
deriving DecidableEq, Repr

/-- The arguments of a call; `fastDecLoop` is `LZ4_FAST_DEC_LOOP`. -/
structure Lz4Call where
  fastDecLoop : Bool
  src : ℕ
  dst : ℕ
  srcSize : ℕ
  outputSize : ℕ
  dict : DictDirective
  lowPrefix : ℕ
  dictStart : ℕ
  dictSize : ℕ
deriving DecidableEq, Repr

namespace Lz4Call

variable (call : Lz4Call)

def iend : ℕ := call.src + call.srcSize

def oend : ℕ := call.dst + call.outputSize

def dictEnd : ℕ := if call.dictStart = 0 then 0 else call.dictStart + call.dictSize

def checkOffset : Bool := call.dictSize < 65536

end Lz4Call

/-- The two cursors, the memory, and the windows that have been read and written. -/
structure Lz4State where
  memory : ByteStore
  ip : ℕ
  op : ℕ
  reads : List Window
  writes : List Window

/-- What follows a turn. -/
inductive Lz4Turn where
  | fast (st : Lz4State)
  | safe (st : Lz4State)
  | finished (st : Lz4State)
  | failed (st : Lz4State)

/-- `match = op - offset`, and other sums of pointers and sizes that may wrap around. -/
def lz4Match (op offset : ℕ) : ℕ := (op + 2 ^ 64 - offset) % 2 ^ 64

/-- `(uptrval)(p)+length<(uptrval)(p)`. -/
def lz4Overflows (p length : ℕ) : Bool := (p + length) % 2 ^ 64 < p

/-! ## Memory -/

namespace Lz4State

/-- `LZ4_memcpy`. -/
def copy (st : Lz4State) (d s size : ℕ) : Lz4State :=
  { st with
    memory := (Patch.copy d size st.memory s).apply st.memory
    reads := ⟨s, size⟩ :: st.reads
    writes := ⟨d, size⟩ :: st.writes }

/-- Bytes from a local variable. -/
def store (st : Lz4State) (d size : ℕ) (bytes : ℕ → UInt8) : Lz4State :=
  { st with
    memory := Patch.apply ⟨⟨d, size⟩, bytes⟩ st.memory
    writes := ⟨d, size⟩ :: st.writes }

/-- A load into a local variable. -/
def load (st : Lz4State) (s size : ℕ) : Lz4State := { st with reads := ⟨s, size⟩ :: st.reads }

/-- The next byte of the input. -/
def next (st : Lz4State) : UInt8 × Lz4State :=
  (st.memory st.ip, { st.load st.ip 1 with ip := st.ip + 1 })

/-- `LZ4_readLE16` of the offset, and the step over it. -/
def readOffset (st : Lz4State) : ℕ × Lz4State :=
  ((st.memory.u16 st.ip).toNat, { st.load st.ip 2 with ip := st.ip + 2 })

/-- The literals, and both cursors behind them. -/
def advance (st : Lz4State) (length : ℕ) : Lz4State :=
  { st with ip := st.ip + length, op := st.op + length }

def skip (st : Lz4State) (length : ℕ) : Lz4State := { st with op := st.op + length }

end Lz4State

/-- `LZ4_wildCopy8`. -/
def lz4WildCopy8 (st : Lz4State) (d s e : ℕ) : Lz4State :=
  let st := st.copy d s 8
  if d + 8 < e then lz4WildCopy8 st (d + 8) (s + 8) e else st
termination_by e - d

/-- `LZ4_wildCopy32`. -/
def lz4WildCopy32 (st : Lz4State) (d s e : ℕ) : Lz4State :=
  let st := (st.copy d s 16).copy (d + 16) (s + 16) 16
  if d + 32 < e then lz4WildCopy32 st (d + 32) (s + 32) e else st
termination_by e - d

/-- A loop that copies byte by byte. -/
def lz4ByteCopy (st : Lz4State) (d s : ℕ) : ℕ → Lz4State
  | 0 => st
  | count + 1 => lz4ByteCopy (st.copy d s 1) (d + 1) (s + 1) count

def inc32table : List ℕ := [0, 1, 2, 1, 0, 4, 4, 4]

def dec64table : List ℤ := [0, 0, 0, -1, -4, 1, 2, 3]

/-- The first eight bytes of a match that lies less than eight bytes back. -/
def lz4CopyClose (st : Lz4State) (op from_ offset : ℕ) : Lz4State :=
  let st := st.store op 4 fun _ => 0
  let st := lz4ByteCopy st op from_ 4
  st.copy (op + 4) (from_ + inc32table.getD offset 0) 4

/-- Where a match goes on behind them. -/
def lz4CloseNext (from_ offset : ℕ) : ℕ :=
  ((from_ + inc32table.getD offset 0 : ℕ) - dec64table.getD offset 0).toNat

/-- `LZ4_memcpy_using_offset_base`. -/
def lz4MemcpyUsingOffsetBase (st : Lz4State) (dstPtr srcPtr dstEnd offset : ℕ) : Lz4State :=
  if offset < 8 then
    lz4WildCopy8 (lz4CopyClose st dstPtr srcPtr offset) (dstPtr + 8) (lz4CloseNext srcPtr offset)
      dstEnd
  else lz4WildCopy8 (st.copy dstPtr srcPtr 8) (dstPtr + 8) (srcPtr + 8) dstEnd

/-- The loop that stores `v`. -/
def lz4StoreLoop (st : Lz4State) (v : ℕ → UInt8) (dstPtr dstEnd : ℕ) : Lz4State :=
  if dstPtr < dstEnd then lz4StoreLoop (st.store dstPtr 8 v) v (dstPtr + 8) dstEnd else st
termination_by dstEnd - dstPtr

/-- `LZ4_memcpy_using_offset`. -/
def lz4MemcpyUsingOffset (st : Lz4State) (dstPtr srcPtr dstEnd offset : ℕ) : Lz4State :=
  if offset = 1 ∨ offset = 2 ∨ offset = 4 then
    let v := fun index => st.memory (srcPtr + index % offset)
    lz4StoreLoop ((st.load srcPtr offset).store dstPtr 8 v) v (dstPtr + 8) dstEnd
  else lz4MemcpyUsingOffsetBase st dstPtr srcPtr dstEnd offset

/-! ## Lengths -/

/-- `variable_length_error`. -/
inductive VariableLengthError where
  | loopError
  | initialError
  | ok
deriving DecidableEq, Repr

/-- The loop of `read_variable_length` with its check, up to `slack` bytes in front of the end. -/
def readVariableLengthLoop (iend slack : ℕ) (st : Lz4State) (length : UInt32) :
    VariableLengthError × UInt32 × Lz4State :=
  let s := st.next.1
  let length := length + s.toUInt32
  if iend ≤ st.next.2.ip + slack then (.loopError, length, st.next.2)
  else if s = 255 then readVariableLengthLoop iend slack st.next.2 length
  else (.ok, length, st.next.2)
termination_by iend - st.ip
decreasing_by
  dsimp only [Lz4State.next] at *
  omega

/-- `read_variable_length`. -/
def readVariableLength (iend slack : ℕ) (initialCheck : Bool) (st : Lz4State) :
    VariableLengthError × UInt32 × Lz4State :=
  if initialCheck && decide (iend ≤ st.ip + slack) then (.initialError, 0, st)
  else readVariableLengthLoop iend slack st 0

section Decode

variable (call : Lz4Call)

/-! ## Matches -/

/-- The match starts outside of all buffers. -/
def lz4OffsetInvalid (match_ : ℕ) : Bool :=
  call.checkOffset && decide ((match_ + call.dictSize) % 2 ^ 64 < call.lowPrefix)

/-- A match that starts in the external dictionary. -/
def lz4CopyFromDict (st : Lz4State) (match_ length : ℕ) : Lz4State :=
  let copySize := call.lowPrefix - match_
  if length ≤ copySize then (st.copy st.op (call.dictEnd - copySize) length).skip length
  else
    let restSize := length - copySize
    let st := (st.copy st.op (call.dictEnd - copySize) copySize).skip copySize
    if st.op - call.lowPrefix < restSize then
      (lz4ByteCopy st st.op call.lowPrefix restSize).skip restSize
    else (st.copy st.op call.lowPrefix restSize).skip restSize

/-- The end of `_copy_match`: the match lies in the block or its prefix. -/
def lz4CopyWithin (st : Lz4State) (match_ offset length : ℕ) : Lz4Turn :=
  let cpy := st.op + length
  let (close, next) :=
    if offset < 8 then (lz4CopyClose st st.op match_ offset, lz4CloseNext match_ offset)
    else (st.copy st.op match_ 8, match_ + 8)
  let op := st.op + 8
  if call.oend < cpy + 12 then
    if call.oend < cpy + 5 then .failed close
    else
      let oCopyLimit := call.oend - 7
      let (limited, next, op) :=
        if op < oCopyLimit then
          (lz4WildCopy8 close op next oCopyLimit, next + (oCopyLimit - op), oCopyLimit)
        else (close, next, op)
      .safe ((lz4ByteCopy limited op next (cpy - op)).skip length)
  else
    let first := close.copy op next 8
    let all := if 16 < length then lz4WildCopy8 first (op + 8) (next + 8) cpy else first
    .safe (all.skip length)

/-- The code from the label `safe_match_copy` on. -/
def lz4SafeMatchCopy (st : Lz4State) (offset length : ℕ) : Lz4Turn :=
  let match_ := lz4Match st.op offset
  if lz4OffsetInvalid call match_ then .failed st
  else if call.dict = .usingExtDict ∧ match_ < call.lowPrefix then
    if call.oend < st.op + length + 5 then .failed st
    else .safe (lz4CopyFromDict call st match_ length)
  else lz4CopyWithin call st match_ offset length

/-- The code from the label `_copy_match` on. -/
def lz4CopyMatch (st : Lz4State) (token offset : ℕ) : Lz4Turn :=
  let length := token % 16
  if length = 15 then
    let (error, more, st) := readVariableLength call.iend 4 false st
    if error ≠ .ok then .failed st
    else
      let length := length + more.toNat
      if lz4Overflows st.op length then .failed st
      else lz4SafeMatchCopy call st offset (length + 4)
  else lz4SafeMatchCopy call st offset (length + 4)

/-- The 18 bytes of the two fast paths. -/
def lz4Copy18 (st : Lz4State) (match_ : ℕ) : Lz4State :=
  ((st.copy st.op match_ 8).copy (st.op + 8) (match_ + 8) 8).copy (st.op + 16) (match_ + 16) 2

/-- A match may be copied without a look at the dictionary. -/
def lz4InPrefix (match_ : ℕ) : Bool :=
  call.dict == .withPrefix64k || decide (call.lowPrefix ≤ match_)

/-! ## The main loop -/

/-- The code from the label `safe_literal_copy` on. -/
def lz4SafeLiteralCopy (st : Lz4State) (token length : ℕ) : Lz4Turn :=
  let cpy := st.op + length
  if call.oend < cpy + 12 ∨ call.iend < st.ip + length + 8 then
    if st.ip + length ≠ call.iend ∨ call.oend < cpy then .failed st
    else .finished ((st.copy st.op st.ip length).advance length)
  else
    let st := (lz4WildCopy8 st st.op st.ip cpy).advance length
    let (offset, st) := st.readOffset
    lz4CopyMatch call st token offset

/-- The shortcut of the main loop, behind its condition. -/
def lz4Shortcut (st : Lz4State) (token : ℕ) : Lz4Turn :=
  let st := (st.copy st.op st.ip 16).advance (token / 16)
  let (offset, st) := st.readOffset
  let match_ := lz4Match st.op offset
  if token % 16 ≠ 15 ∧ 8 ≤ offset ∧ lz4InPrefix call match_ then
    .safe ((lz4Copy18 st match_).skip (token % 16 + 4))
  else lz4CopyMatch call st token offset

/-- A turn of the main loop. -/
def lz4SafeTurn (st : Lz4State) : Lz4Turn :=
  let (token, st) := st.next
  let token := token.toNat
  let length := token / 16
  if length ≠ 15 ∧ st.ip + 16 < call.iend ∧ st.op + 32 ≤ call.oend then lz4Shortcut call st token
  else if length = 15 then
    let (error, more, st) := readVariableLength call.iend 15 true st
    if error = .initialError then .failed st
    else
      let length := length + more.toNat
      if lz4Overflows st.op length then .failed st
      else if lz4Overflows st.ip length then .failed st
      else lz4SafeLiteralCopy call st token length
  else lz4SafeLiteralCopy call st token length

/-! ## The fast loop -/

/-- The end of the fast loop's body, from its last check of the offset on. -/
def lz4FastCopy (st : Lz4State) (match_ offset length : ℕ) : Lz4Turn :=
  if lz4OffsetInvalid call match_ then .failed st
  else if call.dict = .usingExtDict ∧ match_ < call.lowPrefix then
    if call.oend < st.op + length + 5 then .failed st
    else .fast (lz4CopyFromDict call st match_ length)
  else
    let cpy := st.op + length
    let copied :=
      if offset < 16 then lz4MemcpyUsingOffset st st.op match_ cpy offset
      else lz4WildCopy32 st st.op match_ cpy
    .fast (copied.skip length)

/-- The fast loop's body behind the literals. -/
def lz4FastMatch (st : Lz4State) (token : ℕ) : Lz4Turn :=
  let (offset, st) := st.readOffset
  let match_ := lz4Match st.op offset
  let length := token % 16
  if length = 15 then
    if lz4OffsetInvalid call match_ then .failed st
    else
      let (error, more, st) := readVariableLength call.iend 4 false st
      if error ≠ .ok then .failed st
      else
        let length := length + more.toNat
        if lz4Overflows st.op length then .failed st
        else
          let length := length + 4
          if call.oend ≤ st.op + length + 64 then lz4SafeMatchCopy call st offset length
          else lz4FastCopy call st match_ offset length
  else
    let length := length + 4
    if call.oend ≤ st.op + length + 64 then lz4SafeMatchCopy call st offset length
    else if lz4InPrefix call match_ ∧ 8 ≤ offset then .fast ((lz4Copy18 st match_).skip length)
    else lz4FastCopy call st match_ offset length

/-- A turn of the fast loop. -/
def lz4FastTurn (st : Lz4State) : Lz4Turn :=
  let (token, st) := st.next
  let token := token.toNat
  let length := token / 16
  if length = 15 then
    let (error, more, st) := readVariableLength call.iend 15 true st
    if error = .initialError then .failed st
    else
      let length := length + more.toNat
      if lz4Overflows st.op length then .failed st
      else if lz4Overflows st.ip length then .failed st
      else
        let cpy := st.op + length
        if call.oend < cpy + 32 ∨ call.iend < st.ip + length + 32 then
          lz4SafeLiteralCopy call st token length
        else lz4FastMatch call ((lz4WildCopy32 st st.op st.ip cpy).advance length) token
  else if call.iend < st.ip + 17 then lz4SafeLiteralCopy call st token length
  else lz4FastMatch call ((st.copy st.op st.ip 16).advance length) token

/-! ## The call -/

/-- One turn after another; every turn takes a token from the input. -/
def lz4Turns : ℕ → Lz4Turn → Lz4Turn
  | 0, turn => turn
  | turns + 1, .fast st => lz4Turns turns (lz4FastTurn call st)
  | turns + 1, .safe st => lz4Turns turns (lz4SafeTurn call st)
  | _ + 1, turn => turn

/-- How a call ends: with a value, or not within the turns that its input allows. -/
inductive Lz4Outcome where
  | returned (result : ℤ) (st : Lz4State)
  | running (st : Lz4State)

/-- `LZ4_decompress_generic`. -/
def lz4DecompressGeneric (memory : ByteStore) : Lz4Outcome :=
  let st : Lz4State := ⟨memory, call.src, call.dst, [], []⟩
  if call.src = 0 then .returned (-1) st
  else if call.outputSize = 0 then
    if call.srcSize = 1 then
      .returned (if memory call.src = 0 then 0 else -1) (st.load call.src 1)
    else .returned (-1) st
  else if call.srcSize = 0 then .returned (-1) st
  else
    let turn := if call.fastDecLoop && !decide (call.outputSize < 64) then .fast st else .safe st
    match lz4Turns call call.srcSize turn with
    | .finished st => .returned (st.op - call.dst : ℤ) st
    | .failed st => .returned (-(st.ip - call.src : ℤ) - 1) st
    | .fast st | .safe st => .running st

end Decode

/-- The arguments of `LZ4_decompress_safe_usingDict`, with those that the instances it chooses from
add to them: `LZ4_decompress_safe`, `LZ4_decompress_safe_withPrefix64k`,
`LZ4_decompress_safe_withSmallPrefix` and `LZ4_decompress_safe_forceExtDict`. -/
def lz4UsingDict (fastDecLoop : Bool) (source dest compressedSize maxOutputSize dictStart dictSize : ℕ) :
    Lz4Call :=
  let call (dict : DictDirective) (lowPrefix dictStart dictSize : ℕ) : Lz4Call :=
    ⟨fastDecLoop, source, dest, compressedSize, maxOutputSize, dict, lowPrefix, dictStart, dictSize⟩
  if dictSize = 0 then call .noDict dest 0 0
  else if dictStart + dictSize = dest then
    if 65535 ≤ dictSize then call .withPrefix64k (dest - 65536) 0 0
    else call .noDict (dest - dictSize) 0 0
  else call .usingExtDict dest dictStart dictSize

end ZLoader
