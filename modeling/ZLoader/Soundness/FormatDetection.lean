import ZLoader.Soundness.BufferReads
import ZLoader.Soundness.HeaderBounds
import ZLoader.Soundness.StreamEnd

/-! # Detecting the format of a kernel

The magic numbers are read at the cursor before any look at how much of the input is left there.
What `PE_header` reads behind its first two bytes is checked against the length, and an offset that
it returns is one of a signature with whole headers behind it.
-/

namespace ZLoader

/-- The window of the input that an event reads. -/
def CodecEvent.inputRead? : CodecEvent → Option Window
  | .readInput window => some window
  | _ => none

/-- What the decompression itself reads of its input. -/
def inputReads (trace : List CodecEvent) : List Window := trace.filterMap CodecEvent.inputRead?

@[simp] theorem inputReads_nil : inputReads [] = [] := rfl

@[simp] theorem inputReads_append (first second : List CodecEvent) :
    inputReads (first ++ second) = inputReads first ++ inputReads second :=
  List.filterMap_append

/-- The bytes of the input from its cursor on. -/
def cursorBytes (data : ByteStore) (input : SimpleBuffer) : ByteStore :=
  fun offset => data (input.pos.toNat + offset)

/-- The format detection of `decompress` and `PE_header` read inside the input, and an offset found
is that of a signed header inside of it. Offsets count from the cursor. -/
structure DetectsInside {σ τ : Type} (build : Build) (lz4 : Lz4Codec σ) (zstd : ZstdCodec τ)
    (malloc : UInt64 → UInt64) (data : ByteStore) (turns : ℕ) (input output : SimpleBuffer) :
    Prop where
  formats : ∀ window ∈ inputReads (decompress build lz4 zstd malloc data turns input output).trace,
    window.Within input.available
  header : ∀ window ∈ fileReads (peHeader build input (cursorBytes data input)).2,
    window.Within input.available
  found : ∀ peOffset, (peHeader build input (cursorBytes data input)).1 = .ok peOffset →
    peOffset ≠ 0 → (cursorBytes data input).u16 0 = mzDosSignature ∧
      (cursorBytes data input).u32 peOffset.toNat = peHeaderSignature ∧
      peOffset.toNat + sizeofPeImageHeaders ≤ input.available

/-- The number of bytes that are read at the cursor in any case. -/
def magicWidth (build : Build) : ℕ := if build.useZstd || build.useLz4 then 4 else 2

/-- Where the cursor can be looked at, `PE_header` needs two bytes behind it, and `decompress`, with
an output to fill, the magic numbers of the formats that the build knows. -/
def MagicFits (build : Build) (input output : SimpleBuffer) : Prop :=
  build.ndebug = true ∨ input.pos < input.allocated →
    2 ≤ input.available ∧
      (output.buffer = 0 ∧ output.length = 0 → magicWidth build ≤ input.available)

instance (build : Build) (input output : SimpleBuffer) : Decidable (MagicFits build input output) :=
  inferInstanceAs (Decidable (_ → _))

section Codecs

variable {σ τ : Type} {build : Build} {lz4 : Lz4Codec σ} {zstd : ZstdCodec τ}
  {malloc : UInt64 → UInt64} {data : ByteStore}

theorem inputReads_finish (result : DecompressResult) :
    inputReads result.finish.trace = inputReads result.trace := by
  rw [DecompressResult.finish]
  split
  · rfl
  · split
    · rfl
    · next release _ =>
      cases release with
      | freeSimpleBuffer =>
        rw [inputReads_append, releaseEvents]
        split_ifs <;> exact List.append_nil _
      | freeAlignedBuffer => exact congrArg inputReads (List.append_nil _)
  · rfl

/-- The loops leave the input to the libraries. -/
theorem inputReads_decompressLz4Loop (turns : ℕ) (state : σ) (input output : SimpleBuffer)
    (trace : List CodecEvent) :
    inputReads (decompressLz4Loop build lz4 data turns state input output trace).trace =
      inputReads trace :=
  decompressLz4Loop_silent (fun _ => rfl) turns state input output trace

theorem inputReads_decompressZstdLoop (turns : ℕ) (state : τ) (input output : SimpleBuffer)
    (trace : List CodecEvent) :
    inputReads (decompressZstdLoop zstd data turns state input output trace).trace =
      inputReads trace :=
  decompressZstdLoop_silent (fun _ => rfl) turns state input output trace

theorem inputReads_decompressLz4 (turns : ℕ) (input output : SimpleBuffer) :
    inputReads (decompressLz4 build lz4 malloc data turns input output).trace = [] := by
  rw [decompressLz4]
  split_ifs with context
  · rfl
  · split
    · dsimp only
      split_ifs with header size
      · rw [inputReads_finish, inputReads_nil]
      · rw [inputReads_finish, inputReads_nil]
      · rw [allocateSimpleBuffer_eq]
        split_ifs with failed
        · exact inputReads_finish _
        · dsimp only
          rw [inputReads_finish, inputReads_decompressLz4Loop]
          rfl
    · rfl

theorem inputReads_decompressZstd (turns : ℕ) (input output : SimpleBuffer) :
    inputReads (decompressZstd build zstd malloc data turns input output).trace = [] := by
  rw [decompressZstd]
  split
  · dsimp only
    split_ifs with unsized
    · rfl
    · rw [allocateSimpleBuffer_eq]
      split_ifs with failed
      · rfl
      · dsimp only
        split
        · rfl
        · rw [inputReads_finish, inputReads_decompressZstdLoop]
          rfl
  · rfl

end Codecs

/-- Reads of the file are reads of the input, in the same order. -/
theorem inputReads_ofLoaderEvent (reads : List Event) :
    inputReads (reads.filterMap CodecEvent.ofLoaderEvent?) = fileReads reads := by
  rw [inputReads, fileReads, List.filterMap_filterMap]
  congr 1
  funext event
  cases event <;> rfl

/-- The reads of the magic numbers need four bytes if there are any. -/
theorem inputReads_magicReads (build : Build) (data : ByteStore) (input : SimpleBuffer)
    (limit : ℕ) :
    (∀ window ∈ inputReads (magicReads build data input), window.Within limit) ↔
      ((build.useZstd || build.useLz4) = true → 4 ≤ limit) := by
  have magic : (∀ window ∈ [Window.mk 0 4], window.Within limit) ↔ 4 ≤ limit := by
    simp [Window.within_iff_of_pos]
  rw [magicReads, inputReads_append]
  cases zstd : build.useZstd with
  | true =>
    simp only [if_true, Bool.true_or, forall_const, List.forall_mem_append]
    split_ifs
    · exact ⟨fun within => magic.mp within.1, fun long => ⟨magic.mpr long, magic.mpr long⟩⟩
    · exact ⟨fun within => magic.mp within.1, fun long => ⟨magic.mpr long, by simp⟩⟩
  | false =>
    have other : kernelFormat build data input ≠ .zstd := by
      rw [kernelFormat, zstd]
      split_ifs <;> simp_all
    cases lz4 : build.useLz4 with
    | true => simpa [other, inputReads, CodecEvent.inputRead?] using magic
    | false => simp

section Detection

variable {σ τ : Type} {build : Build} {lz4 : Lz4Codec σ} {zstd : ZstdCodec τ}
  {malloc : UInt64 → UInt64} {data : ByteStore} {turns : ℕ} {input output : SimpleBuffer}

/-- What `decompress` reads once it has got to the cursor. -/
theorem inputReads_decompress {cursor : UInt64} (position : bufferPos build input = .ok cursor)
    (nonnull : input.buffer ≠ 0) (nonempty : input.length ≠ 0)
    (unused : output.buffer = 0 ∧ output.length = 0) :
    inputReads (decompress build lz4 zstd malloc data turns input output).trace =
      inputReads (magicReads build data input) ++
        if kernelFormat build data input = .other then
          fileReads (peHeader build input (cursorBytes data input)).2 else [] := by
  rw [decompress, if_neg (by simp [nonnull, nonempty]), if_neg (by simp [unused.1, unused.2]),
    position]
  dsimp only [DecompressResult.prepend]
  rw [inputReads_append]
  congr 1
  cases kernelFormat build data input with
  | zstd => exact inputReads_decompressZstd turns input output
  | lz4 => exact inputReads_decompressLz4 turns input output
  | other =>
    have bytes : cursorBytes data input = fun offset => data (input.pos.toNat + offset) := rfl
    rw [bytes]
    rcases peHeader build input fun offset => data (input.pos.toNat + offset) with
      ⟨outcome, reads⟩
    rw [if_pos rfl, ← inputReads_ofLoaderEvent reads]
    cases outcome with
    | ok peOffset =>
      dsimp only
      split_ifs <;> rfl
    | error status => rfl
    | assertionFailed assertion => rfl

/-- Without a readable cursor, or an output to fill, `decompress` reads nothing. -/
theorem inputReads_decompress_unread
    (unread : bufferPos build input = .assertionFailed .bufferAccessor ∨
      ¬ (output.buffer = 0 ∧ output.length = 0)) :
    inputReads (decompress build lz4 zstd malloc data turns input output).trace = [] := by
  rw [decompress]
  split_ifs with invalid used
  · rfl
  · rfl
  · rcases unread with aborted | busy
    · rw [aborted]
      rfl
    · simp only [bne_iff_ne, ne_eq, Bool.or_eq_true, not_or, Decidable.not_not] at used
      exact absurd used busy

/-- An offset that `PE_header` finds is one of signed headers inside the input. -/
theorem peHeader_inside {file : ByteStore} {length peOffset : UInt64}
    (known : bufferLen build input = .ok length)
    (found : (peHeader build input file).1 = .ok peOffset) (nonzero : peOffset ≠ 0) :
    file.u16 0 = mzDosSignature ∧ file.u32 peOffset.toNat = peHeaderSignature ∧
      peOffset.toNat + sizeofPeImageHeaders ≤ length.toNat := by
  have inside := peHeader_found known found nonzero
  obtain ⟨magic, rfl, signature⟩ := peHeader_signed found nonzero
  rw [UInt32.toNat_toUInt64] at inside ⊢
  exact ⟨magic, signature, Nat.le_of_lt inside⟩

/-- With two bytes behind the cursor `decompress` stays inside the input exactly when the magic
numbers that it looks at do. -/
theorem decompress_reads_iff (reached : headersReached build input = true)
    (two : 2 ≤ input.available) (nonempty : input.length ≠ 0) :
    (∀ window ∈ inputReads (decompress build lz4 zstd malloc data turns input output).trace,
        window.Within input.available) ↔
      (output.buffer = 0 ∧ output.length = 0 → magicWidth build ≤ input.available) := by
  obtain ⟨nonnull, position, -, -⟩ := headersReached_iff.mp reached
  have header := (peHeader_reads (cursorBytes data input) reached).mpr two
  by_cases unused : output.buffer = 0 ∧ output.length = 0
  · rw [imp_iff_right unused, inputReads_decompress position nonnull nonempty unused,
      List.forall_mem_append, inputReads_magicReads, magicWidth, and_iff_left]
    · split_ifs with magic
      · exact imp_iff_right magic
      · exact iff_of_true (fun known => absurd known magic) two
    · split_ifs
      · exact header
      · exact List.forall_mem_nil _
  · rw [inputReads_decompress_unread (.inr unused)]
    exact iff_of_true (List.forall_mem_nil _) fun free => absurd free unused

/-- The detection stays inside the input exactly when the magic numbers do. -/
theorem detectsInside_iff (nonnull : input.buffer ≠ 0) (more : input.pos < input.length) :
    DetectsInside build lz4 zstd malloc data turns input output ↔ MagicFits build input output := by
  have known := bufferLen_of_lt build nonnull more
  have left : 0 < input.available := Nat.sub_pos_of_lt (UInt64.lt_iff_toNat_lt.mp more)
  have nonempty : input.length ≠ 0 :=
    UInt64.pos_iff_ne_zero.mp (UInt64.lt_of_le_of_lt UInt64.zero_le more)
  have found : ∀ peOffset, (peHeader build input (cursorBytes data input)).1 = .ok peOffset →
      peOffset ≠ 0 → (cursorBytes data input).u16 0 = mzDosSignature ∧
        (cursorBytes data input).u32 peOffset.toNat = peHeaderSignature ∧
        peOffset.toNat + sizeofPeImageHeaders ≤ input.available := by
    intro peOffset some nonzero
    rw [← available_eq left]
    exact peHeader_inside known some nonzero
  by_cases held : build.ndebug = true ∨ input.pos < input.allocated
  · have position : bufferPos build input = .ok (input.buffer + input.pos) := by
      rcases held with quiet | room
      · exact bufferPos_of_ndebug quiet input
      · exact bufferPos_of_lt build nonnull room
    have reached : headersReached build input = true :=
      headersReached_iff.mpr ⟨nonnull, position, known, cursor_before_end more⟩
    have header := peHeader_reads (cursorBytes data input) reached
    rw [MagicFits, imp_iff_right held]
    constructor
    · intro inside
      have two := header.mp inside.header
      exact ⟨two, (decompress_reads_iff reached two nonempty).mp inside.formats⟩
    · rintro ⟨two, width⟩
      exact ⟨(decompress_reads_iff reached two nonempty).mpr width, header.mpr two, found⟩
  · obtain ⟨asserts, full⟩ := not_or.mp held
    have aborted := bufferPos_of_not_lt (Bool.not_eq_true _ ▸ asserts) full
    refine iff_of_true ⟨?_, ?_, found⟩ fun reached => absurd reached held
    · rw [inputReads_decompress_unread (.inl aborted)]
      simp
    · rw [peHeader, aborted]
      simp

end Detection

theorem detectsInside_smallStream :
    DetectsInside defaultBuild (smallLz4 true) smallZstd smallMalloc smallStream 1 smallInput
      emptyBuffer :=
  (detectsInside_iff (by decide) (by decide)).mpr (by decide)

/-- In a file of one byte the magic number is read over the end. -/
theorem not_detectsInside_oneByte :
    ¬ DetectsInside defaultBuild (smallLz4 true) smallZstd smallMalloc (fun _ => 0) 1
      (smallBuffer 1) emptyBuffer := by
  intro inside
  exact absurd (inside.formats ⟨0, 4⟩ (by decide)) (by decide)

end ZLoader
