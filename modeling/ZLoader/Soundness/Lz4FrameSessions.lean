import ZLoader.Model.Lib.Lz4Codec
import ZLoader.Soundness.KernelBuffers
import ZLoader.Soundness.Lz4FrameStreams

/-! # Kernels in LZ4 frames

`decompress_lz4` offers the rest of a file and the rest of a buffer to the frame decoder, until the
file is used up. What has been taken by then is frames and a part of one, and the buffer holds what
they stand for. A stream that has been decoded to its end is frames only.
-/

namespace ZLoader

/-! ## Parts of buffers -/

section Parts

variable {whole part : Lz4fCall} {ours : Lz4fBuffers → Prop} {bufs after : Lz4fBuffers}
  {memory : ByteStore} {reply : Lz4fReply} {header : ℕ}

/-- A call on a part of the input and a part of the output of another one. -/
structure Lz4fCall.PartOf (part whole : Lz4fCall) : Prop where
  srcLow : whole.srcBuffer ≤ part.srcBuffer
  srcHigh : part.srcEnd ≤ whole.srcEnd
  dstLow : whole.dstBuffer ≤ part.dstBuffer
  dstHigh : part.dstBuffer + part.dstSize ≤ whole.dstBuffer + whole.dstSize
  alloc : part.alloc = whole.alloc
  unstable : part.stableDst = false

/-- Buffers that stand apart from all of the input and the output. -/
abbrev Lz4fCall.Hosts (whole : Lz4fCall) : Lz4fBuffers → Prop := whole.Places fun _ => True

/-- What stands apart from the whole stands apart from its parts. -/
theorem Lz4fCall.PartOf.places (within : part.PartOf whole) (hosts : whole.Hosts bufs) :
    part.Places whole.Hosts bufs where
  apart := fun a b other index first second => by
    have srcHigh := within.srcHigh
    rw [Lz4fCall.srcEnd, Lz4fCall.srcEnd] at srcHigh
    have inside (r : Lz4fRegion) (contained : (bufs.window part r).Contains index) :
        (bufs.window whole r).Contains index := by
      have srcLow := within.srcLow
      have dstLow := within.dstLow
      have dstHigh := within.dstHigh
      obtain ⟨low, high⟩ := contained
      cases r with
      | src => exact ⟨by dsimp only [Lz4fBuffers.window] at *; omega,
          by dsimp only [Lz4fBuffers.window] at *; omega⟩
      | dst => exact ⟨by dsimp only [Lz4fBuffers.window] at *; omega,
          by dsimp only [Lz4fBuffers.window] at *; omega⟩
      | header => exact ⟨low, high⟩
      | tmpIn => exact ⟨low, high⟩
      | tmpOut => exact ⟨low, high⟩
    exact hosts.apart a b other index (inside a first) (inside b second)
  gap := fun some_ => by
    have dstLow := within.dstLow
    have dstHigh := within.dstHigh
    have gap := hosts.gap some_
    omega
  dest := by
    have dstLow := within.dstLow
    have dstHigh := within.dstHigh
    have dest := hosts.dest
    omega
  source := fun some_ null => by
    have srcLow := within.srcLow
    have srcHigh := within.srcHigh
    rw [Lz4fCall.srcEnd, Lz4fCall.srcEnd] at srcHigh
    exact hosts.source (by omega) (by omega)
  highSrc := Nat.le_trans (Nat.add_le_add_right within.srcHigh _) hosts.highSrc
  highDst := Nat.le_trans (Nat.add_le_add_right within.dstHigh _) hosts.highDst
  allocated := hosts.allocated
  owned := fun _ => hosts

theorem Lz4fCall.PartOf.serves (within : part.PartOf whole) (hosts : whole.Hosts bufs)
    (allocates : whole.Allocates (fun _ => True) bufs.header) : part.Serves whole.Hosts bufs where
  places := within.places hosts
  allocates := fun id linked four eight first second => by
    rw [within.alloc] at first second ⊢
    exact within.places (allocates id linked four eight first second)
  unstable := within.unstable

/-- The buffers behind a call: others have been allocated, or there are none. -/
theorem Lz4fCall.Places.hosts (places : part.Places whole.Hosts after) (hosts : whole.Hosts bufs)
    (same : after.header = bufs.header) : whole.Hosts after := by
  by_cases some_ : after.maxBufferSize = 0
  · have room : after.room = 0 := by
      cases places.allocated with
      | none room => exact room
      | some id four eight room size =>
        have positive := Nat.two_pow_pos (8 + 2 * id)
        omega
    have none_ : after = ⟨after.header, after.tmpIn, after.room, after.tmpOutBuffer,
      after.maxBufferSize⟩ := rfl
    rw [same, room, some_] at none_
    rw [none_]
    exact hosts.dropped _ _
  · exact places.owned some_

/-- The input does not belong to the context. -/
theorem Lz4fCall.Places.keep (places : part.Places ours bufs) (memory data : ByteStore) :
    bufs.Keep memory ((Patch.copy part.srcBuffer part.srcSize data 0).apply memory) := by
  intro index inside
  refine Patch.apply_outside _ _ fun contained => ?_
  rcases inside with header | tmpIn | tmpOut
  · exact places.apart .src .header (by decide) index contained header
  · exact places.apart .src .tmpIn (by decide) index contained tmpIn
  · exact places.apart .src .tmpOut (by decide) index contained tmpOut

/-- What has been given before a call stays. -/
theorem Lz4fReply.Within.kept (replied : reply.Within part ours header memory after)
    (hosts : whole.Hosts after) (within : part.PartOf whole) {index : ℕ}
    (low : whole.dstBuffer ≤ index) (high : index < part.dstBuffer) :
    reply.st.memory index = memory index := by
  have inside : (after.window whole .dst).Contains index :=
    ⟨low, Nat.lt_of_lt_of_le high (Nat.le_trans (Nat.le_add_right ..) within.dstHigh)⟩
  refine replied.confined.frame index fun r writable contained => ?_
  cases r with
  | src => exact writable.2 rfl
  | dst => exact absurd contained.1 (Nat.not_le.mpr high)
  | header => exact hosts.apart .dst .header (by decide) index inside contained
  | tmpIn => exact hosts.apart .dst .tmpIn (by decide) index inside contained
  | tmpOut => exact hosts.apart .dst .tmpOut (by decide) index inside contained

end Parts

/-! ## The calls -/

section Sessions

variable {setting : Lz4fSetting} {whole : Lz4fCall} {bufs : Lz4fBuffers} {session : Lz4fSession}
  {input rest part : List UInt8} {units : List FrameUnit} {data : ByteStore} {size capacity : UInt64}

/-- What has been taken is frames and a part of one, and what has been given is their content. -/
structure Lz4fSession.Decodes (session : Lz4fSession) (whole : Lz4fCall) (input : List UInt8)
    (units : List FrameUnit) (rest part : List UInt8) (bufs : Lz4fBuffers) : Prop where
  owns : session.dctx.Owns bufs
  hosts : whole.Hosts bufs
  allocates : whole.Allocates (fun _ => True) bufs.header
  stream : Lz4fStream whole.Hosts session.memory session.dctx rest part
  input_eq : input = units.flatMap (·.bytes contentHash) ++ rest
  output_eq : session.memory.bytesAt whole.dstBuffer session.given =
    units.flatMap (·.content) ++ part
  ended : session.ended = true → rest = [] ∧ part = []

/-- What the caller offers is what the decoder reads. -/
theorem Lz4fSession.bytesAt_offered {count offered : ℕ} (le : count ≤ offered) :
    (session.offered setting data offered).bytesAt (setting.source + session.taken) count =
      data.bytesAt 0 count :=
  ByteStore.bytesAt_congr fun _ inside => Patch.apply_copy _ _ (Nat.lt_of_lt_of_le inside le)

/-- What has been given stays, and a call adds to it. -/
theorem Lz4fSession.Decodes.given (decodes : session.Decodes whole input units rest part bufs)
    {offered room : ℕ} {reply : Lz4fReply} {after : Lz4fBuffers}
    (within : (session.call setting offered room).PartOf whole)
    (dest : whole.dstBuffer = setting.dest)
    (replied : reply.Within (session.call setting offered room) whole.Hosts bufs.header
      (session.offered setting data offered) after) :
    whole.Hosts after ∧ reply.st.memory.bytesAt whole.dstBuffer (session.given + reply.dstSize) =
      units.flatMap (·.content) ++ (part ++
        reply.st.memory.bytesAt (session.call setting offered room).dstBuffer reply.dstSize) := by
  have hosts := replied.places.hosts decodes.hosts replied.header_eq
  have front : (session.call setting offered room).dstBuffer = whole.dstBuffer + session.given := by
    rw [dest]
    rfl
  have limit := within.dstHigh
  have old : reply.st.memory.bytesAt whole.dstBuffer session.given =
      session.memory.bytesAt whole.dstBuffer session.given := by
    refine ByteStore.bytesAt_congr fun index inside => ?_
    rw [replied.kept hosts within (Nat.le_add_right ..) (by omega)]
    -- The input is apart from the output.
    refine Patch.apply_outside _ _ fun contained => ?_
    have source := within.srcLow
    have high := within.srcHigh
    refine decodes.hosts.apart .src .dst (by decide) (whole.dstBuffer + index) ⟨?_, ?_⟩ ⟨?_, ?_⟩
    · exact Nat.le_trans source contained.1
    · exact Nat.lt_of_lt_of_le contained.2 high
    · exact Nat.le_add_right ..
    · change whole.dstBuffer + index < whole.dstBuffer + whole.dstSize
      omega
  refine ⟨hosts, ?_⟩
  rw [ByteStore.bytesAt_add, old, decodes.output_eq, front, List.append_assoc]

theorem lz4fStep_decodes (decodes : session.Decodes whole input units rest part bufs)
    (within : (session.call setting size.toNat capacity.toNat).PartOf whole)
    (dest : whole.dstBuffer = setting.dest)
    (fine : lz4fIsError (lz4fStep setting session data size capacity).result = false) :
    let reply := lz4fStep setting session data size capacity
    reply.state.taken = session.taken + reply.consumed.toNat ∧
    reply.state.given = session.given + reply.produced.toNat ∧
    ∃ units rest part bufs, reply.state.Decodes whole (input ++ data.bytesAt 0 reply.consumed.toNat)
      units rest part bufs := by
  have serves := within.serves decodes.hosts decodes.allocates
  have keep := serves.places.keep session.memory data
  obtain ⟨reply, returns, replies⟩ := decodes.stream.replies decodes.owns keep serves
  have stepped : lz4fStep setting session data size capacity =
      ⟨⟨reply.st.dctx, reply.st.memory, session.taken + min reply.srcSize size.toNat,
        session.given + min reply.dstSize capacity.toNat, reply.result == 0⟩,
        UInt64.ofNat (min reply.srcSize size.toNat), UInt64.ofNat (min reply.dstSize capacity.toNat),
        reply.result⟩ := by
    rw [lz4fStep, show lz4fDecompress (session.call setting size.toNat capacity.toNat) session.dctx
      (session.offered setting data size.toNat) = some reply from returns]
  rw [stepped] at fine ⊢
  have sizes {after : Lz4fBuffers} (replied : reply.Within
      (session.call setting size.toNat capacity.toNat) whole.Hosts bufs.header
      (session.offered setting data size.toNat) after) :
      min reply.srcSize size.toNat = reply.srcSize ∧ min reply.dstSize capacity.toNat = reply.dstSize ∧
        (UInt64.ofNat reply.srcSize).toNat = reply.srcSize ∧
        (UInt64.ofNat reply.dstSize).toNat = reply.dstSize := by
    have taken : reply.srcSize ≤ size.toNat := replied.taken
    have given : reply.dstSize ≤ capacity.toNat := replied.given
    have limit := size.toNat_lt
    have room := capacity.toNat_lt
    exact ⟨Nat.min_eq_left taken, Nat.min_eq_left given,
      UInt64.toNat_ofNat_of_lt' (Nat.lt_of_le_of_lt taken limit),
      UInt64.toNat_ofNat_of_lt' (Nat.lt_of_le_of_lt given room)⟩
  cases replies with
  | @goes tmp after _ replied result holds idle =>
    obtain ⟨taken, given, consumed, produced⟩ := sizes replied
    obtain ⟨hosts, output⟩ := decodes.given within dest replied
    dsimp only
    rw [taken, given, consumed, produced]
    refine ⟨rfl, rfl, units, _, _, after, replied.owns, hosts, ?_,
      .goes decodes.stream decodes.owns keep serves returns result, ?_, output, fun ended => ?_⟩
    · rw [replied.header_eq]
      exact decodes.allocates
    · rw [decodes.input_eq, List.append_assoc]
      exact congrArg _ (congrArg _ (Lz4fSession.bytesAt_offered replied.taken).symm)
    · exact absurd (beq_iff_eq.mp ended) result.1
  | @finished after _ replied result stage ready unit bytes content =>
    obtain ⟨taken, given, consumed, produced⟩ := sizes replied
    obtain ⟨hosts, output⟩ := decodes.given within dest replied
    dsimp only
    rw [taken, given, consumed, produced]
    refine ⟨rfl, rfl, units ++ [unit], [], [], after, replied.owns, hosts, ?_,
      .begin stage ready, ?_, ?_, fun _ => ⟨rfl, rfl⟩⟩
    · rw [replied.header_eq]
      exact decodes.allocates
    · rw [decodes.input_eq, List.flatMap_append, List.append_assoc, List.append_nil,
        List.flatMap_singleton, ← bytes]
      exact congrArg _ (congrArg _ (Lz4fSession.bytesAt_offered replied.taken).symm)
    · rw [List.flatMap_append, List.append_nil, List.flatMap_singleton, ← content]
      exact output
  | failed replied error => exact absurd (error.symm.trans fine) (by decide)

/-- All of the input, and room for all of the content. -/
def Lz4fSetting.wholeCall (setting : Lz4fSetting) (length room : ℕ) : Lz4fCall :=
  (lz4fNewSession setting).call setting length room

/-- The buffers in front of the first block: there are none. -/
def Lz4fSetting.buffers (setting : Lz4fSetting) : Lz4fBuffers := ⟨setting.context + 224, 0, 0, 0, 0⟩

theorem lz4fStart_decodes {room : ℕ}
    (hosts : (setting.wholeCall size.toNat room).Hosts setting.buffers)
    (allocates : (setting.wholeCall size.toNat room).Allocates (fun _ => True) setting.buffers.header)
    (fine : lz4fIsError (lz4fStart setting data size).result = false) :
    let info := lz4fStart setting data size
    info.state.taken = info.consumed.toNat ∧ info.state.given = 0 ∧
    ∃ units rest part bufs, info.state.Decodes (setting.wholeCall size.toNat room)
      (data.bytesAt 0 info.consumed.toNat) units rest part bufs := by
  obtain ⟨started, known⟩ : ∃ started : Option Lz4fInfoReply, lz4fGetFrameInfo
      ((lz4fNewSession setting).call setting size.toNat 0) .zero (lz4fNewSession setting).dctx
      ((lz4fNewSession setting).offered setting data size.toNat) = started := ⟨_, rfl⟩
  cases started with
  | none =>
    rw [lz4fStart, known] at fine
    exact absurd (show lz4fIsError (lz4fErr0r .generic) = false from fine) (by decide)
  | some reply =>
    have stepped : lz4fStart setting data size =
        ⟨⟨reply.st.dctx, reply.st.memory, min reply.srcSize size.toNat, 0, false⟩,
          UInt64.ofNat (min reply.srcSize size.toNat), reply.frameInfo.contentSize, reply.result⟩ := by
      rw [lz4fStart, known]
    rw [stepped] at fine ⊢
    have away (some_ : size.toNat ≠ 0) : setting.source + 0 ≠ setting.context + 224 := fun same =>
      hosts.apart .src .header (by decide) (setting.context + 224)
        ⟨Nat.le_of_eq same, show setting.context + 224 < setting.source + 0 + size.toNat by omega⟩
        ⟨Nat.le_refl _, show setting.context + 224 < setting.context + 224 + 19 by omega⟩
    have begins := lz4fGetFrameInfo_begins rfl ⟨rfl, rfl⟩ away known fine
    have limit := size.toNat_lt
    have taken : reply.srcSize ≤ size.toNat := begins.taken
    have count : (UInt64.ofNat reply.srcSize).toNat = reply.srcSize :=
      UInt64.toNat_ofNat_of_lt' (Nat.lt_of_le_of_lt taken limit)
    have stream : Lz4fStream (setting.wholeCall size.toNat room).Hosts reply.st.memory reply.st.dctx _ [] :=
      .info rfl ⟨rfl, rfl⟩ away known fine
    rw [show ((lz4fNewSession setting).offered setting data size.toNat).bytesAt
      ((lz4fNewSession setting).call setting size.toNat 0).srcBuffer reply.srcSize = _ from
      Lz4fSession.bytesAt_offered taken] at stream
    dsimp only
    rw [Nat.min_eq_left taken, count]
    exact ⟨rfl, rfl, [], _, [], setting.buffers, begins.owns _ ⟨rfl, rfl, rfl, rfl⟩, hosts, allocates,
      stream, rfl, rfl, fun ended => Bool.noConfusion ended⟩

end Sessions

/-! ## The whole stream -/

section Streams

variable {setting : Lz4fSetting} {build : Build} {malloc : UInt64 → UInt64} {data : ByteStore}
  {turns : ℕ} {input output : SimpleBuffer}

/-- The file stands at `source` and the room for its content at `dest`; both stand apart from what
the library has. -/
structure Lz4fSetting.Serves (setting : Lz4fSetting) (malloc : UInt64 → UInt64) (data : ByteStore)
    (input : SimpleBuffer) : Prop where
  cursor : input.pos = 0
  source : setting.source = input.buffer.toNat
  dest : setting.dest = (malloc (lz4fStart setting data input.length).contentSize).toNat
  hosts : (setting.wholeCall input.length.toNat
    (lz4fStart setting data input.length).contentSize.toNat).Hosts setting.buffers
  allocates : (setting.wholeCall input.length.toNat
    (lz4fStart setting data input.length).contentSize.toNat).Allocates (fun _ => True)
      setting.buffers.header

/-- What the library leaves behind the calls, and how much they have produced. -/
def Lz4fSetting.Leaves (setting : Lz4fSetting) (data : ByteStore) (input : SimpleBuffer)
    (final : Lz4fSession) (produced : UInt64) : Prop :=
  let info := lz4fStart setting data input.length
  ∃ turns, (lz4fCodec setting).decoder.feed turns info.state
    (fun index => data (info.consumed.toNat + index)) (input.length - info.consumed)
    info.contentSize = some (final, produced)

/-- Where the session is when the loop has moved its cursors. -/
def Lz4fSession.Reaches (whole : Lz4fCall) (data : ByteStore) (session : Lz4fSession)
    (inPos outPos : UInt64) : Prop :=
  session.taken = inPos.toNat ∧ session.given = outPos.toNat ∧
    ∃ units rest part bufs, session.Decodes whole (data.bytesAt 0 inPos.toNat) units rest part bufs

theorem lz4fStep_reaches {length room : UInt64} : Lz4LoopKeeps (lz4fCodec setting) data length room
    (Lz4fSession.Reaches (setting.wholeCall length.toNat room.toNat) data) := by
  rintro session inPos outPos more fits ⟨taken, given, units, rest, part, bufs, decodes⟩ reply fine
  have inside := UInt64.le_of_lt more
  have left := UInt64.toNat_sub_of_le _ _ inside
  have space := UInt64.toNat_sub_of_le _ _ fits
  have within : (session.call setting (length - inPos).toNat (room - outPos).toNat).PartOf
      (setting.wholeCall length.toNat room.toNat) := by
    rw [UInt64.le_iff_toNat_le] at inside fits
    refine ⟨Nat.le_add_right .., ?_, Nat.le_add_right .., ?_, rfl, rfl⟩
    · change setting.source + session.taken + (length - inPos).toNat ≤ setting.source + 0 + length.toNat
      omega
    · change setting.dest + session.given + (room - outPos).toNat ≤ setting.dest + 0 + room.toNat
      omega
  obtain ⟨consumed, produced, decoded⟩ := lz4fStep_decodes decodes within rfl fine
  obtain ⟨moved, -, -⟩ := cursor_advance inside ((lz4fCodec setting).decoder.consumed_le session _ _ _)
  obtain ⟨grown, -, -⟩ := cursor_advance fits ((lz4fCodec setting).decoder.produced_le session _ _ _)
  refine ⟨consumed.trans ((congrArg (· + _) taken).trans moved.symm),
    produced.trans ((congrArg (· + _) given).trans grown.symm), ?_⟩
  obtain ⟨units', rest', part', bufs', decodes'⟩ := decoded
  refine ⟨units', rest', part', bufs', ?_⟩
  rw [moved, ByteStore.bytesAt_add]
  have shifted {count : ℕ} : data.bytesAt (0 + inPos.toNat) count =
      ByteStore.bytesAt (fun index => data (inPos.toNat + index)) 0 count :=
    ByteStore.bytesAt_congr fun k _ => by rw [Nat.zero_add, Nat.zero_add]
  rw [shifted]
  exact decodes'

/-- A success has taken all of the file, and the buffer holds what has been given. -/
theorem decompressLz4_decodes (serves : setting.Serves malloc data input)
    (success : (decompressLz4 build (lz4fCodec setting) malloc data turns input output).outcome = .ok) :
    let result := decompressLz4 build (lz4fCodec setting) malloc data turns input output
    ∃ final, setting.Leaves data input final result.output.length ∧
      result.output.buffer.toNat = setting.dest ∧ final.given = result.output.length.toNat ∧
      (DecodedToEnd result → final.ended = true) ∧
      ∃ units rest part bufs, final.Decodes (setting.wholeCall input.length.toNat
        (lz4fStart setting data input.length).contentSize.toNat)
        (data.bytesAt 0 input.length.toNat) units rest part bufs := by
  have front : (fun index => data (input.pos.toNat + index)) = data := by
    rw [serves.cursor]
    exact funext fun index => congrArg data (Nat.zero_add index)
  obtain ⟨fine, -, loops, same⟩ := decompressLz4_ok success
  rw [front] at fine
  have starts := lz4fStart_decodes serves.hosts serves.allocates fine
  obtain ⟨calls, final, produced, fedBy, length, space, logged, reaches⟩ :=
    decompressLz4Loop_keeps loops ((lz4fCodec setting).consumed_le _ _) rfl UInt64.zero_le
      lz4fStep_reaches (by
        rw [front]
        exact starts)
  dsimp only at fedBy length space reaches
  rw [UInt64.zero_add] at length reaches
  rw [UInt64.sub_zero, front] at fedBy
  obtain ⟨turns, fed⟩ := fedBy.fed
  obtain ⟨-, given, decodes⟩ := reaches
  rw [front] at decodes
  have bounded := (lz4fCodec setting).decoder.feed_produced_le fed
  rw [same]
  refine ⟨final, ⟨turns, ?_⟩, ?_, ?_, fun whole => ?_, decodes⟩
  · rw [decompressLz4Calls, length]
    exact fed
  · rw [decompressLz4Calls, decompressLz4Loop_buffer, front, serves.dest]
    rfl
  · rw [decompressLz4Calls, length]
    exact given
  · refine ((decodedToEnd_iff_of_fedBy fedBy ?_ rfl ?_).mp whole).2.1
    · rw [decompressLz4Calls, logged, decoderCalls_append]
      rfl
    · rw [decompressLz4Calls, length, space, front]
      exact bounded

/-- When `decompress` has decoded a file of LZ4 frames to its end, the file is frames, and the
buffer holds all of their content. -/
theorem decompress_decodesFrames {τ : Type} {zstd : ZstdCodec τ}
    (format : kernelFormat build data input = .lz4) (serves : setting.Serves malloc data input)
    (success : (decompress build (lz4fCodec setting) zstd malloc data turns input output).outcome = .ok)
    (whole : DecodedToEnd (decompress build (lz4fCodec setting) zstd malloc data turns input output)) :
    let buffer := (decompress build (lz4fCodec setting) zstd malloc data turns input output).output
    ∃ final, setting.Leaves data input final buffer.length ∧ ∃ units : List FrameUnit,
      data.bytesAt 0 input.length.toNat = units.flatMap (·.bytes contentHash) ∧
      final.memory.bytesAt buffer.buffer.toNat buffer.length.toNat = units.flatMap (·.content) := by
  have same : decompress build (lz4fCodec setting) zstd malloc data turns input output =
      (decompressLz4 build (lz4fCodec setting) malloc data turns input output).prepend
        (magicReads build data input) := by
    unfold decompress at success ⊢
    split_ifs at success ⊢
    split at success
    · rw [format]
    · contradiction
  rw [same] at success whole ⊢
  rw [decodedToEnd_prepend (decoderCalls_magicReads build data input)] at whole
  obtain ⟨final, leaves, dest, given, ended, units, rest, part, bufs, decodes⟩ :=
    decompressLz4_decodes serves success
  obtain ⟨rfl, rfl⟩ := decodes.ended (ended whole)
  refine ⟨final, leaves, units, decodes.input_eq.trans (List.append_nil _), ?_⟩
  dsimp only [DecompressResult.prepend]
  rw [dest, ← given]
  exact decodes.output_eq.trans (List.append_nil _)

end Streams

/-! ## A small file -/

def frameSetting : Lz4fSetting := ⟨true, 0x200000, 0x300000, 0x100000, smallAlloc, noBytes⟩

/-- The frame of the small stream. -/
def frameFile : ByteStore := fun index => (smallFront ++ smallBack).getD index 0

def frameBuffer : SimpleBuffer := ⟨0x200000, 39, 0, 39, none⟩

theorem frameSetting_serves :
    frameSetting.Serves (fun _ => 0x300000) frameFile frameBuffer := by
  have size : (lz4fStart frameSetting frameFile frameBuffer.length).contentSize = 24 := by
    decide +kernel
  have within : (frameSetting.wholeCall 39 24).PartOf (smallCall 39) :=
    ⟨by decide, by decide, by decide, by decide, rfl, rfl⟩
  have serves := within.serves (smallCall_places (by decide))
    (smallCall_serves (by decide) (.inr rfl)).allocates
  refine ⟨rfl, rfl, rfl, ?_, ?_⟩
  · rw [size]
    exact { serves.places.dropped 0 0 with owned := fun _ => trivial }
  · rw [size]
    exact fun id linked four eight first second =>
      { serves.allocates id linked four eight first second with owned := fun _ => trivial }

/-- The file has been decoded to its end. -/
theorem decompress_decodesFrames_frameFile :
    let buffer := (decompress defaultBuild (lz4fCodec frameSetting) smallZstd (fun _ => 0x300000)
      frameFile 1 frameBuffer emptyBuffer).output
    ∃ final, frameSetting.Leaves frameFile frameBuffer final buffer.length ∧
      ∃ units : List FrameUnit,
        frameFile.bytesAt 0 39 = units.flatMap (·.bytes contentHash) ∧
        final.memory.bytesAt buffer.buffer.toNat buffer.length.toNat =
          units.flatMap (·.content) := by
  have result : decompress defaultBuild (lz4fCodec frameSetting) smallZstd (fun _ => 0x300000)
      frameFile 1 frameBuffer emptyBuffer =
      ⟨.ok, { frameBuffer with pos := 39 }, ⟨0x300000, 24, 0, 24, some .freeSimpleBuffer⟩,
        [.readInput ⟨0, 4⟩, .malloc 24 0x300000, .decode ⟨24, 24, 24, 24, 0⟩]⟩ := by decide +kernel
  refine decompress_decodesFrames (by decide) frameSetting_serves (by rw [result]) ?_
  rw [result]
  exact ⟨⟨_, rfl, rfl⟩, rfl, rfl, by decide⟩

end ZLoader
