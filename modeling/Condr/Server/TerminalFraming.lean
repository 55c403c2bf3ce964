import Condr.Protocol.TerminalFrames
import Condr.Server.BootstrapSize

/-!
# Framing terminal batches

The Server packs the frames of Panes into batches, each as full as a frame may be. A frame
that no batch has room for ends the batch before it and follows in chunks.
-/

namespace Condr

open ClientWriter (maxFrameSize maxFramePrefix usizeMax)
open Protobuf (bytesLen encodedLen encodedLen_append encodedLen_uint uintLen uintLen_le varint)

def saturatingAdd (left right : ℕ) : ℕ := min usizeMax (left + right)

/-- The frames so far, and the batch that is not framed yet. -/
structure TerminalFraming where
  frames : List (List UInt8)
  batch : List Pb.PaneTerminalFrame
  batchSize : ℕ

section Framing

variable (codec : PaneCodec) (memory : Memory) (serverId : ServerId) (sessionId : SessionId)

def appendTerminalFrameBatch (frames : List (List UInt8)) (panes : List Pb.PaneTerminalFrame) :
    Except SplitFault (List (List UInt8)) :=
  if panes.isEmpty then .ok frames
  else do
    let frame ← (frameTerminalBatch codec serverId sessionId panes).mapError .io
    .ok (frames ++ [frame])

/-- The body of the loop over a record's chunks. -/
def pushTerminalChunk (pane : PaneTerminalFrame SmolStr) (chunkCount : ℕ)
    (frames : List (List UInt8)) (piece : List UInt8 × ℕ) :
    Except SplitFault (List (List UInt8)) := do
  let chunkIndex ← u32TryFrom piece.2 "too many terminal frame chunks"
  let chunk : TerminalFrameChunk := {
    serverId
    sessionId
    paneId := pane.paneId
    revision := pane.frame.revision
    chunkIndex
    chunkCount
    payload := piece.1 }
  let frame ← (Pb.TerminalMessage.framed codec (.terminalFrameChunk chunk.toWire)).mapError .io
  .ok (frames ++ [frame])

/-- The body of the loop over the Panes. -/
def frameTerminalPane (overhead : ℕ) (framing : TerminalFraming)
    (pane : PaneTerminalFrame SmolStr) : Except SplitFault TerminalFraming :=
  let wire := pane.toWire memory
  let paneSize := wire.batchLen codec
  if maxFrameSize < saturatingAdd overhead paneSize then do
    let frames ← appendTerminalFrameBatch codec serverId sessionId framing.frames framing.batch
    let payload ← (wire.encodeRecord codec).mapError .io
    let chunkCount ← u32TryFrom (Chunks.count maxChunkPayloadSize payload)
      "too many terminal frame chunks"
    if chunkCount = 0 then .error (.io "terminal Pane frame encoded to an empty payload")
    else do
      let frames ← (Chunks.chunks maxChunkPayloadSize payload).zipIdx.foldlM
        (pushTerminalChunk codec serverId sessionId pane chunkCount) frames
      .ok { frames, batch := [], batchSize := overhead }
  else if !framing.batch.isEmpty && maxFrameSize < saturatingAdd framing.batchSize paneSize then do
    let frames ← appendTerminalFrameBatch codec serverId sessionId framing.frames framing.batch
    .ok { frames, batch := [wire], batchSize := overhead + paneSize }
  else
    .ok {
      framing with
      batch := framing.batch ++ [wire]
      batchSize := framing.batchSize + paneSize }

def frameTerminalBatches (panes : List (PaneTerminalFrame SmolStr)) :
    Except SplitFault (List (List UInt8)) := do
  let overhead := terminalBatchOverhead codec serverId sessionId
  let framing ← panes.foldlM (frameTerminalPane codec memory serverId sessionId overhead)
    { frames := [], batch := [], batchSize := overhead }
  appendTerminalFrameBatch codec serverId sessionId framing.frames framing.batch

end Framing

/-! ## What the frames carry -/

/-- The bytes of a Pane's frame. -/
def PaneTerminalFrame.payload (codec : PaneCodec) (memory : Memory)
    (pane : PaneTerminalFrame SmolStr) : List UInt8 :=
  codec.encodePane (pane.toWire memory)

def PaneTerminalFrame.chunkCount (codec : PaneCodec) (memory : Memory)
    (pane : PaneTerminalFrame SmolStr) : ℕ :=
  Chunks.count maxChunkPayloadSize (pane.payload codec memory)

/-- A chunk of a Pane's frame. -/
def terminalChunk (codec : PaneCodec) (memory : Memory) (serverId : ServerId)
    (sessionId : SessionId) (pane : PaneTerminalFrame SmolStr) (chunkIndex : ℕ) :
    TerminalFrameChunk where
  serverId := serverId
  sessionId := sessionId
  paneId := pane.paneId
  revision := pane.frame.revision
  chunkIndex := chunkIndex
  chunkCount := pane.chunkCount codec memory
  payload := Chunks.chunk maxChunkPayloadSize (pane.payload codec memory) chunkIndex

/-- The first chunks of a Pane's frame. -/
def recordChunks (codec : PaneCodec) (memory : Memory) (serverId : ServerId)
    (sessionId : SessionId) (pane : PaneTerminalFrame SmolStr) (pieces : ℕ) :
    List Pb.TerminalMessage :=
  (List.range pieces).map fun chunkIndex =>
    .terminalFrameChunk (terminalChunk codec memory serverId sessionId pane chunkIndex).toWire

/-- The messages carry the frames of the Panes, each once and in order: several in a batch, or
one in all of its chunks. -/
inductive Carry (codec : PaneCodec) (memory : Memory) (serverId : ServerId)
    (sessionId : SessionId) : List Pb.TerminalMessage → List (PaneTerminalFrame SmolStr) → Prop
  where
  | none : Carry codec memory serverId sessionId [] []
  | batch {panes : List (PaneTerminalFrame SmolStr)} {messages : List Pb.TerminalMessage}
      {others : List (PaneTerminalFrame SmolStr)} (some : panes ≠ [])
      (rest : Carry codec memory serverId sessionId messages others) :
      Carry codec memory serverId sessionId
        (.terminalFrame {
          serverId := serverId.value
          sessionId := sessionId.value
          panes := panes.map (PaneTerminalFrame.toWire memory) } :: messages)
        (panes ++ others)
  | chunks {pane : PaneTerminalFrame SmolStr} {messages : List Pb.TerminalMessage}
      {others : List (PaneTerminalFrame SmolStr)} (some : pane.payload codec memory ≠ [])
      (rest : Carry codec memory serverId sessionId messages others) :
      Carry codec memory serverId sessionId
        (recordChunks codec memory serverId sessionId pane (pane.chunkCount codec memory) ++
          messages)
        (pane :: others)

variable {codec : PaneCodec} {memory : Memory} {serverId : ServerId} {sessionId : SessionId}
  {messages back : List Pb.TerminalMessage} {panes others : List (PaneTerminalFrame SmolStr)}

theorem Carry.append (front : Carry codec memory serverId sessionId messages panes)
    (rest : Carry codec memory serverId sessionId back others) :
    Carry codec memory serverId sessionId (messages ++ back) (panes ++ others) := by
  induction front with
  | none => exact rest
  | batch some _ induction =>
      rw [List.cons_append, List.append_assoc]
      exact .batch some induction
  | chunks some _ induction =>
      rw [List.append_assoc, List.cons_append]
      exact .chunks some induction

/-! ## What fits a frame -/

def Pb.TerminalMessage.frame (codec : PaneCodec) (message : Pb.TerminalMessage) : List UInt8 :=
  varint (message.encode codec).length ++ message.encode codec

/-- The message and its length fit a frame. -/
def Pb.TerminalMessage.Small (codec : PaneCodec) (message : Pb.TerminalMessage) : Prop :=
  (message.encode codec).length + 4 ≤ maxFrameSize

theorem framed_of_small {message : Pb.TerminalMessage} (small : message.Small codec) :
    message.framed codec = .ok (message.frame codec) :=
  frameBody_eq_ok.mpr ⟨(Nat.le_add_right _ 4).trans small, rfl⟩

theorem length_frame_le_of_small {message : Pb.TerminalMessage} (small : message.Small codec) :
    (message.frame codec).length ≤ maxFrameSize := by
  have within : (message.encode codec).length + 4 ≤ maxFrameSize := small
  have digits := length_varint_le_four ((Nat.le_add_right _ 4).trans within)
  rw [Pb.TerminalMessage.frame, List.length_append]
  omega

theorem u32TryFrom_of_lt {value : ℕ} (small : value < 2 ^ 32) (text : String) :
    u32TryFrom value text = .ok value := if_pos small

theorem encodedLen_batch (wires : List Pb.PaneTerminalFrame) :
    encodedLen (Pb.TerminalFrameBatch.fields codec {
      serverId := serverId.value, sessionId := sessionId.value, panes := wires }) =
      uintLen 1 serverId.value + uintLen 2 sessionId.value +
        (wires.map (Pb.PaneTerminalFrame.batchLen codec)).sum := by
  rw [Pb.TerminalFrameBatch.fields, encodedLen_append, encodedLen_append,
    encodedLen_uint, encodedLen_uint]
  congr 1
  induction wires with
  | nil => rfl
  | cons wire wires induction =>
      have split := encodedLen_append [.bytes 3 (codec.encodePane wire)]
        (wires.map fun pane => Protobuf.Field.bytes 3 (codec.encodePane pane))
      rw [Protobuf.encodedLen_bytes, induction] at split
      exact split

theorem terminalBatchOverhead_eq : terminalBatchOverhead codec serverId sessionId =
    21 + (varint (uintLen 1 serverId.value + uintLen 2 sessionId.value)).length +
      (uintLen 1 serverId.value + uintLen 2 sessionId.value) := by
  have room : maxFramePrefix = 10 := rfl
  rw [terminalBatchOverhead, Pb.TerminalMessage.encode, length_encode_message (by omega),
    encodedLen_batch, List.map_nil, List.sum_nil, Nat.add_zero, room]
  omega

theorem terminalBatchOverhead_le : terminalBatchOverhead codec serverId sessionId ≤ 53 := by
  have server := uintLen_le 1 serverId.value (by decide)
  have session := uintLen_le 2 sessionId.value (by decide)
  have digits := Protobuf.length_varint_le (uintLen 1 serverId.value + uintLen 2 sessionId.value)
  rw [terminalBatchOverhead_eq]
  omega

/-- A batch fits when its overhead and the frames of its Panes do. -/
theorem small_batch {wires : List Pb.PaneTerminalFrame}
    (fits : terminalBatchOverhead codec serverId sessionId +
      (wires.map (Pb.PaneTerminalFrame.batchLen codec)).sum ≤ maxFrameSize) :
    Pb.TerminalMessage.Small codec (.terminalFrame {
      serverId := serverId.value
      sessionId := sessionId.value
      panes := wires }) := by
  rw [terminalBatchOverhead_eq] at fits
  have wide := @length_varint_le_four (uintLen 1 serverId.value +
    uintLen 2 sessionId.value + (wires.map (Pb.PaneTerminalFrame.batchLen codec)).sum)
    (by omega)
  unfold Pb.TerminalMessage.Small
  rw [Pb.TerminalMessage.encode, length_encode_message (by omega), encodedLen_batch]
  omega

theorem small_chunk {chunk : TerminalFrameChunk} (index : chunk.chunkIndex < 2 ^ 32)
    (count : chunk.chunkCount < 2 ^ 32) (payload : chunk.payload.length ≤ maxChunkPayloadSize) :
    Pb.TerminalMessage.Small codec (.terminalFrameChunk chunk.toWire) := by
  have server := uintLen_le 1 chunk.serverId.value (by decide)
  have session := uintLen_le 2 chunk.sessionId.value (by decide)
  have pane := uintLen_le 3 chunk.paneId.asU64 (by decide)
  have revision := uintLen_le 4 chunk.revision (by decide)
  have chunkIndex := uintLen_index_le (show 5 < 16 by decide) index
  have chunkCount := uintLen_index_le (show 6 < 16 by decide) count
  have digits := length_varint_le_four (payload.trans (by decide))
  have bytes := Protobuf.encodedLen_bytes_le (show 7 < 16 by decide) chunk.payload
  have fields : encodedLen chunk.toWire.fields ≤ chunk.payload.length + 61 := by
    simp only [Pb.TerminalFrameChunk.fields, TerminalFrameChunk.toWire, encodedLen_append,
      encodedLen_uint]
    omega
  have room : maxChunkPayloadSize + 256 = maxFrameSize := by decide
  have wide := @length_varint_le_four (encodedLen chunk.toWire.fields) (by omega)
  unfold Pb.TerminalMessage.Small
  rw [Pb.TerminalMessage.encode, length_encode_message (by omega)]
  omega

/-! ## The loop -/

/-- What the loop has done of the frames of some Panes: messages carry the first of them, and
the batch waits with the others. -/
structure TerminalFraming.Holds (codec : PaneCodec) (memory : Memory) (serverId : ServerId)
    (sessionId : SessionId) (framing : TerminalFraming) (done : List (PaneTerminalFrame SmolStr))
    (messages : List Pb.TerminalMessage) (carried waiting : List (PaneTerminalFrame SmolStr)) :
    Prop where
  frames : framing.frames = messages.map (Pb.TerminalMessage.frame codec)
  small : ∀ message ∈ messages, message.Small codec
  carry : Carry codec memory serverId sessionId messages carried
  batch : framing.batch = waiting.map (PaneTerminalFrame.toWire memory)
  whole : carried ++ waiting = done
  size : framing.batchSize = terminalBatchOverhead codec serverId sessionId +
    (framing.batch.map (Pb.PaneTerminalFrame.batchLen codec)).sum
  fits : waiting ≠ [] → framing.batchSize ≤ maxFrameSize

variable {framing : TerminalFraming} {done carried waiting : List (PaneTerminalFrame SmolStr)}

/-- The batch that waits is framed. -/
theorem TerminalFraming.Holds.flush
    (holds : framing.Holds codec memory serverId sessionId done messages carried waiting) :
    ∃ all, appendTerminalFrameBatch codec serverId sessionId framing.frames framing.batch =
        .ok (all.map (Pb.TerminalMessage.frame codec)) ∧
      (∀ message ∈ all, message.Small codec) ∧ Carry codec memory serverId sessionId all done := by
  by_cases empty : waiting = []
  · refine ⟨messages, ?_, holds.small, ?_⟩
    · rw [holds.batch, empty, List.map_nil, appendTerminalFrameBatch, List.isEmpty_nil, if_pos rfl,
        holds.frames]
    · rw [← holds.whole, empty, List.append_nil]
      exact holds.carry
  · have small : Pb.TerminalMessage.Small codec (.terminalFrame {
        serverId := serverId.value
        sessionId := sessionId.value
        panes := framing.batch }) := by
      apply small_batch
      rw [← holds.size]
      exact holds.fits empty
    refine ⟨messages ++ [.terminalFrame {
      serverId := serverId.value
      sessionId := sessionId.value
      panes := framing.batch }], ?_, ?_, ?_⟩
    · have some : ¬framing.batch.isEmpty = true := by
        rw [holds.batch, List.isEmpty_iff, List.map_eq_nil_iff]
        exact empty
      rw [appendTerminalFrameBatch, if_neg some, frameTerminalBatch, framed_of_small small,
        holds.frames, List.map_append]
      rfl
    · intro message member
      rcases List.mem_append.mp member with before | last
      · exact holds.small message before
      · rw [List.mem_singleton.mp last]
        exact small
    · rw [← holds.whole, holds.batch]
      apply holds.carry.append
      have alone := Carry.batch empty (@Carry.none codec memory serverId sessionId)
      rw [List.append_nil] at alone
      exact alone

theorem pushTerminalChunk_eq {pane : PaneTerminalFrame SmolStr} {index : ℕ}
    (inside : index < pane.chunkCount codec memory)
    (count : pane.chunkCount codec memory < 2 ^ 32) (frames : List (List UInt8)) :
    pushTerminalChunk codec serverId sessionId pane (pane.chunkCount codec memory) frames
        (Chunks.chunk maxChunkPayloadSize (pane.payload codec memory) index, index) =
      .ok (frames ++ [Pb.TerminalMessage.frame codec (.terminalFrameChunk
        (terminalChunk codec memory serverId sessionId pane index).toWire)]) := by
  have small : Pb.TerminalMessage.Small codec (.terminalFrameChunk
      (terminalChunk codec memory serverId sessionId pane index).toWire) :=
    small_chunk (inside.trans count) count Chunks.length_chunk_le
  rw [pushTerminalChunk, u32TryFrom_of_lt (inside.trans count), Lists.ok_bind]
  change ((Pb.TerminalMessage.framed codec (.terminalFrameChunk
    (terminalChunk codec memory serverId sessionId pane index).toWire)).mapError SplitFault.io >>=
      fun frame => Except.ok (frames ++ [frame])) = _
  rw [framed_of_small small]
  rfl

/-- The chunks of a record are framed one after the other. -/
theorem pushTerminalChunks_eq {pane : PaneTerminalFrame SmolStr} {pieces : ℕ}
    (some : pieces ≤ pane.chunkCount codec memory)
    (count : pane.chunkCount codec memory < 2 ^ 32) (frames : List (List UInt8)) :
    ((List.range pieces).map fun index =>
      (Chunks.chunk maxChunkPayloadSize (pane.payload codec memory) index, index)).foldlM
        (pushTerminalChunk codec serverId sessionId pane (pane.chunkCount codec memory)) frames =
      .ok (frames ++ (recordChunks codec memory serverId sessionId pane pieces).map
        (Pb.TerminalMessage.frame codec)) := by
  induction pieces with
  | zero => exact congrArg Except.ok (List.append_nil frames).symm
  | succ pieces induction =>
      rw [List.range_succ, List.map_append, List.foldlM_append, induction (by omega), Lists.ok_bind,
        List.map_singleton, List.foldlM_cons, pushTerminalChunk_eq (by omega) count, Lists.ok_bind,
        recordChunks, recordChunks, List.range_succ, List.map_append, List.map_append,
        ← List.append_assoc]
      rfl

theorem small_recordChunks {pane : PaneTerminalFrame SmolStr}
    (count : pane.chunkCount codec memory < 2 ^ 32) :
    ∀ message ∈ recordChunks codec memory serverId sessionId pane (pane.chunkCount codec memory),
      message.Small codec := by
  intro message member
  rcases List.mem_map.mp member with ⟨index, inside, rfl⟩
  exact small_chunk ((List.mem_range.mp inside).trans count) count Chunks.length_chunk_le

theorem lt_saturatingAdd {left right : ℕ} :
    maxFrameSize < saturatingAdd left right ↔ maxFrameSize < left + right := by
  have limit : maxFrameSize < usizeMax := by decide
  unfold saturatingAdd
  omega

/-- A frame that may be a chunked record has few chunks. -/
theorem chunkCount_lt {pane : PaneTerminalFrame SmolStr}
    (limit : (pane.payload codec memory).length ≤ maxChunkedRecordSize) :
    pane.chunkCount codec memory < 2 ^ 32 :=
  (Chunks.count_le_length BootstrapAssembler.maxChunkPayloadSize_pos).trans_lt
    (limit.trans_lt (by decide))

theorem payload_ne_nil_of_large {pane : PaneTerminalFrame SmolStr}
    (large : maxFrameSize < saturatingAdd (terminalBatchOverhead codec serverId sessionId)
      ((pane.toWire memory).batchLen codec)) : pane.payload codec memory ≠ [] := by
  intro none
  have least : (pane.toWire memory).batchLen codec = bytesLen 3 0 :=
    congrArg (bytesLen 3) (congrArg List.length none)
  have overhead := @terminalBatchOverhead_le codec serverId sessionId
  have two := Protobuf.bytesLen_le 3 0
  rw [lt_saturatingAdd, least, maxFrameSize] at large
  omega

/-- A frame that no batch has room for follows the batch in chunks. -/
theorem frameTerminalPane_of_large {pane : PaneTerminalFrame SmolStr}
    {frames : List (List UInt8)}
    (flushed : appendTerminalFrameBatch codec serverId sessionId framing.frames framing.batch =
      .ok frames)
    (limit : (pane.payload codec memory).length ≤ maxChunkedRecordSize)
    (large : maxFrameSize < saturatingAdd (terminalBatchOverhead codec serverId sessionId)
      ((pane.toWire memory).batchLen codec)) :
    frameTerminalPane codec memory serverId sessionId
        (terminalBatchOverhead codec serverId sessionId) framing pane =
      .ok {
        frames := frames ++ (recordChunks codec memory serverId sessionId pane
          (pane.chunkCount codec memory)).map (Pb.TerminalMessage.frame codec)
        batch := []
        batchSize := terminalBatchOverhead codec serverId sessionId } := by
  have count := chunkCount_lt limit
  have encoded : ((pane.toWire memory).encodeRecord codec).mapError SplitFault.io =
      .ok (pane.payload codec memory) := by
    rw [Pb.PaneTerminalFrame.encodeRecord]
    exact congrArg (Except.mapError SplitFault.io) (if_neg (not_lt.mpr limit))
  have some : pane.chunkCount codec memory ≠ 0 := by
    rw [PaneTerminalFrame.chunkCount, Ne,
      Chunks.count_eq_zero BootstrapAssembler.maxChunkPayloadSize_pos]
    exact payload_ne_nil_of_large large
  unfold frameTerminalPane
  dsimp only
  rw [if_pos large, flushed, Lists.ok_bind, encoded, Lists.ok_bind, ← PaneTerminalFrame.chunkCount,
    u32TryFrom_of_lt count, Lists.ok_bind, if_neg some, Chunks.zipIdx_chunks,
    ← PaneTerminalFrame.chunkCount, pushTerminalChunks_eq le_rfl count, Lists.ok_bind]

/-- One more Pane. -/
theorem TerminalFraming.Holds.pane {pane : PaneTerminalFrame SmolStr}
    (holds : framing.Holds codec memory serverId sessionId done messages carried waiting)
    (limit : (pane.payload codec memory).length ≤ maxChunkedRecordSize) :
    ∃ next nextMessages nextCarried nextWaiting,
      frameTerminalPane codec memory serverId sessionId
        (terminalBatchOverhead codec serverId sessionId) framing pane = .ok next ∧
      next.Holds codec memory serverId sessionId (done ++ [pane]) nextMessages nextCarried
        nextWaiting := by
  rcases holds.flush with ⟨all, flushed, small, carry⟩
  by_cases large : maxFrameSize < saturatingAdd (terminalBatchOverhead codec serverId sessionId)
      ((pane.toWire memory).batchLen codec)
  · refine ⟨_, all ++ recordChunks codec memory serverId sessionId pane
      (pane.chunkCount codec memory), done ++ [pane], [],
      frameTerminalPane_of_large flushed limit large, ?_⟩
    have chunks := Carry.chunks (payload_ne_nil_of_large large)
      (@Carry.none codec memory serverId sessionId)
    rw [List.append_nil] at chunks
    refine ⟨(List.map_append ..).symm, ?_, carry.append chunks, rfl, List.append_nil _,
      (Nat.add_zero _).symm, fun some => absurd rfl some⟩
    intro message member
    rcases List.mem_append.mp member with before | new
    · exact small message before
    · exact small_recordChunks (chunkCount_lt limit) message new
  · unfold frameTerminalPane
    dsimp only
    rw [if_neg large]
    rw [lt_saturatingAdd, not_lt] at large
    by_cases full : (!framing.batch.isEmpty &&
        decide (maxFrameSize < saturatingAdd framing.batchSize
          ((pane.toWire memory).batchLen codec))) = true
    · rw [if_pos full, flushed, Lists.ok_bind]
      refine ⟨_, all, done, [pane], rfl, rfl, small, carry, rfl, rfl, ?_, fun _ => large⟩
      simp
    · rw [if_neg full]
      refine ⟨_, messages, carried, waiting ++ [pane], rfl, holds.frames, holds.small, holds.carry,
        ?_, ?_, ?_, ?_⟩
      · rw [holds.batch, List.map_append, List.map_singleton]
      · rw [← List.append_assoc, holds.whole]
      · dsimp only
        rw [holds.size, List.map_append, List.sum_append, List.map_singleton, List.sum_singleton,
          Nat.add_assoc]
      · intro _
        dsimp only
        rw [Bool.and_eq_true, decide_eq_true_eq, lt_saturatingAdd, not_and, not_lt] at full
        cases empty : framing.batch with
        | nil =>
            have size := holds.size
            rw [empty, List.map_nil, List.sum_nil, Nat.add_zero] at size
            rw [size]
            exact large
        | cons first rest =>
            exact full (by rw [empty]; rfl)

theorem TerminalFraming.Holds.allPanes {panes : List (PaneTerminalFrame SmolStr)}
    (holds : framing.Holds codec memory serverId sessionId done messages carried waiting)
    (limits : ∀ pane ∈ panes, (pane.payload codec memory).length ≤ maxChunkedRecordSize) :
    ∃ next nextMessages nextCarried nextWaiting,
      panes.foldlM (frameTerminalPane codec memory serverId sessionId
        (terminalBatchOverhead codec serverId sessionId)) framing = .ok next ∧
      next.Holds codec memory serverId sessionId (done ++ panes) nextMessages nextCarried
        nextWaiting := by
  induction panes generalizing framing done messages carried waiting with
  | nil =>
      rw [List.append_nil]
      exact ⟨framing, messages, carried, waiting, rfl, holds⟩
  | cons pane panes induction =>
      rcases holds.pane (limits pane List.mem_cons_self) with ⟨middle, _, _, _, first, middleHolds⟩
      rcases induction middleHolds fun other member => limits other (List.mem_cons_of_mem pane member)
        with ⟨next, nextMessages, nextCarried, nextWaiting, rest, nextHolds⟩
      refine ⟨next, nextMessages, nextCarried, nextWaiting, ?_, ?_⟩
      · rw [List.foldlM_cons, first, Lists.ok_bind, rest]
      · rw [List.append_assoc, List.singleton_append] at nextHolds
        exact nextHolds

/-- Frames that may be records are all framed, as messages that carry them. -/
theorem frameTerminalBatches_carry {panes : List (PaneTerminalFrame SmolStr)}
    (limits : ∀ pane ∈ panes, (pane.payload codec memory).length ≤ maxChunkedRecordSize) :
    ∃ messages, frameTerminalBatches codec memory serverId sessionId panes =
        .ok (messages.map (Pb.TerminalMessage.frame codec)) ∧
      (∀ message ∈ messages, message.Small codec) ∧
      Carry codec memory serverId sessionId messages panes := by
  have start : TerminalFraming.Holds codec memory serverId sessionId
      { frames := [], batch := [], batchSize := terminalBatchOverhead codec serverId sessionId }
      [] [] [] [] :=
    ⟨rfl, nofun, .none, rfl, rfl, (Nat.add_zero _).symm, fun some => absurd rfl some⟩
  rcases start.allPanes limits with ⟨framing, _, _, _, loops, holds⟩
  rcases holds.flush with ⟨messages, flushed, small, carry⟩
  refine ⟨messages, ?_, small, carry⟩
  rw [frameTerminalBatches, loops, Lists.ok_bind, flushed]

end Condr
