import Condr.Server.BootstrapReassembly
import Condr.Server.ClientWriterSafety

/-!
# The size of a framed Bootstrap

What a batch's frame adds to its payload is bounded by the overhead that the writer's queue
reckons with, and the payloads by the limit on the records. The recovery Bootstrap of a lagged
client therefore fits behind the lag notice.
-/

namespace Condr

open ClientWriter
open Protobuf (encodedLen optionalMessage uint uintLen uintLen_le varint)

/-! ## One batch -/

def Pb.BootstrapBatch.fields (batch : Pb.BootstrapBatch) : List Protobuf.Field :=
  uint 1 batch.serverId ++ uint 2 batch.sessionId ++ uint 3 batch.batchIndex ++
    uint 4 batch.recordIndex ++ uint 5 batch.chunkIndex ++ uint 6 batch.chunkCount ++
    Protobuf.bytes 7 batch.payload

/-- The generated code writes a batch as the encoding defines it. -/
def Prost.WritesBatches (prost : Prost) : Prop :=
  ∀ batch, prost.encodeMessage (.bootstrapBatch batch) =
    Protobuf.encode (Protobuf.message 4 batch.fields)

/-- The indices are of 32 bits, and the payload is one chunk. -/
structure BootstrapBatch.Bounded (batch : BootstrapBatch) : Prop where
  batchIndex : batch.batchIndex < 2 ^ 32
  recordIndex : batch.recordIndex < 2 ^ 32
  chunkIndex : batch.chunkIndex < 2 ^ 32
  chunkCount : batch.chunkCount < 2 ^ 32
  payload : batch.payload.length ≤ maxChunkPayloadSize

variable {prost : Prost} {memory : Memory} {batch : BootstrapBatch}

/-- The frame of a body. -/
theorem frameBody_eq_ok {body frame : List UInt8} {limit : ℕ} :
    frameBody body limit = .ok frame ↔
      body.length ≤ limit ∧ frame = varint body.length ++ body := by
  unfold frameBody
  split_ifs with large
  · simp [large]
  · simp [not_lt.mp large, eq_comm]

theorem length_frame_le {body frame : List UInt8} (frames : frameBody body maxFrameSize = .ok frame) :
    frame.length ≤ maxFrameSize + maxFramePrefix := by
  rcases frameBody_eq_ok.mp frames with ⟨small, rfl⟩
  have size : (varint body.length).length ≤ maxFramePrefix :=
    Protobuf.length_varint_le body.length
  rw [List.length_append]
  omega

theorem frameMessage_eq_ok {message : ServerMessage} {frame : List UInt8} :
    frameMessage prost message = .ok frame ↔ ∃ wire, message.toWire = .ok wire ∧
      frameBody (prost.encodeMessage wire) maxFrameSize = .ok frame := by
  cases converts : message.toWire with
  | error text => simp [frameMessage, converts, Except.mapError, bind, Except.bind]
  | ok wire => simp [frameMessage, converts, Except.mapError, bind, Except.bind]

/-- A length within the frame limit takes four bytes at most. -/
theorem length_varint_le_four {length : ℕ} (fits : length ≤ maxFrameSize) :
    (varint length).length ≤ 4 :=
  Protobuf.length_varint_le_of_lt (by omega) (fits.trans_lt (by decide))

theorem uintLen_index_le {number index : ℕ} (low : number < 16) (small : index < 2 ^ 32) :
    uintLen number index ≤ 6 :=
  Protobuf.uintLen_le_of_lt low (by omega) (small.trans (by decide))

theorem length_encode_message {number : ℕ} (low : number < 16) (fields : List Protobuf.Field) :
    (Protobuf.encode (Protobuf.message number fields)).length =
      1 + (varint (encodedLen fields)).length + encodedLen fields := by
  rw [← Protobuf.bytesLen_eq low]
  exact Protobuf.encodedLen_message number fields

def BootstrapBatch.toPb (batch : BootstrapBatch) : Pb.BootstrapBatch where
  serverId := batch.serverId.value
  sessionId := batch.sessionId.value
  batchIndex := batch.batchIndex
  recordIndex := batch.recordIndex
  chunkIndex := batch.chunkIndex
  chunkCount := batch.chunkCount
  payload := batch.payload

theorem encodedLen_fields_le (bounded : batch.Bounded) :
    encodedLen batch.toPb.fields ≤ batch.payload.length + 51 := by
  have server := uintLen_le 1 batch.serverId.value (by decide)
  have session := uintLen_le 2 batch.sessionId.value (by decide)
  have batchIndex := uintLen_index_le (show 3 < 16 by decide) bounded.batchIndex
  have recordIndex := uintLen_index_le (show 4 < 16 by decide) bounded.recordIndex
  have chunkIndex := uintLen_index_le (show 5 < 16 by decide) bounded.chunkIndex
  have chunkCount := uintLen_index_le (show 6 < 16 by decide) bounded.chunkCount
  have payload := Protobuf.encodedLen_bytes_le (show 7 < 16 by decide) batch.payload
  have digits := length_varint_le_four (bounded.payload.trans (by decide))
  simp only [Pb.BootstrapBatch.fields, BootstrapBatch.toPb, Protobuf.encodedLen_append,
    Protobuf.encodedLen_uint]
  omega

/-- What the frame of a batch adds to its payload. -/
theorem length_batch_frame_le (writes : prost.WritesBatches) (bounded : batch.Bounded)
    {frame : List UInt8} (frames : frameMessage prost (.bootstrapBatch batch) = .ok frame) :
    frame.length ≤ batch.payload.length + bootstrapBatchFrameOverhead := by
  rcases frameMessage_eq_ok.mp frames with ⟨wire, converts, framed⟩
  have same : wire = .bootstrapBatch batch.toPb := (Except.ok.inj converts).symm
  rw [same, writes] at framed
  rcases frameBody_eq_ok.mp framed with ⟨small, bytes⟩
  have fields : encodedLen batch.toPb.fields ≤ batch.payload.length + 51 :=
    encodedLen_fields_le bounded
  have message := length_encode_message (show 4 < 16 by decide) batch.toPb.fields
  have inner := @length_varint_le_four (encodedLen batch.toPb.fields) (by omega)
  have outer := length_varint_le_four small
  have overhead : bootstrapBatchFrameOverhead = 64 := rfl
  rw [bytes, List.length_append]
  omega

/-! ## The batches of a Bootstrap -/

theorem u32TryFrom_lt {value result : ℕ} {text : String}
    (fits : u32TryFrom value text = .ok result) : value < 2 ^ 32 := by
  rw [u32TryFrom] at fits
  split_ifs at fits with small
  exact small

variable {serverId : ServerId} {sessionId : SessionId}

/-- The batches so far are within their bounds, and carry the bytes that are counted. -/
structure SplitBootstrap.Counted (split : SplitBootstrap) : Prop where
  bounded : ∀ batch ∈ split.batches, batch.Bounded
  total : (split.batches.map fun batch => batch.payload.length).sum = split.totalPayloadSize
  limit : split.totalPayloadSize ≤ maxBootstrapTotalSize
  few : split.batches.length ≤ maxBootstrapBatches

theorem SplitBootstrap.Counted.splitRecord {split next : SplitBootstrap}
    {record : BootstrapRecord SmolStr} {index : ℕ} (counted : split.Counted)
    (splits : Condr.splitRecord prost memory serverId sessionId split (record, index) = .ok next) :
    next.Counted := by
  have recordIndex : index < 2 ^ 32 := by
    simp only [Condr.splitRecord, Lists.bind_eq_ok] at splits
    rcases splits with ⟨_, fits, -⟩
    exact u32TryFrom_lt fits
  rcases splitRecord_eq_ok splits with
    ⟨_, payload, -, -, -, -, total, limit, batches, few⟩
  have pieces : split.batches.length + Chunks.count maxChunkPayloadSize payload ≤
      maxBootstrapBatches := by
    rw [batches, List.length_append, List.length_map, List.length_range] at few
    exact few
  have small : maxBootstrapBatches < 2 ^ 32 := by decide
  refine ⟨?_, ?_, limit, few⟩
  · intro batch member
    rw [batches, List.mem_append] at member
    rcases member with before | new
    · exact counted.bounded batch before
    · rcases List.mem_map.mp new with ⟨chunk, inside, rfl⟩
      rw [List.mem_range] at inside
      refine ⟨?_, recordIndex, ?_, ?_, Chunks.length_chunk_le⟩
      all_goals
        dsimp only [BootstrapAssembler.recordBatch]
        omega
  · have carried : ((List.range (Chunks.count maxChunkPayloadSize payload)).map fun chunk =>
        (Chunks.chunk maxChunkPayloadSize payload chunk).length).sum = payload.length := by
      have whole := congrArg List.length
        (@Chunks.flatten_chunks _ _ payload BootstrapAssembler.maxChunkPayloadSize_pos)
      rw [List.length_flatten, Chunks.chunks, List.map_map] at whole
      exact whole
    rw [batches, List.map_append, List.sum_append, counted.total, total, List.map_map]
    congr 1

theorem SplitBootstrap.Counted.splitRecords {records : List (BootstrapRecord SmolStr)} {index : ℕ}
    {split final : SplitBootstrap} (counted : split.Counted)
    (splits : (records.zipIdx index).foldlM (Condr.splitRecord prost memory serverId sessionId)
      split = .ok final) : final.Counted := by
  induction records generalizing split index with
  | nil =>
      cases Except.ok.inj splits
      exact counted
  | cons record records induction =>
      rw [List.zipIdx_cons, List.foldlM_cons, Lists.bind_eq_ok] at splits
      rcases splits with ⟨next, first, rest⟩
      exact induction (counted.splitRecord first) rest

theorem splitBootstrapRecords_counted {records : List (BootstrapRecord SmolStr)}
    {batches : List BootstrapBatch} {baselines : TerminalBaselines}
    (splits : splitBootstrapRecords prost memory serverId sessionId records =
      .ok (batches, baselines)) :
    (∀ batch ∈ batches, batch.Bounded) ∧
      (batches.map fun batch => batch.payload.length).sum ≤ maxBootstrapTotalSize ∧
      batches.length ≤ maxBootstrapBatches := by
  rw [splitBootstrapRecords, Lists.bind_eq_ok] at splits
  rcases splits with ⟨split, splits, same⟩
  cases Except.ok.inj same
  have empty : SplitBootstrap.Counted { batches := [], baselines := [], totalPayloadSize := 0 } :=
    ⟨fun _ member => absurd member List.not_mem_nil, rfl, Nat.zero_le _, Nat.zero_le _⟩
  have counted := empty.splitRecords splits
  exact ⟨counted.bounded, counted.total ▸ counted.limit, counted.few⟩

/-- The frames of a Bootstrap keep to the limits. -/
theorem frames_within {bootstrap : SessionBootstrap SmolStr} {framed : FramedBootstrap}
    (writes : prost.WritesBatches)
    (frames : frameBootstrapMessages prost memory bootstrap = .ok framed) :
    (∀ frame ∈ framed.frames, ∃ body, frameBody body maxFrameSize = .ok frame) ∧
      (framed.frames.map List.length).sum ≤ maxFramedBootstrapBytes := by
  have bodies : ∀ {message frame}, frameMessage prost message = .ok frame →
      ∃ body, frameBody body maxFrameSize = .ok frame := by
    intro message frame framed
    rcases frameMessage_eq_ok.mp framed with ⟨wire, -, body⟩
    exact ⟨_, body⟩
  rcases frameBootstrapMessages_cases frames with
    ⟨batches, first, rest, splits, written, header, batchFrames⟩
  rcases splitBootstrapRecords_counted splits with ⟨bounded, limit, few⟩
  rw [written]
  constructor
  · intro frame member
    rcases List.mem_cons.mp member with rfl | inRest
    · exact bodies header
    · rcases List.getElem_of_mem inRest with ⟨index, inside, rfl⟩
      exact bodies (batchFrames.get (batchFrames.length_eq ▸ inside) inside)
  · -- every batch adds its overhead to its payload
    have carried : (rest.map List.length).sum ≤
        (batches.map fun batch => batch.payload.length).sum +
          batches.length * bootstrapBatchFrameOverhead := by
      clear splits limit few written header
      induction batchFrames with
      | nil => simp
      | @cons batch frame batches rest framed _ induction =>
          have one := length_batch_frame_le writes
            (bounded batch List.mem_cons_self) framed
          have others := induction fun other member =>
            bounded other (List.mem_cons_of_mem batch member)
          simp only [List.map_cons, List.sum_cons, List.length_cons, Nat.add_mul, Nat.one_mul]
          omega
    have overheads : batches.length * bootstrapBatchFrameOverhead ≤
        maxBootstrapBatches * bootstrapBatchFrameOverhead := Nat.mul_le_mul_right _ few
    rcases bodies header with ⟨body, header⟩
    have headerFrame := length_frame_le header
    rw [List.map_cons, List.sum_cons, maxFramedBootstrapBytes]
    omega

/-! ## Behind the lag notice -/

variable {notice : Frame}

/-- What sends nothing reliable starts no lag, and ends no writer of a queue that lags. -/
theorem step_lagged_of_no_item {state : State} {action : Action} (silent : action.item? = none)
    (lagged : (step state action).lagged = true) :
    state.lagged = true ∧ (step state action).writerAlive = state.writerAlive := by
  cases action with
  | recv =>
      revert lagged
      simp only [step, perform, State.recv]
      split
      · exact fun lagged => ⟨lagged, rfl⟩
      · split <;> exact fun lagged => ⟨lagged, rfl⟩
  | sendClipboard data =>
      revert lagged
      simp only [step, perform, State.sendClipboard]
      split <;> exact fun lagged => ⟨lagged, rfl⟩
  | trySendRender frames =>
      revert lagged
      simp only [step, perform, State.trySendRender]
      split
      · exact fun lagged => ⟨lagged, rfl⟩
      · split
        · exact fun lagged => ⟨lagged, rfl⟩
        · split <;> exact fun lagged => ⟨lagged, rfl⟩
  | resumeAfterLag =>
      revert lagged
      simp only [step, perform, State.resumeAfterLag]
      split
      · exact fun lagged => ⟨lagged, rfl⟩
      · intro lagged
        cases lagged
  | close => cases lagged
  | clearRender => exact ⟨lagged, rfl⟩
  | cloneWriter => exact ⟨lagged, rfl⟩
  | dropWriter => exact ⟨lagged, rfl⟩
  | sendReliable data => cases silent
  | sendReliableBatch frames => cases silent
  | sendClosingReliable data => cases silent

/-- A queue that lags still has its writer. -/
theorem run_alive_of_lagged (small : notice.length ≤ maxReliableQueueBytes)
    (actions : List Action)
    (lagged : (Runs.run step (channel (some notice)) actions).lagged = true) :
    (Runs.run step (channel (some notice)) actions).writerAlive = true := by
  have keeps (state : State) (action : Action)
      (holds : Sound notice state ∧ (state.lagged = true → state.writerAlive = true)) :
      Sound notice (step state action) ∧
        ((step state action).lagged = true → (step state action).writerAlive = true) := by
    refine ⟨step_sound small holds.1 action, ?_⟩
    intro lagged
    cases sends : action.item? with
    | some item =>
        rcases perform_send sends holds.1.noticed with
          ⟨_, _, sent⟩ | ⟨accepts, sent⟩ | ⟨accepts, _, _, _, _, _, sent⟩
        · rw [step, sent] at lagged ⊢
          exact holds.2 lagged
        · rw [step, sent]
          exact accepts.1
        · rw [step, sent] at lagged
          exact absurd lagged (by simp [accepts.2])
    | none =>
        rcases step_lagged_of_no_item sends lagged with ⟨before, alive⟩
        rw [alive]
        exact holds.2 before
  have starts : (channel (some notice)).lagged = true →
      (channel (some notice)).writerAlive = true := fun _ => rfl
  exact (Runs.run_invariant keeps ⟨sound_channel notice, starts⟩ actions).2 lagged

/-- A queue with the lag notice alone, or with nothing, has room for a framed Bootstrap. -/
theorem fits_batch {state : State} {frames : List Frame} (sound : Sound notice state)
    (small : notice.length ≤ maxFrameSize + maxFramePrefix)
    (queue : state.reliable = [] ∨ state.reliable = [.reliable notice])
    (bytes : (frames.map List.length).sum ≤ maxFramedBootstrapBytes) :
    state.Fits (.reliableBatch frames) := by
  have size : reliableItemBytes (.reliableBatch frames) ≤ (frames.map List.length).sum := by
    rw [reliableItemBytes, batchBytes_eq]
    exact Nat.min_le_right _ _
  have counted := sound.counted
  have items : 1 < maxReliableQueueItems := by decide
  unfold State.Fits
  rw [maxReliableQueueBytes]
  rcases queue with queue | queue
  · rw [queue] at counted ⊢
    rw [List.map_nil, List.sum_nil] at counted
    rw [List.length_nil]
    omega
  · rw [queue] at counted ⊢
    rw [List.map_singleton, List.sum_singleton, ClientWriteItem.size, ClientWriteItem.frames,
      List.map_singleton, List.sum_singleton] at counted
    rw [List.length_singleton]
    omega

/-- The frames of a Bootstrap keep to the limits, one by one and together: `MAX_FRAME_SIZE` bounds
the body of a frame, behind its length. Whatever happened to a client's queue before, a Bootstrap
is not refused room where nothing waits but the lag notice, and a queue that lags takes it once it
is resumed. -/
theorem recovery_bootstrap_fits {prost : Prost} {memory : Memory} (writes : prost.WritesBatches)
    {bootstrap : SessionBootstrap SmolStr} {framed : FramedBootstrap}
    (frames : frameBootstrapMessages prost memory bootstrap = .ok framed) :
    (∀ frame ∈ framed.frames, ∃ body, body.length ≤ maxFrameSize ∧
      frame = varint body.length ++ body) ∧
    (framed.frames.map List.length).sum ≤ maxFramedBootstrapBytes ∧
    ∀ lagNotice notice, frameBody lagNotice maxFrameSize = .ok notice → ∀ actions,
      let state := Runs.run step (channel (some notice)) actions
      (state.reliable = [] ∨ state.reliable = [.reliable notice] →
        (state.reserveReliable (batchBytes framed.frames)).2 = .ok ()) ∧
      (state.lagged = true →
        (perform state.resumeAfterLag (.sendReliableBatch framed.frames)).2 = .sent (.ok ())) := by
  rcases frames_within writes frames with ⟨each, total⟩
  refine ⟨?_, total, ?_⟩
  · intro frame member
    rcases each frame member with ⟨body, framed⟩
    exact ⟨body, frameBody_eq_ok.mp framed⟩
  · intro lagNotice notice framesNotice actions
    have short := length_frame_le framesNotice
    have small : notice.length ≤ maxReliableQueueBytes := short.trans (by decide)
    have sound := run_sound small actions
    constructor
    · intro queue
      have reserved := reserveReliable_of_fits (fits_batch sound short queue total)
      exact congrArg Prod.snd reserved
    · intro lagged
      have alive := run_alive_of_lagged small actions lagged
      have resumed := step_sound small sound .resumeAfterLag
      have queue := sound.laggedQueue lagged
      generalize Runs.run step (channel (some notice)) actions = state at *
      have next : state.resumeAfterLag =
          { state with clipboard := none, render := none, lagged := false } := by
        simp [State.resumeAfterLag, lagged]
      have fits : state.resumeAfterLag.Fits (.reliableBatch framed.frames) :=
        fits_batch resumed short (by rw [next]; exact queue) total
      have accepts : state.resumeAfterLag.Accepts := by
        rw [next]
        exact ⟨alive, rfl⟩
      rw [perform, State.sendReliableBatch, sendItem_of_fits accepts fits]
      rfl

/-! ## A small Bootstrap -/

/-- The fields of a header whose Session has no Workspace. -/
def emptyHeaderFields (header : Pb.BootstrapHeader) : List Protobuf.Field :=
  uint 1 header.serverId ++
    optionalMessage 2 (header.runtimeEpoch.map fun epoch =>
      Protobuf.bytes 1 ((List.range 16).map fun place =>
        UInt8.ofNat (epoch.toNat / 256 ^ (15 - place)))) ++
    uint 3 header.sessionId ++ uint 4 header.sequence ++
    optionalMessage 5 (header.snapshot.map fun _ => []) ++
    optionalMessage 6 (header.settings.map fun settings =>
      Protobuf.string 1 settings.shell ++ Protobuf.string 2 settings.defaultShell ++
        optionalMessage 3 (settings.proxy.map fun proxy =>
          Protobuf.int 1 proxy.mode ++ Protobuf.string 2 proxy.url) ++
        Protobuf.flag 4 settings.shellIntegration) ++
    uint 7 header.batchCount

/-- Code that writes the messages of an example. -/
def sizedProst : Prost where
  encodeRecord := zoomedProst.encodeRecord
  decodeRecord := zoomedProst.decodeRecord
  encodeMessage
    | .bootstrap header => Protobuf.encode (Protobuf.message 1 (emptyHeaderFields header))
    | .bootstrapBatch batch => Protobuf.encode (Protobuf.message 4 batch.fields)

def zoomedBootstrap : SessionBootstrap SmolStr :=
  (sampleHeader 0).bootstrap [.zoomedPane ⟨7⟩, .zoomedPane ⟨9⟩]

theorem recovery_bootstrap_fits_example :
    ∃ framed, frameBootstrapMessages sizedProst (fun _ => "") zoomedBootstrap = .ok framed ∧
      framed.frames.length = 3 ∧
      (framed.frames.map List.length).sum ≤ maxFramedBootstrapBytes ∧
      (perform (Runs.run step (channel (some [0]))
        (List.replicate 513 (.sendReliable [1]))).resumeAfterLag
          (.sendReliableBatch framed.frames)).2 = .sent (.ok ()) := by
  have frames : frameBootstrapMessages sizedProst (fun _ => "") zoomedBootstrap =
      .ok { frames := _, baselines := [] } := rfl
  have fits := recovery_bootstrap_fits (fun _ => rfl) frames
  exact ⟨_, frames, rfl, fits.2.1,
    (fits.2.2 [] [0] rfl (List.replicate 513 (.sendReliable [1]))).2 (by decide +kernel)⟩

end Condr
