import Condr.Foundation.Chunks
import Condr.Protocol.Bootstrap

/-!
# Framing a Bootstrap

The Server writes a Bootstrap's records as chunks that fit a frame, in batches numbered
across the records, and its header with their number. What does not fit the limits of the
assembler is refused here.
-/

namespace Condr

open ClientWriter (maxFrameSize maxBootstrapBatches maxBootstrapTotalSize)

/-- The views that the batches carry, as a client will hold them. -/
abbrev TerminalBaselines := List (PaneId × TerminalView SmolStr)

/-- Why there are no messages: an I/O error's text, or a panic. -/
inductive SplitFault where
  | io (text : String)
  | panicked
deriving DecidableEq

structure SplitBootstrap where
  batches : List BootstrapBatch
  baselines : TerminalBaselines
  totalPayloadSize : ℕ

def u32TryFrom (value : ℕ) (text : String) : Except SplitFault ℕ :=
  if value < 2 ^ 32 then .ok value else .error (.io text)

/-- The record with its view's links limited to what the wire has room for. -/
def normalizeRecord (memory : Memory) :
    BootstrapRecord SmolStr → Except SplitFault (BootstrapRecord SmolStr)
  | .terminal snapshot =>
      match snapshot.view with
      | none => .ok (.terminal snapshot)
      | some view =>
          match view.normalizeHyperlinksForWire memory with
          | none => .error .panicked
          | some (view, _) => .ok (.terminal (snapshot.withView (some view)))
  | record => .ok record

/-- The body of the loop over a record's chunks. -/
def pushChunk (serverId : ServerId) (sessionId : SessionId) (recordIndex chunkCount : ℕ)
    (batches : List BootstrapBatch) (piece : List UInt8 × ℕ) :
    Except SplitFault (List BootstrapBatch) :=
  if maxBootstrapBatches ≤ batches.length then
    .error (.io ("Bootstrap exceeds the " ++ toString maxBootstrapBatches ++ "-batch limit"))
  else do
    let batchIndex ← u32TryFrom batches.length "too many Bootstrap batches"
    let chunkIndex ← u32TryFrom piece.2 "too many Bootstrap record chunks"
    .ok (batches ++ [{
      serverId
      sessionId
      batchIndex
      recordIndex
      chunkIndex
      chunkCount
      payload := piece.1 }])

def recordBaseline : BootstrapRecord SmolStr → TerminalBaselines
  | .terminal snapshot => (snapshot.view.map fun view => (snapshot.paneId, view)).toList
  | _ => []

/-- The body of the loop over the records. -/
def splitRecord (prost : Prost) (memory : Memory) (serverId : ServerId) (sessionId : SessionId)
    (split : SplitBootstrap) (item : BootstrapRecord SmolStr × ℕ) :
    Except SplitFault SplitBootstrap := do
  let recordIndex ← u32TryFrom item.2 "too many Bootstrap records"
  let record ← normalizeRecord memory item.1
  let payload ← (encodeBootstrapRecord prost memory record).mapError .io
  match checkedAdd split.totalPayloadSize payload.length with
  | none => .error (.io "Bootstrap aggregate size overflowed usize")
  | some totalPayloadSize =>
      if maxBootstrapTotalSize < totalPayloadSize then
        .error (.io ("Bootstrap exceeds the " ++ toString maxBootstrapTotalSize ++
          "-byte aggregate limit"))
      else
        let chunkCount ← u32TryFrom (Chunks.count maxChunkPayloadSize payload)
          "too many Bootstrap record chunks"
        let batches ← (Chunks.chunks maxChunkPayloadSize payload).zipIdx.foldlM
          (pushChunk serverId sessionId recordIndex chunkCount) split.batches
        if chunkCount = 0 then
          .error (.io "Bootstrap record encoded to an empty payload")
        else .ok {
          batches
          baselines := split.baselines ++ recordBaseline record
          totalPayloadSize }

def splitBootstrapRecords (prost : Prost) (memory : Memory) (serverId : ServerId)
    (sessionId : SessionId) (records : List (BootstrapRecord SmolStr)) :
    Except SplitFault (List BootstrapBatch × TerminalBaselines) := do
  let split ← records.zipIdx.foldlM (splitRecord prost memory serverId sessionId)
    { batches := [], baselines := [], totalPayloadSize := 0 }
  .ok (split.batches, split.baselines)

/-- The records of a Bootstrap, in the order they are sent in. -/
def SessionBootstrap.records {Link : Type} (bootstrap : SessionBootstrap Link) :
    List (BootstrapRecord Link) :=
  bootstrap.terminals.map .terminal ++ bootstrap.agents.map .agent ++
    bootstrap.workspaceGit.map .workspaceGit ++ bootstrap.zoomedPanes.map .zoomedPane

/-- The header of a Bootstrap in so many batches. -/
def SessionBootstrap.header {Link : Type} (bootstrap : SessionBootstrap Link) (batchCount : ℕ) :
    BootstrapHeader where
  serverId := bootstrap.serverId
  runtimeEpoch := bootstrap.runtimeEpoch
  sessionId := bootstrap.sessionId
  sequence := bootstrap.sequence
  snapshot := bootstrap.snapshot
  settings := bootstrap.settings
  batchCount := batchCount

structure FramedBootstrap where
  frames : List (List UInt8)
  baselines : TerminalBaselines

def frameBootstrapMessages (prost : Prost) (memory : Memory)
    (bootstrap : SessionBootstrap SmolStr) : Except SplitFault FramedBootstrap := do
  let (batches, baselines) ← splitBootstrapRecords prost memory bootstrap.serverId
    bootstrap.sessionId bootstrap.records
  let batchCount ← u32TryFrom batches.length "too many Bootstrap batches"
  let first ← (frameMessage prost (.bootstrap (bootstrap.header batchCount))).mapError .io
  let frames ← batches.mapM fun batch => (frameMessage prost (.bootstrapBatch batch)).mapError .io
  .ok { frames := first :: frames, baselines }

end Condr
