import Condr.Protocol.BootstrapRecord
import Condr.Server.ClientWriter

/-!
# Bootstraps

A Session's whole state for a client: a header, and batches that carry the records in
chunks. The assembler takes the batches one at a time, and gives the state back only when
every batch that the header declares came in its place.
-/

namespace Condr

open ClientWriter (maxFrameSize maxBootstrapBatches maxBootstrapTotalSize)

def maxChunkedRecordSize : ℕ := 24 * 1024 * 1024
def maxChunkPayloadSize : ℕ := maxFrameSize - 256

structure ServerId where
  value : ℕ
deriving DecidableEq

structure SessionId where
  value : ℕ
deriving DecidableEq

structure RuntimeEpoch where
  value : BitVec 128
deriving DecidableEq

inductive ProxyMode where
  | system
  | none
  | manual
deriving DecidableEq

structure ProxySetting where
  mode : ProxyMode
  url : String
deriving DecidableEq

structure ServerSettings where
  shell : String
  defaultShell : String
  proxy : ProxySetting
  shellIntegration : Bool
deriving DecidableEq

structure BootstrapHeader where
  serverId : ServerId
  runtimeEpoch : RuntimeEpoch
  sessionId : SessionId
  sequence : ℕ
  snapshot : SessionSnapshot
  settings : ServerSettings
  batchCount : ℕ

structure SessionBootstrap (Link : Type) where
  serverId : ServerId
  runtimeEpoch : RuntimeEpoch
  sessionId : SessionId
  sequence : ℕ
  snapshot : SessionSnapshot
  settings : ServerSettings
  terminals : List (PaneTerminalSnapshot Link)
  agents : List PaneAgentSnapshot
  workspaceGit : List WorkspaceGitSnapshot
  zoomedPanes : List PaneId

structure BootstrapBatch where
  serverId : ServerId
  sessionId : SessionId
  batchIndex : ℕ
  recordIndex : ℕ
  chunkIndex : ℕ
  chunkCount : ℕ
  payload : List UInt8
deriving DecidableEq

/-- The messages that carry a Bootstrap. -/
inductive ServerMessage where
  | bootstrap (header : BootstrapHeader)
  | bootstrapBatch (batch : BootstrapBatch)

namespace Pb

structure ProxySetting where
  mode : ℤ
  url : String

structure ServerSettings where
  shell : String
  defaultShell : String
  proxy : Option ProxySetting
  shellIntegration : Bool

structure BootstrapHeader where
  serverId : ℕ
  runtimeEpoch : Option (BitVec 128)
  sessionId : ℕ
  sequence : ℕ
  snapshot : Option SessionSnapshot
  settings : Option ServerSettings
  batchCount : ℕ

structure BootstrapBatch where
  serverId : ℕ
  sessionId : ℕ
  batchIndex : ℕ
  recordIndex : ℕ
  chunkIndex : ℕ
  chunkCount : ℕ
  payload : List UInt8

inductive ServerMessage where
  | bootstrap (header : BootstrapHeader)
  | bootstrapBatch (batch : BootstrapBatch)

end Pb

/-- What the generated code writes for a message, and reads from bytes. -/
structure Prost where
  encodeRecord : Pb.BootstrapRecord → List UInt8
  decodeRecord : List UInt8 → Except String Pb.BootstrapRecord
  encodeMessage : Pb.ServerMessage → List UInt8

/-! ## Encoding -/

def ProxyMode.toWire : ProxyMode → ℤ
  | system => 1
  | none => 2
  | manual => 3

def encodeProxy (proxy : ProxySetting) : Pb.ProxySetting where
  mode := proxy.mode.toWire
  url := proxy.url

def encodeSettings (settings : ServerSettings) : Pb.ServerSettings where
  shell := settings.shell
  defaultShell := settings.defaultShell
  proxy := some (encodeProxy settings.proxy)
  shellIntegration := settings.shellIntegration

def BootstrapHeader.toWire (header : BootstrapHeader) : Except String Pb.BootstrapHeader := do
  let snapshot ← header.snapshot.toWire
  .ok {
    serverId := header.serverId.value
    runtimeEpoch := some header.runtimeEpoch.value
    sessionId := header.sessionId.value
    sequence := header.sequence
    snapshot := some snapshot
    settings := some (encodeSettings header.settings)
    batchCount := header.batchCount }

def ServerMessage.toWire : ServerMessage → Except String Pb.ServerMessage
  | bootstrap header => header.toWire.map .bootstrap
  | bootstrapBatch batch => .ok (.bootstrapBatch {
      serverId := batch.serverId.value
      sessionId := batch.sessionId.value
      batchIndex := batch.batchIndex
      recordIndex := batch.recordIndex
      chunkIndex := batch.chunkIndex
      chunkCount := batch.chunkCount
      payload := batch.payload })

/-- `frame_body`. -/
def frameBody (body : List UInt8) (limit : ℕ) : Except String (List UInt8) :=
  if limit < body.length then
    .error ("frame size " ++ toString body.length ++ " exceeds maximum " ++ toString limit)
  else .ok (Protobuf.varint body.length ++ body)

def frameMessage (prost : Prost) (message : ServerMessage) : Except String (List UInt8) := do
  let wire ← message.toWire.mapError ("protocol codec error: " ++ ·)
  frameBody (prost.encodeMessage wire) maxFrameSize

def encodeBootstrapRecord (prost : Prost) (memory : Memory) (record : BootstrapRecord SmolStr) :
    Except String (List UInt8) :=
  let payload := prost.encodeRecord (record.toWire memory)
  if maxChunkedRecordSize < payload.length then
    .error ("Bootstrap record is " ++ toString payload.length ++ " bytes; limit is " ++
      toString maxChunkedRecordSize ++ " bytes")
  else .ok payload

/-! ## Decoding -/

def WireError.text : WireError → String
  | malformed reason => reason
  | unknown => "a value from a newer protocol"

/-- The first text is of a panic. -/
def ReadFault.text : ReadFault → String
  | outOfRange => "index out of bounds"
  | wire error => error.text

def decodeBootstrapRecord (prost : Prost) (payload : List UInt8) :
    Except String (Option (BootstrapRecord String)) := do
  if maxChunkedRecordSize < payload.length then
    .error ("Bootstrap record is " ++ toString payload.length ++ " bytes; limit is " ++
      toString maxChunkedRecordSize ++ " bytes")
  else
    let record ← (prost.decodeRecord payload).mapError ("Bootstrap record cannot be decoded: " ++ ·)
    record.toDomain.mapError fun fault => "Bootstrap record cannot be decoded: " ++ fault.text

/-! ## The assembler -/

structure BootstrapAssembler where
  header : BootstrapHeader
  nextBatchIndex : ℕ
  nextRecordIndex : ℕ
  nextChunkIndex : ℕ
  currentChunkCount : Option ℕ
  currentPayload : List UInt8
  totalPayloadSize : ℕ
  terminals : List (PaneTerminalSnapshot String)
  agents : List PaneAgentSnapshot
  workspaceGit : List WorkspaceGitSnapshot
  zoomedPanes : List PaneId
  terminalIds : List PaneId
  agentIds : List PaneId
  workspaceGitIds : List WorkspaceId
  zoomedPaneIds : List PaneId

def checkedBootstrapTotalSize (current additional : ℕ) : Except String ℕ :=
  match checkedAdd current additional with
  | none => .error "Bootstrap total size overflowed usize"
  | some total =>
      if maxBootstrapTotalSize < total then
        .error ("Bootstrap exceeds the " ++ toString maxBootstrapTotalSize ++
          "-byte aggregate limit")
      else .ok total

/-- `checked_add(1)` on an index of 32 bits. -/
def nextIndex (index : ℕ) (what : String) : Except String ℕ :=
  if index + 1 < 2 ^ 32 then .ok (index + 1)
  else .error ("Bootstrap " ++ what ++ " index overflowed u32")

namespace BootstrapAssembler

def new (header : BootstrapHeader) : Except String BootstrapAssembler :=
  if maxBootstrapBatches < header.batchCount then
    .error ("Bootstrap declares " ++ toString header.batchCount ++ " batches; limit is " ++
      toString maxBootstrapBatches)
  else .ok {
    header := header
    nextBatchIndex := 0
    nextRecordIndex := 0
    nextChunkIndex := 0
    currentChunkCount := none
    currentPayload := []
    totalPayloadSize := 0
    terminals := []
    agents := []
    workspaceGit := []
    zoomedPanes := []
    terminalIds := []
    agentIds := []
    workspaceGitIds := []
    zoomedPaneIds := [] }

/-- What `push` checks before it takes a batch's payload. -/
def checkBatch (assembler : BootstrapAssembler) (batch : BootstrapBatch) : Except String Unit :=
  if assembler.header.batchCount ≤ assembler.nextBatchIndex then
    .error "Bootstrap contains more batches than declared"
  else if batch.serverId ≠ assembler.header.serverId ∨
      batch.sessionId ≠ assembler.header.sessionId then
    .error "Bootstrap batch identity does not match its header"
  else if batch.batchIndex ≠ assembler.nextBatchIndex then
    .error ("Bootstrap batch index " ++ toString batch.batchIndex ++
      " is out of order; expected " ++ toString assembler.nextBatchIndex)
  else if batch.recordIndex ≠ assembler.nextRecordIndex then
    .error ("Bootstrap record index " ++ toString batch.recordIndex ++
      " is out of order; expected " ++ toString assembler.nextRecordIndex)
  else if batch.chunkCount = 0 ∨ batch.chunkCount ≤ batch.chunkIndex then
    .error "Bootstrap batch has an invalid chunk range"
  else if batch.chunkIndex ≠ assembler.nextChunkIndex then
    .error ("Bootstrap chunk index " ++ toString batch.chunkIndex ++
      " is out of order; expected " ++ toString assembler.nextChunkIndex)
  else if batch.payload.isEmpty then
    .error "Bootstrap chunk payload is empty"
  else if maxChunkPayloadSize < batch.payload.length then
    .error ("Bootstrap chunk is " ++ toString batch.payload.length ++ " bytes; limit is " ++
      toString maxChunkPayloadSize ++ " bytes")
  else if assembler.currentChunkCount.any (· != batch.chunkCount) then
    .error "Bootstrap chunk count changed within a record"
  else if assembler.header.batchCount - assembler.nextBatchIndex <
      batch.chunkCount - batch.chunkIndex then
    .error "Bootstrap record cannot fit in the declared batch count"
  else .ok ()

def insertRecord (assembler : BootstrapAssembler) :
    BootstrapRecord String → Except String BootstrapAssembler
  | .terminal terminal =>
      if terminal.paneId ∈ assembler.terminalIds then
        .error "Bootstrap contains a duplicate Terminal Pane ID"
      else .ok { assembler with
        terminalIds := terminal.paneId :: assembler.terminalIds
        terminals := assembler.terminals ++ [terminal] }
  | .agent agent =>
      if agent.paneId ∈ assembler.agentIds then
        .error "Bootstrap contains a duplicate Agent Pane ID"
      else .ok { assembler with
        agentIds := agent.paneId :: assembler.agentIds
        agents := assembler.agents ++ [agent] }
  | .workspaceGit git =>
      if git.workspaceId ∈ assembler.workspaceGitIds then
        .error "Bootstrap contains a duplicate Workspace Git ID"
      else .ok { assembler with
        workspaceGitIds := git.workspaceId :: assembler.workspaceGitIds
        workspaceGit := assembler.workspaceGit ++ [git] }
  | .zoomedPane pane =>
      if pane ∈ assembler.zoomedPaneIds then
        .error "Bootstrap contains a duplicate zoomed Pane ID"
      else .ok { assembler with
        zoomedPaneIds := pane :: assembler.zoomedPaneIds
        zoomedPanes := assembler.zoomedPanes ++ [pane] }

/-- Ends the record whose last chunk came. A kind this build does not know is skipped. -/
def endRecord (prost : Prost) (assembler : BootstrapAssembler) :
    Except String BootstrapAssembler := do
  let record ← decodeBootstrapRecord prost assembler.currentPayload
  let assembler ← match record with
    | none => .ok assembler
    | some record => assembler.insertRecord record
  let nextRecordIndex ← nextIndex assembler.nextRecordIndex "record"
  .ok { assembler with
    currentPayload := []
    currentChunkCount := none
    nextChunkIndex := 0
    nextRecordIndex }

def push (prost : Prost) (assembler : BootstrapAssembler) (batch : BootstrapBatch) :
    Except String BootstrapAssembler := do
  assembler.checkBatch batch
  match checkedAdd assembler.currentPayload.length batch.payload.length with
  | none => .error "Bootstrap record size overflowed usize"
  | some nextSize =>
      if maxChunkedRecordSize < nextSize then
        .error ("Bootstrap record exceeds the " ++ toString maxChunkedRecordSize ++ "-byte limit")
      else
        let totalPayloadSize ←
          checkedBootstrapTotalSize assembler.totalPayloadSize batch.payload.length
        let nextBatchIndex ← nextIndex assembler.nextBatchIndex "batch"
        let nextChunkIndex ← nextIndex assembler.nextChunkIndex "chunk"
        let taken := { assembler with
          currentChunkCount := some batch.chunkCount
          totalPayloadSize
          currentPayload := assembler.currentPayload ++ batch.payload
          nextBatchIndex
          nextChunkIndex }
        if nextChunkIndex = batch.chunkCount then taken.endRecord prost else .ok taken

def finish (assembler : BootstrapAssembler) : Except String (SessionBootstrap String) :=
  if assembler.nextBatchIndex ≠ assembler.header.batchCount then
    .error ("Bootstrap ended after " ++ toString assembler.nextBatchIndex ++ " of " ++
      toString assembler.header.batchCount ++ " declared batches")
  else if assembler.currentChunkCount.isSome ∨ ¬assembler.currentPayload.isEmpty then
    .error "Bootstrap ended in the middle of a record"
  else .ok {
    serverId := assembler.header.serverId
    runtimeEpoch := assembler.header.runtimeEpoch
    sessionId := assembler.header.sessionId
    sequence := assembler.header.sequence
    snapshot := assembler.header.snapshot
    settings := assembler.header.settings
    terminals := assembler.terminals
    agents := assembler.agents
    workspaceGit := assembler.workspaceGit
    zoomedPanes := assembler.zoomedPanes }

/-- A fresh assembler that is given the batches, each of which it accepts. -/
def assemble (prost : Prost) (header : BootstrapHeader) (batches : List BootstrapBatch) :
    Except String BootstrapAssembler := do
  let assembler ← new header
  batches.foldlM (push prost) assembler

end BootstrapAssembler

end Condr
