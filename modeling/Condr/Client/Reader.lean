import Condr.Client.ChunkAssembly

/-!
# The reader of a connection

One message after the other, the reader hands on what the Server wrote. Terminal frames go to
the visual slot, a record of chunks once it is whole. A reliable message that is not on the
fence's list gives an open record up.
-/

namespace Condr

open ClientWriter (maxBootstrapBatches)

inductive SessionEventKind where
  | layoutChanged
  | terminalExited
  | agentChanged
  | workspaceGitChanged
  | workspaceFilesChanged
  | terminalTitleChanged
  | terminalProgressChanged
  | terminalNotification
  | commandFinished
  | terminalAttentionChanged
  | agentUnseenChanged
  | serverSettingsChanged
  | activated
  | omitted
deriving DecidableEq

inductive UnknownMessage where
  | event
  | terminalFrame
  | reply
deriving DecidableEq

/-- A `ServerMessage`, with what the reader looks at. -/
inductive ReadMessage where
  | bootstrap (serverId : ServerId) (sessionId : SessionId) (batchCount : ℕ)
  | overview
  | overviewTerminals
  | bootstrapBatch
  | subscribed
  | snapshotRejected
  | subscriptionRejected
  | event (event : SessionEventKind)
  | terminalFrame (batch : TerminalFrameBatch String)
  | terminalFrameChunk (chunk : TerminalFrameChunk)
  | pong
  | layoutRejected
  | layoutApplied
  | terminalCopied
  | paneText
  | gitDiff
  | gitOldFile
  | gitLog
  | gitCommit
  | directory
  | fileContent
  | fileMutated
  | browsedDirectory
  | agentResult
  | terminalClipboard
  | serverStopping
  | devicesRevoked
  | connectedDevices
  | serverAdmin
  | error
  | unknown (message : UnknownMessage)

/-! ## The fence -/

/-- The messages that leave an open record as it is. -/
def ReadMessage.passesFence : ReadMessage → Bool
  | terminalFrame _ => true
  | terminalFrameChunk _ => true
  | terminalClipboard => true
  | event .activated => true
  | event .agentChanged => true
  | event .workspaceGitChanged => true
  | event .workspaceFilesChanged => true
  | event .terminalTitleChanged => true
  | event .terminalAttentionChanged => true
  | event .agentUnseenChanged => true
  | _ => false

def enforceTerminalChunkReliableFence (assembly : Option TerminalFrameChunkAssembly)
    (message : ReadMessage) : Option TerminalFrameChunkAssembly × Except String Unit :=
  if assembly.isNone || message.passesFence then (assembly, .ok ())
  else (none, .error "reliable server message interrupted a terminal frame record")

def terminalChunkIdentityMatches (assembly : Option TerminalFrameChunkAssembly)
    (chunk : TerminalFrameChunk) (serverId : ServerId) (sessionId : SessionId) :
    Option TerminalFrameChunkAssembly × Except String Bool :=
  if chunk.serverId = serverId ∧ chunk.sessionId = sessionId then (assembly, .ok true)
  else if assembly.isSome then
    (none, .error "terminal frame chunk identity changed during a record")
  else (none, .ok false)

/-! ## The loop -/

/-- A Bootstrap whose header was read, and the number of batches that are left of it. -/
structure ReadingBootstrap where
  serverId : ServerId
  sessionId : SessionId
  batchesLeft : ℕ
deriving DecidableEq

structure Reader where
  serverId : ServerId
  sessionId : SessionId
  resyncPending : Bool
  assembly : Option TerminalFrameChunkAssembly
  /-- The reader is within `read_bootstrap_batches`. -/
  bootstrap : Option ReadingBootstrap
  ended : Bool
deriving DecidableEq

/-- What the reader meets around one message. -/
structure Surroundings where
  watched : Option (List PaneId)
  /-- The owner takes what is delivered. -/
  delivers : Bool
  /-- The visual slot takes a batch. -/
  publishes : Bool
  /-- The header or the batch is one that the assembler takes. -/
  assembles : Bool

/-- What the reader hands on. -/
inductive Delivery where
  | bootstrap
  | message (message : ReadMessage)
  | published (batch : TerminalFrameBatch String)
  | terminalResync
  | disconnected

namespace Reader

def start (serverId : ServerId) (sessionId : SessionId) : Reader where
  serverId := serverId
  sessionId := sessionId
  resyncPending := false
  assembly := none
  bootstrap := none
  ended := false

def deliver (around : Surroundings) (delivery : Delivery) (reader : Reader) :
    Reader × List Delivery :=
  ({ reader with ended := !around.delivers }, [delivery])

def disconnect (reader : Reader) : Reader × List Delivery :=
  ({ reader with ended := true }, [.disconnected])

def requestTerminalResync (around : Surroundings) (reader : Reader) : Reader × List Delivery :=
  deliver around .terminalResync { reader with resyncPending := true }

def publishTerminalBatch (around : Surroundings) (batch : TerminalFrameBatch String)
    (reader : Reader) : Reader × List Delivery :=
  if around.publishes then deliver around (.published batch) reader
  else requestTerminalResync around reader

/-- Goes on with another step, unless the reader ended. -/
def andThen (taken : Reader × List Delivery) (next : Reader → Reader × List Delivery) :
    Reader × List Delivery :=
  if taken.1.ended then taken
  else ((next taken.1).1, taken.2 ++ (next taken.1).2)

def finishBootstrap (around : Surroundings) (serverId : ServerId) (sessionId : SessionId)
    (reader : Reader) : Reader × List Delivery :=
  deliver around .bootstrap { reader with
    serverId
    sessionId
    resyncPending := false
    assembly := none
    bootstrap := none }

/-- A message in the place of a batch. -/
def readBatch (around : Surroundings) (reading : ReadingBootstrap) (reader : Reader)
    (message : ReadMessage) : Reader × List Delivery :=
  match message with
  | .bootstrapBatch =>
      if !around.assembles then reader.disconnect
      else if reading.batchesLeft ≤ 1 then
        reader.finishBootstrap around reading.serverId reading.sessionId
      else
        ({ reader with bootstrap := some { reading with batchesLeft := reading.batchesLeft - 1 } },
          [])
  | _ => reader.disconnect

/-- The arms behind the fence. -/
def take (codec : PaneCodec) (around : Surroundings) (message : ReadMessage) (reader : Reader) :
    Reader × List Delivery :=
  match message with
  | .unknown .terminalFrame =>
      andThen (requestTerminalResync around { reader with assembly := none })
        (deliver around (.message message))
  | .terminalFrame batch =>
      if reader.resyncPending then (reader, [])
      else if reader.assembly.isSome then
        requestTerminalResync around { reader with assembly := none }
      else if batch.serverId ≠ reader.serverId ∨ batch.sessionId ≠ reader.sessionId then (reader, [])
      else publishTerminalBatch around batch reader
  | .terminalFrameChunk chunk =>
      if reader.resyncPending then (reader, [])
      else
        match terminalChunkIdentityMatches reader.assembly chunk reader.serverId reader.sessionId with
        | (assembly, .error _) => requestTerminalResync around { reader with assembly }
        | (assembly, .ok false) => ({ reader with assembly }, [])
        | (assembly, .ok true) =>
            match assembleTerminalFrameChunk codec around.watched assembly chunk with
            | (assembly, .ok (some pane)) =>
                publishTerminalBatch around {
                  serverId := reader.serverId
                  sessionId := reader.sessionId
                  panes := [pane] } { reader with assembly }
            | (assembly, .ok none) => ({ reader with assembly }, [])
            | (_, .error _) => requestTerminalResync around { reader with assembly := none }
  | .bootstrap serverId sessionId batchCount =>
      if maxBootstrapBatches < batchCount || !around.assembles then reader.disconnect
      else if batchCount = 0 then reader.finishBootstrap around serverId sessionId
      else
        ({ reader with bootstrap := some { serverId, sessionId, batchesLeft := batchCount } }, [])
  | .bootstrapBatch => reader.disconnect
  | message => deliver around (.message message) reader

/-- One message of the loop. -/
def read (codec : PaneCodec) (around : Surroundings) (reader : Reader) (message : ReadMessage) :
    Reader × List Delivery :=
  if reader.ended then (reader, [])
  else
    match reader.bootstrap with
    | some reading => reader.readBatch around reading message
    | none =>
        match enforceTerminalChunkReliableFence reader.assembly message with
        | (assembly, .ok ()) => take codec around message { reader with assembly }
        | (assembly, .error _) =>
            match message with
            | .bootstrap .. => take codec around message { reader with assembly }
            | .serverStopping => take codec around message { reader with assembly }
            | .bootstrapBatch => disconnect { reader with assembly }
            | _ =>
                andThen (requestTerminalResync around { reader with assembly })
                  (take codec around message)

/-- The reader behind some messages, each with what was around it. -/
def readAll (codec : PaneCodec) (reader : Reader) (messages : List (ReadMessage × Surroundings)) :
    Reader :=
  messages.foldl (fun reader entry => (read codec entry.2 reader entry.1).1) reader

end Reader

end Condr
