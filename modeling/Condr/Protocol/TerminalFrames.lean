import Condr.Protocol.Bootstrap

/-!
# Terminal frames on the wire

Frames of several Panes travel in one batch. A frame that no batch has room for travels in
chunks, as the bytes of its own message.
-/

namespace Condr

open ClientWriter (maxFrameSize maxFramePrefix)
open Protobuf (uint)

structure PaneTerminalFrame (Link : Type) where
  paneId : PaneId
  frame : TerminalViewFrame Link

structure TerminalFrameBatch (Link : Type) where
  serverId : ServerId
  sessionId : SessionId
  panes : List (PaneTerminalFrame Link)

structure TerminalFrameChunk where
  serverId : ServerId
  sessionId : SessionId
  paneId : PaneId
  revision : ℕ
  chunkIndex : ℕ
  chunkCount : ℕ
  payload : List UInt8
deriving DecidableEq

/-- `terminal_frame_revision`. -/
def TerminalViewFrame.revision {Link : Type} : TerminalViewFrame Link → ℕ
  | .full view => view.revision
  | .delta update => update.revision

namespace Pb

/-- The member of a frame's oneof. -/
inductive TerminalViewFrameMember where
  | full (view : Pb.TerminalView)
  | delta (delta : Pb.TerminalViewDelta)

structure TerminalViewFrame where
  frame : Option TerminalViewFrameMember

structure PaneTerminalFrame where
  paneId : ℕ
  frame : Option TerminalViewFrame

structure TerminalFrameBatch where
  serverId : ℕ
  sessionId : ℕ
  panes : List PaneTerminalFrame

structure TerminalFrameChunk where
  serverId : ℕ
  sessionId : ℕ
  paneId : ℕ
  revision : ℕ
  chunkIndex : ℕ
  chunkCount : ℕ
  payload : List UInt8

/-- The messages that carry terminal frames. -/
inductive TerminalMessage where
  | terminalFrame (batch : TerminalFrameBatch)
  | terminalFrameChunk (chunk : TerminalFrameChunk)

end Pb

/-- What the generated code writes for the frame of a Pane, and reads from bytes. -/
structure PaneCodec where
  encodePane : Pb.PaneTerminalFrame → List UInt8
  decodePane : List UInt8 → Except String Pb.PaneTerminalFrame

/-! ## Encoding -/

def TerminalViewFrame.toWire (memory : Memory) :
    TerminalViewFrame SmolStr → Pb.TerminalViewFrameMember
  | .full view => .full (view.toWire memory)
  | .delta update => .delta (update.toWire memory)

/-- `WirePaneFrame::new`. -/
def PaneTerminalFrame.toWire (memory : Memory) (pane : PaneTerminalFrame SmolStr) :
    Pb.PaneTerminalFrame where
  paneId := pane.paneId.asU64
  frame := some { frame := some (pane.frame.toWire memory) }

def TerminalFrameChunk.toWire (chunk : TerminalFrameChunk) : Pb.TerminalFrameChunk where
  serverId := chunk.serverId.value
  sessionId := chunk.sessionId.value
  paneId := chunk.paneId.asU64
  revision := chunk.revision
  chunkIndex := chunk.chunkIndex
  chunkCount := chunk.chunkCount
  payload := chunk.payload

namespace Pb

def TerminalFrameBatch.fields (codec : PaneCodec) (batch : TerminalFrameBatch) :
    List Protobuf.Field :=
  uint 1 batch.serverId ++ uint 2 batch.sessionId ++
    batch.panes.map fun pane => .bytes 3 (codec.encodePane pane)

def TerminalFrameChunk.fields (chunk : TerminalFrameChunk) : List Protobuf.Field :=
  uint 1 chunk.serverId ++ uint 2 chunk.sessionId ++
    uint 3 chunk.paneId ++ uint 4 chunk.revision ++
    uint 5 chunk.chunkIndex ++ uint 6 chunk.chunkCount ++
    Protobuf.bytes 7 chunk.payload

def TerminalMessage.encode (codec : PaneCodec) : TerminalMessage → List UInt8
  | terminalFrame batch => Protobuf.encode (Protobuf.message 9 (batch.fields codec))
  | terminalFrameChunk chunk => Protobuf.encode (Protobuf.message 10 chunk.fields)

/-- The bytes this frame adds to a batch, field tag and length included. -/
def PaneTerminalFrame.batchLen (codec : PaneCodec) (pane : PaneTerminalFrame) : ℕ :=
  Protobuf.bytesLen 3 (codec.encodePane pane).length

/-- The frame alone, as a chunked record. -/
def PaneTerminalFrame.encodeRecord (codec : PaneCodec) (pane : PaneTerminalFrame) :
    Except String (List UInt8) :=
  let payload := codec.encodePane pane
  if maxChunkedRecordSize < payload.length then
    .error ("Pane terminal frame is " ++ toString payload.length ++ " bytes; limit is " ++
      toString maxChunkedRecordSize ++ " bytes")
  else .ok payload

/-- A complete frame, its length first. -/
def TerminalMessage.framed (codec : PaneCodec) (message : TerminalMessage) :
    Except String (List UInt8) :=
  frameBody (message.encode codec) maxFrameSize

end Pb

def frameTerminalBatch (codec : PaneCodec) (serverId : ServerId) (sessionId : SessionId)
    (panes : List Pb.PaneTerminalFrame) : Except String (List UInt8) :=
  Pb.TerminalMessage.framed codec
    (.terminalFrame { serverId := serverId.value, sessionId := sessionId.value, panes })

/-- What an empty batch takes, its outer lengths at their widest. -/
def terminalBatchOverhead (codec : PaneCodec) (serverId : ServerId) (sessionId : SessionId) : ℕ :=
  (Pb.TerminalMessage.encode codec
    (.terminalFrame { serverId := serverId.value, sessionId := sessionId.value, panes := [] })).length +
    2 * maxFramePrefix

/-! ## Decoding -/

def Pb.TerminalViewFrame.toDomain (frame : Pb.TerminalViewFrame) :
    ReadResult (Condr.TerminalViewFrame String) := do
  match ← fromWire (member frame.frame) with
  | .full view => view.toDomain.map .full
  | .delta update => update.toDomain.map .delta

def Pb.PaneTerminalFrame.toDomain (pane : Pb.PaneTerminalFrame) :
    ReadResult (Condr.PaneTerminalFrame String) := do
  let frame ← fromWire (required pane.frame "terminal frame")
  let frame ← frame.toDomain
  .ok { paneId := ⟨pane.paneId⟩, frame }

/-- None for a frame from a newer protocol. -/
def decodePaneTerminalFrame (codec : PaneCodec) (payload : List UInt8) :
    Except String (Option (PaneTerminalFrame String)) :=
  if maxChunkedRecordSize < payload.length then
    .error ("Pane terminal frame is " ++ toString payload.length ++ " bytes; limit is " ++
      toString maxChunkedRecordSize ++ " bytes")
  else do
    let pane ← (codec.decodePane payload).mapError
      ("Pane terminal frame cannot be decoded: " ++ ·)
    match pane.toDomain with
    | .ok pane => .ok (some pane)
    | .error (.wire .unknown) => .ok none
    | .error fault => .error ("Pane terminal frame cannot be decoded: " ++ fault.text)

end Condr
