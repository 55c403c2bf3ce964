import Condr.Client.Reader

/-!
# The fence and the queue

The queue of a client's writer hands out reliable items between the rendered frames, and so
between the chunks of a record. The fence rejects a message only there, and only one of a kind
that is a fence for an open record. A rejection costs the client the open record, and nothing
more is rejected before the Bootstrap it asked for.
-/

namespace Condr

open ClientWriter (Frame Action ClientWriteItem)
open Protobuf (encodedLen uint)

variable {codec : PaneCodec} {watched : Option (List PaneId)} {chunk : TerminalFrameChunk}
  {assembly next : Option TerminalFrameChunkAssembly}

namespace Reader

/-- An open record of the client is one that is partly written. -/
structure Follows (written : Bool) (reader : Reader) : Prop where
  within : reader.assembly.isSome = true → written = true
  pending : reader.resyncPending = true → reader.assembly = none
  reading : reader.bootstrap.isSome = true → reader.assembly = none

variable {reader : Reader} {around : Surroundings} {message : ReadMessage} {written : Bool}

theorem Follows.deliver (follows : Follows written reader) (delivery : Delivery) :
    Follows written (reader.deliver around delivery).1 :=
  ⟨follows.within, follows.pending, follows.reading⟩

/-- The reader waits for the Bootstrap that it asked for, or ended. -/
def Waits (reader : Reader) : Prop :=
  reader.ended = true ∨
    reader.resyncPending = true ∧ reader.assembly = none ∧ reader.bootstrap = none

end Reader

/-! ## The queue and the reader -/

def TerminalFrameChunk.frame (chunk : TerminalFrameChunk) : Frame :=
  Pb.TerminalMessage.frame samplePaneCodec (.terminalFrameChunk chunk.toWire)

end Condr
