import Mathlib.Data.List.Basic
import Mathlib.Algebra.BigOperators.Group.List.Basic
import Mathlib.Algebra.GroupWithZero.Nat

/-!
# The queue of one client's writer

Every lock section of a `ClientWriter` and of its receiver is one function on the queue's
state. Reliable work waits in order and is bounded; an overflow replaces the backlog by the
lag notice and refuses reliable work until the recovery Bootstrap reopens the queue. The
clipboard and the rendered frames have a droppable slot each.
-/

namespace Condr.ClientWriter

abbrev Frame := List UInt8

def maxFrameSize : ℕ := 2 * 1024 * 1024
def maxFramePrefix : ℕ := 10
def maxBootstrapBatches : ℕ := 65536
def maxBootstrapTotalSize : ℕ := 64 * 1024 * 1024
def bootstrapBatchFrameOverhead : ℕ := 64

def maxFramedBootstrapBytes : ℕ :=
  (maxFrameSize + maxFramePrefix) + maxBootstrapTotalSize +
    maxBootstrapBatches * bootstrapBatchFrameOverhead

def maxReliableQueueItems : ℕ := 512

/-- Room for the largest framed Bootstrap plus one ordinary frame. -/
def maxReliableQueueBytes : ℕ := maxFramedBootstrapBytes + maxFrameSize + maxFramePrefix

def usizeMax : ℕ := 2 ^ 64 - 1

inductive ReliableSendError where
  | lagged
  | disconnected
deriving DecidableEq

/-- A receipt's channel is left out: it carries only what the writer thread answers. -/
inductive ClientWriteItem where
  | reliable (data : Frame)
  | reliableBatch (frames : List Frame)
  | closingReliable (data : Frame)
  | render (data : Frame) (slotDrained : Bool)
deriving DecidableEq

structure State where
  reliable : List ClientWriteItem
  reliableBytes : ℕ
  lagNotice : Option Frame
  lagged : Bool
  clipboard : Option Frame
  render : Option (List Frame)
  senders : ℕ
  writerAlive : Bool
deriving DecidableEq

/-- `channel_inner`. -/
def channel (lagNotice : Option Frame) : State where
  reliable := []
  reliableBytes := 0
  lagNotice
  lagged := false
  clipboard := none
  render := none
  senders := 1
  writerAlive := true

/-- `frames.iter().fold(0, saturating_add)`. -/
def batchBytes (frames : List Frame) : ℕ :=
  frames.foldl (fun total frame => min usizeMax (total + frame.length)) 0

def reliableItemBytes : ClientWriteItem → ℕ
  | .reliable data | .closingReliable data => data.length
  | .reliableBatch frames => batchBytes frames
  | .render .. => 0

namespace State

def refusal (state : State) : Except ReliableSendError Unit :=
  if !state.writerAlive then .error .disconnected
  else if state.lagged then .error .lagged
  else .ok ()

def reserveReliable (state : State) (bytes : ℕ) : State × Except ReliableSendError Unit :=
  let nextBytes := state.reliableBytes + bytes
  if maxReliableQueueItems ≤ state.reliable.length || usizeMax < nextBytes ||
      maxReliableQueueBytes < nextBytes then
    let state := { state with reliable := [], reliableBytes := 0, clipboard := none, render := none }
    match state.lagNotice with
    | some notice =>
        ({ state with
            reliableBytes := notice.length
            reliable := [.reliable notice]
            lagged := true },
          .error .lagged)
    | none => ({ state with writerAlive := false }, .error .disconnected)
  else ({ state with reliableBytes := nextBytes }, .ok ())

/-- Reserves room and queues one item, as every reliable send does. -/
def sendItem (state : State) (item : ClientWriteItem) : State × Except ReliableSendError Unit :=
  match state.refusal with
  | .error error => (state, .error error)
  | .ok () =>
      match state.reserveReliable (reliableItemBytes item) with
      | (state, .error error) => (state, .error error)
      | (state, .ok ()) => ({ state with reliable := state.reliable ++ [item] }, .ok ())

def sendReliable (state : State) (data : Frame) : State × Except ReliableSendError Unit :=
  state.sendItem (.reliable data)

def sendReliableBatch (state : State) (frames : List Frame) :
    State × Except ReliableSendError Unit :=
  state.sendItem (.reliableBatch frames)

/-- Queues the latest clipboard state. -/
def sendClipboard (state : State) (data : Frame) : State × Except ReliableSendError Unit :=
  match state.refusal with
  | .error error => (state, .error error)
  | .ok () => ({ state with clipboard := some data }, .ok ())

/-- Queues the final reliable frame after earlier reliable work and closes the sender. -/
def sendClosingReliable (state : State) (data : Frame) :
    State × Except ReliableSendError Unit :=
  match state.sendItem (.closingReliable data) with
  | (state, .error error) => (state, .error error)
  | (state, .ok ()) =>
      ({ state with clipboard := none, render := none, writerAlive := false }, .ok ())

inductive RenderSend where
  | ok
  | full
  | disconnected
  /-- The assertion that the slot gets at least one frame. -/
  | panicked
deriving DecidableEq

def trySendRender (state : State) (frames : List Frame) : State × RenderSend :=
  if frames.isEmpty then (state, .panicked)
  else if !state.writerAlive || state.lagged then (state, .disconnected)
  else if state.render.isSome then (state, .full)
  else ({ state with render := some frames }, .ok)

def clearRender (state : State) : State := { state with render := none }

/-- Reopens a lagged queue for the recovery Bootstrap; the reliable queue is kept. -/
def resumeAfterLag (state : State) : State :=
  if !state.lagged then state
  else { state with clipboard := none, render := none, lagged := false }

def cloneWriter (state : State) : State :=
  { state with senders := min usizeMax (state.senders + 1) }

def dropWriter (state : State) : State := { state with senders := state.senders - 1 }

inductive Received where
  | item (item : ClientWriteItem)
  | ended
  /-- The receiver waits for the condition variable and looks again. -/
  | waiting
  /-- The render slot was empty though it was there. -/
  | panicked
deriving DecidableEq

/-- One look of the receiver at the queue. -/
def recv (state : State) : State × Received :=
  match state.reliable with
  | item :: rest =>
      ({ state with
          reliable := rest
          reliableBytes := state.reliableBytes - reliableItemBytes item },
        .item item)
  | [] =>
      match state.clipboard, state.render with
      | some data, _ => ({ state with clipboard := none }, .item (.reliable data))
      | none, some [] => (state, .panicked)
      | none, some (data :: frames) =>
          ({ state with render := if frames.isEmpty then none else some frames },
            .item (.render data frames.isEmpty))
      | none, none =>
          (state, if state.senders = 0 || !state.writerAlive then .ended else .waiting)

def close (state : State) : State :=
  { state with
    writerAlive := false
    reliable := []
    reliableBytes := 0
    lagged := false
    clipboard := none
    render := none }

end State

/-- One lock section of a sender or of the receiver. -/
inductive Action where
  | sendReliable (data : Frame)
  | sendReliableBatch (frames : List Frame)
  | sendClipboard (data : Frame)
  | sendClosingReliable (data : Frame)
  | trySendRender (frames : List Frame)
  | clearRender
  | resumeAfterLag
  | cloneWriter
  | dropWriter
  | recv
  | close
deriving DecidableEq

inductive Outcome where
  | done
  | sent (result : Except ReliableSendError Unit)
  | rendered (result : State.RenderSend)
  | received (result : State.Received)

def perform (state : State) : Action → State × Outcome
  | .sendReliable data => (state.sendReliable data).map id .sent
  | .sendReliableBatch frames => (state.sendReliableBatch frames).map id .sent
  | .sendClipboard data => (state.sendClipboard data).map id .sent
  | .sendClosingReliable data => (state.sendClosingReliable data).map id .sent
  | .trySendRender frames => (state.trySendRender frames).map id .rendered
  | .clearRender => (state.clearRender, .done)
  | .resumeAfterLag => (state.resumeAfterLag, .done)
  | .cloneWriter => (state.cloneWriter, .done)
  | .dropWriter => (state.dropWriter, .done)
  | .recv => state.recv.map id .received
  | .close => (state.close, .done)

/-- What any number of threads do to the queue, one lock section after the other. -/
def step (state : State) (action : Action) : State := (perform state action).1

end Condr.ClientWriter
