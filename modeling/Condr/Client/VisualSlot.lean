import Condr.Client.FrameMergeLinks
import Condr.Protocol.TerminalFrames

/-!
# The visual slot

The one slot between the reader of a connection and its owner. Batches of frames merge into
it, the owner hears once per generation that it holds something, and what it takes is one
batch. A new generation drops what was pending.
-/

namespace Condr

structure PendingTerminalVisual where
  serverId : ServerId
  sessionId : SessionId
  panes : AList fun _ : PaneId => TerminalViewFrame SmolStr

structure TerminalVisualSlot where
  generation : UInt64
  pending : Option PendingTerminalVisual
  signaled : Bool

namespace TerminalVisualSlot

def default : TerminalVisualSlot where
  generation := 0
  pending := none
  signaled := false

def panes (slot : TerminalVisualSlot) : AList fun _ : PaneId => TerminalViewFrame SmolStr :=
  match slot.pending with
  | none => ∅
  | some pending => pending.panes

/-- Every merge is checked before any frame moves; `seen` holds the frames of the batch. -/
def checkPanes (pending : AList fun _ : PaneId => TerminalViewFrame SmolStr) :
    (AList fun _ : PaneId => TerminalViewFrame SmolStr) → List (PaneTerminalFrame SmolStr) →
      Except Unit Unit
  | _, [] => .ok ()
  | seen, pane :: panes => do
      match (seen.lookup pane.paneId).or (pending.lookup pane.paneId) with
      | some previous => checkTerminalFrameMerge previous pane.frame
      | none => .ok ()
      checkPanes pending (seen.insert pane.paneId pane.frame) panes

def mergePanes (memory : Memory) :
    (AList fun _ : PaneId => TerminalViewFrame SmolStr) → List (PaneTerminalFrame SmolStr) →
      Option (Except Unit (AList fun _ : PaneId => TerminalViewFrame SmolStr))
  | pending, [] => some (.ok pending)
  | pending, pane :: panes =>
      match pending.lookup pane.paneId with
      | none => mergePanes memory (pending.insert pane.paneId pane.frame) panes
      | some previous => do
          match ← mergeTerminalFrames memory previous pane.frame with
          | .error () => return .error ()
          | .ok frame =>
              mergePanes memory ((pending.erase pane.paneId).insert pane.paneId frame) panes

def advance (slot : TerminalVisualSlot) : TerminalVisualSlot where
  generation := slot.generation + 1
  pending := none
  signaled := false

/-- The slot afterwards, with the generation that the owner hears of. The outer `none` is a
panic. -/
def publish (memory : Memory) (slot : TerminalVisualSlot) (batch : TerminalFrameBatch SmolStr) :
    Option (TerminalVisualSlot × Except Unit (Option UInt64)) :=
  if slot.pending.any fun pending =>
      pending.serverId ≠ batch.serverId || pending.sessionId ≠ batch.sessionId then
    some (slot, .error ())
  else
    match checkPanes slot.panes ∅ batch.panes with
    | .error () => some (slot, .error ())
    | .ok () => do
        match ← mergePanes memory slot.panes batch.panes with
        | .error () => return (slot.advance, .error ())
        | .ok panes =>
            let pending : PendingTerminalVisual :=
              { serverId := batch.serverId, sessionId := batch.sessionId, panes := panes }
            return ({ slot with pending := some pending, signaled := true },
              .ok (if slot.signaled then none else some slot.generation))

/-- What the owner gets, with the panes in any order, and the slot afterwards. -/
def take (slot : TerminalVisualSlot) (generation : UInt64) :
    Option (TerminalFrameBatch SmolStr) × TerminalVisualSlot :=
  if slot.generation ≠ generation then (none, slot)
  else
    (slot.pending.map fun pending =>
      { serverId := pending.serverId
        sessionId := pending.sessionId
        panes := pending.panes.entries.map fun entry => ⟨entry.1, entry.2⟩ },
      { slot with pending := none, signaled := false })

end TerminalVisualSlot

/-! ## Runs -/

def PaneTerminalFrame.read (memory : Memory) (pane : PaneTerminalFrame SmolStr) :
    PaneTerminalFrame String where
  paneId := pane.paneId
  frame := pane.frame.read memory

def TerminalFrameBatch.read (memory : Memory) (batch : TerminalFrameBatch SmolStr) :
    TerminalFrameBatch String where
  serverId := batch.serverId
  sessionId := batch.sessionId
  panes := batch.panes.map (PaneTerminalFrame.read memory)

/-- A batch with the number of generations that ended before it was published. -/
abbrev Published := ℕ × TerminalFrameBatch String

/-- What became of batches that are no longer pending. -/
inductive SlotOutcome where
  | delivered (epoch : ℕ) (batches : List Published)
  | discarded (batches : List Published)

def SlotOutcome.batches : SlotOutcome → List Published
  | .delivered _ batches => batches
  | .discarded batches => batches

/-- The slot with its history: the signals not yet consumed, every batch that was published,
the batches that are pending, and what became of the others. -/
structure SlotRun where
  memory : Memory
  slot : TerminalVisualSlot
  wakeups : List UInt64
  epoch : ℕ
  published : List Published
  held : List Published
  outcomes : List SlotOutcome

inductive SlotRun.Label where
  | publish (memory : Memory) (batch : TerminalFrameBatch SmolStr)
  | take (generation : UInt64)
  | advance

namespace SlotRun

def start (memory : Memory) : SlotRun where
  memory := memory
  slot := .default
  wakeups := []
  epoch := 0
  published := []
  held := []
  outcomes := []

/-- The strings of pending frames stay. -/
def Keeps (run : SlotRun) (memory : Memory) : Prop :=
  ∀ pane frame, run.slot.panes.lookup pane = some frame →
    frame.read memory = frame.read run.memory

def Enabled (run : SlotRun) : Label → Prop
  | .publish memory _ => run.Keeps memory
  | .take _ => True
  | .advance => True

/-- Everything pending is dropped with its generation. -/
def discard (run : SlotRun) : SlotRun :=
  { run with
    slot := run.slot.advance
    epoch := run.epoch + 1
    held := []
    outcomes := run.outcomes ++ [.discarded run.held] }

def perform (run : SlotRun) : Label → Option SlotRun
  | .publish memory batch => do
      let (slot, result) ← run.slot.publish memory batch
      match result with
      | .ok signal =>
          let entry : Published := (run.epoch, batch.read memory)
          return { run with
            memory := memory
            slot := slot
            wakeups := run.wakeups ++ signal.toList
            published := run.published ++ [entry]
            held := run.held ++ [entry] }
      | .error () =>
          -- a merge that fails after its check takes everything with it
          if slot.generation = run.slot.generation then return { run with slot := slot }
          else return { run.discard with slot := slot }
  | .take generation =>
      let run := { run with wakeups := run.wakeups.erase generation }
      match run.slot.take generation with
      | (none, slot) => some { run with slot := slot }
      | (some _, slot) =>
          some { run with
            slot := slot
            held := []
            outcomes := run.outcomes ++ [.delivered run.epoch run.held] }
  | .advance => some run.discard

end SlotRun

def slotSystem : Transition.System SlotRun SlotRun.Label where
  initial := fun run => ∃ memory, run = SlotRun.start memory
  step := fun run label next => run.Enabled label ∧ run.perform label = some next

end Condr
