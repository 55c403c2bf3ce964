import Condr.Foundation.Transition
import Mathlib.Algebra.BigOperators.Group.List.Basic
import Mathlib.Data.List.Basic
import Mathlib.Algebra.GroupWithZero.Nat

/-!
# The queue of a terminal's input

Callers on any threads queue input for one writer. User and control entries are admitted by
counters of their own, and replies by one token: the first reply travels in the channel, and those
after it wait in a side queue that the writer drains. Every access to what is shared is one step
here, so calls and the writer interleave in any way. The logs of what was accepted and written are
what the steps are told by; the program has none.
-/

namespace Condr.InputQueue

def inputQueueCapacity : ℕ := 64
def terminalReplyQueueReserve : ℕ := 1
def terminalControlQueueReserve : ℕ := inputQueueCapacity + 1
def maxPendingInputBytes : ℕ := 8 * 1024 * 1024

def channelCapacity : ℕ :=
  inputQueueCapacity + terminalReplyQueueReserve + terminalControlQueueReserve

/-- What an entry holds until it is written. -/
inductive Permit where
  | user
  | control
  | reply
deriving DecidableEq

structure QueuedInput where
  bytes : List UInt8
  submitSplit : Option ℕ
  permit : Permit
deriving DecidableEq

inductive InputError where
  /-- The writer stopped. -/
  | brokenPipe
  | queueFull
  | byteBudgetFull
  /-- The channel had no room for an entry that was admitted. -/
  | channelFull
deriving DecidableEq

/-- What the callers and the writer share, with the logs. -/
structure Shared where
  accepting : Bool
  stopping : Bool
  connected : Bool
  pendingBytes : ℕ
  pendingEntries : ℕ
  pendingControlEntries : ℕ
  /-- The lock of the two fields below is held. -/
  locked : Bool
  pending : List (List UInt8)
  tokenQueued : Bool
  queue : List QueuedInput
  /-- The entries sent, in order. -/
  sent : List QueuedInput
  /-- The replies accepted, in order. -/
  replies : List (List UInt8)
  /-- The entries and replies written, in order. -/
  done : List (Permit × List UInt8)
  /-- What the writer was given. -/
  output : List UInt8
deriving DecidableEq

def Shared.initial : Shared where
  accepting := true
  stopping := false
  connected := true
  pendingBytes := 0
  pendingEntries := 0
  pendingControlEntries := 0
  locked := false
  pending := []
  tokenQueued := false
  queue := []
  sent := []
  replies := []
  done := []
  output := []

/-! ## Calls -/

/-- A call, at its next access. -/
inductive Call where
  | userStart (bytes : List UInt8) (split : Option ℕ)
  | userEntry (bytes : List UInt8) (split : Option ℕ)
  | userBytes (bytes : List UInt8) (split : Option ℕ)
  | userRefund
  | userCheck (bytes : List UInt8) (split : Option ℕ)
  | userSend (bytes : List UInt8) (split : Option ℕ)
  | userDrop (bytes : List UInt8) (error : InputError)
  | userDropEntry (error : InputError)
  | controlStart (bytes : List UInt8)
  | controlEntry (bytes : List UInt8)
  | controlCheck (bytes : List UInt8)
  | controlSend (bytes : List UInt8)
  | controlDrop (error : InputError)
  | replyStart (bytes : List UInt8)
  | replyLock (bytes : List UInt8)
  | replyCheck (bytes : List UInt8)
  | replyLook (bytes : List UInt8)
  | replyToken (bytes : List UInt8)
  | replySend (bytes : List UInt8)
  | replyUnlock (result : Except InputError Unit)
  | finished (result : Except InputError Unit)

def tryWrite (bytes : List UInt8) : Call := .userStart bytes none

def trySubmit (text enter : List UInt8) : Call := .userStart (text ++ enter) (some text.length)

def writeTerminalReply (bytes : List UInt8) : Call := .replyStart bytes

def tryWriteControl (bytes : List UInt8) : Call := .controlStart bytes

/-- `SyncSender::try_send`. -/
def Shared.trySend (shared : Shared) (input : QueuedInput) : Except InputError Shared :=
  if !shared.connected then .error .brokenPipe
  else if shared.queue.length < channelCapacity then
    .ok { shared with queue := shared.queue ++ [input], sent := shared.sent ++ [input] }
  else .error .channelFull

/-- The next access of a call. A call waits for the lock, and a finished one has none. -/
def advance (shared : Shared) : Call → Option (Shared × Call)
  | .userStart bytes split =>
      if bytes.isEmpty then some (shared, .finished (.ok ()))
      else if shared.accepting then some (shared, .userEntry bytes split)
      else some (shared, .finished (.error .brokenPipe))
  | .userEntry bytes split =>
      if shared.pendingEntries < inputQueueCapacity then
        some ({ shared with pendingEntries := shared.pendingEntries + 1 }, .userBytes bytes split)
      else some (shared, .finished (.error .queueFull))
  | .userBytes bytes split =>
      if shared.pendingBytes + bytes.length ≤ maxPendingInputBytes then
        some ({ shared with pendingBytes := shared.pendingBytes + bytes.length },
          .userCheck bytes split)
      else some (shared, .userRefund)
  | .userRefund =>
      some ({ shared with pendingEntries := shared.pendingEntries - 1 },
        .finished (.error .byteBudgetFull))
  | .userCheck bytes split =>
      if shared.accepting then some (shared, .userSend bytes split)
      else some (shared, .userDrop bytes .brokenPipe)
  | .userSend bytes split =>
      match shared.trySend { bytes, submitSplit := split, permit := .user } with
      | .ok shared => some (shared, .finished (.ok ()))
      | .error error => some (shared, .userDrop bytes error)
  -- The permit gives its bytes back before its entry.
  | .userDrop bytes error =>
      some ({ shared with pendingBytes := shared.pendingBytes - bytes.length },
        .userDropEntry error)
  | .userDropEntry error =>
      some ({ shared with pendingEntries := shared.pendingEntries - 1 },
        .finished (.error error))
  | .controlStart bytes =>
      if bytes.isEmpty then some (shared, .finished (.ok ()))
      else if shared.accepting then some (shared, .controlEntry bytes)
      else some (shared, .finished (.error .brokenPipe))
  | .controlEntry bytes =>
      if shared.pendingControlEntries < terminalControlQueueReserve then
        some ({ shared with pendingControlEntries := shared.pendingControlEntries + 1 },
          .controlCheck bytes)
      else some (shared, .finished (.error .queueFull))
  | .controlCheck bytes =>
      if shared.accepting then some (shared, .controlSend bytes)
      else some (shared, .controlDrop .brokenPipe)
  | .controlSend bytes =>
      match shared.trySend { bytes, submitSplit := none, permit := .control } with
      | .ok shared => some (shared, .finished (.ok ()))
      | .error error => some (shared, .controlDrop error)
  | .controlDrop error =>
      some ({ shared with pendingControlEntries := shared.pendingControlEntries - 1 },
        .finished (.error error))
  | .replyStart bytes =>
      if bytes.isEmpty then some (shared, .finished (.ok ()))
      else if shared.accepting then some (shared, .replyLock bytes)
      else some (shared, .finished (.error .brokenPipe))
  | .replyLock bytes =>
      if shared.locked then none else some ({ shared with locked := true }, .replyCheck bytes)
  | .replyCheck bytes =>
      if shared.accepting then some (shared, .replyLook bytes)
      else some (shared, .replyUnlock (.error .brokenPipe))
  | .replyLook bytes =>
      if shared.tokenQueued then
        some ({ shared with
            pending := shared.pending ++ [bytes]
            replies := shared.replies ++ [bytes] },
          .replyUnlock (.ok ()))
      else some ({ shared with tokenQueued := true }, .replyToken bytes)
  | .replyToken bytes =>
      if shared.accepting then some (shared, .replySend bytes)
      else some ({ shared with tokenQueued := false }, .replyUnlock (.error .brokenPipe))
  | .replySend bytes =>
      match shared.trySend { bytes, submitSplit := none, permit := .reply } with
      | .ok shared =>
          some ({ shared with replies := shared.replies ++ [bytes] }, .replyUnlock (.ok ()))
      | .error error => some ({ shared with tokenQueued := false }, .replyUnlock (.error error))
  | .replyUnlock result => some ({ shared with locked := false }, .finished result)
  | .finished _ => none

/-! ## The writer -/

/-- `io_loop`, at its next access. -/
inductive Writer where
  | idle
  | receiving
  | received (entry : QueuedInput)
  | writing (entry : QueuedInput) (bytes : List UInt8)
  /-- The text of a submission is written and its Enter is to come. -/
  | entering (entry : QueuedInput) (bytes : List UInt8)
  | written (entry : QueuedInput)
  | releasing (entry : QueuedInput)
  | releasingEntry
  | exited
deriving DecidableEq

/-- What `split_at` makes of an entry: the text and what follows it after a delay. -/
def QueuedInput.splitBytes (entry : QueuedInput) (bytes : List UInt8) :
    List UInt8 × List UInt8 :=
  bytes.splitAt (entry.submitSplit.getD bytes.length)

/-! What each class of entry counts for. -/

def QueuedInput.entries (entry : QueuedInput) : ℕ := if entry.permit = .user then 1 else 0

def QueuedInput.userBytes (entry : QueuedInput) : ℕ :=
  if entry.permit = .user then entry.bytes.length else 0

def QueuedInput.controls (entry : QueuedInput) : ℕ := if entry.permit = .control then 1 else 0

def QueuedInput.tokens (entry : QueuedInput) : ℕ := if entry.permit = .reply then 1 else 0

/-- Dropping the receiver: the entries in the channel, and those the writer has, give back what
they hold. -/
def Shared.disconnect (shared : Shared) (held : List QueuedInput) : Shared :=
  let dropped := held ++ shared.queue
  { shared with
    accepting := false
    connected := false
    pendingBytes := shared.pendingBytes - (dropped.map QueuedInput.userBytes).sum
    pendingEntries := shared.pendingEntries - (dropped.map QueuedInput.entries).sum
    pendingControlEntries :=
      shared.pendingControlEntries - (dropped.map QueuedInput.controls).sum
    pending := []
    tokenQueued := false
    queue := [] }

/-- The next access of the writer, while it does not fail and is not stopped in a delay. It waits
for an entry and for the lock. -/
def Writer.advance (shared : Shared) : Writer → Option (Shared × Writer)
  | idle => if shared.stopping then some (shared.disconnect [], exited) else some (shared, receiving)
  | receiving =>
      match shared.queue with
      | [] => some (shared, idle)
      | entry :: queue => some ({ shared with queue }, received entry)
  | received entry =>
      if shared.stopping then some (shared.disconnect [entry], exited)
      else some (shared, writing entry entry.bytes)
  | writing entry bytes =>
      let (text, enter) := entry.splitBytes bytes
      let output := shared.output ++ text
      if enter.isEmpty then
        some ({ shared with output, done := shared.done ++ [(entry.permit, bytes)] },
          written entry)
      else some ({ shared with output }, entering entry bytes)
  | entering entry bytes =>
      let (_, enter) := entry.splitBytes bytes
      some ({ shared with
          output := shared.output ++ enter
          done := shared.done ++ [(entry.permit, bytes)] },
        written entry)
  | written entry =>
      if entry.permit = .reply then
        if shared.locked then none
        else
          match shared.pending with
          | next :: pending => some ({ shared with pending }, writing entry next)
          | [] => some ({ shared with tokenQueued := false }, releasing entry)
      else some (shared, releasing entry)
  | releasing entry =>
      match entry.permit with
      | .user =>
          some ({ shared with pendingBytes := shared.pendingBytes - entry.bytes.length },
            releasingEntry)
      | .control =>
          some ({ shared with pendingControlEntries := shared.pendingControlEntries - 1 }, idle)
      | .reply => some (shared, idle)
  | releasingEntry =>
      some ({ shared with pendingEntries := shared.pendingEntries - 1 }, idle)
  | exited => none

/-! ## The system -/

structure State where
  shared : Shared
  calls : List Call
  writer : Writer

inductive Action where
  /-- A caller makes a call. -/
  | call
  /-- A call makes its next access. -/
  | advance
  | write
  /-- The writer fails. -/
  | fail
  /-- The writer is stopped before it writes an Enter. -/
  | abandon
  /-- `TerminalInput::stop`. -/
  | stop
  /-- The flag of the loop. -/
  | halt
deriving DecidableEq

inductive Step : State → Action → State → Prop where
  | tryWrite {state : State} (bytes : List UInt8) :
      Step state .call { state with calls := state.calls ++ [tryWrite bytes] }
  | trySubmit {state : State} (text enter : List UInt8) :
      Step state .call { state with calls := state.calls ++ [trySubmit text enter] }
  | writeTerminalReply {state : State} (bytes : List UInt8) :
      Step state .call { state with calls := state.calls ++ [writeTerminalReply bytes] }
  | tryWriteControl {state : State} (bytes : List UInt8) :
      Step state .call { state with calls := state.calls ++ [tryWriteControl bytes] }
  | advance {shared next : Shared} {front back : List Call} {call after : Call} {writer : Writer}
      (advanced : InputQueue.advance shared call = some (next, after)) :
      Step ⟨shared, front ++ call :: back, writer⟩ .advance ⟨next, front ++ after :: back, writer⟩
  | write {shared next : Shared} {calls : List Call} {writer after : Writer}
      (advanced : writer.advance shared = some (next, after)) :
      Step ⟨shared, calls, writer⟩ .write ⟨next, calls, after⟩
  | fail {shared : Shared} {calls : List Call} {writer : Writer} {entry : QueuedInput}
      {bytes : List UInt8} (writes : writer = .writing entry bytes ∨ writer = .entering entry bytes) :
      Step ⟨shared, calls, writer⟩ .fail ⟨shared.disconnect [entry], calls, .exited⟩
  | abandon {shared : Shared} {calls : List Call} {entry : QueuedInput} {bytes : List UInt8}
      (stopping : shared.stopping = true) :
      Step ⟨shared, calls, .entering entry bytes⟩ .abandon ⟨shared, calls, .written entry⟩
  | stop {state : State} :
      Step state .stop { state with shared := { state.shared with accepting := false } }
  | halt {state : State} :
      Step state .halt { state with shared := { state.shared with stopping := true } }

def system : Transition.System State Action where
  initial state := state = ⟨Shared.initial, [], .idle⟩
  step := Step

/-- The writer has not failed and is not stopped. -/
def State.Running (state : State) : Prop :=
  state.shared.stopping = false ∧ state.writer ≠ .exited

end Condr.InputQueue
