import Condr.Client.Streams
import Condr.Foundation.Transition

/-!
# Two ends of a Stream connection

Both ends run the engine over two ordered channels. The threads that hold a handle,
the writers and the readers take their steps in any order. The link also records,
for each end and Stream, what was written, what was read, and whether this end
reset or refused the Stream.
-/

namespace Condr.Streams

structure Link where
  ends : Side → State
  /-- The Streams whose handle a thread still holds. -/
  handles : Side → List ℕ
  /-- The frames an end sent and its peer has not read. -/
  channel : Side → List StreamMessage
  written : Side → ℕ → List UInt8
  readBytes : Side → ℕ → List UInt8
  /-- This end reset or refused the Stream. -/
  ended : Side → ℕ → Bool

inductive Action where
  | open (target : StreamTarget)
  | accept (stream : ℕ) (size : Option ℕ)
  | refuse (stream : ℕ) (error : StreamError) (detail : String)
  /-- One round of `write`, with the bytes it has left. -/
  | write (stream : ℕ) (rest : List UInt8)
  | read (stream : ℕ)
  | finish (stream : ℕ)
  | reset (stream : ℕ) (error : StreamError) (detail : String)
  | drop (stream : ℕ)
  /-- The writer thread sends the next frame. -/
  | send
  /-- The Client's writer thread pings on its clock. -/
  | ping
  /-- The reader thread takes the next frame. -/
  | deliver
  deriving DecidableEq

namespace Link

def initial : Link where
  ends _ := State.initial
  handles _ := []
  channel _ := []
  written _ _ := []
  readBytes _ _ := []
  ended _ _ := false

variable (link : Link) (side : Side)

def setEnd (state : State) : Link :=
  { link with ends := Function.update link.ends side state }

def setHandles (handles : List ℕ) : Link :=
  { link with handles := Function.update link.handles side handles }

def setChannel (messages : List StreamMessage) : Link :=
  { link with channel := Function.update link.channel side messages }

/-- A log with bytes added for one Stream of one end. -/
def extend (log : Side → ℕ → List UInt8) (side : Side) (stream : ℕ) (bytes : List UInt8) :
    Side → ℕ → List UInt8 :=
  Function.update log side (Function.update (log side) stream (log side stream ++ bytes))

def markEnded (stream : ℕ) : Link :=
  { link with
    ended := Function.update link.ended side (Function.update (link.ended side) stream true) }

/-- Who may do what: only the Client opens and pings, only the Server answers an `Open`, the
operations of a Stream need its handle, and the threads of an end run until it closes. -/
def Allowed : Action → Prop
  | .open _ => side = .client
  | .accept stream _ | .refuse stream _ _ => side = .server ∧ stream ∈ link.handles side
  | .write stream rest => stream ∈ link.handles side ∧ rest ≠ []
  | .read stream | .finish stream | .reset stream _ _ | .drop stream => stream ∈ link.handles side
  | .send | .deliver => (link.ends side).closed = none
  | .ping => side = .client ∧ (link.ends side).closed = none

instance (action : Action) : Decidable (link.Allowed side action) := by
  cases action <;> simp only [Allowed] <;> infer_instance

def perform : Action → Link
  | .open target =>
      match (link.ends side).open target with
      | (.error _, state) => link.setEnd side state
      | (.ok stream, state) =>
          (link.setEnd side state).setHandles side (stream :: link.handles side)
  | .accept stream size => link.setEnd side ((link.ends side).accept stream size)
  | .refuse stream error detail =>
      (link.setEnd side ((link.ends side).refuse stream error detail)).markEnded side stream
  | .write stream rest =>
      match (link.ends side).write stream rest with
      | (.took take, state) =>
          { link.setEnd side state with
            written := extend link.written side stream (rest.take take) }
      | (_, state) => link.setEnd side state
  | .read stream =>
      match (link.ends side).read stream with
      | (.chunk data, state) =>
          { link.setEnd side state with
            readBytes := extend link.readBytes side stream data }
      | (_, state) => link.setEnd side state
  | .finish stream => link.setEnd side ((link.ends side).finish stream)
  | .reset stream error detail =>
      (link.setEnd side ((link.ends side).reset stream error detail)).markEnded side stream
  | .drop stream =>
      (link.setEnd side ((link.ends side).drop stream)).setHandles side
        ((link.handles side).filter (· ≠ stream))
  | .send =>
      match (link.ends side).nextMessage with
      | (none, state) => link.setEnd side state
      | (some message, state) =>
          (link.setEnd side state).setChannel side (link.channel side ++ [message])
  | .ping => link.setChannel side (link.channel side ++ [.ping])
  | .deliver =>
      match link.channel side.peer with
      | [] => link
      | message :: messages =>
          let (state, opened) := (link.ends side).readMessage side message
          let link := (link.setEnd side state).setChannel side.peer messages
          match opened with
          | none => link
          | some stream => link.setHandles side (stream :: link.handles side)

/-- The frames of an end that its peer has not read, in the order they will arrive. -/
def outbox : List StreamMessage :=
  link.channel side ++ (link.ends side).control

end Link

/-- The two ends over time. -/
def streamSystem : Transition.System Link (Side × Action) where
  initial link := link = Link.initial
  step link label next :=
    link.Allowed label.1 label.2 ∧ next = link.perform label.1 label.2

/-- A run of given steps, as long as each may be taken. -/
def Link.run? : Link → List (Side × Action) → Option Link
  | link, [] => some link
  | link, (side, action) :: actions =>
      if link.Allowed side action then (link.perform side action).run? actions else none

theorem Link.reachable_of_run? {link next : Link} {actions : List (Side × Action)}
    (reached : streamSystem.Reachable link) (runs : link.run? actions = some next) :
    streamSystem.Reachable next := by
  induction actions generalizing link with
  | nil =>
      simp only [run?, Option.some.injEq] at runs
      exact runs ▸ reached
  | cons label actions hypothesis =>
      rcases label with ⟨side, action⟩
      simp only [run?] at runs
      split at runs
      next allowed =>
        exact hypothesis (.next reached (show streamSystem.step link (side, action) _ from ⟨allowed, rfl⟩)) runs
      next => simp at runs

end Condr.Streams
