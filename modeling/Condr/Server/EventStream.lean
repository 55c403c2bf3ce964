import Condr.Foundation.NumberedLog
import Condr.Foundation.Transition
import Condr.Mobile.Device

/-!
# Session events for one Device

Every event of the Session gets the next number, and the last of them are kept. A subscriber is
sent each one; while a Bootstrap of it is made they are kept back, and a writer that cannot keep up
has all that waits replaced by a notice. A Device that subscribes is sent what it missed, or is
refused where that is no longer kept. The requests of one Device are handled one after the other.
-/

namespace Condr.EventStream

/-- The content of a model by the events that it stands for. -/
abbrev historyContent (Event : Type) : ContentModel where
  Content := List Event
  Snapshot := List Event
  Event := Event
  Frames := Unit
  empty := []
  restore := fun snapshot _ _ => .ok snapshot
  applyEvent := fun event _ content => some (content ++ [event])
  applyFrames := fun _ _ content => some content
  retainPanes := fun _ content => content
  markSeen := fun _ content => content

variable {Event : Type}

/-- What the Server sends of its Session. -/
inductive Message (Event : Type) where
  | event (sequence : ℕ) (event : Event)
  | subscribed
  /-- Also the notice to a Client that fell behind. -/
  | subscriptionRejected
  | snapshotRejected
  | bootstrap (sequence : ℕ) (snapshot : List Event)

structure ClientSubscriber (Event : Type) where
  bootstrapPending : Bool
  deferredReliable : List (Message Event)

/-- A Bootstrap that is being framed. -/
structure Capture (Event : Type) where
  sequence : ℕ
  snapshot : List Event
  fenced : Bool

structure State (Event : Type) where
  serverId : ServerId
  runtimeEpoch : RuntimeEpoch
  sessionId : SessionId
  /-- Every event there was. -/
  log : List Event
  sequence : ℕ
  events : List (ℕ × Event)
  subscriber : Option (ClientSubscriber Event)
  /-- The writer's reliable queue. -/
  reliable : List (Message Event)
  lagged : Bool
  /-- Written and not yet applied. -/
  wire : List (Message Event)
  device : Device (historyContent Event)
  capture : Option (Capture Event)

@[irreducible]
def eventHistoryLimit : ℕ := 256

namespace State

/-- A message as the connection's reader hands it on. -/
def incoming (state : State Event) : Message Event → Incoming (historyContent Event)
  | .event sequence event =>
      .message (.event state.serverId state.sessionId sequence event)
  | .subscribed => .message .subscribed
  | .subscriptionRejected => .message .subscriptionRejected
  | .snapshotRejected => .message .snapshotRejected
  | .bootstrap sequence snapshot =>
      .bootstrap ⟨state.serverId, state.runtimeEpoch, state.sessionId, sequence, snapshot⟩

/-- Reliable sends in a row, and whether they went through. `room` says whether the queue has room
for them; where it has not, the notice takes the place of all that waits. -/
def sendReliable (state : State Event) (messages : List (Message Event)) (room : Bool) :
    State Event × Bool :=
  if state.lagged then (state, false)
  else if room then ({ state with reliable := state.reliable ++ messages }, true)
  else ({ state with reliable := [.subscriptionRejected], lagged := true }, false)

def resumeAfterLag (state : State Event) : State Event := { state with lagged := false }

/-- `publish_event`; `origin` is whether the Device asked for it. -/
def publishEvent (state : State Event) (event : Event) (origin room : Bool) : State Event :=
  let sequence := nextSequence state.sequence
  let events := state.events ++ [(sequence, event)]
  let message := .event sequence event
  let state := { state with
    log := state.log ++ [event]
    sequence
    events := events.drop (events.length - eventHistoryLimit) }
  let sends := fun (state : State Event) =>
    let (state, sent) := state.sendReliable [message] room
    if sent then state else { state with subscriber := none }
  if origin then sends state
  else match state.subscriber with
  | none => state
  | some subscriber =>
      if subscriber.bootstrapPending then
        { state with subscriber := some { subscriber with
            deferredReliable := subscriber.deferredReliable ++ [message] } }
      else sends state

/-- `Subscribe`. -/
def subscribe (state : State Event) (sessionId : SessionId) (afterSequence : ℕ) (room : Bool) :
    State Event :=
  let expired := state.events.head?.any fun event => nextSequence afterSequence < event.1
  if sessionId ≠ state.sessionId ∨ state.sequence < afterSequence ∨ expired then
    let state := { state with subscriber := none }
    (state.sendReliable [.subscriptionRejected] room).1
  else
    let missed := state.events.filter fun event => afterSequence < event.1
    let responses := missed.map (fun event => .event event.1 event.2) ++ [.subscribed]
    -- `ensure_subscriber`
    let state := { state with subscriber := some (state.subscriber.getD ⟨false, []⟩) }
    let (state, sent) := state.sendReliable responses room
    if sent then state else { state with subscriber := none }

/-- The capture of a Bootstrap, and `begin_bootstrap` of a subscriber. -/
def beginBootstrap (state : State Event) (sessionId : SessionId) (room : Bool) : State Event :=
  if sessionId ≠ state.sessionId then
    (state.resumeAfterLag.sendReliable [.snapshotRejected] room).1
  else
    { state with
      subscriber := state.subscriber.map fun _ => ⟨true, []⟩
      capture := some ⟨state.sequence, state.log, state.subscriber.isSome⟩ }

/-- `resume_after_lag` and `finish_bootstrap`. -/
def finishBootstrap (state : State Event) (room : Bool) : State Event :=
  match state.capture with
  | none => state
  | some capture =>
      let bootstrap := .bootstrap capture.sequence capture.snapshot
      let state := { state.resumeAfterLag with capture := none }
      if capture.fenced then
        match state.subscriber with
        | none => state
        | some subscriber =>
            let (state, sent) := state.sendReliable (bootstrap :: subscriber.deferredReliable) room
            { state with subscriber := if sent then some ⟨false, []⟩ else none }
      else (state.sendReliable [bootstrap] room).1

/-- A Bootstrap that cannot be framed: `abort_bootstrap` and a rejection. -/
def failBootstrap (state : State Event) (room : Bool) : State Event :=
  match state.capture with
  | none => state
  | some capture =>
      let subscriber := if capture.fenced then state.subscriber.map fun _ => ⟨false, []⟩
        else state.subscriber
      let state := { state with subscriber, capture := none }
      (state.resumeAfterLag.sendReliable [.snapshotRejected] room).1

/-- The Server reads the Device's next message. -/
def read (state : State Event) (room : Bool) : State Event :=
  match state.device.io with
  | some ⟨attempt, message :: outgoing⟩ =>
      let state := { state with device := { state.device with io := some ⟨attempt, outgoing⟩ } }
      match message with
      | .subscribe sessionId afterSequence => state.subscribe sessionId afterSequence room
      | .snapshotRequest sessionId => state.beginBootstrap sessionId room
      | _ => state
  | _ => state

/-- The writer takes what is next. -/
def write (state : State Event) : State Event :=
  match state.reliable with
  | [] => state
  | message :: reliable => { state with reliable, wire := state.wire ++ [message] }

/-- The Device takes what is next, with a Pane on screen. -/
def apply (state : State Event) (shown : Option PaneId) : State Event :=
  match state.wire with
  | [] => state
  | message :: wire =>
      { state with wire, device := state.device.apply shown (state.incoming message) }

end State

/-! ## Runs -/

inductive Label (Event : Type) where
  | publish (event : Event) (origin room : Bool)
  /-- An answer to something else does not fit in the queue. -/
  | overflow
  /-- A render or a copy finds the writer lagged. -/
  | removeLagged
  | read (room : Bool)
  | finishBootstrap (room : Bool)
  | failBootstrap (room : Bool)
  | write
  | apply (shown : Option PaneId)
  /-- A frame did not apply. -/
  | resync
  /-- The Device sends something else. -/
  | send (message : ClientMessage)

/-- Whether a message asks for events or for a Bootstrap. -/
def asks : ClientMessage → Bool
  | .subscribe .. | .snapshotRequest .. => true
  | _ => false

namespace State

/-- When a step may be. While a Bootstrap is made the Server reads nothing more of the Device, and
publishes nothing that the Device asked for. -/
def Enabled (state : State Event) : Label Event → Prop
  | .publish _ origin _ => origin = true → state.capture = none
  | .overflow => state.lagged = false
  | .removeLagged => state.lagged = true ∧
      state.subscriber.all (fun subscriber => !subscriber.bootstrapPending) = true
  | .read _ => state.capture = none
  | .send message => asks message = false
  | _ => True

def perform (state : State Event) : Label Event → State Event
  | .publish event origin room => state.publishEvent event origin room
  | .overflow => { state with reliable := [.subscriptionRejected], lagged := true }
  | .removeLagged => { state with subscriber := none }
  | .read room => state.read room
  | .finishBootstrap room => state.finishBootstrap room
  | .failBootstrap room => state.failBootstrap room
  | .write => state.write
  | .apply shown => state.apply shown
  | .resync => { state with device := state.device.apply none .terminalResync }
  | .send message => { state with device := state.device.send message }

end State

/-- A Device that is connected, with the Bootstrap of its connection applied. -/
structure Starts (state : State Event) : Prop where
  sequence : state.sequence = state.log.length
  events : state.events =
    NumberedLog.after state.log (state.log.length - eventHistoryLimit)
  subscriber : state.subscriber = none
  reliable : state.reliable = []
  lagged : state.lagged = false
  wire : state.wire = []
  capture : state.capture = none
  serverId : state.device.model.serverId = some state.serverId
  runtimeEpoch : state.device.model.runtimeEpoch = some state.runtimeEpoch
  sessionId : state.device.model.sessionId = some state.sessionId
  past : state.device.model.sequence ≤ state.log.length
  content : state.device.model.content = state.log.take state.device.model.sequence
  /-- It subscribes, and may ask for other things before and after. -/
  outgoing : ∃ attempt before later, state.device.io = some ⟨attempt,
    before ++ .subscribe state.sessionId state.device.model.sequence :: later⟩ ∧
      (before ++ later).all (fun message => !asks message) = true
  subscription : state.device.subscription = .pending
  snapshotPending : state.device.snapshotPending = false
  /-- The numbers are far from their end. -/
  room : state.log.length + 1 < 2 ^ 64

def eventSystem : Transition.System (State Event) (Label Event) where
  initial := Starts
  step := fun state label next => state.Enabled label ∧ next = state.perform label

end Condr.EventStream
