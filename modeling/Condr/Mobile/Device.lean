import Condr.Client.SessionModel

/-!
# A paired Device

One Device of the phone: its connection, the model of its Session, and what has been asked of
its Server. Messages to the Server are queued for the connection's writer; without a connection
they go nowhere.
-/

namespace Condr

inductive DeviceStatus where
  /-- The app is in the background, or has not resumed yet. -/
  | suspended
  | connecting
  | connected
  | failed (reason : String)
  /-- The Server no longer knows this phone. -/
  | revoked
deriving DecidableEq

inductive Subscription where
  | none
  | pending
  | active
deriving DecidableEq

/-- The connection a Device holds, by the attempt that made it, and the messages its writer has
not sent. -/
structure ConnectionIo where
  attempt : ℕ
  outgoing : List ClientMessage

/-- Cancelling an attempt is left out: it only makes a failure likelier, and an attempt may fail
at any time. -/
structure Device (C : ContentModel) where
  label : String
  status : DeviceStatus
  model : SessionModel C
  generation : ℕ
  io : Option ConnectionIo
  subscription : Subscription
  snapshotPending : Bool

variable {C : ContentModel}

namespace Device

/-- `Device::new`. -/
def init (label : String) : Device C where
  label := label
  status := .suspended
  model := .init
  generation := 0
  io := none
  subscription := .none
  snapshotPending := false

def send (device : Device C) (message : ClientMessage) : Device C :=
  { device with
    io := device.io.map fun io => { io with outgoing := io.outgoing ++ [message] } }

def terminal (device : Device C) (paneId : PaneId) (command : TerminalCommand) : Device C :=
  match device.model.serverId, device.model.sessionId with
  | some serverId, some sessionId => device.send (.terminal serverId sessionId paneId command)
  | _, _ => device

/-- Focus, then the grid that was measured, if one was. -/
def takeTerminal (device : Device C) (paneId : PaneId) (size : Option TerminalSize) : Device C :=
  let focused := device.terminal paneId (.focus true)
  match size with
  | none => focused
  | some size => focused.terminal paneId (.resize size)

def watch (device : Device C) (panes : Finset PaneId) : Device C :=
  if device.model.watched = some panes then device
  else { device with model := device.model.watchTerminals panes }.send (.watchTerminals panes)

def subscribe (device : Device C) : Device C :=
  if device.subscription ≠ .none then device
  else match device.model.sessionId with
  | none => device
  | some sessionId =>
      { device.send (.subscribe sessionId device.model.sequence) with subscription := .pending }

def requestSnapshot (device : Device C) : Device C :=
  if device.snapshotPending then device
  else match device.model.sessionId with
  | none => device
  | some sessionId =>
      { device.send (.snapshotRequest sessionId) with snapshotPending := true }

def disconnect (device : Device C) : Device C :=
  { device with
    generation := device.generation + 1
    io := none
    subscription := .none
    snapshotPending := false }

def fail (device : Device C) (reason : String) : Device C :=
  { device.disconnect with status := .failed reason }

end Device

/-! ## What a connection's reader hands on -/

/-- The Server's messages, as far as they change a Device. -/
inductive OwnerMessage (C : ContentModel) where
  | event (serverId : ServerId) (sessionId : SessionId) (sequence : ℕ) (event : C.Event)
  | subscribed
  | subscriptionRejected
  | snapshotRejected
  | serverStopping
  /-- From a newer protocol. -/
  | unknown
  /-- Copies and errors for the app, and what the phone ignores. -/
  | other

/-- `Incoming`. A frame that is ready has been taken from the visual slot, where it still was
one of the asked generation, with the Server and Session it is of. -/
inductive Incoming (C : ContentModel) where
  | bootstrap (bootstrap : ModelBootstrap C)
  | visualReady (taken : Option (ServerId × SessionId × C.Frames))
  | terminalResync
  | disconnected (reason : String)
  | message (message : OwnerMessage C)

/-- `u64::saturating_add` of one. -/
def nextSequence (sequence : ℕ) : ℕ :=
  min (sequence + 1) (2 ^ 64 - 1)

namespace Device

/-- The event part of `apply_message`: the next event is applied, a gap or a malformed layout
asks for everything again, and an earlier event is ignored. -/
def applyEvent (device : Device C) (shown : Option PaneId) (serverId : ServerId)
    (sessionId : SessionId) (sequence : ℕ) (event : C.Event) : Device C :=
  if device.model.serverId ≠ some serverId ∨ device.model.sessionId ≠ some sessionId then device
  else if sequence ≠ nextSequence device.model.sequence then
    if device.model.sequence < sequence then
      { device with subscription := .none }.requestSnapshot
    else device
  else match C.applyEvent event shown device.model.content with
  | none => { device with subscription := .none }.requestSnapshot
  | some content => { device with model := { device.model with sequence, content } }

def applyMessage (device : Device C) (shown : Option PaneId) : OwnerMessage C → Device C
  | .event serverId sessionId sequence event =>
      device.applyEvent shown serverId sessionId sequence event
  | .subscribed => { device with subscription := .active }
  | .subscriptionRejected | .snapshotRejected =>
      { device with subscription := .none, snapshotPending := false }.requestSnapshot
  | .serverStopping => device.fail "the device's Server is stopping"
  | .unknown => device.requestSnapshot
  | .other => device

def applyBootstrap (device : Device C) (shown : Option PaneId) (bootstrap : ModelBootstrap C) :
    Device C :=
  match device.model.applyBootstrap bootstrap with
  | .error reason => device.fail reason
  | .ok (model, authorityChanged) =>
      -- the Pane on screen is being looked at
      let model := match shown with
        | none => model
        | some paneId => model.markSeen paneId
      let device := { device with model, snapshotPending := false }
      if authorityChanged then { device with subscription := .none }.subscribe
      else device.subscribe

/-- What `apply` does to a Device of the right generation. -/
def apply (device : Device C) (shown : Option PaneId) : Incoming C → Device C
  | .bootstrap bootstrap => device.applyBootstrap shown bootstrap
  | .visualReady none => device
  | .visualReady (some (serverId, sessionId, frames)) =>
      if device.model.serverId = some serverId ∧ device.model.sessionId = some sessionId then
        match device.model.applyTerminalFrames frames with
        | some model => { device with model }
        | none => device.requestSnapshot
      else device
  | .terminalResync => device.requestSnapshot
  | .disconnected reason => device.fail reason
  | .message message => device.applyMessage shown message

end Device

/-! ## What an attempt to connect ends with -/

structure ConnectFailure where
  /-- `PermissionDenied`: the Server no longer knows this phone. -/
  denied : Bool
  reason : String

def ConnectFailure.other (reason : String) : ConnectFailure where
  denied := false
  reason := reason

def ConnectFailure.status (failure : ConnectFailure) : DeviceStatus :=
  if failure.denied then .revoked else .failed failure.reason

/-- A connection that was made, and whether its reader and writer start. -/
structure MadeConnection (C : ContentModel) where
  bootstrap : Option (ModelBootstrap C)
  starts : Except ConnectFailure Unit

abbrev ConnectResult (C : ContentModel) := Except ConnectFailure (MadeConnection C)

namespace Device

/-- The model after the connection's Bootstrap, and whether the connection starts. -/
def start (device : Device C) : ConnectResult C → Device C × Except ConnectFailure Unit
  | .error failure => (device, .error failure)
  | .ok connection =>
      match connection.bootstrap with
      | none => (device, .error (.other "the device sent no Bootstrap"))
      | some bootstrap =>
          match device.model.applyBootstrap bootstrap with
          | .error reason => (device, .error (.other reason))
          | .ok (model, _) => ({ device with model }, connection.starts)

/-- What `connected` does to a Device of the right generation. `reclaim` is the Pane to take
again, with its size. -/
def connected (device : Device C) (attempt : ℕ) (watched : Finset PaneId)
    (reclaim : Option (PaneId × Option TerminalSize)) (result : ConnectResult C) : Device C :=
  match device.start result with
  | (device, .error failure) => { device with status := failure.status }
  | (device, .ok ()) =>
      let device := { device with io := some ⟨attempt, []⟩, status := .connected }
      -- the phone opened or left a Pane while this connection was being made
      let device := match device.model.watched with
        | some panes => if panes ≠ watched then device.send (.watchTerminals panes) else device
        | none => device
      let device := device.subscribe
      match reclaim with
      | none => device
      | some (paneId, size) => device.takeTerminal paneId size

end Device

end Condr
