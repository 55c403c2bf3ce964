import Condr.Protocol.ClientMessage

/-!
# A client's model of a Session

Whose Session it is and how far its events were applied. What is shown of the Session, its
structure, terminals and Agents, is the content, and the operations on it are given.
-/

namespace Condr

/-- The content of a Session model and what changes it. -/
structure ContentModel where
  Content : Type
  /-- The records of a Bootstrap. -/
  Snapshot : Type
  Event : Type
  /-- The Panes' frames of one batch. -/
  Frames : Type
  empty : Content
  /-- Takes a snapshot's place, with views for the watched Panes. A snapshot that is no valid
  Session changes nothing. -/
  restore : Snapshot → Option (Finset PaneId) → Content → Except String Content
  /-- Applies an event, where a Pane is in front of the person. A malformed layout fails. -/
  applyEvent : Event → Option PaneId → Content → Option Content
  /-- Applies the frames of the watched Panes, all or none. -/
  applyFrames : Frames → Option (Finset PaneId) → Content → Option Content
  /-- Drops the views of Panes outside a set. -/
  retainPanes : Finset PaneId → Content → Content
  markSeen : PaneId → Content → Content

variable {C : ContentModel}

/-- A Bootstrap as its reader hands it on. -/
structure ModelBootstrap (C : ContentModel) where
  serverId : ServerId
  runtimeEpoch : RuntimeEpoch
  sessionId : SessionId
  sequence : ℕ
  snapshot : C.Snapshot

structure SessionModel (C : ContentModel) where
  serverId : Option ServerId
  runtimeEpoch : Option RuntimeEpoch
  sessionId : Option SessionId
  sequence : ℕ
  /-- The Panes that frames were asked for; none is every Pane. -/
  watched : Option (Finset PaneId)
  content : C.Content

namespace SessionModel

def init : SessionModel C where
  serverId := none
  runtimeEpoch := none
  sessionId := none
  sequence := 0
  watched := none
  content := C.empty

/-- The model after a Bootstrap, and whether it is of another Server, runtime or Session. -/
def applyBootstrap (model : SessionModel C) (bootstrap : ModelBootstrap C) :
    Except String (SessionModel C × Bool) := do
  let content ← C.restore bootstrap.snapshot model.watched model.content
  let authorityChanged := model.serverId ≠ some bootstrap.serverId ∨
    model.runtimeEpoch ≠ some bootstrap.runtimeEpoch ∨ model.sessionId ≠ some bootstrap.sessionId
  .ok ({ model with
    serverId := some bootstrap.serverId
    runtimeEpoch := some bootstrap.runtimeEpoch
    sessionId := some bootstrap.sessionId
    sequence := bootstrap.sequence
    content }, authorityChanged)

def applyTerminalFrames (model : SessionModel C) (frames : C.Frames) : Option (SessionModel C) :=
  (C.applyFrames frames model.watched model.content).map fun content => { model with content }

def watchTerminals (model : SessionModel C) (panes : Finset PaneId) : SessionModel C :=
  { model with content := C.retainPanes panes model.content, watched := some panes }

def markSeen (model : SessionModel C) (paneId : PaneId) : SessionModel C :=
  { model with content := C.markSeen paneId model.content }

end SessionModel

end Condr
