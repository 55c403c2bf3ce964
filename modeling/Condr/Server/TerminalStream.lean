import Condr.Foundation.Entries
import Condr.Server.TerminalMonitor

/-!
# Frames for one Client

The Server keeps the latest view of every Pane and, for a subscribed Client, the view that the
Client has once it took all that is queued for it. A render is prepared from both with no lock
held, and committed where nothing changed meanwhile. A Bootstrap replaces every view; while it is
made the Client's frames are fenced. A Client limits its frames to the Panes that it watches, and
ignores what comes for others. Requests of one Client are handled one after the other.
-/

namespace Condr.TerminalStream

abbrev View := TerminalView String

abbrev Frame := TerminalViewFrame String

structure LatestTerminalView where
  view : View
  /-- The delta that led to the view. -/
  producerFrame : Option (TerminalViewDelta String)

/-- The wire takes no link off the view, and the delta that led to it is from an earlier one. -/
structure LatestTerminalView.Fits (latest : LatestTerminalView) : Prop where
  within : Budget.Within hyperlinkLimits (linkTexts latest.view.cells)
  ahead : ∀ update, latest.producerFrame = some update → update.baseRevision < latest.view.revision

/-- What `publish_terminal` keeps of a frame; a delta has to apply. -/
def publishTerminal (latest : Option LatestTerminalView) : Frame → Option LatestTerminalView
  | .full view => some { view := settleView ∅ view, producerFrame := none }
  | .delta update =>
      match latest with
      | none => none
      | some latest =>
          let settled := settleDelta (untouched latest.view update) update
          match latest.view.applyFrame (.delta settled) with
          | .ok view => some { view, producerFrame := some settled }
          | .error _ => none

/-! ## Renders -/

/-- The frame of one Pane: the delta that the terminal made, where the Client is at its base. -/
def paneFrame (baseline : Option View) (latest : LatestTerminalView) : Option (Option Frame) :=
  match baseline, latest.producerFrame with
  | some base, some update =>
      if base.revision = update.baseRevision then some (some (.delta update))
      else TerminalView.frameFrom baseline latest.view
  | _, _ => TerminalView.frameFrom baseline latest.view

/-- A frame as the wire carries it, and the view that it leaves at the Client. -/
def project (baseline : Option View) (latest : LatestTerminalView) (frame : Frame) :
    Option (Frame × View) :=
  let normalized := settleFrame ∅ frame
  if normalized = frame then some (normalized, latest.view)
  else match normalized with
    | .full view => some (normalized, view)
    | .delta _ =>
        match baseline with
        | none => none
        | some base => ((base.applyFrame normalized).toOption).map fun view => (normalized, view)

/-- What one Pane is sent, if anything. The outer `none` is a panic of the code. -/
def renderPane (baseline : Option View) (latest : LatestTerminalView) :
    Option (Option (Frame × View)) :=
  if baseline.any fun base => latest.view.revision ≤ base.revision then some none
  else
    match paneFrame baseline latest with
    | none => none
    | some none => some none
    | some (some frame) => (project baseline latest frame).map some

/-- What a subscriber is sent: for each of its pending Panes a frame with the view that it leaves,
or nothing. -/
structure PreparedTerminalRender where
  generation : UInt64
  panes : List (PaneId × Option (Frame × View))

namespace PreparedTerminalRender

def pending (prepared : PreparedTerminalRender) : List PaneId := prepared.panes.map Prod.fst

def frames (prepared : PreparedTerminalRender) : List (PaneId × Frame) :=
  prepared.panes.filterMap fun pane => pane.2.map fun sent => (pane.1, sent.1)

/-- The baseline of a Pane after the render. -/
def baseline (prepared : PreparedTerminalRender) (before : PaneId → Option View) (pane : PaneId) :
    Option View :=
  match Entries.get pane prepared.panes with
  | some (some (_, view)) => some view
  | _ => before pane

end PreparedTerminalRender

/-! ## The Client -/

inductive Message where
  | bootstrap (views : PaneId → Option View)
  /-- A new layout, by the Panes that are closed in it. -/
  | layout (closed : List PaneId)
  | frame (pane : PaneId) (frame : Frame)

structure Client where
  /-- The Panes that it asked frames for; `none` is every Pane. -/
  watched : Option (List PaneId)
  terminals : PaneId → Option View
  /-- A frame did not apply. -/
  gap : Bool

def watches (watched : Option (List PaneId)) (pane : PaneId) : Bool :=
  watched.all fun panes => pane ∈ panes

def isFull : Frame → Bool
  | .full _ => true
  | .delta _ => false

namespace Client

def watchTerminals (client : Client) (panes : List PaneId) : Client :=
  { client with
    watched := some panes
    terminals := fun pane => if pane ∈ panes then client.terminals pane else none }

/-- `apply_bootstrap`, `apply_layout` and `apply_terminal_frames`, of the terminals. -/
def apply (client : Client) : Message → Client
  | .bootstrap views =>
      { client with
        terminals := fun pane =>
          if watches client.watched pane then (views pane).map (settleView ∅) else none }
  | .layout closed =>
      { client with
        terminals := fun pane => if pane ∈ closed then none else client.terminals pane }
  | .frame pane frame =>
      -- With a watched set, what does not fit it is old.
      if client.watched.isSome && !(watches client.watched pane &&
          ((client.terminals pane).isSome || isFull frame)) then client
      else
        match receive (client.terminals pane) frame with
        | some view => { client with terminals := Function.update client.terminals pane (some view) }
        | none => { client with gap := true }

end Client

/-! ## What is sent of one Pane -/

inductive PaneMessage where
  | reset (view : Option View)
  | frame (frame : Frame)

def forPane (pane : PaneId) : Message → Option PaneMessage
  | .bootstrap views => some (.reset (views pane))
  | .layout closed => if pane ∈ closed then some (.reset none) else none
  | .frame other frame => if other = pane then some (.frame frame) else none

/-- A message at one that takes everything. -/
def hear (held : Option View) : PaneMessage → Option (Option View)
  | .reset view => some (view.map (settleView ∅))
  | .frame frame => (receive held frame).map some

/-! ## The Server -/

structure ClientSubscriber where
  terminalBaselines : PaneId → Option View
  pendingTerminals : List PaneId
  renderGeneration : UInt64
  bootstrapPending : Bool
  /-- Layouts published during a Bootstrap. -/
  deferred : List Message

structure State where
  terminalViews : PaneId → Option LatestTerminalView
  watchedTerminals : Option (List PaneId)
  subscriber : Option ClientSubscriber
  /-- The Bootstraps and layouts in the writer's reliable queue. -/
  reliable : List Message
  /-- The writer's render slot. -/
  slot : List (PaneId × Frame)
  lagged : Bool
  /-- Written and not yet applied. -/
  wire : List Message
  client : Client
  /-- Watched sets that are on their way. -/
  requests : List (List PaneId)
  /-- A Bootstrap that is being framed, with whether its subscriber is fenced. -/
  capture : Option ((PaneId → Option View) × Bool)
  /-- Renders that are being framed, each with the count of changes at its snapshot. -/
  renders : List (PreparedTerminalRender × ℕ)
  /-- How often a subscription began or its generation moved. -/
  changes : ℕ
  /-- What one that takes everything that arrived has of each Pane. -/
  heard : PaneId → Option View

namespace ClientSubscriber

def advance (subscriber : ClientSubscriber) : ClientSubscriber :=
  { subscriber with renderGeneration := subscriber.renderGeneration + 1 }

def mark (subscriber : ClientSubscriber) (pane : PaneId) : ClientSubscriber :=
  { subscriber with pendingTerminals := subscriber.pendingTerminals.insert pane }

/-- `reconcile_watched_terminals`; `panes` are those with a view. -/
def reconcile (subscriber : ClientSubscriber) (watched : List PaneId)
    (views : PaneId → Option LatestTerminalView) : ClientSubscriber :=
  let baselines := fun pane => if pane ∈ watched then subscriber.terminalBaselines pane else none
  let unsent := watched.filter fun pane => (views pane).isSome && (baselines pane).isNone
  { subscriber with
    terminalBaselines := baselines
    pendingTerminals :=
      unsent.foldl (fun pending pane => pending.insert pane)
        (subscriber.pendingTerminals.filter fun pane => pane ∈ watched)
    renderGeneration := subscriber.renderGeneration + 1 }

/-- The retains of `terminal_render_snapshot`. -/
def retain (subscriber : ClientSubscriber) (views : PaneId → Option LatestTerminalView) :
    ClientSubscriber :=
  { subscriber with
    pendingTerminals := subscriber.pendingTerminals.filter fun pane => (views pane).isSome
    terminalBaselines := fun pane =>
      if (views pane).isSome then subscriber.terminalBaselines pane else none }

/-- The snapshot and `prepare_terminal_render`. -/
def prepare (subscriber : ClientSubscriber) (views : PaneId → Option LatestTerminalView) :
    Option PreparedTerminalRender := do
  let panes ← subscriber.pendingTerminals.mapM fun pane => do
    let latest ← views pane
    let sent ← renderPane (subscriber.terminalBaselines pane) latest
    return (pane, sent)
  return { generation := subscriber.renderGeneration, panes }

/-- What a committed render leaves. -/
def committed (subscriber : ClientSubscriber) (prepared : PreparedTerminalRender) :
    ClientSubscriber :=
  { subscriber with
    terminalBaselines := prepared.baseline subscriber.terminalBaselines
    pendingTerminals := subscriber.pendingTerminals.filter fun pane => pane ∉ prepared.pending
    renderGeneration := subscriber.renderGeneration + 1 }

end ClientSubscriber

namespace State

def update (state : State) (change : ClientSubscriber → ClientSubscriber) : State :=
  { state with
    subscriber := state.subscriber.map change
    changes := state.changes + 1 }

def publish (state : State) (pane : PaneId) (latest : LatestTerminalView) : State :=
  let views := Function.update state.terminalViews pane (some latest)
  if watches state.watchedTerminals pane then
    { state.update fun subscriber => (subscriber.mark pane).advance with terminalViews := views }
  else { state with terminalViews := views }

/-- `install_terminal`, which does not ask who watches. -/
def install (state : State) (pane : PaneId) (view : View) : State :=
  let removed := fun (subscriber : ClientSubscriber) => { subscriber with
    terminalBaselines := Function.update subscriber.terminalBaselines pane none }
  { state.update fun subscriber => ((removed subscriber).mark pane).advance with
    terminalViews := Function.update state.terminalViews pane
      (some { view := settleView ∅ view, producerFrame := none }) }

/-- A layout that closes Panes, and its event. -/
def close (state : State) (closed : List PaneId) : State :=
  let views := fun pane => if pane ∈ closed then none else state.terminalViews pane
  match state.subscriber with
  | none => { state with terminalViews := views }
  | some subscriber =>
      if subscriber.bootstrapPending then
        { state with
          terminalViews := views
          subscriber := some { subscriber with
            deferred := subscriber.deferred ++ [.layout closed] } }
      else if state.lagged then { state with terminalViews := views, subscriber := none }
      else
        { state with terminalViews := views, reliable := state.reliable ++ [.layout closed] }

/-- `ensure_subscriber`; `panes` are those with a terminal. -/
def subscribe (state : State) (panes : List PaneId) : State :=
  match state.subscriber with
  | some _ => state
  | none =>
      { state with
        subscriber := some {
          terminalBaselines := fun _ => none
          pendingTerminals := panes.filter fun pane => watches state.watchedTerminals pane
          renderGeneration := 1
          bootstrapPending := false
          deferred := [] }
        changes := state.changes + 1 }

/-- A rejected subscription. -/
def unsubscribe (state : State) : State :=
  match state.subscriber with
  | none => state
  | some _ => { state with subscriber := none, slot := [] }

def watchTerminals (state : State) (panes : List PaneId) : State :=
  { state.update fun subscriber =>
      if subscriber.bootstrapPending then subscriber
      else subscriber.reconcile panes state.terminalViews with
    watchedTerminals := some panes }

/-- The capture of a Bootstrap and `begin_bootstrap`. -/
def beginBootstrap (state : State) : State :=
  let views := fun pane =>
    if watches state.watchedTerminals pane then
      (state.terminalViews pane).map LatestTerminalView.view
    else none
  match state.subscriber with
  | none => { state with capture := some (views, false) }
  | some subscriber =>
      { state with
        subscriber := some { subscriber with
          terminalBaselines := fun _ => none
          pendingTerminals := []
          renderGeneration := subscriber.renderGeneration + 1
          bootstrapPending := true
          deferred := [] }
        slot := []
        capture := some (views, true)
        changes := state.changes + 1 }

/-- The views of a Bootstrap as they are framed. -/
def framed (views : PaneId → Option View) (pane : PaneId) : Option View :=
  (views pane).map (settleView ∅)

/-- `resume_after_lag` and `finish_bootstrap`. -/
def finishBootstrap (state : State) : State :=
  match state.capture with
  | none => state
  | some (views, fenced) =>
      let queued := state.reliable ++ [.bootstrap (framed views)]
      let slot := if state.lagged then [] else state.slot
      match fenced, state.subscriber with
      | true, some subscriber =>
          let based := { subscriber with terminalBaselines := framed views }
          let reconciled := match state.watchedTerminals with
            | some watched => based.reconcile watched state.terminalViews
            | none => based
          { state with
            subscriber := some { reconciled with
              bootstrapPending := false
              renderGeneration := reconciled.renderGeneration + 1
              deferred := [] }
            reliable := queued ++ subscriber.deferred
            slot := []
            lagged := false
            capture := none
            changes := state.changes + 1 }
      | _, _ => { state with reliable := queued, slot, lagged := false, capture := none }

/-- The snapshot of a render; a fenced subscriber has none. -/
def prepareRender (state : State) : State :=
  match state.subscriber with
  | none => state
  | some subscriber =>
      if subscriber.bootstrapPending then state
      else
        let retained := subscriber.retain state.terminalViews
        let state := { state with subscriber := some retained }
        match retained.prepare state.terminalViews with
        | none => state
        | some prepared =>
            if prepared.panes = [] then state
            else { state with renders := state.renders ++ [(prepared, state.changes)] }

/-- `commit_terminal_render`; a render of another generation is retried. -/
def commitRender (state : State) (prepared : PreparedTerminalRender) : State :=
  match state.subscriber with
  | none => state
  | some subscriber =>
      if subscriber.renderGeneration ≠ prepared.generation then state
      else if prepared.frames = [] then state.update fun subscriber => subscriber.committed prepared
      else if state.lagged then { state with subscriber := none }
      else if state.slot ≠ [] then state
      else
        { state.update fun subscriber => subscriber.committed prepared with
          slot := prepared.frames }

/-- The reliable queue overflows: all that is queued goes, for a notice. -/
def lag (state : State) (removes : Bool) : State :=
  { state with
    subscriber := if removes then none else state.subscriber
    reliable := []
    slot := []
    lagged := true }

/-- The writer takes what is next. -/
def write (state : State) : State :=
  match state.reliable, state.slot with
  | message :: reliable, _ => { state with reliable, wire := state.wire ++ [message] }
  | [], (pane, frame) :: slot => { state with slot, wire := state.wire ++ [.frame pane frame] }
  | [], [] => state

/-- The Client takes what is next. -/
def apply (state : State) : State :=
  match state.wire with
  | [] => state
  | message :: wire =>
      { state with
        wire
        client := state.client.apply message
        heard := fun pane =>
          match forPane pane message with
          | none => state.heard pane
          | some message => (hear (state.heard pane) message).getD none }

end State

/-! ## Runs -/

inductive Label where
  /-- The terminal hands a frame over. -/
  | publish (pane : PaneId) (frame : Frame)
  /-- A terminal starts in a Pane. -/
  | install (pane : PaneId) (view : View)
  | close (closed : List PaneId)
  /-- The Client subscribes; `panes` are those with a terminal. -/
  | subscribe (panes : List PaneId)
  /-- A subscription is rejected. -/
  | unsubscribe
  /-- The Client limits its frames. -/
  | watch (panes : List PaneId)
  /-- The Server takes a watched set. -/
  | takeWatch
  | beginBootstrap
  | finishBootstrap
  | prepare
  | commit (index : ℕ)
  /-- A render is given up. -/
  | drop (index : ℕ)
  | lag (removes : Bool)
  | write
  | apply

namespace State

def fenced (state : State) : Prop := ∃ views, state.capture = some (views, true)

/-- When a step may be. The Client's own requests wait for its Bootstrap; a fenced subscriber is
not removed. -/
def Enabled (state : State) : Label → Prop
  | .publish pane frame => (state.terminalViews pane).isSome = true ∧
      (publishTerminal (state.terminalViews pane) frame).isSome = true
  | .subscribe panes => state.capture = none ∧ panes.Nodup ∧
      ∀ pane, pane ∈ panes ↔ (state.terminalViews pane).isSome = true
  | .unsubscribe => state.capture = none
  | .takeWatch => state.capture = none
  | .beginBootstrap => state.capture = none
  | .lag removes => removes = true → ¬state.fenced
  | _ => True

def perform (state : State) : Label → State
  | .publish pane frame =>
      match publishTerminal (state.terminalViews pane) frame with
      | some latest => state.publish pane latest
      | none => state
  | .install pane view => state.install pane view
  | .close closed => state.close closed
  | .subscribe panes => state.subscribe panes
  | .unsubscribe => state.unsubscribe
  | .watch panes =>
      { state with
        client := state.client.watchTerminals panes
        requests := state.requests ++ [panes] }
  | .takeWatch =>
      match state.requests with
      | [] => state
      | panes :: requests => { state.watchTerminals panes with requests }
  | .beginBootstrap => state.beginBootstrap
  | .finishBootstrap => state.finishBootstrap
  | .prepare => state.prepareRender
  | .commit index =>
      match state.renders[index]? with
      | none => state
      | some (prepared, _) =>
          { state.commitRender prepared with renders := state.renders.eraseIdx index }
  | .drop index => { state with renders := state.renders.eraseIdx index }
  | .lag removes => state.lag removes
  | .write => state.write
  | .apply => state.apply

end State

/-- A Server with terminals, and a Client that has just connected. -/
structure Starts (state : State) : Prop where
  fits : ∀ pane latest, state.terminalViews pane = some latest → latest.Fits
  watchedTerminals : state.watchedTerminals = none
  subscriber : state.subscriber = none
  reliable : state.reliable = []
  slot : state.slot = []
  wire : state.wire = []
  requests : state.requests = []
  capture : state.capture = none
  renders : state.renders = []
  watched : state.client.watched = none
  gap : state.client.gap = false
  heard : state.heard = state.client.terminals

def streamSystem : Transition.System State Label where
  initial := Starts
  step := fun state label next => state.Enabled label ∧ next = state.perform label

end Condr.TerminalStream
