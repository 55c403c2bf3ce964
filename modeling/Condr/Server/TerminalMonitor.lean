import Condr.Client.Terminals
import Condr.Terminal.CursorSettle
import Condr.Terminal.FrameFrom

/-!
# The monitor of a terminal

Writers change a terminal under its lock, and once they gave the lock back they advance the
revision and send an update. The monitor sleeps until there is an update, takes a frame against
the view it took last and hands it to the Server, which keeps the view and asks for all of it
where a frame does not apply. Each section under a lock, each atomic and each operation on the
channel is a step. What `Vt::view` answers is given here as the screen, up to the revision.
-/

namespace Condr

/-- A view up to its revision. -/
def TerminalView.content (view : TerminalView String) : TerminalView String :=
  { view with revision := 0 }

theorem TerminalView.eq_of_content {view other : TerminalView String}
    (same : view.content = other.content) (revision : view.revision = other.revision) :
    view = other := by
  have fields := congrArg (fun content => { content with revision := view.revision }) same
  simp only [content] at fields
  rw [revision] at fields
  calc view = { view with revision := other.revision } := by rw [← revision]
    _ = other := fields

namespace Monitor

inductive Update where
  | view (revision : ℕ)
  | exited
deriving DecidableEq

/-- Where the monitor's thread stands. -/
inductive Phase where
  /-- About to ask when to look again. -/
  | looking
  /-- `frame_wakeup` has read whether frames are held. -/
  | looked (held : Bool)
  /-- Blocked in a receive, with a time limit for the next frame or without one. -/
  | waiting (timed : Bool)
  /-- An update has come, and those behind it are joined to it. -/
  | coalescing
  | taking
  /-- `take_frame` has read the terminal. -/
  | read (view : TerminalView String)
  /-- `take_frame` has the settled cursor. -/
  | settled (view : TerminalView String)
  /-- The Server takes a frame. -/
  | publishing (frame : TerminalViewFrame String)
  /-- The Server asks for the whole view. -/
  | recovering
  /-- `view` has read the terminal. -/
  | reread (view : TerminalView String)
  | ended
deriving DecidableEq

structure State where
  screen : TerminalView String
  /-- An open synchronized update holds frames. -/
  held : Bool
  revision : ℕ
  /-- Writers that changed the screen and have not advanced the revision. -/
  written : ℕ
  /-- Revisions whose updates are not sent. -/
  advanced : List ℕ
  updates : List Update
  settle : CursorSettle
  /-- The view last taken. -/
  baseline : Option (TerminalView String)
  /-- The Server's view. -/
  retained : Option (TerminalView String)
  phase : Phase
deriving DecidableEq

/-- `settled_cursor`; only some platforms settle cursors. -/
def settledCursor (settles : Bool) (settle : CursorSettle) (cursor : Option TerminalCursor)
    (now : ℕ) : CursorSettle × Option TerminalCursor :=
  if settles then
    let observed := settle.observe cursor now
    (observed, observed.reported cursor now)
  else (settle, cursor)

def cursorSettlePending (settles : Bool) (settle : CursorSettle) : Bool :=
  settles && settle.candidate.isSome

namespace State

/-- What a read of the terminal under its lock gives. -/
def view (state : State) : TerminalView String := { state.screen with revision := state.revision }

/-- Where the monitor goes with what `take_frame` returned; a panic ends it. -/
def framePhase : Option (Option (TerminalViewFrame String)) → Phase
  | none => .ended
  | some none => .looking
  | some (some frame) => .publishing frame

/-- The end of `take_frame`: a cursor that settled gets a revision of its own, and a view of the
baseline's revision makes no frame. -/
def compare (state : State) (view : TerminalView String) : State :=
  let moved := state.baseline.any fun baseline =>
    view.revision ≤ baseline.revision && baseline.cursor ≠ view.cursor
  let revision := if moved then state.revision + 1 else state.revision
  let view := if moved then { view with revision := state.revision + 1 } else view
  let frame :=
    if state.baseline.any fun baseline => view.revision ≤ baseline.revision then some none
    else TerminalView.frameFrom state.baseline view
  { state with
    revision
    baseline := some view
    phase := framePhase frame }

/-- `coalesce_terminal_update` and the receive before it. -/
def receive (state : State) : State :=
  match state.updates with
  | [] => state
  | .view _ :: updates => { state with updates, phase := .coalescing }
  | .exited :: updates => { state with updates, phase := .ended }

/-- One step of the monitor's thread. -/
def monitor (settles : Bool) (now : ℕ) (state : State) : State :=
  match state.phase with
  | .looking => { state with phase := .looked state.held }
  | .looked held =>
      { state with phase := .waiting (held || cursorSettlePending settles state.settle) }
  | .waiting timed =>
      if state.updates ≠ [] then state.receive
      -- The time limit of a frame, or that of an idle Pane.
      else if timed then { state with phase := .coalescing }
      else { state with phase := .looking }
  | .coalescing =>
      if state.updates ≠ [] then state.receive else { state with phase := .taking }
  | .taking =>
      if state.held then { state with phase := .looking }
      else { state with phase := .read state.view }
  | .read view =>
      let (settle, cursor) := settledCursor settles state.settle view.cursor now
      { state with settle, phase := .settled { view with cursor } }
  | .settled view => state.compare view
  | .publishing frame =>
      -- `publish_terminal`: a delta has to apply to the view that is there.
      match Condr.receive state.retained frame with
      | some retained => { state with retained := some retained, phase := .looking }
      | none => { state with phase := .recovering }
  | .recovering => { state with phase := .reread state.view }
  | .reread view =>
      let (settle, cursor) := settledCursor settles state.settle view.cursor now
      { state with settle, phase := .publishing (.full { view with cursor }) }
  | .ended => state

end State

inductive Label where
  /-- A write, a resize, a scroll or a selection; the reader observes the cursor then. -/
  | change (screen : TerminalView String) (held : Bool) (observed : Option ℕ)
  | advance
  | send (revision : ℕ)
  /-- A synchronized update times out. -/
  | expire
  /-- Another thread that has read the view settles its cursor. -/
  | look (cursor : Option TerminalCursor) (now : ℕ)
  | exit
  | monitor (now : ℕ)
deriving DecidableEq

namespace State

def observe (settles : Bool) (settle : CursorSettle) (cursor : Option TerminalCursor) :
    Option ℕ → CursorSettle
  | some now => if settles then settle.observe cursor now else settle
  | none => settle

/-- What a step needs: a screen is within the limits of a view, and a writer sends what it
advanced to. -/
def Enabled (state : State) : Label → Prop
  | .change screen _ _ =>
      screen.cells.length ≤ 2 ^ 32 ∧ Budget.Within hyperlinkLimits (linkTexts screen.cells)
  | .advance => 0 < state.written
  | .send revision => revision ∈ state.advanced
  | .expire | .look _ _ | .exit | .monitor _ => True

instance (state : State) : (label : Label) → Decidable (state.Enabled label)
  | .change _ _ _ => inferInstanceAs (Decidable (_ ∧ _))
  | .advance => inferInstanceAs (Decidable (_ < _))
  | .send _ => inferInstanceAs (Decidable (_ ∈ _))
  | .expire | .look _ _ | .exit | .monitor _ => inferInstanceAs (Decidable True)

def perform (settles : Bool) (state : State) : Label → State
  | .change screen held observed =>
      { state with
        screen
        held
        written := state.written + 1
        settle := observe settles state.settle screen.cursor observed }
  | .advance =>
      { state with
        revision := state.revision + 1
        written := state.written - 1
        advanced := (state.revision + 1) :: state.advanced }
  | .send revision =>
      { state with
        advanced := state.advanced.erase revision
        updates := state.updates ++ [.view revision] }
  | .expire => { state with held := false }
  | .look cursor now => { state with settle := (settledCursor settles state.settle cursor now).1 }
  | .exit => { state with updates := state.updates ++ [.exited] }
  | .monitor now => state.monitor settles now

end State

/-- The terminal as it starts; the Server reads its first view like one it asks for. -/
structure Starts (state : State) : Prop where
  few : state.screen.cells.length ≤ 2 ^ 32
  within : Budget.Within hyperlinkLimits (linkTexts state.screen.cells)
  baseline : state.baseline = none
  phase : state.phase = .recovering

def monitorSystem (settles : Bool) : Transition.System State Label where
  initial := Starts
  step := fun state label next => state.Enabled label ∧ next = state.perform settles label

end Monitor

end Condr
