import Mathlib.Data.List.Basic
import Mathlib.Tactic.Common

/-!
# Terminal views and frames

A view is a grid of cells with the cursor, the selection and the modes a Client draws it
with. A frame brings a view up to date: it is a whole view, or a delta whose runs replace
the cells that changed since a base revision. Cells are generic in the type of their
hyperlinks, since a holder of views also looks at where a link's text lies.
-/

namespace Condr

structure TerminalSize where
  rows : UInt16
  columns : UInt16
  cellWidth : UInt16
  cellHeight : UInt16
deriving DecidableEq

inductive TerminalCursorShape where
  | block
  | underline
  | beam
  | hollowBlock
  | hidden
deriving DecidableEq

inductive TerminalColor where
  | default
  | indexed (value : UInt8)
  | rgb (red green blue : UInt8)
deriving DecidableEq

structure TerminalCell (Link : Type) where
  text : String
  foreground : TerminalColor
  background : TerminalColor
  underlineColor : TerminalColor
  flags : UInt32
  hyperlink : Option Link
deriving DecidableEq

structure TerminalCursor where
  row : UInt16
  column : UInt16
  shape : TerminalCursorShape
  blinking : Bool
deriving DecidableEq

inductive TerminalMouseTracking where
  | none
  | click
  | drag
  | motion
deriving DecidableEq

inductive TerminalSide where
  | left
  | right
deriving DecidableEq

structure TerminalPosition where
  row : UInt16
  column : UInt16
  side : TerminalSide
deriving DecidableEq

structure TerminalSelection where
  start : TerminalPosition
  finish : TerminalPosition
  displayOffset : UInt32
deriving DecidableEq

@[ext]
structure TerminalView (Link : Type) where
  revision : ℕ
  size : TerminalSize
  displayOffset : UInt32
  mouseTracking : TerminalMouseTracking
  cells : List (TerminalCell Link)
  cursor : Option TerminalCursor
  selection : Option TerminalSelection
deriving DecidableEq

structure TerminalCellRun (Link : Type) where
  start : UInt32
  cells : List (TerminalCell Link)
deriving DecidableEq

structure TerminalViewDelta (Link : Type) where
  baseRevision : ℕ
  revision : ℕ
  displayOffset : UInt32
  mouseTracking : TerminalMouseTracking
  cursor : Option TerminalCursor
  selection : Option TerminalSelection
  runs : List (TerminalCellRun Link)
deriving DecidableEq

inductive TerminalViewFrame (Link : Type) where
  | full (view : TerminalView Link)
  | delta (delta : TerminalViewDelta Link)
deriving DecidableEq

inductive TerminalFrameError where
  | revisionMismatch (expected actual : ℕ)
  | nonMonotonicRevision (base revision : ℕ)
  | invalidCellRun
deriving DecidableEq

variable {Link Other : Type}

/-! ## The same cells with other links -/

def TerminalCell.map (change : Link → Other) (cell : TerminalCell Link) : TerminalCell Other where
  text := cell.text
  foreground := cell.foreground
  background := cell.background
  underlineColor := cell.underlineColor
  flags := cell.flags
  hyperlink := cell.hyperlink.map change

def TerminalView.map (change : Link → Other) (view : TerminalView Link) : TerminalView Other where
  revision := view.revision
  size := view.size
  displayOffset := view.displayOffset
  mouseTracking := view.mouseTracking
  cells := view.cells.map (TerminalCell.map change)
  cursor := view.cursor
  selection := view.selection

def TerminalCellRun.map (change : Link → Other) (run : TerminalCellRun Link) :
    TerminalCellRun Other where
  start := run.start
  cells := run.cells.map (TerminalCell.map change)

def TerminalViewDelta.map (change : Link → Other) (delta : TerminalViewDelta Link) :
    TerminalViewDelta Other where
  baseRevision := delta.baseRevision
  revision := delta.revision
  displayOffset := delta.displayOffset
  mouseTracking := delta.mouseTracking
  cursor := delta.cursor
  selection := delta.selection
  runs := delta.runs.map (TerminalCellRun.map change)

def TerminalViewFrame.map (change : Link → Other) : TerminalViewFrame Link → TerminalViewFrame Other
  | .full view => .full (view.map change)
  | .delta update => .delta (update.map change)

/-! ## Applying frames -/

/-- The index after a run's last cell. -/
def TerminalCellRun.stop (run : TerminalCellRun Link) : ℕ :=
  run.start.toNat + run.cells.length

/-- The loop of `validate_delta`: runs are in order, apart and inside the grid, and hold cells. -/
def validateRuns (count : ℕ) : ℕ → List (TerminalCellRun Link) → Except TerminalFrameError Unit
  | _, [] => .ok ()
  | previousEnd, run :: runs =>
      if count < run.stop then .error .invalidCellRun
      else if run.cells.isEmpty || run.start.toNat < previousEnd then .error .invalidCellRun
      else validateRuns count run.stop runs

def TerminalView.validateDelta (view : TerminalView Link) (delta : TerminalViewDelta Link) :
    Except TerminalFrameError Unit :=
  if delta.revision ≤ delta.baseRevision then
    .error (.nonMonotonicRevision delta.baseRevision delta.revision)
  else if view.revision ≠ delta.baseRevision then
    .error (.revisionMismatch delta.baseRevision view.revision)
  else validateRuns view.cells.length 0 delta.runs

/-- The cells a run replaces. -/
def TerminalCellRun.replaced (run : TerminalCellRun Link) (cells : List (TerminalCell Other)) :
    List (TerminalCell Other) :=
  (cells.drop run.start.toNat).take run.cells.length

def TerminalCellRun.apply (run : TerminalCellRun Link) (cells : List (TerminalCell Link)) :
    List (TerminalCell Link) :=
  cells.take run.start.toNat ++ run.cells ++ cells.drop run.stop

def TerminalView.applyValidatedDelta (view : TerminalView Link) (delta : TerminalViewDelta Link) :
    TerminalView Link where
  revision := delta.revision
  size := view.size
  displayOffset := delta.displayOffset
  mouseTracking := delta.mouseTracking
  cells := delta.runs.foldl (fun cells run => run.apply cells) view.cells
  cursor := delta.cursor
  selection := delta.selection

/-- Checks that a frame applies without touching the view. -/
def TerminalView.validateFrame (view : TerminalView Link) :
    TerminalViewFrame Link → Except TerminalFrameError Unit
  | .full _ => .ok ()
  | .delta update => view.validateDelta update

def TerminalView.applyFrame (view : TerminalView Link) (frame : TerminalViewFrame Link) :
    Except TerminalFrameError (TerminalView Link) :=
  match view.validateFrame frame, frame with
  | .error error, _ => .error error
  | .ok (), .full next => .ok next
  | .ok (), .delta update => .ok (view.applyValidatedDelta update)

/-- The cells of every run in order. -/
def TerminalViewDelta.cells (delta : TerminalViewDelta Link) : List (TerminalCell Link) :=
  delta.runs.flatMap TerminalCellRun.cells

end Condr
