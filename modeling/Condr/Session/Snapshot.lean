import Condr.Session.Basic

/-!
# Session snapshots

The durable form of a Session, in which every layout is a table of nodes, and the
checks a snapshot passes before a Session is restored from it.
-/

namespace Condr

inductive LayoutNodeSnapshot where
  | pane (id : PaneId)
  | split (direction : SplitDirection) (ratio : F32) (first second : ℕ)
deriving DecidableEq

structure LayoutSnapshot where
  root : ℕ
  nodes : List LayoutNodeSnapshot
deriving DecidableEq

structure PaneSnapshot where
  id : PaneId
  cwd : Option PathBuf
  agentResume : Option AgentResume
deriving DecidableEq

inductive TabContentSnapshot where
  | terminals (panes : List PaneSnapshot) (focusedPane : PaneId) (focusHistory : List PaneId)
      (layout : LayoutSnapshot)
  | diff (path : RelativePathBuf)
  | file (path : RelativePathBuf)
deriving DecidableEq

structure TabSnapshot where
  id : TabId
  name : String
  content : TabContentSnapshot
deriving DecidableEq

structure WorkspaceSnapshot where
  id : WorkspaceId
  name : String
  rootDirectory : PathBuf
  worktree : Option WorktreeAssociation
  tabs : List TabSnapshot
deriving DecidableEq

structure SessionSnapshot where
  workspaces : List WorkspaceSnapshot
deriving DecidableEq

/-- `SnapshotError::Invalid`. -/
inductive SnapshotError where
  | invalid (text : String)
deriving DecidableEq

/-! ## Taking a snapshot -/

/-- The number of nodes of a layout, each of which takes one turn of the loop below. -/
def PaneLayout.nodeCount {R : Type} : PaneLayout R → ℕ
  | pane _ => 1
  | split _ _ first second => first.nodeCount + second.nodeCount + 1

namespace LayoutSnapshot

/-- The loop of `from_layout`: the layouts still pending, and how many were ever pushed. Both
children of a split are pushed behind everything that waits. -/
def flatten : ℕ → List (PaneLayout F32) → ℕ → List LayoutNodeSnapshot
  | 0, _, _ => []
  | _, [], _ => []
  | turns + 1, .pane id :: pending, pushed => .pane id :: flatten turns pending pushed
  | turns + 1, .split direction ratio first second :: pending, pushed =>
      .split direction ratio pushed (pushed + 1) ::
        flatten turns (pending ++ [first, second]) (pushed + 2)

/-- `from_layout`. -/
def fromLayout (layout : PaneLayout F32) : LayoutSnapshot where
  root := 0
  nodes := flatten layout.nodeCount [layout] 1

end LayoutSnapshot

def Pane.snapshot (pane : Pane) : PaneSnapshot where
  id := pane.id
  cwd := pane.cwd
  agentResume := pane.agentResume

def TabContent.snapshot : TabContent → TabContentSnapshot
  | terminals layout =>
      .terminals (layout.panes.map Pane.snapshot) layout.focusedPane layout.focusHistory
        (.fromLayout layout.layout)
  | diff path => .diff path
  | file path => .file path

def Tab.snapshot (tab : Tab) : TabSnapshot where
  id := tab.id
  name := tab.name
  content := tab.content.snapshot

def Workspace.snapshot (workspace : Workspace) : WorkspaceSnapshot where
  id := workspace.id
  name := workspace.name
  rootDirectory := workspace.rootDirectory
  worktree := workspace.worktree
  tabs := workspace.tabs.map Tab.snapshot

/-- `Session::snapshot`. -/
def Session.snapshot (session : Session) : SessionSnapshot where
  workspaces := session.workspaces.map Workspace.snapshot

/-! ## Checking the tables of a snapshot -/

def invalid {α : Type} (text : String) : Except SnapshotError α :=
  .error (.invalid text)

/-- Whether a node of the table was entered and left: `0`, `1` and `2` of the source. -/
inductive VisitState where
  | unseen
  | entered
  | finished
deriving DecidableEq

theorem VisitState.finished_ne : finished ≠ unseen := by decide

theorem VisitState.entered_ne : entered ≠ unseen := by decide

theorem VisitState.count_set_le (states : List VisitState) (index : ℕ) {state : VisitState}
    (differs : state ≠ unseen) : (states.set index state).count unseen ≤ states.count unseen := by
  by_cases inBounds : index < states.length
  · rw [List.count_set inBounds]
    simp [differs]
  · rw [List.set_eq_of_length_le (not_lt.mp inBounds)]

theorem VisitState.count_set_lt {states : List VisitState} {index : ℕ} {state : VisitState}
    (differs : state ≠ unseen) (here : states[index]? = some unseen) :
    (states.set index state).count unseen < states.count unseen := by
  rcases List.getElem?_eq_some_iff.mp here with ⟨inBounds, unseenHere⟩
  have counted : 0 < states.count unseen :=
    List.count_pos_iff.mpr (unseenHere ▸ List.getElem_mem inBounds)
  rw [List.count_set inBounds]
  simp only [unseenHere, beq_self_eq_true, if_true, beq_iff_eq, differs, if_false]
  omega

/-- The loop of `validate_layout_snapshot`: entries of the stack are an index, its depth, and
whether the node is being left. -/
def visitLayout (nodes : List LayoutNodeSnapshot) (states : List VisitState)
    (panes : List PaneId) (stack : List (ℕ × ℕ × Bool)) :
    Except SnapshotError (List VisitState × List PaneId) :=
  match stack with
  | [] => .ok (states, panes)
  | (index, depth, exiting) :: stack =>
      match nodes[index]? with
      | none => invalid "layout node is out of bounds"
      | some node =>
          if exiting then visitLayout nodes (states.set index .finished) panes stack
          else if _here : states[index]? = some .unseen then
            if maxSnapshotLayoutDepth < depth then invalid "layout exceeds maximum depth"
            else match node with
            | .pane id =>
                if id ∈ panes then invalid "duplicate Pane in layout"
                else visitLayout nodes (states.set index .finished) (panes ++ [id]) stack
            | .split _ ratio first second =>
                if !ratioInRange ratio then invalid "invalid split ratio"
                else
                  visitLayout nodes (states.set index .entered) panes
                    ((first, depth + 1, false) :: (second, depth + 1, false) ::
                      (index, depth, true) :: stack)
          else if states[index]? = some .entered then invalid "cycle in layout"
          else invalid "duplicate layout node reference"
-- a node is entered once, which pays for the entries it pushes
termination_by 3 * states.count .unseen + stack.length
decreasing_by
  · have := VisitState.count_set_le states index VisitState.finished_ne
    simp only [List.length_cons]
    omega
  · have := VisitState.count_set_lt VisitState.finished_ne _here
    simp only [List.length_cons]
    omega
  · have := VisitState.count_set_lt VisitState.entered_ne _here
    simp only [List.length_cons]
    omega

/-- `validate_layout_snapshot`. -/
def validateLayoutSnapshot (layout : LayoutSnapshot) (expectedPanes : List PaneId) :
    Except SnapshotError Unit := do
  if expectedPanes.isEmpty then invalid "invalid empty layout"
  if layout.nodes.length ≠ expectedPanes.length * 2 - 1 then
    invalid "layout node count does not match Tab"
  if layout.nodes.length ≤ layout.root then invalid "layout root is out of bounds"
  let (states, layoutPanes) ←
    visitLayout layout.nodes (List.replicate layout.nodes.length .unseen) []
      [(layout.root, 1, false)]
  if .unseen ∈ states then invalid "unreachable layout node"
  if ¬(layoutPanes ⊆ expectedPanes ∧ expectedPanes ⊆ layoutPanes) then
    invalid "layout Pane set does not match Tab"

/-- The counts of Tabs, Panes and layout nodes so far. -/
structure ResourceCounts where
  tabs : ℕ := 0
  panes : ℕ := 0
  layoutNodes : ℕ := 0

def countTab (counts : ResourceCounts) (tab : TabSnapshot) : Except SnapshotError ResourceCounts :=
  match tab.content with
  | .terminals panes _ _ layout => do
      let counts := { counts with panes := counts.panes + panes.length }
      if maxSnapshotPanes < counts.panes then invalid "too many Panes"
      let counts := { counts with layoutNodes := counts.layoutNodes + layout.nodes.length }
      if maxSnapshotLayoutNodes < counts.layoutNodes then invalid "too many layout nodes"
      .ok counts
  | _ => .ok counts

def countWorkspace (counts : ResourceCounts) (workspace : WorkspaceSnapshot) :
    Except SnapshotError ResourceCounts := do
  let counts := { counts with tabs := counts.tabs + workspace.tabs.length }
  if maxSnapshotTabs < counts.tabs then invalid "too many Tabs"
  workspace.tabs.foldlM countTab counts

def validateTabLayout (tab : TabSnapshot) : Except SnapshotError Unit :=
  match tab.content with
  | .terminals panes _ _ layout => do
      let paneIds := panes.map (·.id)
      if ¬paneIds.Nodup then invalid "duplicate Pane ID"
      validateLayoutSnapshot layout paneIds
  | _ => .ok ()

/-- `validate_snapshot_resources`. -/
def validateSnapshotResources (snapshot : SessionSnapshot) : Except SnapshotError Unit := do
  if maxSnapshotWorkspaces < snapshot.workspaces.length then invalid "too many Workspaces"
  let _ ← snapshot.workspaces.foldlM countWorkspace {}
  snapshot.workspaces.forM fun workspace => workspace.tabs.forM validateTabLayout

/-! ## Checking a Session -/

/-- `validate_id`, which keeps the largest id. -/
def validateId (id maxId : ℕ) : Except SnapshotError ℕ :=
  if id = 0 || maxStableId < id then invalid "invalid stable ID" else .ok (max maxId id)

/-- The ids `validate` has met. -/
structure Seen where
  workspaceIds : List WorkspaceId := []
  tabIds : List TabId := []
  paneIds : List PaneId := []
  maxId : ℕ := 0

def validatePane (seen : Seen × List PaneId) (pane : Pane) :
    Except SnapshotError (Seen × List PaneId) := do
  let (seen, tabPaneIds) := seen
  let maxId ← validateId pane.id.asU64 seen.maxId
  if !validResume pane.agentResume then invalid "invalid Agent resume ID"
  if pane.id ∈ seen.paneIds ∨ pane.id ∈ tabPaneIds then invalid "duplicate Pane ID"
  .ok ({ seen with paneIds := seen.paneIds ++ [pane.id], maxId }, tabPaneIds ++ [pane.id])

/-- `validate_layout`: the Panes of a layout are added to those met. -/
def validateLayout : PaneLayout F32 → List PaneId → Except SnapshotError (List PaneId)
  | .pane id, paneIds =>
      if id ∈ paneIds then invalid "duplicate Pane in layout" else .ok (paneIds ++ [id])
  | .split _ ratio first second, paneIds => do
      if !ratioInRange ratio then invalid "invalid split ratio"
      let paneIds ← validateLayout first paneIds
      validateLayout second paneIds

def validateTerminals (seen : Seen) (terminals : TerminalLayout) : Except SnapshotError Seen := do
  if terminals.panes.isEmpty then invalid "invalid Tab"
  let (seen, tabPaneIds) ← terminals.panes.foldlM validatePane (seen, [])
  if terminals.focusedPane ∉ tabPaneIds then invalid "focused Pane is missing"
  if ¬((∀ id ∈ terminals.focusHistory, id ≠ terminals.focusedPane ∧ id ∈ tabPaneIds) ∧
      terminals.focusHistory.Nodup) then
    invalid "invalid Pane focus history"
  let layoutPanes ← validateLayout terminals.layout []
  if ¬(layoutPanes ⊆ tabPaneIds ∧ tabPaneIds ⊆ layoutPanes) then
    invalid "layout Pane set does not match Tab"
  .ok seen

/-- The viewer Tabs of a Workspace so far. -/
structure ViewerCounts where
  diffTabs : ℕ := 0
  fileTabs : ℕ := 0

def validateTab (seen : Seen × ViewerCounts) (tab : Tab) :
    Except SnapshotError (Seen × ViewerCounts) := do
  let (seen, viewers) := seen
  let maxId ← validateId tab.id.asU64 seen.maxId
  if tab.id ∈ seen.tabIds then invalid "duplicate Tab ID"
  let seen := { seen with tabIds := seen.tabIds ++ [tab.id], maxId }
  match tab.content with
  | .diff path =>
      if !validDiffPath path then invalid "invalid Diff Tab path"
      let viewers := { viewers with diffTabs := viewers.diffTabs + 1 }
      if 1 < viewers.diffTabs then invalid "a Workspace has at most one Diff Tab"
      .ok (seen, viewers)
  | .file path =>
      if !validDiffPath path then invalid "invalid Preview Tab path"
      let viewers := { viewers with fileTabs := viewers.fileTabs + 1 }
      if 1 < viewers.fileTabs then invalid "a Workspace has at most one Preview Tab"
      .ok (seen, viewers)
  | .terminals terminals =>
      let seen ← validateTerminals seen terminals
      .ok (seen, viewers)

def validateWorktree (workspaceId : WorkspaceId) (maxId : ℕ) :
    Option WorktreeAssociation → Except SnapshotError ℕ
  | none => .ok maxId
  | some worktree => do
      let maxId ← validateId worktree.parentWorkspaceId.asU64 maxId
      if worktree.parentWorkspaceId = workspaceId ∨ worktree.parentRootDirectory.isEmpty then
        invalid "invalid Worktree association"
      .ok maxId

def validateWorkspace (seen : Seen) (workspace : Workspace) : Except SnapshotError Seen := do
  let maxId ← validateId workspace.id.asU64 seen.maxId
  if workspace.id ∈ seen.workspaceIds then invalid "duplicate Workspace ID"
  if workspace.name.isEmpty ∨ workspace.tabs.isEmpty then invalid "invalid Workspace"
  let maxId ← validateWorktree workspace.id maxId workspace.worktree
  let seen := { seen with workspaceIds := seen.workspaceIds ++ [workspace.id], maxId }
  let (seen, _) ← workspace.tabs.foldlM validateTab (seen, {})
  .ok seen

/-- `validate`: the largest id of the Session. -/
def Session.validate (session : Session) : Except SnapshotError ℕ := do
  let seen ← session.workspaces.foldlM validateWorkspace {}
  .ok seen.maxId

/-! ## Restoring -/

/-- `restore_node`, to a depth; `none` where the table leads out of bounds or deeper. -/
def restoreNode (nodes : List LayoutNodeSnapshot) : ℕ → ℕ → Option (PaneLayout F32)
  | 0, _ => none
  | depth + 1, index =>
      match nodes[index]? with
      | none => none
      | some (.pane id) => some (.pane id)
      | some (.split direction ratio first second) => do
          let first ← restoreNode nodes depth first
          let second ← restoreNode nodes depth second
          some (.split direction ratio first second)

/-- `restore_layout`: a layout that was checked is not deeper than the limit. -/
def restoreLayout (layout : LayoutSnapshot) : Option (PaneLayout F32) :=
  restoreNode layout.nodes maxSnapshotLayoutDepth layout.root

def PaneSnapshot.restore (pane : PaneSnapshot) : Pane where
  id := pane.id
  cwd := pane.cwd
  agentResume := pane.agentResume

def TabContentSnapshot.restore : TabContentSnapshot → Option TabContent
  | terminals panes focusedPane focusHistory layout =>
      (restoreLayout layout).map fun layout =>
        .terminals {
          panes := panes.map PaneSnapshot.restore
          focusedPane
          focusHistory
          layout
          zoomedPane := none }
  | diff path => some (.diff path)
  | file path => some (.file path)

def TabSnapshot.restore (tab : TabSnapshot) : Option Tab :=
  tab.content.restore.map fun content => { id := tab.id, name := tab.name, content }

def WorkspaceSnapshot.restore (workspace : WorkspaceSnapshot) : Option Workspace :=
  (workspace.tabs.mapM TabSnapshot.restore).map fun tabs => {
    id := workspace.id
    name := workspace.name
    rootDirectory := workspace.rootDirectory
    worktree := workspace.worktree
    tabs }

/-- `Session::restore`, which moves the counter of the process behind the largest id. -/
def Session.restore (snapshot : SessionSnapshot) (nextId : ℕ) : Except SnapshotError Store := do
  validateSnapshotResources snapshot
  match snapshot.workspaces.mapM WorkspaceSnapshot.restore with
  | none => invalid "layout node is out of bounds"
  | some workspaces => do
      let session : Session := ⟨workspaces⟩
      let maxId ← session.validate
      .ok { session, nextId := max nextId (maxId + 1) }

end Condr
