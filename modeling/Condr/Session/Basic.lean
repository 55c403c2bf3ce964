import Condr.Foundation.Lists
import Condr.Session.Layout
import Condr.Session.Path

/-!
# The Session

The structure every client shares: Workspaces with their Tabs, and the Panes of
the terminal Tabs. The process hands out every id from one counter, which is kept
beside the Session here (`Store`).
-/

namespace Condr

structure WorkspaceId where
  asU64 : ℕ
deriving DecidableEq

structure TabId where
  asU64 : ℕ
deriving DecidableEq

inductive AgentKind where
  | claude
  | codex
  | openCode
  | pi
  | omp
  | antigravity
  | grok
  | cursor
  | copilot
  | kimi
  /-- A kind a newer Server reported: nothing detects or launches it. -/
  | other
deriving DecidableEq

/-- A native conversation to reopen in a fresh shell after a Server restart. -/
structure AgentResume where
  kind : AgentKind
  sessionId : String
deriving DecidableEq

def isAsciiAlphanumeric (char : Char) : Bool :=
  ('0' ≤ char && char ≤ '9') || ('A' ≤ char && char ≤ 'Z') || ('a' ≤ char && char ≤ 'z')

def validSessionId (id : String) : Bool :=
  !id.isEmpty && id.utf8ByteSize ≤ 256 && id.toList.head?.all isAsciiAlphanumeric &&
    id.toList.all fun char => isAsciiAlphanumeric char || char = '-' || char = '_'

/-- `resume.is_none_or(valid_session_id)`. -/
def validResume (resume : Option AgentResume) : Bool :=
  resume.all fun resume => validSessionId resume.sessionId

structure Pane where
  id : PaneId
  cwd : Option PathBuf
  agentResume : Option AgentResume
deriving DecidableEq

structure TerminalLayout where
  panes : List Pane
  focusedPane : PaneId
  focusHistory : List PaneId
  layout : PaneLayout F32
  zoomedPane : Option PaneId
deriving DecidableEq

/-- What a Tab shows: a layout of terminal Panes, or a viewer with no Panes at all. -/
inductive TabContent where
  | terminals (terminals : TerminalLayout)
  | diff (path : RelativePathBuf)
  | file (path : RelativePathBuf)
deriving DecidableEq

structure Tab where
  id : TabId
  name : String
  content : TabContent
deriving DecidableEq

structure WorktreeAssociation where
  parentWorkspaceId : WorkspaceId
  parentRootDirectory : PathBuf
  managed : Bool
  baseBranch : Option String
deriving DecidableEq

structure Workspace where
  id : WorkspaceId
  name : String
  rootDirectory : PathBuf
  worktree : Option WorktreeAssociation
  tabs : List Tab
deriving DecidableEq

structure Session where
  workspaces : List Workspace
deriving DecidableEq

/-- A Session together with `NEXT_ID`, the counter of its process. -/
structure Store where
  session : Session
  nextId : ℕ

structure CloseOutcome where
  panes : List PaneId
  tabs : List TabId
  workspaces : List WorkspaceId
deriving DecidableEq

/-! ## Limits -/

def maxSnapshotWorkspaces : ℕ := 64

def maxSnapshotTabs : ℕ := 256

def maxSnapshotPanes : ℕ := 1024

def maxSnapshotLayoutDepth : ℕ := 64

def maxSnapshotLayoutNodes : ℕ := maxSnapshotPanes * 2 - 1

/-- `u64::MAX / 2`. -/
def maxStableId : ℕ := 2 ^ 63 - 1

def maxNextStableIdExclusive : ℕ := maxStableId + 1

/-- `reserve_ids`: the first of `count` fresh ids and the counter after them. -/
def reserveIds (nextId count : ℕ) : Option (ℕ × ℕ) :=
  if nextId + count ≤ maxNextStableIdExclusive then some (nextId, nextId + count) else none

/-! ## Reading a Session -/

namespace TabContent

def sameViewerKind : TabContent → TabContent → Bool
  | diff _, diff _ => true
  | file _, file _ => true
  | _, _ => false

def isDiff : TabContent → Bool
  | diff _ => true
  | _ => false

def isFile : TabContent → Bool
  | file _ => true
  | _ => false

end TabContent

namespace Tab

def terminals (tab : Tab) : Option TerminalLayout :=
  match tab.content with
  | .terminals terminals => some terminals
  | .diff _ | .file _ => none

/-- Empty for a viewer Tab. -/
def panes (tab : Tab) : List Pane :=
  (tab.terminals.map (·.panes)).getD []

def paneIds (tab : Tab) : List PaneId :=
  tab.panes.map (·.id)

/-- `None` for a viewer Tab; the inner option is the source's `expect`. -/
def focusedPane (tab : Tab) : Option (Option Pane) :=
  tab.terminals.map fun terminals => terminals.panes.find? (·.id = terminals.focusedPane)

end Tab

namespace TerminalLayout

def paneIds (terminals : TerminalLayout) : List PaneId :=
  terminals.panes.map (·.id)

def single (pane : Pane) : TerminalLayout where
  panes := [pane]
  focusedPane := pane.id
  focusHistory := []
  layout := .pane pane.id
  zoomedPane := none

end TerminalLayout

namespace Workspace

def tabIds (workspace : Workspace) : List TabId :=
  workspace.tabs.map (·.id)

def panes (workspace : Workspace) : List Pane :=
  workspace.tabs.flatMap Tab.panes

def paneIds (workspace : Workspace) : List PaneId :=
  workspace.tabs.flatMap Tab.paneIds

end Workspace

namespace Session

def empty : Session := ⟨[]⟩

def tabs (session : Session) : List Tab :=
  session.workspaces.flatMap (·.tabs)

def panes (session : Session) : List Pane :=
  session.tabs.flatMap Tab.panes

def workspaceIds (session : Session) : List WorkspaceId :=
  session.workspaces.map (·.id)

def tabIds (session : Session) : List TabId :=
  session.tabs.map (·.id)

def paneIds (session : Session) : List PaneId :=
  session.tabs.flatMap Tab.paneIds

def workspace (session : Session) (workspaceId : WorkspaceId) : Option Workspace :=
  session.workspaces.find? (·.id = workspaceId)

def pane (session : Session) (paneId : PaneId) : Option Pane :=
  session.panes.find? (·.id = paneId)

/-- Where a Pane is: the indices of its Workspace, Tab and place among the Tab's Panes. -/
def findPane (session : Session) (paneId : PaneId) : Option (ℕ × ℕ × ℕ) :=
  session.workspaces.zipIdx.findSome? fun (workspace, workspaceIx) =>
    workspace.tabs.zipIdx.findSome? fun (tab, tabIx) =>
      (tab.panes.findIdx? (·.id = paneId)).map (workspaceIx, tabIx, ·)

def tabCount (session : Session) : ℕ :=
  (session.workspaces.map (·.tabs.length)).sum

def paneCount (session : Session) : ℕ :=
  (session.tabs.map (·.panes.length)).sum

/-- `terminal_layout_mut`, for reading; `none` is its `expect`. -/
def terminalLayout (session : Session) (workspaceIx tabIx : ℕ) : Option TerminalLayout := do
  let workspace ← session.workspaces[workspaceIx]?
  let tab ← workspace.tabs[tabIx]?
  tab.terminals

/-- Changes the Workspace at an index in place. -/
def modifyWorkspace (session : Session) (workspaceIx : ℕ) (change : Workspace → Workspace) :
    Session :=
  ⟨session.workspaces.modify workspaceIx change⟩

/-- Changes the Tab at an index of a Workspace in place. -/
def modifyTab (session : Session) (workspaceIx tabIx : ℕ) (change : Tab → Tab) : Session :=
  session.modifyWorkspace workspaceIx fun workspace =>
    { workspace with tabs := workspace.tabs.modify tabIx change }

/-- Writes the terminal layout of a Tab. -/
def setTerminals (session : Session) (workspaceIx tabIx : ℕ) (terminals : TerminalLayout) :
    Session :=
  session.modifyTab workspaceIx tabIx fun tab => { tab with content := .terminals terminals }

end Session

/-! ## What the lookups find -/

@[simp]
theorem Tab.paneIds_terminals {tab : Tab} {terminals : TerminalLayout}
    (content : tab.content = .terminals terminals) : tab.paneIds = terminals.paneIds := by
  simp [Tab.paneIds, Tab.panes, Tab.terminals, content, TerminalLayout.paneIds]

theorem Session.paneCount_eq (session : Session) : session.paneCount = session.paneIds.length := by
  simp only [Session.paneCount, Session.paneIds, List.length_flatMap]
  simp [Tab.paneIds]

theorem Session.tabCount_eq (session : Session) : session.tabCount = session.tabIds.length := by
  simp [Session.tabCount, Session.tabIds, Session.tabs, List.length_flatMap]

theorem Tab.terminals_eq_some {tab : Tab} {terminals : TerminalLayout} :
    tab.terminals = some terminals ↔ tab.content = .terminals terminals := by
  unfold Tab.terminals
  split <;> simp_all

theorem Session.terminalLayout_eq_some {session : Session} {workspaceIx tabIx : ℕ}
    {terminals : TerminalLayout}
    (found : session.terminalLayout workspaceIx tabIx = some terminals) :
    ∃ workspace tab, session.workspaces[workspaceIx]? = some workspace ∧
      workspace.tabs[tabIx]? = some tab ∧ tab.content = .terminals terminals := by
  simp only [terminalLayout, Option.bind_eq_bind, Option.bind_eq_some_iff] at found
  rcases found with ⟨workspace, workspaceAt, tab, tabAt, shown⟩
  exact ⟨workspace, tab, workspaceAt, tabAt, Tab.terminals_eq_some.mp shown⟩

theorem reserveIds_eq_some {nextId count first later : ℕ}
    (reserved : reserveIds nextId count = some (first, later)) :
    later ≤ maxNextStableIdExclusive ∧ first = nextId ∧ later = nextId + count := by
  unfold reserveIds at reserved
  split_ifs at reserved with room
  simp only [Option.some.injEq, Prod.mk.injEq] at reserved
  rcases reserved with ⟨rfl, rfl⟩
  exact ⟨room, rfl, rfl⟩

/-- Where `find_pane` locates a Pane. -/
structure Session.Located (session : Session) (paneId : PaneId) (workspaceIx tabIx paneIx : ℕ)
    (workspace : Workspace) (tab : Tab) (terminals : TerminalLayout) (pane : Pane) : Prop where
  workspaceAt : session.workspaces[workspaceIx]? = some workspace
  tabAt : workspace.tabs[tabIx]? = some tab
  content : tab.content = .terminals terminals
  paneAt : terminals.panes[paneIx]? = some pane
  id : pane.id = paneId

theorem Session.findPane_located {session : Session} {paneId : PaneId}
    {workspaceIx tabIx paneIx : ℕ} (found : session.findPane paneId = some (workspaceIx, tabIx, paneIx)) :
    ∃ workspace tab terminals pane,
      session.Located paneId workspaceIx tabIx paneIx workspace tab terminals pane := by
  rcases List.exists_of_findSome?_eq_some found with ⟨⟨workspace, index⟩, workspaceMem, inWorkspace⟩
  rcases List.exists_of_findSome?_eq_some inWorkspace with ⟨⟨tab, position⟩, tabMem, inTab⟩
  simp only [Option.map_eq_some_iff, Prod.mk.injEq] at inTab
  rcases inTab with ⟨place, placeEq, rfl, rfl, rfl⟩
  rcases Lists.findIdx?_getElem? placeEq with ⟨pane, paneAt, same⟩
  have shown : ∃ terminals, tab.content = .terminals terminals ∧ tab.panes = terminals.panes := by
    rcases content : tab.content with terminals | path | path
    · exact ⟨terminals, rfl, by simp [Tab.panes, Tab.terminals, content]⟩
    all_goals simp [Tab.panes, Tab.terminals, content] at paneAt
  rcases shown with ⟨terminals, content, panes⟩
  exact ⟨workspace, tab, terminals, pane, by simpa using List.mem_zipIdx_iff_getElem?.mp workspaceMem,
    by simpa using List.mem_zipIdx_iff_getElem?.mp tabMem, content, panes ▸ paneAt,
    of_decide_eq_true same⟩

theorem Session.findPane_eq_none {session : Session} {paneId : PaneId} :
    session.findPane paneId = none ↔ paneId ∉ session.paneIds := by
  simp only [findPane, List.findSome?_eq_none_iff, Option.map_eq_none_iff,
    List.findIdx?_eq_none_iff, paneIds, tabs, Tab.paneIds, List.mem_flatMap, List.mem_map,
    not_exists, not_and]
  constructor
  · rintro absent tab ⟨workspace, workspaceMem, tabMem⟩ pane paneMem same
    rcases List.getElem?_of_mem workspaceMem with ⟨index, workspaceAt⟩
    rcases List.getElem?_of_mem tabMem with ⟨position, tabAt⟩
    have := absent (workspace, index) (List.mem_zipIdx_iff_getElem?.mpr workspaceAt)
      (tab, position) (List.mem_zipIdx_iff_getElem?.mpr tabAt) pane paneMem
    simp [same] at this
  · intro absent workspace workspaceMem tab tabMem pane paneMem
    have workspaceMem := List.mem_of_getElem? (List.mem_zipIdx_iff_getElem?.mp workspaceMem)
    have tabMem := List.mem_of_getElem? (List.mem_zipIdx_iff_getElem?.mp tabMem)
    exact decide_eq_false fun same => absent tab.1 ⟨workspace.1, workspaceMem, tabMem⟩ pane paneMem same

namespace Session.Located

variable {session : Session} {paneId : PaneId} {workspaceIx tabIx paneIx : ℕ}
  {workspace : Workspace} {tab : Tab} {terminals : TerminalLayout} {pane : Pane}

/-- The `expect` of `terminal_layout_mut` does not fail. -/
theorem terminalLayout
    (located : session.Located paneId workspaceIx tabIx paneIx workspace tab terminals pane) :
    session.terminalLayout workspaceIx tabIx = some terminals := by
  simp [Session.terminalLayout, located.workspaceAt, located.tabAt, Tab.terminals, located.content]

theorem paneIds_mem
    (located : session.Located paneId workspaceIx tabIx paneIx workspace tab terminals pane) :
    paneId ∈ terminals.paneIds :=
  located.id ▸ List.mem_map_of_mem (List.mem_of_getElem? located.paneAt)

theorem workspaceMem
    (located : session.Located paneId workspaceIx tabIx paneIx workspace tab terminals pane) :
    workspace ∈ session.workspaces :=
  List.mem_of_getElem? located.workspaceAt

theorem tabMem
    (located : session.Located paneId workspaceIx tabIx paneIx workspace tab terminals pane) :
    tab ∈ workspace.tabs :=
  List.mem_of_getElem? located.tabAt

end Session.Located

end Condr
