import Condr.Session.Basic

/-!
# Workspace and Tab operations

The operations that create, order, name and close Workspaces and Tabs, and those
that point a viewer Tab at a file.
-/

namespace Condr

/-- The display name every Diff Tab starts with. -/
def diffTabName : String := "Diff"

def fileTabName : String := "Preview"

/-- The Tab a Workspace or `create_tab` starts with: one Pane. -/
def Tab.single (id : TabId) (paneId : PaneId) (cwd : PathBuf) : Tab where
  id
  name := ""
  content := .terminals (.single { id := paneId, cwd := some cwd, agentResume := none })

namespace Store

/-- `create_workspace`. -/
def createWorkspace (store : Store) (rootDirectory : PathBuf) : Option WorkspaceId × Store :=
  let session := store.session
  if maxSnapshotWorkspaces ≤ session.workspaces.length || maxSnapshotTabs ≤ session.tabCount ||
      maxSnapshotPanes ≤ session.paneCount then (none, store)
  else match reserveIds store.nextId 3 with
  | none => (none, store)
  | some (first, nextId) =>
      let workspace : Workspace := {
        id := ⟨first⟩
        name := workspaceName rootDirectory
        rootDirectory
        worktree := none
        tabs := [Tab.single ⟨first + 1⟩ ⟨first + 2⟩ rootDirectory] }
      (some ⟨first⟩, { session := ⟨session.workspaces ++ [workspace]⟩, nextId })

/-- `create_tab`: the shell starts where `cwdFrom` is, when that Pane belongs to the Workspace. -/
def createTab (store : Store) (workspaceId : WorkspaceId) (cwdFrom : Option PaneId) :
    Option TabId × Store :=
  let session := store.session
  if maxSnapshotTabs ≤ session.tabCount || maxSnapshotPanes ≤ session.paneCount then (none, store)
  else match session.workspaces.findIdx? (·.id = workspaceId) with
  | none => (none, store)
  | some workspaceIx =>
      match session.workspaces[workspaceIx]? with
      | none => (none, store)
      | some workspace =>
          let from? := cwdFrom.bind fun paneId => workspace.panes.find? (·.id = paneId)
          let cwd := (from?.bind (·.cwd)).getD workspace.rootDirectory
          match reserveIds store.nextId 2 with
          | none => (none, store)
          | some (first, nextId) =>
              (some ⟨first⟩, {
                session := session.modifyWorkspace workspaceIx fun workspace =>
                  { workspace with
                    tabs := workspace.tabs ++ [Tab.single ⟨first⟩ ⟨first + 1⟩ cwd] }
                nextId })

/-- `show_viewer`: retargets the viewer Tab of the content's kind, or creates it. -/
def showViewer (store : Store) (workspaceId : WorkspaceId) (content : TabContent) (name : String) :
    Option TabId × Store :=
  let session := store.session
  let path? := match content with
    | .diff path | .file path => some path
    | .terminals _ => none
  match path? with
  | none => (none, store)
  | some path =>
      if !validDiffPath path then (none, store)
      else match session.workspaces.findIdx? (·.id = workspaceId) with
      | none => (none, store)
      | some workspaceIx =>
          match session.workspaces[workspaceIx]? with
          | none => (none, store)
          | some workspace =>
              match workspace.tabs.findIdx? (·.content.sameViewerKind content) with
              | some tabIx =>
                  ((workspace.tabs[tabIx]?).map (·.id), { store with
                    session := session.modifyTab workspaceIx tabIx fun tab =>
                      { tab with content } })
              | none =>
                  if maxSnapshotTabs ≤ session.tabCount then (none, store)
                  else match reserveIds store.nextId 1 with
                  | none => (none, store)
                  | some (first, nextId) =>
                      (some ⟨first⟩, {
                        session := session.modifyWorkspace workspaceIx fun workspace =>
                          { workspace with
                            tabs := workspace.tabs ++ [{ id := ⟨first⟩, name, content }] }
                        nextId })

def showDiff (store : Store) (workspaceId : WorkspaceId) (path : RelativePathBuf) :
    Option TabId × Store :=
  store.showViewer workspaceId (.diff path) diffTabName

def showFile (store : Store) (workspaceId : WorkspaceId) (path : RelativePathBuf) :
    Option TabId × Store :=
  store.showViewer workspaceId (.file path) fileTabName

end Store

/-- The path a rename of `source` to `target` gives to a file: unchanged (`none`) outside it. -/
def RelativePathBuf.renamed (path source target : RelativePathBuf) : Option RelativePathBuf :=
  (path.stripPrefix source).map fun rest =>
    if rest.inner.isEmpty then target else target.join rest

/-- A Preview Tab at or below the renamed path follows it. -/
def Tab.followRename (tab : Tab) (source target : RelativePathBuf) : Tab :=
  match tab.content with
  | .file path =>
      match path.renamed source target with
      | some path => { tab with content := .file path }
      | none => tab
  | _ => tab

/-- The Tab's Pane focus, history and zoom of an earlier Session. -/
def Tab.keepFocus (tab : Tab) (old : Option Tab) : Tab :=
  match tab.content, old.bind Tab.terminals with
  | .terminals terminals, some old =>
      { tab with
        content := .terminals { terminals with
          focusedPane := old.focusedPane
          focusHistory := old.focusHistory
          zoomedPane := old.zoomedPane } }
  | _, _ => tab

namespace Session

/-- Changes the first Workspace with an id; reports whether there is one. -/
def withWorkspace (session : Session) (workspaceId : WorkspaceId)
    (change : Workspace → Workspace) : Bool × Session :=
  match session.workspaces.findIdx? (·.id = workspaceId) with
  | none => (false, session)
  | some workspaceIx => (true, session.modifyWorkspace workspaceIx change)

/-- Changes the first Tab with an id; reports whether there is one. -/
def withTab (session : Session) (tabId : TabId) (change : Tab → Tab) : Bool × Session :=
  match session.workspaces.findIdx? fun workspace => workspace.tabs.any (·.id = tabId) with
  | none => (false, session)
  | some workspaceIx =>
      (true, session.modifyWorkspace workspaceIx fun workspace =>
        { workspace with
          tabs := match workspace.tabs.findIdx? (·.id = tabId) with
            | none => workspace.tabs
            | some tabIx => workspace.tabs.modify tabIx change })

/-- `follow_rename`: whether any Preview Tab changed. -/
def followRename (session : Session) (workspaceId : WorkspaceId)
    (source target : RelativePathBuf) : Bool × Session :=
  let follows (tab : Tab) : Bool := match tab.content with
    | .file path => (path.stripPrefix source).isSome
    | _ => false
  match session.workspaces.findIdx? (·.id = workspaceId) with
  | none => (false, session)
  | some workspaceIx =>
      (((session.workspaces[workspaceIx]?).map (·.tabs.any follows)).getD false,
        session.modifyWorkspace workspaceIx fun workspace =>
          { workspace with tabs := workspace.tabs.map (·.followRename source target) })

/-- `preserve_focus_from`. -/
def preserveFocusFrom (session previous : Session) : Session :=
  ⟨session.workspaces.map fun workspace =>
    match previous.workspace workspace.id with
    | none => workspace
    | some old =>
        { workspace with
          tabs := workspace.tabs.map fun tab =>
            tab.keepFocus (old.tabs.find? (·.id = tab.id)) }⟩

/-- `associate_worktree`. -/
def associateWorktree (session : Session) (workspaceId : WorkspaceId)
    (association : WorktreeAssociation) : Bool × Session :=
  if workspaceId = association.parentWorkspaceId || association.parentRootDirectory.isEmpty then
    (false, session)
  else
    session.withWorkspace workspaceId fun workspace =>
      { workspace with worktree := some association }

/-- `clear_worktree_association`: whether there was one. -/
def clearWorktreeAssociation (session : Session) (workspaceId : WorkspaceId) : Bool × Session :=
  let (_, cleared) := session.withWorkspace workspaceId fun workspace =>
    { workspace with worktree := none }
  (((session.workspace workspaceId).bind (·.worktree)).isSome, cleared)

/-- `close_workspace`. -/
def closeWorkspace (session : Session) (workspaceId : WorkspaceId) :
    Option (CloseOutcome × Session) := do
  let workspaceIx ← session.workspaces.findIdx? (·.id = workspaceId)
  let workspace ← session.workspaces[workspaceIx]?
  some (⟨workspace.paneIds, workspace.tabIds, [workspaceId]⟩,
    ⟨session.workspaces.eraseIdx workspaceIx⟩)

/-- `close_tab`: the last Tab of a Workspace takes the Workspace with it. -/
def closeTab (session : Session) (tabId : TabId) : Option (CloseOutcome × Session) := do
  let workspaceIx ← session.workspaces.findIdx? fun workspace => workspace.tabs.any (·.id = tabId)
  let workspace ← session.workspaces[workspaceIx]?
  let tabIx ← workspace.tabs.findIdx? (·.id = tabId)
  if workspace.tabs.length = 1 then session.closeWorkspace workspace.id
  else
    let tab ← workspace.tabs[tabIx]?
    some (⟨tab.paneIds, [tabId], []⟩,
      session.modifyWorkspace workspaceIx fun workspace =>
        { workspace with tabs := workspace.tabs.eraseIdx tabIx })

end Session

/-- `remove` followed by `insert`. -/
def moveElement {α : Type} (list : List α) (source target : ℕ) : List α :=
  match list[source]? with
  | none => list
  | some element => (list.eraseIdx source).insertIdx target element

namespace Session

/-- `move_workspace`. -/
def moveWorkspace (session : Session) (workspaceId : WorkspaceId) (targetIx : ℕ) :
    Bool × Session :=
  match session.workspaces.findIdx? (·.id = workspaceId) with
  | none => (false, session)
  | some sourceIx =>
      if session.workspaces.length ≤ targetIx || sourceIx = targetIx then (false, session)
      else (true, ⟨moveElement session.workspaces sourceIx targetIx⟩)

/-- `move_tab`. -/
def moveTab (session : Session) (tabId : TabId) (targetIx : ℕ) : Bool × Session :=
  match session.workspaces.findIdx? fun workspace => workspace.tabs.any (·.id = tabId) with
  | none => (false, session)
  | some workspaceIx =>
      match session.workspaces[workspaceIx]? with
      | none => (false, session)
      | some workspace =>
          match workspace.tabs.findIdx? (·.id = tabId) with
          | none => (false, session)
          | some sourceIx =>
              if workspace.tabs.length ≤ targetIx || sourceIx = targetIx then (false, session)
              else
                (true, session.modifyWorkspace workspaceIx fun workspace =>
                  { workspace with tabs := moveElement workspace.tabs sourceIx targetIx })

/-- `rename_workspace`. -/
def renameWorkspace (session : Session) (workspaceId : WorkspaceId) (name : String) :
    Bool × Session :=
  if (trim name).isEmpty then (false, session)
  else session.withWorkspace workspaceId fun workspace => { workspace with name := trim name }

/-- `rename_tab`. -/
def renameTab (session : Session) (tabId : TabId) (name : String) : Bool × Session :=
  if (trim name).isEmpty then (false, session)
  else session.withTab tabId fun tab => { tab with name := trim name }

end Session

end Condr
