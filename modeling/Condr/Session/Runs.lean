import Condr.Foundation.Transition
import Condr.Session.Restoration
import Condr.Session.WorkspacePreservation

/-!
# Runs of a Session

Every Session a process can hold: it starts empty or restored from a snapshot,
and changes by the operations, in any order and with any arguments that their
callers let through. All of them are well formed.
-/

namespace Condr

/-- One call of an operation. -/
inductive SessionOperation where
  | createWorkspace (rootDirectory : PathBuf)
  | createTab (workspaceId : WorkspaceId) (cwdFrom : Option PaneId)
  | splitPane (paneId : PaneId) (direction : SplitDirection) (ratio : F32)
  /-- `split_pane` and `preserve_focus_from`: a split that does not take the focus. -/
  | splitPaneInBackground (paneId : PaneId) (direction : SplitDirection) (ratio : F32)
  | closePane (paneId : PaneId)
  | closeTab (tabId : TabId)
  | closeWorkspace (workspaceId : WorkspaceId)
  | movePane (paneId target : PaneId) (side : PaneDirection)
  | swapPane (paneId : PaneId) (direction : PaneDirection)
  | swapPanes (paneId other : PaneId)
  | resizePane (paneId : PaneId) (direction : PaneDirection) (amount : F32)
  | setTabSplitRatios (tabId : TabId) (ratios : List F32)
  | focusPane (paneId : PaneId)
  | focusPaneInDirection (paneId : PaneId) (direction : PaneDirection)
  | togglePaneZoom (paneId : PaneId)
  | moveWorkspace (workspaceId : WorkspaceId) (targetIx : ℕ)
  | moveTab (tabId : TabId) (targetIx : ℕ)
  | showDiff (workspaceId : WorkspaceId) (path : RelativePathBuf)
  | showFile (workspaceId : WorkspaceId) (path : RelativePathBuf)
  | followRename (workspaceId : WorkspaceId) (source target : RelativePathBuf)
  | renameWorkspace (workspaceId : WorkspaceId) (name : String)
  | renameTab (tabId : TabId) (name : String)
  | setPaneAgentResume (paneId : PaneId) (resume : Option AgentResume)
  | setPaneCwd (paneId : PaneId) (cwd : Option PathBuf)
  | associateWorktree (workspaceId : WorkspaceId) (association : WorktreeAssociation)
  | clearWorktreeAssociation (workspaceId : WorkspaceId)
  /-- Another Session of the process takes ids: a candidate that is not committed. -/
  | reserveElsewhere (count : ℕ)

namespace Store

def withSession (store : Store) (session : Session) : Store :=
  { store with session }

/-- The Session an operation leaves when it may close something. -/
def afterClose (store : Store) (closed : Option (CloseOutcome × Session)) : Store :=
  store.withSession ((closed.map (·.2)).getD store.session)

def splitPaneInBackground (store : Store) (paneId : PaneId) (direction : SplitDirection)
    (ratio : F32) : Option PaneId × Store :=
  let (created, next) := store.splitPane paneId direction ratio
  (created, next.withSession (next.session.preserveFocusFrom store.session))

end Store

open SessionOperation in
/-- What a call does to the Store. -/
def SessionOperation.apply (operation : SessionOperation) (store : Store) : Store :=
  let session := store.session
  match operation with
  | createWorkspace rootDirectory => (store.createWorkspace rootDirectory).2
  | createTab workspaceId cwdFrom => (store.createTab workspaceId cwdFrom).2
  | splitPane paneId direction ratio => (store.splitPane paneId direction ratio).2
  | splitPaneInBackground paneId direction ratio =>
      (store.splitPaneInBackground paneId direction ratio).2
  | closePane paneId => store.afterClose (session.closePane paneId)
  | closeTab tabId => store.afterClose (session.closeTab tabId)
  | closeWorkspace workspaceId => store.afterClose (session.closeWorkspace workspaceId)
  | movePane paneId target side => store.withSession (session.movePane paneId target side).2
  | swapPane paneId direction => store.withSession (session.swapPane paneId direction).2
  | swapPanes paneId other => store.withSession (session.swapPanes paneId other).2
  | resizePane paneId direction amount =>
      store.withSession (session.resizePane paneId direction amount).2
  | setTabSplitRatios tabId ratios => store.withSession (session.setTabSplitRatios tabId ratios).2
  | focusPane paneId => store.withSession (session.focusPane paneId).2
  | focusPaneInDirection paneId direction =>
      store.withSession (session.focusPaneInDirection paneId direction).2
  | togglePaneZoom paneId => store.withSession (session.togglePaneZoom paneId).2
  | moveWorkspace workspaceId targetIx =>
      store.withSession (session.moveWorkspace workspaceId targetIx).2
  | moveTab tabId targetIx => store.withSession (session.moveTab tabId targetIx).2
  | showDiff workspaceId path => (store.showDiff workspaceId path).2
  | showFile workspaceId path => (store.showFile workspaceId path).2
  | followRename workspaceId source target =>
      store.withSession (session.followRename workspaceId source target).2
  | renameWorkspace workspaceId name => store.withSession (session.renameWorkspace workspaceId name).2
  | renameTab tabId name => store.withSession (session.renameTab tabId name).2
  | setPaneAgentResume paneId resume =>
      store.withSession (session.setPaneAgentResume paneId resume).2
  | setPaneCwd paneId cwd => store.withSession (session.setPaneCwd paneId cwd).2
  | associateWorktree workspaceId association =>
      store.withSession (session.associateWorktree workspaceId association).2
  | clearWorktreeAssociation workspaceId =>
      store.withSession (session.clearWorktreeAssociation workspaceId).2
  | reserveElsewhere count =>
      match reserveIds store.nextId count with
      | none => store
      | some (_, nextId) => { store with nextId }

/-- What the callers check before they call: a rename's target is a path the Server accepted,
and the parent of a worktree is a Workspace of the Session. -/
def SessionOperation.Checked (store : Store) : SessionOperation → Prop
  | followRename _ _ target => validDiffPath target = true
  | associateWorktree _ association =>
      association.parentWorkspaceId ∈ store.session.workspaceIds
  | _ => True

/-- The Session of a process over time. -/
def sessionSystem : Transition.System Store SessionOperation where
  initial store :=
    (store.session = Session.empty ∧ 0 < store.nextId ∧
      store.nextId ≤ maxNextStableIdExclusive) ∨
    ∃ snapshot nextId, nextId ≤ maxNextStableIdExclusive ∧
      Session.restore snapshot nextId = .ok store
  step store operation next := operation.Checked store ∧ next = operation.apply store

/-! ## Every step keeps the invariant -/

theorem Session.empty_wellFormed (nextId : ℕ) : Session.empty.WellFormed nextId where
  workspaceIdsNodup := List.nodup_nil
  tabIdsNodup := List.nodup_nil
  paneIdsNodup := List.nodup_nil
  workspacesValid := by simp [Session.empty]
  tabsFit := by simp [Session.empty, Session.tabs]
  workspaceLimit := by simp [Session.empty]
  tabLimit := by simp [Session.empty, Session.tabCount]
  paneLimit := by simp [Session.empty, Session.paneCount, Session.tabs]

namespace Store.WellFormed

variable {store : Store}

theorem withSession (wellFormed : store.WellFormed) {session : Session}
    (next : session.WellFormed store.nextId) : (store.withSession session).WellFormed :=
  ⟨next, wellFormed.positive, wellFormed.counter⟩

theorem afterClose (wellFormed : store.WellFormed) {closed : Option (CloseOutcome × Session)}
    (next : ∀ outcome session, closed = some (outcome, session) →
      session.WellFormed store.nextId) : (store.afterClose closed).WellFormed := by
  refine wellFormed.withSession ?_
  rcases closed with _ | ⟨outcome, session⟩
  · exact wellFormed.session
  · exact next outcome session rfl

/-- A split leaves the Panes of every Tab where they were, and adds one to a single Tab. -/
theorem splitPane_keepsPanes (wellFormed : store.WellFormed) (paneId : PaneId)
    (direction : SplitDirection) (ratio : F32) :
    store.session.KeepsPanes (store.splitPane paneId direction ratio).2.session := by
  have unchanged := wellFormed.session.keepsPanes_self
  simp only [Store.splitPane]
  split
  · exact unchanged
  split
  · exact unchanged
  next workspaceIx tabIx paneIx found =>
  rcases Session.findPane_located found with ⟨workspace, tab, terminals, pane, located⟩
  simp only [located.workspaceAt, located.terminalLayout]
  split
  · exact unchanged
  split
  · exact unchanged
  split
  · exact unchanged
  split
  · exact unchanged
  next attached attachedEq =>
  refine wellFormed.session.keepsPanes_setTerminals located.terminalLayout ?_
  have panes := TerminalLayout.attachPane_panes attachedEq
  simp only [TerminalLayout.paneIds, panes, List.map_append]
  exact List.subset_append_left ..

theorem splitPaneInBackground (wellFormed : store.WellFormed) (paneId : PaneId)
    (direction : SplitDirection) (ratio : F32) :
    (store.splitPaneInBackground paneId direction ratio).2.WellFormed := by
  have split := wellFormed.splitPane paneId direction ratio
  exact split.withSession (split.session.preserveFocusFrom wellFormed.session
    (wellFormed.splitPane_keepsPanes paneId direction ratio))

/-- Every operation keeps the Store well formed. -/
theorem apply (wellFormed : store.WellFormed) {operation : SessionOperation}
    (checked : operation.Checked store) : (operation.apply store).WellFormed := by
  have session := wellFormed.session
  cases operation with
  | createWorkspace rootDirectory => exact wellFormed.createWorkspace rootDirectory
  | createTab workspaceId cwdFrom => exact wellFormed.createTab workspaceId cwdFrom
  | splitPane paneId direction ratio => exact wellFormed.splitPane paneId direction ratio
  | splitPaneInBackground paneId direction ratio =>
      exact wellFormed.splitPaneInBackground paneId direction ratio
  | closePane paneId => exact wellFormed.afterClose fun _ _ closed => session.closePane closed
  | closeTab tabId => exact wellFormed.afterClose fun _ _ closed => session.closeTab closed
  | closeWorkspace workspaceId =>
      exact wellFormed.afterClose fun _ _ closed => session.closeWorkspace closed
  | movePane paneId target side => exact wellFormed.withSession (session.movePane ..)
  | swapPane paneId direction => exact wellFormed.withSession (session.swapPane ..)
  | swapPanes paneId other => exact wellFormed.withSession (session.swapPanes ..)
  | resizePane paneId direction amount => exact wellFormed.withSession (session.resizePane ..)
  | setTabSplitRatios tabId ratios => exact wellFormed.withSession (session.setTabSplitRatios ..)
  | focusPane paneId => exact wellFormed.withSession (session.focusPane _)
  | focusPaneInDirection paneId direction =>
      exact wellFormed.withSession (session.focusPaneInDirection ..)
  | togglePaneZoom paneId => exact wellFormed.withSession (session.togglePaneZoom _)
  | moveWorkspace workspaceId targetIx => exact wellFormed.withSession (session.moveWorkspace ..)
  | moveTab tabId targetIx => exact wellFormed.withSession (session.moveTab ..)
  | showDiff workspaceId path => exact wellFormed.showViewer ..
  | showFile workspaceId path => exact wellFormed.showViewer ..
  | followRename workspaceId source target =>
      exact wellFormed.withSession (session.followRename _ _ checked)
  | renameWorkspace workspaceId name => exact wellFormed.withSession (session.renameWorkspace ..)
  | renameTab tabId name => exact wellFormed.withSession (session.renameTab ..)
  | setPaneAgentResume paneId resume =>
      exact wellFormed.withSession (session.setPaneAgentResume ..)
  | setPaneCwd paneId cwd => exact wellFormed.withSession (session.setPaneCwd ..)
  | associateWorktree workspaceId association =>
      exact wellFormed.withSession
        (session.associateWorktree _ (session.workspaceIdsWithin checked))
  | clearWorktreeAssociation workspaceId =>
      exact wellFormed.withSession (session.clearWorktreeAssociation _)
  | reserveElsewhere count =>
      simp only [SessionOperation.apply]
      split
      · exact wellFormed
      · next later reserved =>
          rcases reserveIds_eq_some reserved with ⟨counter, rfl, rfl⟩
          have := wellFormed.positive
          exact ⟨session.mono (Nat.le_add_right ..), by simp only; omega, counter⟩

end Store.WellFormed

/-- Every Store a run visits is well formed. -/
theorem sessionSystem_wellFormed {store : Store} (reached : sessionSystem.Reachable store) :
    store.WellFormed := by
  refine reached.invariant Store.WellFormed ?_ ?_
  · rintro store (⟨isEmpty, positive, counter⟩ | ⟨snapshot, nextId, counter, restored⟩)
    · exact ⟨isEmpty ▸ Session.empty_wellFormed _, positive, counter⟩
    · exact Session.restore_wellFormed counter restored
  · rintro store operation next wellFormed ⟨checked, rfl⟩
    exact wellFormed.apply checked

/-- The `expect` of `focused_pane` does not fail. -/
theorem Session.WellFormed.focusedPane_found {nextId : ℕ} {session : Session}
    (wellFormed : session.WellFormed nextId) {tab : Tab} (contained : tab ∈ session.tabs) :
    tab.focusedPane ≠ some none := by
  intro missing
  rcases Option.map_eq_some_iff.mp missing with ⟨terminals, shown, notFound⟩
  have content := (wellFormed.tabValid contained).content
  rw [Tab.terminals_eq_some.mp shown] at content
  rcases List.mem_map.mp content.focusedMem with ⟨pane, paneMem, same⟩
  have := List.find?_eq_none.mp notFound pane paneMem
  simp [same] at this

/-- Whatever a run does, the Session is well formed with ids below the counter, `validate`
accepts it with a largest id below the counter, and every terminal Tab finds its focused Pane. -/
theorem session_runs_validate {store : Store} (reached : sessionSystem.Reachable store) :
    store.session.WellFormed store.nextId ∧
      (∃ maxId, store.session.validate = .ok maxId ∧ maxId < store.nextId) ∧
      ∀ tab ∈ store.session.tabs, tab.focusedPane ≠ some none := by
  have wellFormed := sessionSystem_wellFormed reached
  refine ⟨wellFormed.session, ⟨store.session.maxId, ?_, ?_⟩,
    fun tab contained => wellFormed.session.focusedPane_found contained⟩
  · exact Session.validate_eq_ok.mpr ⟨wellFormed.session.toValid.mono wellFormed.counter, rfl⟩
  · exact Lists.foldl_max_lt wellFormed.positive fun id contained =>
      (wellFormed.session.within id contained).2

/-- The Store after a list of calls. -/
def runOperations (store : Store) (operations : List SessionOperation) : Store :=
  operations.foldl (fun store operation => operation.apply store) store

theorem runOperations_reachable {operations : List SessionOperation} {store : Store}
    (reached : sessionSystem.Reachable store)
    (checked : ∀ operation ∈ operations, ∀ store, operation.Checked store) :
    sessionSystem.Reachable (runOperations store operations) := by
  induction operations generalizing store with
  | nil => exact reached
  | cons operation operations ih =>
      exact ih (reached.next ⟨checked operation (by simp) store, rfl⟩)
        fun other contained => checked other (by simp [contained])

theorem emptyStore_reachable : sessionSystem.Reachable ⟨.empty, 1⟩ :=
  .start (Or.inl ⟨rfl, by decide, by decide⟩)

/-- A run that makes a Workspace, splits its Pane and closes the first half. -/
def exampleRun : List SessionOperation :=
  [.createWorkspace (.utf8 "/work"), .splitPane ⟨3⟩ .horizontal (.finite (1 / 3)),
    .focusPane ⟨3⟩, .closePane ⟨3⟩]

theorem session_runs_validate_example :
    (runOperations ⟨.empty, 1⟩ exampleRun).session.WellFormed
        (runOperations ⟨.empty, 1⟩ exampleRun).nextId ∧
      (∃ maxId, (runOperations ⟨.empty, 1⟩ exampleRun).session.validate = .ok maxId ∧
        maxId < (runOperations ⟨.empty, 1⟩ exampleRun).nextId) ∧
      ∀ tab ∈ (runOperations ⟨.empty, 1⟩ exampleRun).session.tabs,
        tab.focusedPane ≠ some none :=
  session_runs_validate
    (runOperations_reachable emptyStore_reachable (by simp [exampleRun, SessionOperation.Checked]))

end Condr
