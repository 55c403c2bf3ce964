import Condr.Session.Runs

/-!
# Zoomed Panes

A Tab zooms a Pane only while it has another one: every operation keeps this, except that a
close may leave the zoomed Pane alone. In runs without such a close a zoomed Tab can always
leave its zoom.
-/

namespace Condr

/-- A zoomed Pane is not the only one of its Tab. -/
def TerminalLayout.ZoomsApart (terminals : TerminalLayout) : Prop :=
  terminals.zoomedPane.isSome = true → 2 ≤ terminals.panes.length

def Tab.ZoomsApart (tab : Tab) : Prop :=
  ∀ terminals, tab.terminals = some terminals → terminals.ZoomsApart

def Session.ZoomsApart (session : Session) : Prop :=
  ∀ tab ∈ session.tabs, tab.ZoomsApart

/-- Closing the Pane leaves the zoomed one alone in its Tab. -/
def Session.StrandsZoom (session : Session) (paneId : PaneId) : Prop :=
  ∃ workspaceIx tabIx paneIx terminals zoomed,
    session.findPane paneId = some (workspaceIx, tabIx, paneIx) ∧
    session.terminalLayout workspaceIx tabIx = some terminals ∧
    terminals.panes.length = 2 ∧ terminals.zoomedPane = some zoomed ∧ zoomed ≠ paneId

def SessionOperation.StrandsZoom (store : Store) : SessionOperation → Prop
  | .closePane paneId => store.session.StrandsZoom paneId
  | _ => False

/-- The runs without a close that leaves a zoomed Pane alone. -/
def zoomKeepingSystem : Transition.System Store SessionOperation where
  initial := sessionSystem.initial
  step store operation next :=
    sessionSystem.step store operation next ∧ ¬operation.StrandsZoom store

/-! ## Tabs after a change -/

namespace Session.ZoomsApart

variable {session : Session} {workspaceIx tabIx : ℕ} {paneId : PaneId}

theorem ofWorkspaces {workspaces : List Workspace}
    (apart : ∀ workspace ∈ workspaces, ∀ tab ∈ workspace.tabs, tab.ZoomsApart) :
    (⟨workspaces⟩ : Session).ZoomsApart := by
  intro tab contained
  rcases List.mem_flatMap.mp contained with ⟨workspace, workspaceMem, tabMem⟩
  exact apart workspace workspaceMem tab tabMem

theorem workspace (apart : session.ZoomsApart) {workspace : Workspace}
    (workspaceMem : workspace ∈ session.workspaces) : ∀ tab ∈ workspace.tabs, tab.ZoomsApart :=
  fun tab tabMem => apart tab (Session.tabs_mem workspaceMem tabMem)

theorem fewer (apart : session.ZoomsApart) {workspaces : List Workspace}
    (subset : workspaces ⊆ session.workspaces) : (⟨workspaces⟩ : Session).ZoomsApart :=
  ofWorkspaces fun _ workspaceMem => apart.workspace (subset workspaceMem)

theorem modifyWorkspace (apart : session.ZoomsApart) {change : Workspace → Workspace}
    (changed : ∀ workspace ∈ session.workspaces, session.workspaces[workspaceIx]? = some workspace →
      ∀ tab ∈ (change workspace).tabs, tab.ZoomsApart) :
    (session.modifyWorkspace workspaceIx change).ZoomsApart := by
  apply ofWorkspaces
  intro workspace workspaceMem
  rcases List.getElem?_of_mem workspaceMem with ⟨index, workspaceAt⟩
  rw [List.getElem?_modify] at workspaceAt
  rcases Option.map_eq_some_iff.mp workspaceAt with ⟨old, oldAt, rfl⟩
  have oldMem := List.mem_of_getElem? oldAt
  split_ifs with here
  · subst here
    exact changed old oldMem oldAt
  · exact apart.workspace oldMem

/-- The Workspace keeps some of its Tabs. -/
theorem withTabs (apart : session.ZoomsApart) {change : Workspace → Workspace}
    (subset : ∀ workspace, session.workspaces[workspaceIx]? = some workspace →
      (change workspace).tabs ⊆ workspace.tabs) :
    (session.modifyWorkspace workspaceIx change).ZoomsApart := by
  apply apart.modifyWorkspace
  intro workspace workspaceMem workspaceAt tab tabMem
  exact apart.workspace workspaceMem tab (subset workspace workspaceAt tabMem)

theorem modifyTab (apart : session.ZoomsApart) {change : Tab → Tab}
    (changed : ∀ tab : Tab, tab.ZoomsApart → (change tab).ZoomsApart) :
    (session.modifyTab workspaceIx tabIx change).ZoomsApart := by
  apply apart.modifyWorkspace
  intro workspace workspaceMem _ tab tabMem
  rcases List.getElem?_of_mem tabMem with ⟨index, tabAt⟩
  rw [List.getElem?_modify] at tabAt
  rcases Option.map_eq_some_iff.mp tabAt with ⟨old, oldAt, rfl⟩
  have oldApart := apart.workspace workspaceMem old (List.mem_of_getElem? oldAt)
  split_ifs
  · exact changed old oldApart
  · exact oldApart

theorem setTerminals (apart : session.ZoomsApart) {terminals : TerminalLayout}
    (next : terminals.ZoomsApart) :
    (session.setTerminals workspaceIx tabIx terminals).ZoomsApart := by
  apply apart.modifyTab
  rintro tab - shown ⟨⟩
  exact next

theorem terminalLayout (apart : session.ZoomsApart) {terminals : TerminalLayout}
    (found : session.terminalLayout workspaceIx tabIx = some terminals) :
    terminals.ZoomsApart := by
  rcases Session.terminalLayout_eq_some found with ⟨workspace, tab, workspaceAt, tabAt, content⟩
  exact apart.workspace (List.mem_of_getElem? workspaceAt) tab (List.mem_of_getElem? tabAt)
    terminals (Tab.terminals_eq_some.mpr content)

/-- The operations that change the Tab a Pane lives in. -/
theorem withTerminals (apart : session.ZoomsApart)
    {change : TerminalLayout → Option TerminalLayout}
    (changed : ∀ old new, old.ZoomsApart → paneId ∈ old.paneIds → change old = some new →
      new.ZoomsApart) :
    (session.withTerminals paneId change).2.ZoomsApart := by
  simp only [Session.withTerminals]
  rcases found : session.findPane paneId with _ | ⟨workspaceIx, tabIx, paneIx⟩
  · exact apart
  · rcases Session.findPane_located found with ⟨workspace, tab, terminals, pane, located⟩
    simp only [located.terminalLayout, Option.bind_some]
    rcases outcome : change terminals with _ | new
    · exact apart
    · exact apart.setTerminals (changed terminals new
        (apart.terminalLayout located.terminalLayout) located.paneIds_mem outcome)

end Session.ZoomsApart

/-- The same Panes and zoom. -/
theorem TerminalLayout.ZoomsApart.congr {old new : TerminalLayout} (apart : old.ZoomsApart)
    (panes : new.panes.length = old.panes.length) (zoomed : new.zoomedPane = old.zoomedPane) :
    new.ZoomsApart := by
  intro zooms
  rw [panes]
  exact apart (zoomed ▸ zooms)

theorem Tab.ZoomsApart.single (id : TabId) (paneId : PaneId) (cwd : PathBuf) :
    (Tab.single id paneId cwd).ZoomsApart := by
  rintro terminals ⟨⟩ zooms
  cases zooms

theorem Tab.ZoomsApart.viewer {tab : Tab} (viewer : tab.terminals = none) : tab.ZoomsApart := by
  intro terminals shown
  rw [viewer] at shown
  cases shown

/-! ## Operations on Panes -/

namespace Session.ZoomsApart

variable {session : Session}

theorem focusPane (apart : session.ZoomsApart) (paneId : PaneId) :
    (session.focusPane paneId).2.ZoomsApart := by
  apply apart.withTerminals
  rintro old new oldApart - changed
  cases Option.some.inj changed
  apply oldApart.congr
  · rw [TerminalLayout.focusPane]
    split <;> rfl
  · rw [TerminalLayout.focusPane]
    split <;> rfl

theorem focusPaneInDirection (apart : session.ZoomsApart) (paneId : PaneId)
    (direction : PaneDirection) : (session.focusPaneInDirection paneId direction).2.ZoomsApart := by
  simp only [Session.focusPaneInDirection]
  split
  · exact apart
  · split
    · exact apart
    · exact apart.focusPane _

theorem movePane (apart : session.ZoomsApart) (paneId target : PaneId) (side : PaneDirection) :
    (session.movePane paneId target side).2.ZoomsApart := by
  rw [Session.movePane]
  split_ifs
  · exact apart
  · apply apart.withTerminals
    rintro old new oldApart - changed
    split_ifs at changed
    simp only [TerminalLayout.movePane, Option.bind_eq_bind, Option.bind_eq_some_iff] at changed
    rcases changed with ⟨layout, -, depth, -, changed⟩
    split_ifs at changed
    cases Option.some.inj changed
    exact oldApart.congr rfl rfl

theorem swapPane (apart : session.ZoomsApart) (paneId : PaneId) (direction : PaneDirection) :
    (session.swapPane paneId direction).2.ZoomsApart := by
  apply apart.withTerminals
  rintro old new oldApart - changed
  rcases Option.map_eq_some_iff.mp changed with ⟨neighbor, -, rfl⟩
  exact oldApart.congr rfl rfl

theorem swapPanes (apart : session.ZoomsApart) (paneId other : PaneId) :
    (session.swapPanes paneId other).2.ZoomsApart := by
  rw [Session.swapPanes]
  split_ifs
  · exact apart
  · apply apart.withTerminals
    rintro old new oldApart - changed
    split_ifs at changed
    cases Option.some.inj changed
    exact oldApart.congr rfl rfl

theorem resizePane (apart : session.ZoomsApart) (paneId : PaneId) (direction : PaneDirection)
    (amount : F32) : (session.resizePane paneId direction amount).2.ZoomsApart := by
  rw [Session.resizePane]
  split_ifs
  · exact apart
  · apply apart.withTerminals
    rintro old new oldApart - changed
    split at changed
    · cases Option.some.inj changed
      exact oldApart.congr rfl rfl
    · cases changed

theorem setTabSplitRatios (apart : session.ZoomsApart) (tabId : TabId) (ratios : List F32) :
    (session.setTabSplitRatios tabId ratios).2.ZoomsApart := by
  simp only [Session.setTabSplitRatios]
  split
  · exact apart
  split
  · exact apart
  split
  · exact apart
  split
  · exact apart
  next terminals found =>
  split
  · exact apart
  split
  · exact apart
  exact apart.setTerminals ((apart.terminalLayout found).congr rfl rfl)

/-- A zoom needs a second Pane. -/
theorem togglePaneZoom (apart : session.ZoomsApart) (paneId : PaneId) :
    (session.togglePaneZoom paneId).2.ZoomsApart := by
  have focused := apart.focusPane paneId
  rw [Session.togglePaneZoom]
  rcases outcome : session.focusPane paneId with ⟨done, next⟩
  rw [outcome] at focused
  cases done with
  | false => exact focused
  | true =>
      apply focused.withTerminals
      intro old new _ present changed zooms
      split_ifs at changed with alone
      all_goals cases Option.some.inj changed
      all_goals
        have some : old.panes ≠ [] := by
          intro none
          rw [TerminalLayout.paneIds, none] at present
          cases present
        have := List.length_pos_of_ne_nil some
        show 2 ≤ old.panes.length
        omega

theorem setPaneCwd (apart : session.ZoomsApart) (paneId : PaneId) (cwd : Option PathBuf) :
    (session.setPaneCwd paneId cwd).2.ZoomsApart := by
  simp only [Session.setPaneCwd]
  split
  · exact apart
  split
  · exact apart
  next terminals found =>
  exact apart.setTerminals ((apart.terminalLayout found).congr (List.length_modify ..) rfl)

theorem setPaneAgentResume (apart : session.ZoomsApart) (paneId : PaneId)
    (resume : Option AgentResume) : (session.setPaneAgentResume paneId resume).2.ZoomsApart := by
  simp only [Session.setPaneAgentResume]
  split
  · exact apart
  split
  · exact apart
  split
  · exact apart
  next terminals found =>
  split
  · exact apart
  exact apart.setTerminals ((apart.terminalLayout found).congr (List.length_modify ..) rfl)

end Session.ZoomsApart

theorem TerminalLayout.removePane_eq_some {terminals next : TerminalLayout} {paneId : PaneId}
    {paneIx : ℕ} (removes : terminals.removePane paneId paneIx = some next) :
    next.panes = terminals.panes.eraseIdx paneIx ∧
      next.zoomedPane =
        if terminals.zoomedPane = some paneId then none else terminals.zoomedPane := by
  simp only [removePane, Option.bind_eq_bind, Option.bind_eq_some_iff] at removes
  rcases removes with ⟨layout, -, removes⟩
  split_ifs at removes
  all_goals
    cases Option.some.inj removes
    refine ⟨rfl, ?_⟩
    split_ifs
    rfl

/-- A close keeps zooms apart unless it leaves the zoomed Pane alone. -/
theorem Session.ZoomsApart.closePane {session next : Session} {paneId : PaneId}
    {outcome : CloseOutcome} (apart : session.ZoomsApart)
    (kept : ¬session.StrandsZoom paneId)
    (closes : session.closePane paneId = some (outcome, next)) : next.ZoomsApart := by
  simp only [Session.closePane, Option.bind_eq_bind, Option.bind_eq_some_iff] at closes
  rcases closes with ⟨⟨workspaceIx, tabIx, paneIx⟩, found, workspace', workspaceAt, tab', tabAt, closes⟩
  rcases Session.findPane_located found with ⟨workspace, tab, terminals, pane, located⟩
  obtain rfl : workspace' = workspace := by
    simpa [located.workspaceAt] using workspaceAt.symm
  obtain rfl : tab' = tab := by
    simpa [located.tabAt] using tabAt.symm
  split_ifs at closes with several lastTab
  · simp only [Option.bind_eq_some_iff, Tab.terminals, located.content, Option.some.injEq,
      exists_eq_left', Prod.mk.injEq] at closes
    rcases closes with ⟨rest, removes, -, rfl⟩
    apply apart.setTerminals
    rcases TerminalLayout.removePane_eq_some removes with ⟨panes, zoomed⟩
    intro zooms
    rw [zoomed] at zooms
    split_ifs at zooms with closed
    · cases zooms
    rcases Option.isSome_iff_exists.mp zooms with ⟨zoomed, zoomedAt⟩
    have two := apart.terminalLayout located.terminalLayout zooms
    have more : terminals.panes.length ≠ 2 := by
      intro exactly
      exact kept ⟨workspaceIx, tabIx, paneIx, terminals, zoomed, found, located.terminalLayout,
        exactly, zoomedAt, fun same => closed (same ▸ zoomedAt)⟩
    have inside := (List.getElem?_eq_some_iff.mp located.paneAt).1
    rw [panes, List.length_eraseIdx, if_pos inside]
    omega
  · cases Option.some.inj closes
    apply apart.withTabs
    intro workspace workspaceAt
    rw [located.workspaceAt] at workspaceAt
    cases Option.some.inj workspaceAt
    exact (List.eraseIdx_sublist ..).subset
  · cases Option.some.inj closes
    exact apart.fewer (List.eraseIdx_sublist ..).subset

/-- A close that leaves the zoomed Pane alone leaves it zoomed. -/
theorem Session.StrandsZoom.closePane {session next : Session} {paneId : PaneId}
    {outcome : CloseOutcome} (strands : session.StrandsZoom paneId)
    (closes : session.closePane paneId = some (outcome, next)) : ¬next.ZoomsApart := by
  rcases strands with
    ⟨workspaceIx, tabIx, paneIx, terminals, zoomed, found, shown, two, zoomedAt, other⟩
  rcases Session.findPane_located found with ⟨workspace, tab, located', pane, located⟩
  cases Option.some.inj (located.terminalLayout.symm.trans shown)
  have several : 1 < tab.panes.length := by
    have panes : tab.panes = terminals.panes := by
      simp [Tab.panes, Tab.terminals, located.content]
    rw [panes, two]
    exact Nat.one_lt_two
  simp only [Session.closePane, found, located.workspaceAt, located.tabAt, Option.bind_eq_bind,
    Option.bind_some, if_pos several, Option.bind_eq_some_iff, Tab.terminals, located.content,
    Option.some.injEq, Prod.mk.injEq] at closes
  rcases closes with ⟨rest, removes, -, rfl⟩
  rcases TerminalLayout.removePane_eq_some removes with ⟨panes, zoomedNext⟩
  intro apart
  have shows : (session.setTerminals workspaceIx tabIx rest).terminalLayout workspaceIx tabIx =
      some rest := by
    simp [Session.setTerminals, Session.modifyTab, Session.modifyWorkspace,
      Session.terminalLayout, located.workspaceAt, located.tabAt, Tab.terminals]
  have left := apart.terminalLayout shows (by
    rw [zoomedNext, if_neg (fun same => other (Option.some.inj (zoomedAt.symm.trans same))),
      zoomedAt]
    rfl)
  have inside := (List.getElem?_eq_some_iff.mp located.paneAt).1
  rw [panes, List.length_eraseIdx, if_pos inside, two] at left
  exact absurd left (by decide)

/-- The other Pane remains, so such a close goes through. -/
theorem Session.StrandsZoom.closes {session : Session} {nextId : ℕ} {paneId : PaneId}
    (strands : session.StrandsZoom paneId) (wellFormed : session.WellFormed nextId) :
    ∃ outcome next, session.closePane paneId = some (outcome, next) := by
  rcases strands with
    ⟨workspaceIx, tabIx, paneIx, terminals, zoomed, found, shown, two, zoomedAt, other⟩
  rcases Session.findPane_located found with ⟨workspace, tab, located', pane, located⟩
  cases Option.some.inj (located.terminalLayout.symm.trans shown)
  rcases wellFormed.terminalsValid located with ⟨valid, fits⟩
  have panes : tab.panes = terminals.panes := by
    simp [Tab.panes, Tab.terminals, located.content]
  have several : 1 < tab.panes.length := by
    rw [panes, two]
    exact Nat.one_lt_two
  have remains : ∃ layout, terminals.layout.removeFromLayout paneId = some layout := by
    cases removes : terminals.layout.removeFromLayout paneId with
    | some layout => exact ⟨layout, rfl⟩
    | none =>
        have alone := PaneLayout.removeFromLayout_eq_none removes zoomed
          (valid.leavesPerm.mem_iff.mpr (fits.zoomedMem zoomed zoomedAt))
        exact absurd alone other
  rcases remains with ⟨layout, removes⟩
  have removed : ∃ rest, terminals.removePane paneId paneIx = some rest := by
    simp only [TerminalLayout.removePane, removes, Option.bind_eq_bind, Option.bind_some]
    split
    · exact ⟨_, rfl⟩
    · exact ⟨_, rfl⟩
  rcases removed with ⟨rest, removed⟩
  refine ⟨⟨[paneId], [], []⟩, session.setTerminals workspaceIx tabIx rest, ?_⟩
  simp only [Session.closePane, found, located.workspaceAt, located.tabAt, Option.bind_eq_bind,
    Option.bind_some, if_pos several, Tab.terminals, located.content, removed]

/-! ## Operations on Tabs and Workspaces -/

namespace Session.ZoomsApart

variable {session : Session}

theorem withWorkspace (apart : session.ZoomsApart) (workspaceId : WorkspaceId)
    {change : Workspace → Workspace}
    (tabs : ∀ workspace : Workspace, (change workspace).tabs = workspace.tabs) :
    (session.withWorkspace workspaceId change).2.ZoomsApart := by
  rw [Session.withWorkspace]
  split
  · exact apart
  · apply apart.withTabs
    intro workspace _
    rw [tabs]
    exact List.Subset.refl _

theorem renameTab (apart : session.ZoomsApart) (tabId : TabId) (name : String) :
    (session.renameTab tabId name).2.ZoomsApart := by
  rw [Session.renameTab]
  split_ifs
  · exact apart
  rw [Session.withTab]
  split
  · exact apart
  · apply apart.modifyWorkspace
    intro workspace workspaceMem _ tab tabMem
    dsimp only at tabMem
    split at tabMem
    · exact apart.workspace workspaceMem tab tabMem
    · rcases List.getElem?_of_mem tabMem with ⟨index, tabAt⟩
      rw [List.getElem?_modify] at tabAt
      rcases Option.map_eq_some_iff.mp tabAt with ⟨old, oldAt, rfl⟩
      have oldApart := apart.workspace workspaceMem old (List.mem_of_getElem? oldAt)
      split_ifs
      · exact oldApart
      · exact oldApart

theorem closeWorkspace (apart : session.ZoomsApart) {workspaceId : WorkspaceId}
    {outcome : CloseOutcome} {next : Session}
    (closes : session.closeWorkspace workspaceId = some (outcome, next)) : next.ZoomsApart := by
  simp only [Session.closeWorkspace, Option.bind_eq_bind, Option.bind_eq_some_iff] at closes
  rcases closes with ⟨workspaceIx, -, workspace, -, closes⟩
  cases Option.some.inj closes
  exact apart.fewer (List.eraseIdx_sublist ..).subset

theorem closeTab (apart : session.ZoomsApart) {tabId : TabId} {outcome : CloseOutcome}
    {next : Session} (closes : session.closeTab tabId = some (outcome, next)) :
    next.ZoomsApart := by
  simp only [Session.closeTab, Option.bind_eq_bind, Option.bind_eq_some_iff] at closes
  rcases closes with ⟨workspaceIx, -, workspace, -, tabIx, -, closes⟩
  split_ifs at closes
  · exact apart.closeWorkspace closes
  · rcases Option.bind_eq_some_iff.mp closes with ⟨tab, -, closes⟩
    cases Option.some.inj closes
    apply apart.withTabs
    intro workspace _
    exact (List.eraseIdx_sublist ..).subset

theorem moveElement_subset {α : Type} (list : List α) (source target : ℕ) :
    moveElement list source target ⊆ list := by
  intro element contained
  rw [moveElement] at contained
  split at contained
  · exact contained
  · next moved movedAt =>
    rcases List.eq_or_mem_of_mem_insertIdx contained with rfl | rest
    · exact List.mem_of_getElem? movedAt
    · exact (List.eraseIdx_sublist ..).subset rest

theorem moveWorkspace (apart : session.ZoomsApart) (workspaceId : WorkspaceId) (targetIx : ℕ) :
    (session.moveWorkspace workspaceId targetIx).2.ZoomsApart := by
  rw [Session.moveWorkspace]
  split
  · exact apart
  split_ifs
  · exact apart
  · exact apart.fewer (moveElement_subset ..)

theorem moveTab (apart : session.ZoomsApart) (tabId : TabId) (targetIx : ℕ) :
    (session.moveTab tabId targetIx).2.ZoomsApart := by
  simp only [Session.moveTab]
  split
  · exact apart
  split
  · exact apart
  split
  · exact apart
  split_ifs
  · exact apart
  apply apart.withTabs
  intro workspace _
  exact moveElement_subset ..

theorem followRename (apart : session.ZoomsApart) (workspaceId : WorkspaceId)
    (source target : RelativePathBuf) :
    (session.followRename workspaceId source target).2.ZoomsApart := by
  simp only [Session.followRename]
  split
  · exact apart
  · apply apart.modifyWorkspace
    intro workspace workspaceMem _ tab tabMem
    rcases List.mem_map.mp tabMem with ⟨old, oldMem, rfl⟩
    rw [Tab.followRename]
    split
    · split
      · exact .viewer rfl
      · exact apart.workspace workspaceMem old oldMem
    · exact apart.workspace workspaceMem old oldMem

/-- Every Tab has the zoom of the earlier one with at least its Panes. -/
theorem preserveFocusFrom {previous : Session} {nextId : ℕ} (apart : session.ZoomsApart)
    (before : previous.ZoomsApart) (wellFormed : previous.WellFormed nextId)
    (keepsPanes : previous.KeepsPanes session) :
    (session.preserveFocusFrom previous).ZoomsApart := by
  apply ofWorkspaces
  intro workspace contained
  rcases List.mem_map.mp contained with ⟨current, currentMem, rfl⟩
  split
  · exact apart.workspace currentMem
  next old oldFound =>
  intro tab tabMem
  rcases List.mem_map.mp tabMem with ⟨currentTab, currentTabMem, rfl⟩
  rw [Tab.keepFocus]
  split
  · next terminals oldTerminals content found =>
    rcases Option.bind_eq_some_iff.mp found with ⟨oldTab, oldTabFound, shown⟩
    have oldContent := Tab.terminals_eq_some.mp shown
    have subset := keepsPanes current currentMem old oldFound currentTab currentTabMem oldTab
      oldTabFound terminals oldTerminals content oldContent
    have oldMem : old ∈ previous.workspaces := List.mem_of_find?_eq_some oldFound
    have oldTabMem : oldTab ∈ old.tabs := List.mem_of_find?_eq_some oldTabFound
    have valid := (wellFormed.tab_keeps_self oldMem oldTabMem).content
    rw [oldContent] at valid
    rintro _ ⟨⟩ zooms
    have two := before.workspace oldMem oldTab oldTabMem oldTerminals shown zooms
    have more := (valid.idsNodup.subperm subset).length_le
    simp only [TerminalLayout.paneIds, List.length_map] at more
    exact two.trans more
  · exact apart.workspace currentMem currentTab currentTabMem

end Session.ZoomsApart

namespace Store

variable {store : Store}

theorem createWorkspace_zoomsApart (apart : store.session.ZoomsApart) (rootDirectory : PathBuf) :
    (store.createWorkspace rootDirectory).2.session.ZoomsApart := by
  simp only [createWorkspace]
  split
  · exact apart
  split
  · exact apart
  apply Session.ZoomsApart.ofWorkspaces
  intro workspace contained
  rcases List.mem_append.mp contained with before | new
  · exact apart.workspace before
  · cases List.mem_singleton.mp new
    intro tab tabMem
    cases List.mem_singleton.mp tabMem
    exact .single _ _ _

theorem createTab_zoomsApart (apart : store.session.ZoomsApart) (workspaceId : WorkspaceId)
    (cwdFrom : Option PaneId) : (store.createTab workspaceId cwdFrom).2.session.ZoomsApart := by
  simp only [createTab]
  split
  · exact apart
  split
  · exact apart
  split
  · exact apart
  split
  · exact apart
  apply apart.modifyWorkspace
  intro workspace workspaceMem _ tab tabMem
  rcases List.mem_append.mp tabMem with before | new
  · exact apart.workspace workspaceMem tab before
  · cases List.mem_singleton.mp new
    exact .single _ _ _

theorem splitPane_zoomsApart (apart : store.session.ZoomsApart) (paneId : PaneId)
    (direction : SplitDirection) (ratio : F32) :
    (store.splitPane paneId direction ratio).2.session.ZoomsApart := by
  simp only [splitPane]
  split
  · exact apart
  split
  · exact apart
  split
  · split
    · exact apart
    split
    · exact apart
    split
    · exact apart
    split
    · exact apart
    next attached attachedEq =>
    apply apart.setTerminals
    intro zooms
    simp only [TerminalLayout.attachPane] at attachedEq
    split_ifs at attachedEq
    cases Option.some.inj attachedEq
    cases zooms
  · exact apart

theorem showViewer_zoomsApart (apart : store.session.ZoomsApart) (workspaceId : WorkspaceId)
    {content : TabContent} (name : String) :
    (store.showViewer workspaceId content name).2.session.ZoomsApart := by
  simp only [showViewer]
  split
  · exact apart
  next path shows =>
  have viewer : ∀ tab : Tab, ({ tab with content } : Tab).terminals = none := by
    intro tab
    cases content with
    | terminals terminals => cases shows
    | diff path => rfl
    | file path => rfl
  split
  · exact apart
  split
  · exact apart
  split
  · exact apart
  split
  · apply apart.modifyTab
    intro tab _
    exact .viewer (viewer tab)
  split
  · exact apart
  split
  · exact apart
  apply apart.modifyWorkspace
  intro workspace workspaceMem _ tab tabMem
  rcases List.mem_append.mp tabMem with before | new
  · exact apart.workspace workspaceMem tab before
  · cases List.mem_singleton.mp new
    exact .viewer (viewer ⟨_, name, content⟩)

theorem afterClose_zoomsApart (apart : store.session.ZoomsApart)
    {closed : Option (CloseOutcome × Session)}
    (next : ∀ outcome session, closed = some (outcome, session) → session.ZoomsApart) :
    (store.afterClose closed).session.ZoomsApart := by
  rcases closed with _ | ⟨outcome, session⟩
  · exact apart
  · exact next outcome session rfl

end Store

/-- A restored Session has no zoom. -/
theorem Session.restore_zoomsApart {snapshot : SessionSnapshot} {nextId : ℕ} {store : Store}
    (restored : Session.restore snapshot nextId = .ok store) : store.session.ZoomsApart := by
  simp only [Session.restore, Lists.bind_eq_ok] at restored
  rcases restored with ⟨⟨⟩, -, restored⟩
  split at restored
  · simp at restored
  next workspaces workspacesEq =>
  simp only [Lists.bind_eq_ok] at restored
  rcases restored with ⟨_, -, done⟩
  cases Except.ok.inj done
  apply Session.ZoomsApart.ofWorkspaces
  intro workspace workspaceMem tab tabMem terminals shown zooms
  rcases Lists.exists_of_mem_mapM workspacesEq workspaceMem with ⟨snapshot, -, restored⟩
  rcases Option.map_eq_some_iff.mp restored with ⟨tabs, tabsEq, rfl⟩
  rcases Lists.exists_of_mem_mapM tabsEq tabMem with ⟨snapshot, -, restored⟩
  rcases Option.map_eq_some_iff.mp restored with ⟨content, contentEq, rfl⟩
  cases Tab.terminals_eq_some.mp shown
  rcases kind : snapshot.content with ⟨panes, focused, history, layout⟩ | path | path
  · rw [kind] at contentEq
    rcases Option.map_eq_some_iff.mp contentEq with ⟨layout, -, same⟩
    cases TabContent.terminals.inj same
    cases zooms
  · rw [kind] at contentEq
    cases contentEq
  · rw [kind] at contentEq
    cases contentEq

/-! ## Leaving a zoom -/

/-- Where a Pane is depends on the ids of the Panes only. -/
theorem Session.findPane_eq (session : Session) (paneId : PaneId) :
    session.findPane paneId =
      (session.workspaces.map fun workspace => workspace.tabs.map Tab.paneIds).zipIdx.findSome?
        fun (tabs, workspaceIx) => tabs.zipIdx.findSome? fun (ids, tabIx) =>
          (ids.findIdx? (· = paneId)).map (workspaceIx, tabIx, ·) := by
  simp only [findPane, Tab.paneIds, List.zipIdx_map, List.findSome?_map, List.findIdx?_map,
    Function.comp_def, Prod.map_fst, Prod.map_snd, id_eq]

theorem Session.findPane_setTerminals {session : Session} {workspaceIx tabIx : ℕ}
    {old new : TerminalLayout} (found : session.terminalLayout workspaceIx tabIx = some old)
    (same : new.paneIds = old.paneIds) (paneId : PaneId) :
    (session.setTerminals workspaceIx tabIx new).findPane paneId = session.findPane paneId := by
  rcases Session.terminalLayout_eq_some found with ⟨workspace, tab, workspaceAt, tabAt, content⟩
  rcases Lists.exists_segments workspaceAt with ⟨front, back, split, -, modified, -⟩
  rcases Lists.exists_segments tabAt with ⟨left, right, tabSplit, -, tabModified, -⟩
  have ids : Tab.paneIds { tab with content := .terminals new } = tab.paneIds := by
    rw [Tab.paneIds_terminals rfl, Tab.paneIds_terminals content, same]
  rw [findPane_eq, findPane_eq]
  congr 2
  simp only [setTerminals, modifyTab, modifyWorkspace, modified, tabModified]
  rw [split]
  simp only [List.map_append, List.map_cons, ids, tabSplit]

theorem Session.terminalLayout_setTerminals {session : Session} {workspaceIx tabIx : ℕ}
    {old new : TerminalLayout} (found : session.terminalLayout workspaceIx tabIx = some old) :
    (session.setTerminals workspaceIx tabIx new).terminalLayout workspaceIx tabIx = some new := by
  rcases Session.terminalLayout_eq_some found with ⟨workspace, tab, workspaceAt, tabAt, -⟩
  simp [setTerminals, modifyTab, modifyWorkspace, terminalLayout, workspaceAt, tabAt,
    Tab.terminals]

/-- Toggling the zoomed Pane of a Tab with more Panes leaves the zoom. -/
theorem Session.togglePaneZoom_clears {session : Session} {nextId : ℕ} {tab : Tab}
    {terminals : TerminalLayout} {paneId : PaneId} (wellFormed : session.WellFormed nextId)
    (apart : session.ZoomsApart) (contained : tab ∈ session.tabs)
    (shown : tab.terminals = some terminals) (zoomed : terminals.zoomedPane = some paneId) :
    ∃ next workspaceIx tabIx paneIx cleared, session.togglePaneZoom paneId = (true, next) ∧
      next.findPane paneId = some (workspaceIx, tabIx, paneIx) ∧
      next.terminalLayout workspaceIx tabIx = some cleared ∧
      cleared.panes = terminals.panes ∧ cleared.zoomedPane = none := by
  have content := Tab.terminals_eq_some.mp shown
  have several : terminals.panes.length ≠ 1 := by
    have := apart tab contained terminals shown (by rw [zoomed]; rfl)
    omega
  have inside : paneId ∈ tab.paneIds := by
    rcases List.mem_flatMap.mp contained with ⟨workspace, workspaceMem, tabMem⟩
    have fits := wellFormed.workspaceFits workspaceMem tab tabMem
    rw [content] at fits
    rw [Tab.paneIds_terminals content]
    exact fits.zoomedMem paneId zoomed
  rcases found : session.findPane paneId with _ | ⟨workspaceIx, tabIx, paneIx⟩
  · exact absurd (List.mem_flatMap.mpr ⟨tab, contained, inside⟩) (Session.findPane_eq_none.mp found)
  rcases Session.findPane_located found with ⟨workspace, tab', terminals', pane, located⟩
  -- a Pane lives in one Tab only
  have same : tab' = tab := by
    by_contra other
    have apart := (List.nodup_flatMap.mp wellFormed.paneIdsNodup).2
    have symmetric : Std.Symm (Function.onFun List.Disjoint Tab.paneIds) :=
      ⟨fun _ _ disjoint => List.Disjoint.symm disjoint⟩
    have disjoint := apart.forall (Session.tabs_mem located.workspaceMem located.tabMem)
      contained other
    apply disjoint _ inside
    rw [Tab.paneIds_terminals located.content]
    exact located.paneIds_mem
  subst same
  cases TabContent.terminals.inj (located.content.symm.trans content)
  have layout := located.terminalLayout
  have focusIds : (terminals.focusPane paneId).paneIds = terminals.paneIds := by
    rw [TerminalLayout.focusPane]
    split <;> rfl
  have focusZoom : (terminals.focusPane paneId).zoomedPane = terminals.zoomedPane := by
    rw [TerminalLayout.focusPane]
    split <;> rfl
  have focusPanes : (terminals.focusPane paneId).panes = terminals.panes := by
    rw [TerminalLayout.focusPane]
    split <;> rfl
  have foundFocused := (Session.findPane_setTerminals layout focusIds paneId).trans found
  have focusLayout := @Session.terminalLayout_setTerminals _ _ _ _ (terminals.focusPane paneId) layout
  have focuses : session.focusPane paneId =
      (true, session.setTerminals workspaceIx tabIx (terminals.focusPane paneId)) := by
    simp only [Session.focusPane, Session.withTerminals, found, layout, Option.bind_some]
  have alone : ¬(terminals.focusPane paneId).panes.length = 1 := by
    rw [focusPanes]
    exact several
  refine ⟨_, workspaceIx, tabIx, paneIx, { terminals.focusPane paneId with zoomedPane := none },
    ?_, ?_, Session.terminalLayout_setTerminals focusLayout, focusPanes, rfl⟩
  · simp only [Session.togglePaneZoom, focuses, Session.withTerminals, foundFocused, focusLayout,
      Option.bind_some, if_neg alone, focusZoom, zoomed, ne_eq, not_true, if_false]
  · refine (Session.findPane_setTerminals focusLayout ?_ paneId).trans foundFocused
    rfl

/-! ## Every step -/

/-- An operation keeps zooms apart exactly when it is no close that leaves one alone. -/
theorem SessionOperation.zoomsApart_iff {store : Store} (wellFormed : store.WellFormed)
    (apart : store.session.ZoomsApart) (operation : SessionOperation) :
    (operation.apply store).session.ZoomsApart ↔ ¬operation.StrandsZoom store := by
  cases operation with
  | closePane paneId =>
      constructor
      · intro next strands
        have leaves : store.session.StrandsZoom paneId := strands
        rcases leaves.closes wellFormed.session with ⟨outcome, session, closes⟩
        simp only [SessionOperation.apply, Store.afterClose, closes] at next
        exact leaves.closePane closes next
      · intro kept
        exact Store.afterClose_zoomsApart apart fun _ _ closes => apart.closePane kept closes
  | createWorkspace rootDirectory =>
      exact iff_of_true (Store.createWorkspace_zoomsApart apart _) not_false
  | createTab workspaceId cwdFrom =>
      exact iff_of_true (Store.createTab_zoomsApart apart _ _) not_false
  | splitPane paneId direction ratio =>
      exact iff_of_true (Store.splitPane_zoomsApart apart _ _ _) not_false
  | splitPaneInBackground paneId direction ratio =>
      exact iff_of_true ((Store.splitPane_zoomsApart apart _ _ _).preserveFocusFrom apart
        wellFormed.session (wellFormed.splitPane_keepsPanes paneId direction ratio)) not_false
  | closeTab tabId =>
      exact iff_of_true (Store.afterClose_zoomsApart apart fun _ _ closes =>
        apart.closeTab closes) not_false
  | closeWorkspace workspaceId =>
      exact iff_of_true (Store.afterClose_zoomsApart apart fun _ _ closes =>
        apart.closeWorkspace closes) not_false
  | movePane paneId target side => exact iff_of_true (apart.movePane _ _ _) not_false
  | swapPane paneId direction => exact iff_of_true (apart.swapPane _ _) not_false
  | swapPanes paneId other => exact iff_of_true (apart.swapPanes _ _) not_false
  | resizePane paneId direction amount => exact iff_of_true (apart.resizePane _ _ _) not_false
  | setTabSplitRatios tabId ratios => exact iff_of_true (apart.setTabSplitRatios _ _) not_false
  | focusPane paneId => exact iff_of_true (apart.focusPane _) not_false
  | focusPaneInDirection paneId direction =>
      exact iff_of_true (apart.focusPaneInDirection _ _) not_false
  | togglePaneZoom paneId => exact iff_of_true (apart.togglePaneZoom _) not_false
  | moveWorkspace workspaceId targetIx => exact iff_of_true (apart.moveWorkspace _ _) not_false
  | moveTab tabId targetIx => exact iff_of_true (apart.moveTab _ _) not_false
  | showDiff workspaceId path => exact iff_of_true (Store.showViewer_zoomsApart apart _ _) not_false
  | showFile workspaceId path => exact iff_of_true (Store.showViewer_zoomsApart apart _ _) not_false
  | followRename workspaceId source target =>
      exact iff_of_true (apart.followRename _ _ _) not_false
  | renameWorkspace workspaceId name =>
      refine iff_of_true ?_ not_false
      simp only [SessionOperation.apply, Session.renameWorkspace]
      split
      · exact apart
      · exact apart.withWorkspace _ fun _ => rfl
  | renameTab tabId name =>
      refine iff_of_true ?_ not_false
      simp only [SessionOperation.apply, Store.withSession]
      exact apart.renameTab tabId name
  | setPaneAgentResume paneId resume => exact iff_of_true (apart.setPaneAgentResume _ _) not_false
  | setPaneCwd paneId cwd => exact iff_of_true (apart.setPaneCwd _ _) not_false
  | associateWorktree workspaceId association =>
      refine iff_of_true ?_ not_false
      simp only [SessionOperation.apply, Session.associateWorktree]
      split
      · exact apart
      · exact apart.withWorkspace _ fun _ => rfl
  | clearWorktreeAssociation workspaceId =>
      exact iff_of_true (apart.withWorkspace _ fun _ => rfl) not_false
  | reserveElsewhere count =>
      refine iff_of_true ?_ not_false
      simp only [SessionOperation.apply]
      split
      · exact apart
      · exact apart

/-- Every Store of a run without such a close is well formed and keeps zooms apart. -/
theorem zoomKeepingSystem_zoomsApart {store : Store}
    (reached : zoomKeepingSystem.Reachable store) :
    store.WellFormed ∧ store.session.ZoomsApart := by
  refine reached.invariant (fun store => store.WellFormed ∧ store.session.ZoomsApart) ?_ ?_
  · intro store starts
    refine ⟨sessionSystem_wellFormed (.start starts), ?_⟩
    rcases starts with ⟨isEmpty, -⟩ | ⟨snapshot, nextId, -, restored⟩
    · rw [isEmpty]
      intro tab contained
      cases contained
    · exact Session.restore_zoomsApart restored
  · rintro store operation next ⟨wellFormed, apart⟩ ⟨⟨checked, rfl⟩, kept⟩
    exact ⟨wellFormed.apply checked, (operation.zoomsApart_iff wellFormed apart).mpr kept⟩

/-- In every run without a close that leaves a zoomed Pane alone, a zoomed Pane is one of at
least two Panes of its Tab, toggling it leaves the zoom, and a Tab with one Pane shows no zoom.
Such a close, and no other step, ends this. -/
theorem zoom_runs {store : Store} (reached : zoomKeepingSystem.Reachable store) :
    (∀ tab ∈ store.session.tabs, ∀ terminals, tab.content = .terminals terminals →
      (∀ paneId, terminals.zoomedPane = some paneId →
        paneId ∈ terminals.paneIds ∧ 2 ≤ terminals.panes.length ∧
        ∃ next workspaceIx tabIx paneIx cleared,
          store.session.togglePaneZoom paneId = (true, next) ∧
          next.findPane paneId = some (workspaceIx, tabIx, paneIx) ∧
          next.terminalLayout workspaceIx tabIx = some cleared ∧
          cleared.panes = terminals.panes ∧ cleared.zoomedPane = none) ∧
      (terminals.panes.length = 1 → terminals.zoomedPane = none)) ∧
    ∀ operation : SessionOperation, operation.Checked store →
      ((operation.apply store).session.ZoomsApart ↔ ¬operation.StrandsZoom store) := by
  rcases zoomKeepingSystem_zoomsApart reached with ⟨wellFormed, apart⟩
  constructor
  · intro tab contained terminals content
    have shown := Tab.terminals_eq_some.mpr content
    have here := apart tab contained terminals shown
    constructor
    · intro paneId zoomed
      rcases List.mem_flatMap.mp contained with ⟨workspace, workspaceMem, tabMem⟩
      have fits := wellFormed.session.workspaceFits workspaceMem tab tabMem
      rw [content] at fits
      exact ⟨fits.zoomedMem paneId zoomed, here (by rw [zoomed]; rfl),
        Session.togglePaneZoom_clears wellFormed.session apart contained shown zoomed⟩
    · intro alone
      cases zoomed : terminals.zoomedPane with
      | none => rfl
      | some paneId =>
          have := here (by rw [zoomed]; rfl)
          omega
  · intro operation _
    exact operation.zoomsApart_iff wellFormed apart

theorem zoomKeeping_reachable {operations : List SessionOperation} {store : Store}
    (reached : zoomKeepingSystem.Reachable store)
    (keeps : ∀ operation ∈ operations, ∀ store,
      operation.Checked store ∧ ¬operation.StrandsZoom store) :
    zoomKeepingSystem.Reachable (runOperations store operations) := by
  induction operations generalizing store with
  | nil => exact reached
  | cons operation rest induction =>
      rcases keeps operation (by simp) store with ⟨checked, kept⟩
      apply induction (reached.next ⟨⟨checked, rfl⟩, kept⟩)
      exact fun other contained => keeps other (by simp [contained])

/-- A run that splits a Pane and zooms it. -/
def zoomingRun : List SessionOperation :=
  [.createWorkspace (.utf8 "/work"), .splitPane ⟨3⟩ .horizontal (.finite (1 / 2)),
    .togglePaneZoom ⟨3⟩]

theorem zoom_runs_example :
    ∃ tab ∈ (runOperations ⟨.empty, 1⟩ zoomingRun).session.tabs, ∃ terminals,
      tab.content = .terminals terminals ∧ terminals.zoomedPane = some ⟨3⟩ ∧
        ⟨3⟩ ∈ terminals.paneIds ∧ 2 ≤ terminals.panes.length := by
  have started : zoomKeepingSystem.Reachable ⟨.empty, 1⟩ :=
    .start (Or.inl ⟨rfl, by decide, by decide⟩)
  have reached : zoomKeepingSystem.Reachable (runOperations ⟨.empty, 1⟩ zoomingRun) :=
    zoomKeeping_reachable started
      (by simp [zoomingRun, SessionOperation.Checked, SessionOperation.StrandsZoom])
  rcases zoom_runs reached with ⟨tabs, -⟩
  refine ⟨_, List.mem_cons_self, _, rfl, rfl, ?_⟩
  rcases (tabs _ List.mem_cons_self _ rfl).1 ⟨3⟩ rfl with ⟨contained, several, -⟩
  exact ⟨contained, several⟩

/-- A run that zooms one of two Panes and closes the other. -/
def strandingRun : List SessionOperation :=
  [.createWorkspace (.utf8 "/work"), .splitPane ⟨3⟩ .horizontal (.finite (1 / 2)),
    .togglePaneZoom ⟨3⟩, .closePane ⟨4⟩]

/-- The Pane that remains is shown zoomed alone, and toggling it changes nothing. -/
theorem zoom_may_strand :
    sessionSystem.Reachable (runOperations ⟨.empty, 1⟩ strandingRun) ∧
      ∃ tab ∈ (runOperations ⟨.empty, 1⟩ strandingRun).session.tabs, ∃ terminals,
        tab.content = .terminals terminals ∧ terminals.panes.length = 1 ∧
        terminals.zoomedPane = some ⟨3⟩ ∧
        (runOperations ⟨.empty, 1⟩ strandingRun).session.togglePaneZoom ⟨3⟩ =
          (false, (runOperations ⟨.empty, 1⟩ strandingRun).session) := by
  refine ⟨runOperations_reachable emptyStore_reachable
    (by simp [strandingRun, SessionOperation.Checked]), ?_⟩
  refine ⟨_, List.mem_cons_self, _, rfl, rfl, rfl, ?_⟩
  decide

end Condr
