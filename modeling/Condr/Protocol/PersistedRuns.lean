import Condr.Protocol.SnapshotRoundTrip
import Condr.Session.Runs
import Mathlib.Algebra.Order.BigOperators.Group.List

/-!
# Runs of a Server's Session

A Server takes its first Session from the file it saved, and the paths and Agents
of its calls from decoded messages and from what it detects. Every Session of such
a run is portable, so what the Server saves is what a restart finds.
-/

namespace Condr

/-! ## Portable Sessions -/

namespace TabContent

/-- What a decoder keeps of a Tab. -/
def Portable : TabContent → Prop
  | terminals layout => ∀ pane ∈ layout.panes, Resumable pane.agentResume
  | diff path => isRelativeText path.inner = true
  | file path => isRelativeText path.inner = true

theorem Portable.snapshot {content : TabContent} (portable : content.Portable) :
    content.snapshot.Portable := by
  cases content with
  | terminals layout =>
      intro pane contained
      rcases List.mem_map.mp contained with ⟨old, oldMem, rfl⟩
      exact portable old oldMem
  | diff path | file path => exact portable

theorem Portable.restore {snapshot : TabContentSnapshot} {content : TabContent}
    (portable : snapshot.Portable) (restored : snapshot.restore = some content) :
    content.Portable := by
  cases snapshot with
  | terminals panes focusedPane focusHistory layout =>
      rcases Option.map_eq_some_iff.mp restored with ⟨restoredLayout, -, rfl⟩
      intro pane contained
      rcases List.mem_map.mp contained with ⟨old, oldMem, rfl⟩
      exact portable old oldMem
  | diff path | file path =>
      rcases Option.some.inj restored with rfl
      exact portable

/-- A change that adds no Pane keeps a Tab portable. -/
theorem Portable.ofSubset {old new : TerminalLayout} (portable : (terminals old).Portable)
    (subset : new.panes ⊆ old.panes) : (terminals new).Portable :=
  fun pane contained => portable pane (subset contained)

theorem single_portable (id : TabId) (paneId : PaneId) (cwd : PathBuf) :
    (Tab.single id paneId cwd).content.Portable := by
  intro pane contained
  rw [List.mem_singleton.mp contained]
  exact fun resume found => nomatch found

end TabContent

/-- Every Tab of the Session survives an encoding. -/
def Session.Portable (session : Session) : Prop :=
  ∀ workspace ∈ session.workspaces, ∀ tab ∈ workspace.tabs, tab.content.Portable

/-- The snapshot of a portable Session within its limits. -/
theorem Session.Portable.snapshot {nextId : ℕ} {session : Session} (portable : session.Portable)
    (wellFormed : session.WellFormed nextId) : session.snapshot.Portable := by
  have resources := wellFormed.snapshot_resources
  refine ⟨resources.workspaceLimit, ?_⟩
  intro workspaceSnapshot contained
  have tabLe := List.le_sum_of_mem (List.mem_map_of_mem (f := (·.tabs.length)) contained)
  refine ⟨tabLe.trans resources.tabLimit, ?_⟩
  intro tabSnapshot tabContained
  have inSnapshot : tabSnapshot ∈ session.snapshot.tabs :=
    List.mem_flatMap.mpr ⟨workspaceSnapshot, contained, tabContained⟩
  have paneLe := List.le_sum_of_mem (List.mem_map_of_mem (f := (·.paneCount)) inSnapshot)
  have nodeLe := List.le_sum_of_mem (List.mem_map_of_mem (f := (·.nodeCount)) inSnapshot)
  have paneLimit := paneLe.trans resources.paneLimit
  have nodeLimit := nodeLe.trans resources.nodeLimit
  rcases List.mem_map.mp contained with ⟨workspace, workspaceMem, rfl⟩
  rcases List.mem_map.mp tabContained with ⟨tab, tabMem, rfl⟩
  have valid := (wellFormed.tabValid (Session.tabs_mem workspaceMem tabMem)).content
  refine ⟨(portable workspace workspaceMem tab tabMem).snapshot, ?_⟩
  rcases tab with ⟨id, name, content⟩
  cases content with
  | terminals terminals =>
      -- a history lists Panes of its Tab, each once
      have historyLe := (valid.historyNodup.subperm fun id contained =>
        (valid.historyMem id contained).1).length_le
      simp only [TerminalLayout.paneIds, List.length_map] at historyLe
      simp only [TabSnapshot.paneCount, Tab.snapshot, TabContent.snapshot,
        List.length_map] at paneLimit
      exact ⟨by simpa using paneLimit, historyLe.trans paneLimit, nodeLimit⟩
  | diff path | file path => trivial

/-! ## Renames of relative paths -/

theorem head?_dropWhile_separator {text : List Char} :
    (text.dropWhile (· == '/')).head? ≠ some '/' := by
  have first := List.head?_dropWhile_not (· == '/') text
  intro separator
  rw [separator] at first
  simp at first

/-- What is left of a path keeps its last characters, and starts with no separator. -/
theorem stripComponents_suffix {source rest : List Char} {expected : List Component}
    (relative : source.head? ≠ some '/') (stripped : stripComponents source expected = some rest) :
    rest <:+ source ∧ rest.head? ≠ some '/' := by
  induction expected generalizing source with
  | nil =>
      rcases Option.some.inj stripped with rfl
      exact ⟨List.suffix_refl _, relative⟩
  | cons head tail ih =>
      simp only [stripComponents] at stripped
      split at stripped
      · cases stripped
      next found after next =>
      split_ifs at stripped
      simp only [nextComponent] at next
      split at next
      · cases next
      simp only [Option.some.injEq, Prod.mk.injEq] at next
      rcases next with ⟨-, rfl⟩
      rcases ih head?_dropWhile_separator stripped with ⟨suffix, starts⟩
      exact ⟨suffix.trans ((List.dropWhile_suffix _).trans
        ((List.dropWhile_suffix _).trans (List.dropWhile_suffix _))), starts⟩

theorem isRelativeText_ofList {text : List Char} :
    isRelativeText (String.ofList text) = true ↔ text.head? ≠ some '/' ∧ '\\' ∉ text := by
  simp [isRelativeText]

/-- A viewer that follows a rename to a relative path keeps naming one. -/
theorem isRelativeText_renamed {path source target renamed : RelativePathBuf}
    (targetRelative : isRelativeText target.inner = true)
    (pathRelative : isRelativeText path.inner = true)
    (follows : path.renamed source target = some renamed) :
    isRelativeText renamed.inner = true := by
  rcases Option.map_eq_some_iff.mp follows with ⟨rest, stripped, rfl⟩
  split_ifs
  · exact targetRelative
  rcases Option.map_eq_some_iff.mp stripped with ⟨left, leftEq, rfl⟩
  simp only [isRelativeText, Bool.and_eq_true, bne_iff_ne, ne_eq, Bool.not_eq_true',
    List.contains_eq_mem, decide_eq_false_iff_not] at targetRelative pathRelative
  rcases stripComponents_suffix pathRelative.1 leftEq with ⟨suffix, starts⟩
  have plain : '\\' ∉ left := fun contained => pathRelative.2 (suffix.subset contained)
  have same : RelativePathBuf.withoutSeparator left = left := by
    unfold RelativePathBuf.withoutSeparator
    split
    · simp at starts
    · rfl
  simp only [RelativePathBuf.join, String.toList_ofList, same]
  rw [isRelativeText_ofList]
  rcases whole : target.inner.toList with _ | ⟨first, others⟩
  · simpa [whole] using ⟨starts, plain⟩
  · rw [whole] at targetRelative
    split_ifs <;> simpa [plain] using targetRelative

/-! ## Every operation keeps the Session portable -/

namespace Session.Portable

variable {session : Session}

theorem ofSubset (portable : session.Portable) {workspaces : List Workspace}
    (subset : workspaces ⊆ session.workspaces) : Session.Portable ⟨workspaces⟩ :=
  fun workspace contained => portable workspace (subset contained)

theorem modifyWorkspace (portable : session.Portable) (workspaceIx : ℕ)
    {change : Workspace → Workspace}
    (keeps : ∀ workspace, session.workspaces[workspaceIx]? = some workspace →
      ∀ tab ∈ (change workspace).tabs, tab.content.Portable) :
    (session.modifyWorkspace workspaceIx change).Portable := by
  intro workspace contained
  rcases List.getElem?_of_mem contained with ⟨index, workspaceAt⟩
  simp only [Session.modifyWorkspace, List.getElem?_modify, Option.map_eq_map,
    Option.map_eq_some_iff] at workspaceAt
  rcases workspaceAt with ⟨old, oldAt, rfl⟩
  split_ifs with here
  · exact keeps old (here ▸ oldAt)
  · exact portable old (List.mem_of_getElem? oldAt)

theorem modifyTab (portable : session.Portable) (workspaceIx tabIx : ℕ) {change : Tab → Tab}
    (keeps : ∀ tab, tab.content.Portable → (change tab).content.Portable) :
    (session.modifyTab workspaceIx tabIx change).Portable := by
  apply portable.modifyWorkspace
  intro workspace workspaceAt tab contained
  rcases List.getElem?_of_mem contained with ⟨index, tabAt⟩
  simp only [List.getElem?_modify, Option.map_eq_map, Option.map_eq_some_iff] at tabAt
  rcases tabAt with ⟨old, oldAt, rfl⟩
  have oldPortable := portable workspace (List.mem_of_getElem? workspaceAt) old
    (List.mem_of_getElem? oldAt)
  split_ifs
  · exact keeps old oldPortable
  · exact oldPortable

theorem setTerminals (portable : session.Portable) (workspaceIx tabIx : ℕ)
    {terminals : TerminalLayout} (content : (TabContent.terminals terminals).Portable) :
    (session.setTerminals workspaceIx tabIx terminals).Portable :=
  portable.modifyTab workspaceIx tabIx fun _ _ => content

theorem terminalLayout (portable : session.Portable) {workspaceIx tabIx : ℕ}
    {terminals : TerminalLayout}
    (found : session.terminalLayout workspaceIx tabIx = some terminals) :
    (TabContent.terminals terminals).Portable := by
  rcases Session.terminalLayout_eq_some found with ⟨workspace, tab, workspaceAt, tabAt, content⟩
  rw [← content]
  exact portable workspace (List.mem_of_getElem? workspaceAt) tab (List.mem_of_getElem? tabAt)

theorem withTerminals (portable : session.Portable) (paneId : PaneId)
    {change : TerminalLayout → Option TerminalLayout}
    (subset : ∀ old new, change old = some new → new.panes ⊆ old.panes) :
    (session.withTerminals paneId change).2.Portable := by
  unfold Session.withTerminals
  split
  · exact portable
  split
  · exact portable
  next terminals changed =>
  rcases Option.bind_eq_some_iff.mp changed with ⟨old, found, changed⟩
  exact portable.setTerminals _ _ ((portable.terminalLayout found).ofSubset (subset _ _ changed))

theorem withWorkspace (portable : session.Portable) (workspaceId : WorkspaceId)
    {change : Workspace → Workspace} (same : ∀ workspace, (change workspace).tabs = workspace.tabs) :
    (session.withWorkspace workspaceId change).2.Portable := by
  unfold Session.withWorkspace
  split
  · exact portable
  · apply portable.modifyWorkspace
    intro workspace workspaceAt
    rw [same]
    exact portable workspace (List.mem_of_getElem? workspaceAt)

/-! ### Panes -/

theorem modifyPane {terminals : TerminalLayout} (portable : (TabContent.terminals terminals).Portable)
    (paneIx : ℕ) {change : Pane → Pane}
    (keeps : ∀ pane, Resumable pane.agentResume → Resumable (change pane).agentResume) :
    (TabContent.terminals (terminals.modifyPane paneIx change)).Portable := by
  intro pane contained
  rcases List.getElem?_of_mem contained with ⟨index, paneAt⟩
  simp only [TerminalLayout.modifyPane, List.getElem?_modify, Option.map_eq_map,
    Option.map_eq_some_iff] at paneAt
  rcases paneAt with ⟨old, oldAt, rfl⟩
  have oldResumable := portable old (List.mem_of_getElem? oldAt)
  split_ifs
  · exact keeps old oldResumable
  · exact oldResumable

theorem setPaneAgentResume (portable : session.Portable) (paneId : PaneId)
    {resume : Option AgentResume} (resumable : Resumable resume) :
    (session.setPaneAgentResume paneId resume).2.Portable := by
  unfold Session.setPaneAgentResume
  split_ifs
  · exact portable
  split
  · exact portable
  split
  · exact portable
  next terminals found =>
  split_ifs
  · exact portable
  · exact portable.setTerminals _ _
      (modifyPane (portable.terminalLayout found) _ fun _ _ => resumable)

theorem setPaneCwd (portable : session.Portable) (paneId : PaneId) (cwd : Option PathBuf) :
    (session.setPaneCwd paneId cwd).2.Portable := by
  unfold Session.setPaneCwd
  split
  · exact portable
  split
  · exact portable
  next terminals found =>
  exact portable.setTerminals _ _
    (modifyPane (portable.terminalLayout found) _ fun _ resumable => resumable)

theorem focusPane (portable : session.Portable) (paneId : PaneId) :
    (session.focusPane paneId).2.Portable := by
  apply portable.withTerminals
  rintro old new changed
  rcases Option.some.inj changed with rfl
  simp only [TerminalLayout.focusPane]
  split_ifs <;> exact List.Subset.refl _

theorem focusPaneInDirection (portable : session.Portable) (paneId : PaneId)
    (direction : PaneDirection) : (session.focusPaneInDirection paneId direction).2.Portable := by
  unfold Session.focusPaneInDirection
  split
  · exact portable
  split
  · exact portable
  · exact portable.focusPane _

theorem togglePaneZoom (portable : session.Portable) (paneId : PaneId) :
    (session.togglePaneZoom paneId).2.Portable := by
  have focused := portable.focusPane paneId
  unfold Session.togglePaneZoom
  rcases outcome : session.focusPane paneId with ⟨_ | _, next⟩ <;> rw [outcome] at focused
  · exact focused
  · apply Portable.withTerminals focused
    intro old new changed
    split at changed
    · cases changed
    · rcases Option.some.inj changed with rfl
      exact List.Subset.refl _

theorem resizePane (portable : session.Portable) (paneId : PaneId) (direction : PaneDirection)
    (amount : F32) : (session.resizePane paneId direction amount).2.Portable := by
  unfold Session.resizePane
  split_ifs
  · exact portable
  · apply portable.withTerminals
    intro old new changed
    split at changed
    · rcases Option.some.inj changed with rfl
      exact List.Subset.refl _
    · cases changed

theorem swapPane (portable : session.Portable) (paneId : PaneId) (direction : PaneDirection) :
    (session.swapPane paneId direction).2.Portable := by
  apply portable.withTerminals
  intro old new changed
  rcases Option.map_eq_some_iff.mp changed with ⟨neighbor, -, rfl⟩
  exact List.Subset.refl _

theorem swapPanes (portable : session.Portable) (paneId other : PaneId) :
    (session.swapPanes paneId other).2.Portable := by
  unfold Session.swapPanes
  split_ifs
  · exact portable
  · apply portable.withTerminals
    intro old new changed
    split_ifs at changed
    rcases Option.some.inj changed with rfl
    exact List.Subset.refl _

theorem movePane (portable : session.Portable) (paneId target : PaneId) (side : PaneDirection) :
    (session.movePane paneId target side).2.Portable := by
  unfold Session.movePane
  split_ifs
  · exact portable
  · apply portable.withTerminals
    intro old new changed
    split_ifs at changed
    simp only [TerminalLayout.movePane, Option.bind_eq_bind, Option.bind_eq_some_iff] at changed
    rcases changed with ⟨rest, -, depth, -, changed⟩
    split_ifs at changed
    rcases Option.some.inj changed with rfl
    exact List.Subset.refl _

theorem setTabSplitRatios (portable : session.Portable) (tabId : TabId) (ratios : List F32) :
    (session.setTabSplitRatios tabId ratios).2.Portable := by
  unfold Session.setTabSplitRatios
  split_ifs
  · exact portable
  split
  · exact portable
  split
  · exact portable
  split
  · exact portable
  next terminals found =>
  split_ifs
  · exact portable
  split
  · exact portable
  · exact portable.setTerminals _ _
      ((portable.terminalLayout found).ofSubset (List.Subset.refl _))

theorem closePane (portable : session.Portable) {paneId : PaneId} {outcome : CloseOutcome}
    {next : Session} (closed : session.closePane paneId = some (outcome, next)) :
    next.Portable := by
  simp only [Session.closePane, Option.bind_eq_bind, Option.bind_eq_some_iff] at closed
  rcases closed with ⟨⟨workspaceIx, tabIx, paneIx⟩, -, workspace, workspaceAt, tab, tabAt, closed⟩
  have workspaceMem := List.mem_of_getElem? workspaceAt
  split_ifs at closed
  · simp only [Option.bind_eq_some_iff, Option.some.injEq, Prod.mk.injEq] at closed
    rcases closed with ⟨old, shown, terminals, removed, -, rfl⟩
    have oldPortable := portable workspace workspaceMem tab (List.mem_of_getElem? tabAt)
    rw [Tab.terminals_eq_some.mp shown] at oldPortable
    refine portable.setTerminals _ _ (oldPortable.ofSubset ?_)
    simp only [TerminalLayout.removePane, Option.bind_eq_bind, Option.bind_eq_some_iff] at removed
    rcases removed with ⟨layout, -, removed⟩
    split_ifs at removed <;>
    · rcases Option.some.inj removed with rfl
      exact (List.eraseIdx_sublist ..).subset
  · simp only [Option.some.injEq, Prod.mk.injEq] at closed
    rcases closed with ⟨-, rfl⟩
    exact portable.modifyWorkspace _ fun _ _ other contained =>
      portable workspace workspaceMem other ((List.eraseIdx_sublist ..).subset contained)
  · simp only [Option.some.injEq, Prod.mk.injEq] at closed
    rcases closed with ⟨-, rfl⟩
    exact portable.ofSubset (List.eraseIdx_sublist ..).subset

/-! ### Workspaces and Tabs -/

theorem renameTab (portable : session.Portable) (tabId : TabId) (name : String) :
    (session.renameTab tabId name).2.Portable := by
  unfold Session.renameTab Session.withTab
  split_ifs
  · exact portable
  split
  · exact portable
  apply portable.modifyWorkspace
  intro workspace workspaceAt tab contained
  have kept := portable workspace (List.mem_of_getElem? workspaceAt)
  simp only at contained
  split at contained
  · exact kept tab contained
  · rcases List.getElem?_of_mem contained with ⟨index, tabAt⟩
    simp only [List.getElem?_modify, Option.map_eq_map, Option.map_eq_some_iff] at tabAt
    rcases tabAt with ⟨old, oldAt, rfl⟩
    have oldPortable := kept old (List.mem_of_getElem? oldAt)
    split_ifs <;> exact oldPortable

theorem renameWorkspace (portable : session.Portable) (workspaceId : WorkspaceId)
    (name : String) : (session.renameWorkspace workspaceId name).2.Portable := by
  unfold Session.renameWorkspace
  split_ifs
  · exact portable
  · exact portable.withWorkspace _ fun _ => rfl

theorem associateWorktree (portable : session.Portable) (workspaceId : WorkspaceId)
    (association : WorktreeAssociation) :
    (session.associateWorktree workspaceId association).2.Portable := by
  unfold Session.associateWorktree
  split_ifs
  · exact portable
  · exact portable.withWorkspace _ fun _ => rfl

theorem clearWorktreeAssociation (portable : session.Portable) (workspaceId : WorkspaceId) :
    (session.clearWorktreeAssociation workspaceId).2.Portable :=
  portable.withWorkspace workspaceId fun _ => rfl

theorem closeWorkspace (portable : session.Portable) {workspaceId : WorkspaceId}
    {outcome : CloseOutcome} {next : Session}
    (closed : session.closeWorkspace workspaceId = some (outcome, next)) : next.Portable := by
  simp only [Session.closeWorkspace, Option.bind_eq_bind, Option.bind_eq_some_iff,
    Option.some.injEq, Prod.mk.injEq] at closed
  rcases closed with ⟨workspaceIx, -, workspace, -, -, rfl⟩
  exact portable.ofSubset (List.eraseIdx_sublist ..).subset

theorem closeTab (portable : session.Portable) {tabId : TabId} {outcome : CloseOutcome}
    {next : Session} (closed : session.closeTab tabId = some (outcome, next)) :
    next.Portable := by
  simp only [Session.closeTab, Option.bind_eq_bind, Option.bind_eq_some_iff] at closed
  rcases closed with ⟨workspaceIx, -, workspace, -, tabIx, -, closed⟩
  split_ifs at closed
  · exact portable.closeWorkspace closed
  · simp only [Option.bind_eq_some_iff, Option.some.injEq, Prod.mk.injEq] at closed
    rcases closed with ⟨tab, -, -, rfl⟩
    exact portable.modifyWorkspace _ fun other otherAt kept contained =>
      portable other (List.mem_of_getElem? otherAt) kept
        ((List.eraseIdx_sublist ..).subset contained)

theorem moveWorkspace (portable : session.Portable) (workspaceId : WorkspaceId) (targetIx : ℕ) :
    (session.moveWorkspace workspaceId targetIx).2.Portable := by
  unfold Session.moveWorkspace
  split
  · exact portable
  · split_ifs with refused
    · exact portable
    · simp only [Bool.or_eq_true, decide_eq_true_eq, not_or, not_le] at refused
      exact portable.ofSubset (Session.WellFormed.moveElement_perm _ _ refused.1).subset

theorem moveTab (portable : session.Portable) (tabId : TabId) (targetIx : ℕ) :
    (session.moveTab tabId targetIx).2.Portable := by
  unfold Session.moveTab
  split
  · exact portable
  split
  · exact portable
  next workspace workspaceAt =>
  split
  · exact portable
  split_ifs with refused
  · exact portable
  · simp only [Bool.or_eq_true, decide_eq_true_eq, not_or, not_le] at refused
    apply portable.modifyWorkspace
    intro other otherAt tab contained
    rcases Option.some.inj (workspaceAt.symm.trans otherAt) with rfl
    have reordered := Session.WellFormed.moveElement_perm workspace.tabs ‹ℕ› refused.1
    exact portable workspace (List.mem_of_getElem? workspaceAt) tab (reordered.subset contained)

theorem followRename (portable : session.Portable) (workspaceId : WorkspaceId)
    (source : RelativePathBuf) {target : RelativePathBuf}
    (relative : isRelativeText target.inner = true) :
    (session.followRename workspaceId source target).2.Portable := by
  unfold Session.followRename
  split
  · exact portable
  apply portable.modifyWorkspace
  intro workspace workspaceAt tab contained
  rcases List.mem_map.mp contained with ⟨old, oldMem, rfl⟩
  have oldPortable := portable workspace (List.mem_of_getElem? workspaceAt) old oldMem
  unfold Tab.followRename
  split
  · next path shown =>
      rw [shown] at oldPortable
      split
      · next renamed follows => exact isRelativeText_renamed relative oldPortable follows
      · rw [shown]
        exact oldPortable
  · exact oldPortable

theorem preserveFocusFrom (portable : session.Portable) (previous : Session) :
    (session.preserveFocusFrom previous).Portable := by
  intro workspace contained
  rcases List.mem_map.mp contained with ⟨old, oldMem, rfl⟩
  split
  · exact portable old oldMem
  · intro tab tabMem
    rcases List.mem_map.mp tabMem with ⟨oldTab, oldTabMem, rfl⟩
    have oldPortable := portable old oldMem oldTab oldTabMem
    unfold Tab.keepFocus
    split
    · next terminals previousTerminals shown _ =>
        rw [shown] at oldPortable
        exact oldPortable
    · exact oldPortable

end Session.Portable

namespace Store

variable {store : Store}

theorem createWorkspace_portable (portable : store.session.Portable) (rootDirectory : PathBuf) :
    (store.createWorkspace rootDirectory).2.session.Portable := by
  unfold createWorkspace
  simp only
  split_ifs
  · exact portable
  split
  · exact portable
  · intro workspace contained
    rcases List.mem_append.mp contained with old | new
    · exact portable workspace old
    · rcases List.mem_singleton.mp new with rfl
      intro tab tabMem
      rw [List.mem_singleton.mp tabMem]
      exact TabContent.single_portable _ _ _

theorem createTab_portable (portable : store.session.Portable) (workspaceId : WorkspaceId)
    (cwdFrom : Option PaneId) : (store.createTab workspaceId cwdFrom).2.session.Portable := by
  unfold createTab
  simp only
  split_ifs
  · exact portable
  split
  · exact portable
  split
  · exact portable
  split
  · exact portable
  apply portable.modifyWorkspace
  intro workspace workspaceAt tab contained
  rcases List.mem_append.mp contained with old | new
  · exact portable workspace (List.mem_of_getElem? workspaceAt) tab old
  · rw [List.mem_singleton.mp new]
    exact TabContent.single_portable _ _ _

theorem splitPane_portable (portable : store.session.Portable) (paneId : PaneId)
    (direction : SplitDirection) (ratio : F32) :
    (store.splitPane paneId direction ratio).2.session.Portable := by
  unfold splitPane
  simp only
  split_ifs
  · exact portable
  split
  · exact portable
  split
  · next workspace terminals _ found =>
      split
      · exact portable
      split_ifs
      · exact portable
      split
      · exact portable
      split
      · exact portable
      next attached attachedEq =>
      refine portable.setTerminals _ _ fun pane contained => ?_
      rw [TerminalLayout.attachPane_panes attachedEq] at contained
      rcases List.mem_append.mp contained with old | new
      · exact portable.terminalLayout found pane old
      · rw [List.mem_singleton.mp new]
        exact fun resume none => nomatch none
  · exact portable

theorem showViewer_portable (portable : store.session.Portable) (workspaceId : WorkspaceId)
    (content : TabContent) (name : String) (shown : content.Portable) :
    (store.showViewer workspaceId content name).2.session.Portable := by
  unfold showViewer
  simp only
  split
  · exact portable
  split
  · exact portable
  split
  · exact portable
  split
  · exact portable
  split
  · exact portable.modifyTab _ _ fun _ _ => shown
  split
  · exact portable
  split
  · exact portable
  apply portable.modifyWorkspace
  intro workspace workspaceAt tab contained
  rcases List.mem_append.mp contained with old | new
  · exact portable workspace (List.mem_of_getElem? workspaceAt) tab old
  · rw [List.mem_singleton.mp new]
    exact shown

theorem showDiff_portable (portable : store.session.Portable) (workspaceId : WorkspaceId)
    {path : RelativePathBuf} (relative : isRelativeText path.inner = true) :
    (store.showDiff workspaceId path).2.session.Portable :=
  store.showViewer_portable portable workspaceId (.diff path) diffTabName relative

theorem showFile_portable (portable : store.session.Portable) (workspaceId : WorkspaceId)
    {path : RelativePathBuf} (relative : isRelativeText path.inner = true) :
    (store.showFile workspaceId path).2.session.Portable :=
  store.showViewer_portable portable workspaceId (.file path) fileTabName relative

theorem withSession_portable {session : Session} (portable : session.Portable) :
    (store.withSession session).session.Portable := portable

theorem afterClose_portable (portable : store.session.Portable)
    {closed : Option (CloseOutcome × Session)}
    (next : ∀ outcome session, closed = some (outcome, session) → session.Portable) :
    (store.afterClose closed).session.Portable := by
  rcases closed with _ | ⟨outcome, session⟩
  · exact portable
  · exact next outcome session rfl

end Store

/-! ## Runs -/

/-- What a call of the Server is given: paths a decoder let through, and the conversation of an
Agent of a kind that is detected. -/
def SessionOperation.Received : SessionOperation → Prop
  | showDiff _ path => isRelativeText path.inner = true
  | showFile _ path => isRelativeText path.inner = true
  | followRename _ _ target => isRelativeText target.inner = true
  | setPaneAgentResume _ resume => Resumable resume
  | _ => True

/-- The Session of a Server over time: it starts empty, or with what was decoded from the file. -/
def persistedSystem : Transition.System Store SessionOperation where
  initial store :=
    (store.session = Session.empty ∧ 0 < store.nextId ∧
      store.nextId ≤ maxNextStableIdExclusive) ∨
    ∃ (wire : Pb.SessionSnapshot) (snapshot : SessionSnapshot) (nextId : ℕ),
      wire.toDomain = .ok snapshot ∧ nextId ≤ maxNextStableIdExclusive ∧
        Session.restore snapshot nextId = .ok store
  step store operation next :=
    operation.Checked store ∧ operation.Received ∧ next = operation.apply store

/-- Its runs are runs of a Session. -/
theorem persistedSystem_sessionSystem {store : Store} (reached : persistedSystem.Reachable store) :
    sessionSystem.Reachable store := by
  induction reached with
  | start starts =>
      rcases starts with isEmpty | ⟨wire, snapshot, nextId, -, counter, restored⟩
      · exact .start (Or.inl isEmpty)
      · exact .start (Or.inr ⟨snapshot, nextId, counter, restored⟩)
  | next _ steps ih =>
      rcases steps with ⟨checked, -, rfl⟩
      exact ih.next ⟨checked, rfl⟩

/-- A snapshot that is portable restores a portable Session. -/
theorem Session.restore_portable {snapshot : SessionSnapshot} {nextId : ℕ} {store : Store}
    (portable : snapshot.Portable) (restored : Session.restore snapshot nextId = .ok store) :
    store.session.Portable := by
  simp only [Session.restore, Lists.bind_eq_ok] at restored
  rcases restored with ⟨⟨⟩, -, restored⟩
  split at restored
  · simp [invalid] at restored
  next workspaces workspacesEq =>
  simp only [Lists.bind_eq_ok] at restored
  rcases restored with ⟨maxId, -, done⟩
  rcases Except.ok.inj done with rfl
  intro workspace contained
  rcases Lists.exists_of_mem_mapM workspacesEq contained with ⟨old, oldMem, workspaceEq⟩
  rcases Option.map_eq_some_iff.mp workspaceEq with ⟨tabs, tabsEq, rfl⟩
  intro tab tabMem
  rcases Lists.exists_of_mem_mapM tabsEq tabMem with ⟨oldTab, oldTabMem, tabEq⟩
  rcases Option.map_eq_some_iff.mp tabEq with ⟨content, contentEq, rfl⟩
  exact TabContent.Portable.restore
    ((portable.workspaces old oldMem).tabs oldTab oldTabMem).1 contentEq

/-- Every operation keeps the Session portable. -/
theorem Store.apply_portable {store : Store} (portable : store.session.Portable)
    {operation : SessionOperation} (received : operation.Received) :
    (operation.apply store).session.Portable := by
  cases operation with
  | createWorkspace rootDirectory => exact store.createWorkspace_portable portable rootDirectory
  | createTab workspaceId cwdFrom => exact store.createTab_portable portable workspaceId cwdFrom
  | splitPane paneId direction ratio =>
      exact store.splitPane_portable portable paneId direction ratio
  | splitPaneInBackground paneId direction ratio =>
      exact (store.splitPane_portable portable paneId direction ratio).preserveFocusFrom _
  | closePane paneId => exact store.afterClose_portable portable fun _ _ => portable.closePane
  | closeTab tabId => exact store.afterClose_portable portable fun _ _ => portable.closeTab
  | closeWorkspace workspaceId =>
      exact store.afterClose_portable portable fun _ _ => portable.closeWorkspace
  | movePane paneId target side => exact withSession_portable (portable.movePane paneId target side)
  | swapPane paneId direction => exact withSession_portable (portable.swapPane paneId direction)
  | swapPanes paneId other => exact withSession_portable (portable.swapPanes paneId other)
  | resizePane paneId direction amount =>
      exact withSession_portable (portable.resizePane paneId direction amount)
  | setTabSplitRatios tabId ratios =>
      exact withSession_portable (portable.setTabSplitRatios tabId ratios)
  | focusPane paneId => exact withSession_portable (portable.focusPane paneId)
  | focusPaneInDirection paneId direction =>
      exact withSession_portable (portable.focusPaneInDirection paneId direction)
  | togglePaneZoom paneId => exact withSession_portable (portable.togglePaneZoom paneId)
  | moveWorkspace workspaceId targetIx =>
      exact withSession_portable (portable.moveWorkspace workspaceId targetIx)
  | moveTab tabId targetIx => exact withSession_portable (portable.moveTab tabId targetIx)
  | showDiff workspaceId path => exact store.showDiff_portable portable workspaceId received
  | showFile workspaceId path => exact store.showFile_portable portable workspaceId received
  | followRename workspaceId source target =>
      exact withSession_portable (portable.followRename workspaceId source received)
  | renameWorkspace workspaceId name =>
      exact withSession_portable (portable.renameWorkspace workspaceId name)
  | renameTab tabId name => exact withSession_portable (portable.renameTab tabId name)
  | setPaneAgentResume paneId resume =>
      exact withSession_portable (portable.setPaneAgentResume paneId received)
  | setPaneCwd paneId cwd => exact withSession_portable (portable.setPaneCwd paneId cwd)
  | associateWorktree workspaceId association =>
      exact withSession_portable (portable.associateWorktree workspaceId association)
  | clearWorktreeAssociation workspaceId =>
      exact withSession_portable (portable.clearWorktreeAssociation workspaceId)
  | reserveElsewhere count =>
      simp only [SessionOperation.apply]
      split <;> exact portable

theorem persistedSystem_portable {store : Store} (reached : persistedSystem.Reachable store) :
    store.session.Portable := by
  refine reached.invariant (fun store => store.session.Portable) ?_ ?_
  · rintro store (⟨isEmpty, -⟩ | ⟨wire, snapshot, nextId, decoded, -, restored⟩)
    · rw [isEmpty]
      exact fun workspace contained => nomatch contained
    · exact Session.restore_portable (Pb.SessionSnapshot.toDomain_portable decoded) restored
  · rintro store operation next portable ⟨-, received, rfl⟩
    exact store.apply_portable portable received

/-- What a Server saves is what a restart finds: whenever the snapshot of a Session of a run is
written, and the wire layer reads back the message that was written, the decoded snapshot is the
snapshot, and restoring it gives the Session except zoom, with the counter behind its ids. -/
theorem persisted_session_restores {store : Store} (reached : persistedSystem.Reachable store)
    {bytes : List UInt8} (written : store.session.snapshot.toBytes = .ok bytes)
    {decode : SnapshotDecoder}
    (wireLayer : ∀ wire, store.session.snapshot.toWire = .ok wire →
      decode wire.encode = .ok wire) (started : ℕ) :
    SessionSnapshot.fromBytes decode bytes = .ok store.session.snapshot ∧
      Session.restore store.session.snapshot started =
        .ok { session := store.session.withoutZoom
              nextId := max started (store.session.maxId + 1) } := by
  have wellFormed := sessionSystem_wellFormed (persistedSystem_sessionSystem reached)
  refine ⟨?_, wellFormed.session.restore_snapshot wellFormed.counter started⟩
  simp only [SessionSnapshot.toBytes, Lists.bind_eq_ok] at written
  rcases written with ⟨wire, encoded, written⟩
  split_ifs at written with oversized
  rcases Except.ok.inj written with rfl
  have portable := (persistedSystem_portable reached).snapshot wellFormed.session
  have decoded := SessionSnapshot.toDomain_toWire portable encoded
  have fits : ¬maxSnapshotBytes < wire.encode.length := oversized
  rw [SessionSnapshot.fromBytes, if_neg fits, wireLayer wire encoded]
  simp [decoded, bind, Except.bind, Except.mapError]

theorem runOperations_persisted {operations : List SessionOperation} {store : Store}
    (reached : persistedSystem.Reachable store)
    (accepted : ∀ operation ∈ operations, operation.Received ∧ ∀ store, operation.Checked store) :
    persistedSystem.Reachable (runOperations store operations) := by
  induction operations generalizing store with
  | nil => exact reached
  | cons operation operations ih =>
      have first := accepted operation (by simp)
      exact ih (reached.next ⟨first.2 store, first.1, rfl⟩)
        fun other contained => accepted other (by simp [contained])

/-- A run that splits a Pane, zooms one, and opens both viewers. -/
def savedStore : Store :=
  runOperations ⟨.empty, 1⟩
    [.createWorkspace (.utf8 "/work"), .splitPane ⟨3⟩ .horizontal (.finite (1 / 2)),
      .togglePaneZoom ⟨3⟩, .showDiff ⟨1⟩ ⟨"src/main.rs"⟩, .showFile ⟨1⟩ ⟨"notes.md"⟩,
      .setPaneAgentResume ⟨4⟩ (some ⟨.codex, "thread-1"⟩)]

/-- The message of its snapshot. -/
def savedWire : Pb.SessionSnapshot where
  workspaces := [{
    id := 1
    name := "work"
    rootDirectory := "/work"
    worktree := none
    tabs := [
      { id := 2
        name := ""
        content := some (.terminals {
          panes := [⟨3, some "/work", none⟩, ⟨4, some "/work", some ⟨2, "thread-1"⟩⟩]
          focusedPane := 3
          focusHistory := [4]
          layout := some {
            root := 0
            nodes := [some (.split ⟨1, .finite (1 / 2), 1, 2⟩), some (.pane 3),
              some (.pane 4)] } }) },
      { id := 5, name := "Diff", content := some (.diff "src/main.rs") },
      { id := 6, name := "Preview", content := some (.file "notes.md") }] }]

theorem savedStore_toWire : savedStore.session.snapshot.toWire = .ok savedWire := by
  decide +kernel

theorem savedStore_toBytes : savedStore.session.snapshot.toBytes = .ok savedWire.encode := by
  have short : ¬maxSnapshotBytes < Protobuf.encodedLen savedWire.fields := by decide +kernel
  rw [SessionSnapshot.toBytes, savedStore_toWire]
  simp [bind, Except.bind, short]

theorem savedStore_reachable : persistedSystem.Reachable savedStore := by
  apply runOperations_persisted (.start (Or.inl ⟨rfl, by decide, by decide⟩))
  simp only [List.forall_mem_cons, List.not_mem_nil, IsEmpty.forall_iff, implies_true, and_true,
    SessionOperation.Received, SessionOperation.Checked, true_and]
  refine ⟨by decide, by decide, fun resume found => ?_⟩
  rcases Option.some.inj found with rfl
  decide

/-- A decoder that reads the one message of the example. -/
def savedDecoder : SnapshotDecoder := fun bytes =>
  if bytes = savedWire.encode then .ok savedWire else .error "not the saved message"

theorem persisted_session_restores_example :
    SessionSnapshot.fromBytes savedDecoder savedWire.encode = .ok savedStore.session.snapshot ∧
      Session.restore savedStore.session.snapshot 1 =
        .ok { session := savedStore.session.withoutZoom
              nextId := max 1 (savedStore.session.maxId + 1) } := by
  refine persisted_session_restores savedStore_reachable savedStore_toBytes ?_ 1
  intro wire encoded
  rw [savedStore_toWire] at encoded
  rcases Except.ok.inj encoded with rfl
  exact if_pos rfl

end Condr
