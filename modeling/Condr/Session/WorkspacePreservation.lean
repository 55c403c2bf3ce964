import Condr.Session.PanePreservation
import Condr.Session.Workspace

/-!
# Workspace and Tab operations keep a Session well formed

Creation takes its ids from the counter; closing and moving keep a part of the
tables or their order; a viewer only ever shows a valid path.
-/

namespace Condr

/-! ## Creating -/

@[simp]
theorem Tab.paneIds_single (id : TabId) (paneId : PaneId) (cwd : PathBuf) :
    (Tab.single id paneId cwd).paneIds = [paneId] := rfl

theorem Tab.single_valid {bound : ℕ} {id : TabId} {paneId : PaneId} {cwd : PathBuf}
    (tabWithin : idWithin bound id.asU64) (paneWithin : idWithin bound paneId.asU64) :
    (Tab.single id paneId cwd).Valid bound :=
  ⟨tabWithin, TerminalLayout.single_valid paneWithin rfl⟩

theorem Tab.single_fits (id : TabId) (paneId : PaneId) (cwd : PathBuf) :
    (Tab.single id paneId cwd).content.Fits :=
  TerminalLayout.single_fits _

namespace Store.WellFormed

variable {store : Store}

theorem createWorkspace (wellFormed : store.WellFormed) (rootDirectory : PathBuf) :
    (store.createWorkspace rootDirectory).2.WellFormed := by
  have positive := wellFormed.positive
  simp only [Store.createWorkspace]
  split
  · exact wellFormed
  next room =>
  simp only [Bool.or_eq_true, decide_eq_true_eq, not_or, not_le] at room
  split
  · exact wellFormed
  next first later reserved =>
  rcases reserveIds_eq_some reserved with ⟨counter, rfl, rfl⟩
  refine ⟨?_, Nat.succ_pos _, counter⟩
  refine wellFormed.session.append (Nat.le_add_right _ 3) le_rfl ?_ ?_ ?_ ?_ ?_ ?_ room.1.1
    room.1.2 room.2
  · refine ⟨⟨positive, by simp⟩, by simpa using workspaceName_ne_empty rootDirectory, by simp,
      by simp, ?_, by simp [Workspace.diffTabs, Tab.single, TabContent.isDiff],
      by simp [Workspace.fileTabs, Tab.single, TabContent.isFile]⟩
    intro tab contained
    rcases List.mem_singleton.mp contained with rfl
    exact Tab.single_valid ⟨Nat.succ_pos _, by simp⟩ ⟨Nat.succ_pos _, by simp⟩
  · intro tab contained
    rcases List.mem_singleton.mp contained with rfl
    exact Tab.single_fits ..
  · simp [Workspace.tabIds]
  · simp [Workspace.tabIds, Tab.single]
  · simp [Workspace.paneIds]
  · simp [Workspace.paneIds]

theorem createTab (wellFormed : store.WellFormed) (workspaceId : WorkspaceId)
    (cwdFrom : Option PaneId) : (store.createTab workspaceId cwdFrom).2.WellFormed := by
  simp only [Store.createTab]
  split
  · exact wellFormed
  next room =>
  simp only [Bool.or_eq_true, decide_eq_true_eq, not_or, not_le] at room
  split
  · exact wellFormed
  next workspaceIx found =>
  rcases Lists.findIdx?_getElem? found with ⟨workspace, workspaceAt, -⟩
  simp only [workspaceAt]
  split
  · exact wellFormed
  next first later reserved =>
  rcases reserveIds_eq_some reserved with ⟨counter, rfl, rfl⟩
  refine ⟨?_, Nat.succ_pos _, counter⟩
  refine wellFormed.session.appendTab (Nat.le_add_right _ 2) workspaceAt le_rfl ?_
    (Tab.single_fits ..) (by simp [Tab.single, TabContent.isDiff])
    (by simp [Tab.single, TabContent.isFile]) (by simp) (by simp) room.1 room.2
  exact Tab.single_valid ⟨wellFormed.positive, by simp⟩ ⟨Nat.succ_pos _, by simp⟩

end Store.WellFormed

/-! ## Viewers -/

/-- A viewer content: no Panes, and a path that was checked. -/
structure TabContent.Viewer (content : TabContent) (path : RelativePathBuf) : Prop where
  shows : content = .diff path ∨ content = .file path
  pathValid : validDiffPath path = true

namespace TabContent.Viewer

variable {content : TabContent} {path : RelativePathBuf} (viewer : content.Viewer path)
include viewer

theorem valid (bound : ℕ) : content.Valid bound := by
  rcases viewer.shows with rfl | rfl
  · exact viewer.pathValid
  · exact viewer.pathValid

theorem fits : content.Fits := by
  rcases viewer.shows with rfl | rfl <;> trivial

theorem paneIds {tab : Tab} (shown : tab.content = content) : tab.paneIds = [] := by
  rcases viewer.shows with rfl | rfl <;> simp [Tab.paneIds, Tab.panes, Tab.terminals, shown]

/-- The same kind of viewer, seen from the content that is shown. -/
theorem sameViewerKind (other : TabContent) :
    other.sameViewerKind content = true ↔
      (content.isDiff = true ∧ other.isDiff = true) ∨
        (content.isFile = true ∧ other.isFile = true) := by
  rcases viewer.shows with rfl | rfl <;> cases other <;>
    simp [TabContent.sameViewerKind, isDiff, isFile]

end TabContent.Viewer

theorem TabContent.sameViewerKind_kinds {content other : TabContent}
    (same : other.sameViewerKind content = true) :
    content.isDiff = other.isDiff ∧ content.isFile = other.isFile := by
  cases content <;> cases other <;> simp_all [sameViewerKind, isDiff, isFile]

theorem Store.WellFormed.showViewer {store : Store} (wellFormed : store.WellFormed)
    (workspaceId : WorkspaceId) (content : TabContent) (name : String) :
    (store.showViewer workspaceId content name).2.WellFormed := by
  simp only [Store.showViewer]
  split
  · exact wellFormed
  next path shown =>
  have shows : content = .diff path ∨ content = .file path := by
    cases content <;> simp_all
  split
  · exact wellFormed
  next invalid =>
  have viewer : content.Viewer path := ⟨shows, by simpa using invalid⟩
  split
  · exact wellFormed
  next workspaceIx found =>
  rcases Lists.findIdx?_getElem? found with ⟨workspace, workspaceAt, -⟩
  simp only [workspaceAt]
  split
  · next tabIx tabFound =>
      rcases Lists.findIdx?_getElem? tabFound with ⟨tab, tabAt, same⟩
      rcases TabContent.sameViewerKind_kinds same with ⟨isDiff, isFile⟩
      have none : Tab.paneIds { tab with content } = [] := viewer.paneIds rfl
      refine ⟨wellFormed.session.modifyTab le_rfl workspaceAt tabAt ?_ ?_, wellFormed.positive,
        wellFormed.counter⟩
      · exact ⟨rfl, isDiff, isFile, viewer.valid _, viewer.fits, by rw [none]; simp,
          by rw [none]; simp⟩
      · rw [none]
        have := wellFormed.session.paneLimit
        simp only [List.length_nil]
        omega
  · next absent =>
      have lacks : ∀ tab ∈ workspace.tabs, tab.content.sameViewerKind content = false := by
        intro tab contained
        simpa using (List.findIdx?_eq_none_iff.mp absent) tab contained
      split
      · exact wellFormed
      next full =>
      split
      · exact wellFormed
      next first later reserved =>
      rcases reserveIds_eq_some reserved with ⟨counter, rfl, rfl⟩
      have none : Tab.paneIds { id := ⟨store.nextId⟩, name, content } = [] := viewer.paneIds rfl
      refine ⟨wellFormed.session.appendTab (Nat.le_succ _) workspaceAt le_rfl
        ⟨⟨wellFormed.positive, Nat.lt_succ_self _⟩, viewer.valid _⟩ viewer.fits ?_ ?_
        (by rw [none]; simp) (by rw [none]; simp) (not_le.mp full) ?_, Nat.succ_pos _, counter⟩
      · intro isDiff tab contained
        have := lacks tab contained
        rw [← Bool.not_eq_true, viewer.sameViewerKind] at this
        simpa using fun shown => this (Or.inl ⟨isDiff, shown⟩)
      · intro isFile tab contained
        have := lacks tab contained
        rw [← Bool.not_eq_true, viewer.sameViewerKind] at this
        simpa using fun shown => this (Or.inr ⟨isFile, shown⟩)
      · rw [none]
        exact wellFormed.session.paneLimit

/-! ## Changing every Tab of a Workspace -/

/-- A change of Tabs that keeps their ids, kinds and Panes. -/
structure Tab.Keeps (bound : ℕ) (tab next : Tab) : Prop where
  id : next.id = tab.id
  isDiff : next.content.isDiff = tab.content.isDiff
  isFile : next.content.isFile = tab.content.isFile
  content : next.content.Valid bound
  fits : next.content.Fits
  paneIds : next.paneIds = tab.paneIds

/-- A change of Workspaces that keeps their ids and those of what they hold. -/
structure Workspace.Keeps (bound : ℕ) (workspace next : Workspace) : Prop where
  id : next.id = workspace.id
  valid : next.Valid bound
  fits : ∀ tab ∈ next.tabs, tab.content.Fits
  tabIds : next.tabIds = workspace.tabIds
  paneIds : next.paneIds = workspace.paneIds

theorem Workspace.Keeps.mapTabs {bound : ℕ} {workspace : Workspace}
    (valid : workspace.Valid bound) {change : Tab → Tab}
    (keeps : ∀ tab ∈ workspace.tabs, tab.Keeps bound (change tab)) :
    workspace.Keeps bound { workspace with tabs := workspace.tabs.map change } := by
  have count : ∀ kind : TabContent → Bool,
      (∀ tab ∈ workspace.tabs, kind (change tab).content = kind tab.content) →
      (workspace.tabs.map change).countP (kind ·.content) =
        workspace.tabs.countP (kind ·.content) := by
    intro kind same
    rw [List.countP_map]
    exact List.countP_congr fun tab contained => by simp [same tab contained]
  refine ⟨rfl, ?_, ?_, ?_, ?_⟩
  · refine valid.withTabs le_rfl (by simpa using valid.nonempty) ?_ ?_ ?_
    · intro next contained
      rcases List.mem_map.mp contained with ⟨tab, tabMem, rfl⟩
      have keeps := keeps tab tabMem
      exact ⟨keeps.id ▸ (valid.tabsValid tab tabMem).idWithin, keeps.content⟩
    · rw [count _ fun tab contained => (keeps tab contained).isDiff]
      exact valid.oneDiff
    · rw [count _ fun tab contained => (keeps tab contained).isFile]
      exact valid.oneFile
  · intro next contained
    rcases List.mem_map.mp contained with ⟨tab, tabMem, rfl⟩
    exact (keeps tab tabMem).fits
  · simp only [Workspace.tabIds, List.map_map]
    exact List.map_congr_left fun tab contained => (keeps tab contained).id
  · simp only [Workspace.paneIds, List.flatMap_map]
    exact List.flatMap_congr fun tab contained => (keeps tab contained).paneIds

namespace Session.WellFormed

variable {nextId : ℕ} {session : Session}

/-- Changes everywhere that keep the ids keep the invariant. -/
theorem mapWorkspaces (wellFormed : session.WellFormed nextId) {change : Workspace → Workspace}
    (keeps : ∀ workspace ∈ session.workspaces, workspace.Keeps nextId (change workspace)) :
    Session.WellFormed nextId ⟨session.workspaces.map change⟩ := by
  have workspaceIds : Session.workspaceIds ⟨session.workspaces.map change⟩ =
      session.workspaceIds := by
    simp only [Session.workspaceIds, List.map_map]
    exact List.map_congr_left fun workspace contained => (keeps workspace contained).id
  have tabIds : Session.tabIds ⟨session.workspaces.map change⟩ = session.tabIds := by
    simp only [Session.tabIds_eq, List.flatMap_map]
    exact List.flatMap_congr fun workspace contained => (keeps workspace contained).tabIds
  have paneIds : Session.paneIds ⟨session.workspaces.map change⟩ = session.paneIds := by
    simp only [Session.paneIds_eq_flatMap, List.flatMap_map]
    exact List.flatMap_congr fun workspace contained => (keeps workspace contained).paneIds
  refine ⟨⟨workspaceIds ▸ wellFormed.workspaceIdsNodup, tabIds ▸ wellFormed.tabIdsNodup,
    paneIds ▸ wellFormed.paneIdsNodup, ?_⟩, ?_, ?_, ?_, ?_⟩
  · intro next contained
    rcases List.mem_map.mp contained with ⟨workspace, workspaceMem, rfl⟩
    exact (keeps workspace workspaceMem).valid
  · intro tab contained
    rcases List.mem_flatMap.mp contained with ⟨next, nextMem, tabMem⟩
    rcases List.mem_map.mp nextMem with ⟨workspace, workspaceMem, rfl⟩
    exact (keeps workspace workspaceMem).fits tab tabMem
  · simpa using wellFormed.workspaceLimit
  · rw [Session.tabCount_eq, tabIds, ← Session.tabCount_eq]
    exact wellFormed.tabLimit
  · rw [Session.paneCount_eq, paneIds, ← Session.paneCount_eq]
    exact wellFormed.paneLimit

theorem tab_keeps_self (wellFormed : session.WellFormed nextId) {workspace : Workspace} {tab : Tab}
    (workspaceMem : workspace ∈ session.workspaces) (tabMem : tab ∈ workspace.tabs) :
    tab.Keeps nextId tab where
  id := rfl
  isDiff := rfl
  isFile := rfl
  content := ((wellFormed.workspacesValid workspace workspaceMem).tabsValid tab tabMem).content
  fits := wellFormed.workspaceFits workspaceMem tab tabMem
  paneIds := rfl

theorem keeps_self (wellFormed : session.WellFormed nextId) {workspace : Workspace}
    (workspaceMem : workspace ∈ session.workspaces) : workspace.Keeps nextId workspace where
  id := rfl
  valid := wellFormed.workspacesValid workspace workspaceMem
  fits := wellFormed.workspaceFits workspaceMem
  tabIds := rfl
  paneIds := rfl

/-- A file that is renamed takes the Preview Tab with it, to a path that the caller checked. -/
theorem followRename (wellFormed : session.WellFormed nextId) (workspaceId : WorkspaceId)
    (source : RelativePathBuf) {target : RelativePathBuf}
    (targetValid : validDiffPath target = true) :
    (session.followRename workspaceId source target).2.WellFormed nextId := by
  simp only [Session.followRename]
  split
  · exact wellFormed
  next workspaceIx found =>
  rcases Lists.findIdx?_getElem? found with ⟨workspace, workspaceAt, -⟩
  have workspaceMem := List.mem_of_getElem? workspaceAt
  have keeps : workspace.Keeps nextId
      { workspace with tabs := workspace.tabs.map (·.followRename source target) } := by
    refine Workspace.Keeps.mapTabs (wellFormed.workspacesValid workspace workspaceMem) ?_
    intro tab tabMem
    have same := wellFormed.tab_keeps_self workspaceMem tabMem
    unfold Tab.followRename
    split
    · next path content =>
        split
        · next renamed renamedEq =>
            have pathValid : validDiffPath path = true := by
              have := same.content
              rwa [content] at this
            have renamedValid : validDiffPath renamed = true := by
              rcases Option.map_eq_some_iff.mp renamedEq with ⟨rest, stripped, rfl⟩
              split_ifs
              · exact targetValid
              · exact validDiffPath_join targetValid pathValid stripped
            refine ⟨rfl, by simp [content, TabContent.isDiff], by simp [content, TabContent.isFile],
              renamedValid, trivial, ?_⟩
            simp [Tab.paneIds, Tab.panes, Tab.terminals, content]
        · exact same
    · exact same
  have limits := wellFormed.tabLimit
  have paneLimits := wellFormed.paneLimit
  refine wellFormed.modifyWorkspace le_rfl workspaceAt
    ⟨keeps.id, keeps.valid, keeps.fits, ?_, ?_, ?_, ?_⟩ ?_ ?_
  · rw [keeps.tabIds]
    exact wellFormed.workspaceTabIdsNodup workspaceMem
  · rw [keeps.tabIds]
    exact fun id contained => Or.inl contained
  · rw [keeps.paneIds]
    exact wellFormed.workspacePaneIdsNodup workspaceMem
  · rw [keeps.paneIds]
    exact fun id contained => Or.inl contained
  · simp only [List.length_map]
    omega
  · rw [keeps.paneIds]
    omega

/-! ## Focus kept over a split -/

end Session.WellFormed

/-- Every Tab that was there before kept its Panes. -/
def Session.KeepsPanes (previous session : Session) : Prop :=
  ∀ workspace ∈ session.workspaces, ∀ old, previous.workspace workspace.id = some old →
    ∀ tab ∈ workspace.tabs, ∀ oldTab, old.tabs.find? (·.id = tab.id) = some oldTab →
      ∀ terminals oldTerminals, tab.content = .terminals terminals →
        oldTab.content = .terminals oldTerminals → oldTerminals.paneIds ⊆ terminals.paneIds

namespace Session.WellFormed

variable {nextId : ℕ} {session : Session}

/-- Ids are distinct, so what the lookups find is what stood in the same place before. -/
theorem keepsPanes (wellFormed : session.WellFormed nextId) {next : Session}
    (same : ∀ workspace ∈ next.workspaces, ∃ old ∈ session.workspaces, old.id = workspace.id ∧
      ∀ tab ∈ workspace.tabs, ∃ oldTab ∈ old.tabs, oldTab.id = tab.id ∧
        oldTab.paneIds ⊆ tab.paneIds) : session.KeepsPanes next := by
  intro workspace workspaceMem found foundEq tab tabMem foundTab foundTabEq terminals oldTerminals
    content oldContent
  rcases same workspace workspaceMem with ⟨old, oldMem, oldId, tabs⟩
  rcases tabs tab tabMem with ⟨oldTab, oldTabMem, oldTabId, subset⟩
  have foundId : found.id = workspace.id := by simpa using List.find?_some foundEq
  obtain rfl : found = old := List.inj_on_of_nodup_map wellFormed.workspaceIdsNodup
    (List.mem_of_find?_eq_some foundEq) oldMem (foundId.trans oldId.symm)
  have foundTabId : foundTab.id = tab.id := by simpa using List.find?_some foundTabEq
  obtain rfl : foundTab = oldTab :=
    List.inj_on_of_nodup_map (wellFormed.workspaceTabIdsNodup oldMem)
      (List.mem_of_find?_eq_some foundTabEq) oldTabMem (foundTabId.trans oldTabId.symm)
  rwa [Tab.paneIds_terminals content, Tab.paneIds_terminals oldContent] at subset

theorem keepsPanes_self (wellFormed : session.WellFormed nextId) : session.KeepsPanes session :=
  wellFormed.keepsPanes fun workspace workspaceMem =>
    ⟨workspace, workspaceMem, rfl, fun tab tabMem => ⟨tab, tabMem, rfl, List.Subset.refl _⟩⟩

theorem keepsPanes_setTerminals (wellFormed : session.WellFormed nextId)
    {workspaceIx tabIx : ℕ} {old new : TerminalLayout}
    (found : session.terminalLayout workspaceIx tabIx = some old)
    (subset : old.paneIds ⊆ new.paneIds) :
    session.KeepsPanes (session.setTerminals workspaceIx tabIx new) := by
  rcases Session.terminalLayout_eq_some found with ⟨workspace, tab, workspaceAt, tabAt, content⟩
  rcases Lists.exists_segments workspaceAt with ⟨front, back, split, -, modified, -⟩
  rcases Lists.exists_segments tabAt with ⟨left, right, tabSplit, -, tabModified, -⟩
  have self : ∀ other ∈ session.workspaces, ∃ old ∈ session.workspaces, old.id = other.id ∧
      ∀ tab ∈ other.tabs, ∃ oldTab ∈ old.tabs, oldTab.id = tab.id ∧
        oldTab.paneIds ⊆ tab.paneIds :=
    fun other otherMem =>
      ⟨other, otherMem, rfl, fun tab tabMem => ⟨tab, tabMem, rfl, List.Subset.refl _⟩⟩
  refine wellFormed.keepsPanes fun other otherMem => ?_
  simp only [Session.setTerminals, Session.modifyTab, Session.modifyWorkspace, modified,
    tabModified] at otherMem
  rcases List.mem_append.mp otherMem with inFront | later
  · exact self other (by simp [split, inFront])
  rcases List.mem_cons.mp later with rfl | inBack
  · refine ⟨workspace, List.mem_of_getElem? workspaceAt, rfl, fun next nextMem => ?_⟩
    rcases List.mem_append.mp nextMem with inLeft | later
    · exact ⟨next, by simp [tabSplit, inLeft], rfl, List.Subset.refl _⟩
    rcases List.mem_cons.mp later with rfl | inRight
    · refine ⟨tab, List.mem_of_getElem? tabAt, rfl, ?_⟩
      rw [Tab.paneIds_terminals content, Tab.paneIds_terminals rfl]
      exact subset
    · exact ⟨next, by simp [tabSplit, inRight], rfl, List.Subset.refl _⟩
  · exact self other (by simp [split, inBack])

theorem preserveFocusFrom {earlier : ℕ} {previous : Session}
    (wellFormed : session.WellFormed nextId) (before : previous.WellFormed earlier)
    (keepsPanes : previous.KeepsPanes session) :
    (session.preserveFocusFrom previous).WellFormed nextId := by
  refine wellFormed.mapWorkspaces fun workspace workspaceMem => ?_
  split
  · exact wellFormed.keeps_self workspaceMem
  next old oldFound =>
  refine Workspace.Keeps.mapTabs (wellFormed.workspacesValid workspace workspaceMem) ?_
  intro tab tabMem
  have same := wellFormed.tab_keeps_self workspaceMem tabMem
  unfold Tab.keepFocus
  split
  · next terminals oldTerminals content found =>
      rcases Option.bind_eq_some_iff.mp found with ⟨oldTab, oldTabFound, shown⟩
      have oldContent := Tab.terminals_eq_some.mp shown
      have subset := keepsPanes workspace workspaceMem old oldFound tab tabMem oldTab oldTabFound
        terminals oldTerminals content oldContent
      have oldMem : old ∈ previous.workspaces := List.mem_of_find?_eq_some oldFound
      have oldTabMem : oldTab ∈ old.tabs := List.mem_of_find?_eq_some oldTabFound
      have oldSame := before.tab_keeps_self oldMem oldTabMem
      have oldValid := oldSame.content
      have oldFits := oldSame.fits
      have valid := same.content
      have fits := same.fits
      rw [oldContent] at oldValid oldFits
      rw [content] at valid fits
      refine ⟨rfl, by rw [content]; rfl, by rw [content]; rfl, ?_, ?_, ?_⟩
      · exact { valid with
          focusedMem := subset oldValid.focusedMem
          historyNodup := oldValid.historyNodup
          historyMem := fun id contained =>
            ⟨subset (oldValid.historyMem id contained).1, (oldValid.historyMem id contained).2⟩ }
      · exact { fits with zoomedMem := fun id zoomed => subset (oldFits.zoomedMem id zoomed) }
      · simp [Tab.paneIds, Tab.panes, Tab.terminals, content]
  · exact same

/-! ## Labels and order -/

theorem withWorkspace (wellFormed : session.WellFormed nextId) (workspaceId : WorkspaceId)
    {change : Workspace → Workspace}
    (relabels : ∀ workspace : Workspace, workspace.id = workspaceId → workspace.Valid nextId →
      (change workspace).id = workspace.id ∧ (change workspace).tabs = workspace.tabs ∧
        (change workspace).Valid nextId) :
    (session.withWorkspace workspaceId change).2.WellFormed nextId := by
  unfold Session.withWorkspace
  split
  · exact wellFormed
  next workspaceIx found =>
  rcases Lists.findIdx?_getElem? found with ⟨workspace, workspaceAt, same⟩
  obtain ⟨id, tabs, valid⟩ := relabels workspace (of_decide_eq_true same)
    (wellFormed.workspacesValid workspace (List.mem_of_getElem? workspaceAt))
  exact wellFormed.relabel workspaceAt id tabs valid

theorem renameWorkspace (wellFormed : session.WellFormed nextId) (workspaceId : WorkspaceId)
    (name : String) : (session.renameWorkspace workspaceId name).2.WellFormed nextId := by
  unfold Session.renameWorkspace
  split_ifs with blank
  · exact wellFormed
  · exact wellFormed.withWorkspace workspaceId fun workspace _ valid =>
      ⟨rfl, rfl, { valid with named := by simpa using blank }⟩

theorem associateWorktree (wellFormed : session.WellFormed nextId) (workspaceId : WorkspaceId)
    {association : WorktreeAssociation}
    (parentWithin : idWithin nextId association.parentWorkspaceId.asU64) :
    (session.associateWorktree workspaceId association).2.WellFormed nextId := by
  unfold Session.associateWorktree
  split_ifs with refused
  · exact wellFormed
  · simp only [Bool.or_eq_true, decide_eq_true_eq, not_or, Bool.not_eq_true] at refused
    refine wellFormed.withWorkspace workspaceId fun workspace same valid =>
      ⟨rfl, rfl, { valid with worktreeValid := ?_ }⟩
    intro found associated
    rcases Option.some.inj associated with rfl
    exact ⟨parentWithin, fun parent => refused.1 (same.symm.trans parent.symm), refused.2⟩

theorem clearWorktreeAssociation (wellFormed : session.WellFormed nextId)
    (workspaceId : WorkspaceId) :
    (session.clearWorktreeAssociation workspaceId).2.WellFormed nextId :=
  wellFormed.withWorkspace workspaceId fun _ _ valid =>
    ⟨rfl, rfl, { valid with worktreeValid := by simp }⟩

theorem renameTab (wellFormed : session.WellFormed nextId) (tabId : TabId) (name : String) :
    (session.renameTab tabId name).2.WellFormed nextId := by
  unfold Session.renameTab Session.withTab
  split_ifs
  · exact wellFormed
  split
  · exact wellFormed
  next workspaceIx found =>
  rcases Lists.findIdx?_getElem? found with ⟨workspace, workspaceAt, -⟩
  have workspaceMem := List.mem_of_getElem? workspaceAt
  rcases tabFound : workspace.tabs.findIdx? (·.id = tabId) with _ | tabIx
  · exact wellFormed.relabel workspaceAt rfl (by simp only [tabFound])
      (by simpa only [tabFound] using wellFormed.workspacesValid workspace workspaceMem)
  · rcases Lists.findIdx?_getElem? tabFound with ⟨tab, tabAt, -⟩
    have same := wellFormed.tab_keeps_self workspaceMem (List.mem_of_getElem? tabAt)
    have renamed := @modifyTab _ _ _ wellFormed le_rfl _ _ _ _ (fun tab => { tab with name := trim name })
      workspaceAt tabAt ⟨rfl, rfl, rfl, same.content, same.fits, ?_, ?_⟩ ?_
    · refine cast ?_ renamed
      congr 1
      rcases Lists.exists_segments workspaceAt with ⟨front, back, -, -, modified, -⟩
      simp only [Session.modifyTab, Session.modifyWorkspace, modified, tabFound]
    · exact (List.nodup_flatMap.mp (wellFormed.workspacePaneIdsNodup workspaceMem)).1 tab
        (List.mem_of_getElem? tabAt)
    · exact fun id contained => Or.inl contained
    · have := wellFormed.paneLimit
      change session.paneCount + tab.paneIds.length ≤ _
      omega

theorem closeWorkspace (wellFormed : session.WellFormed nextId) {workspaceId : WorkspaceId}
    {outcome : CloseOutcome} {next : Session}
    (closed : session.closeWorkspace workspaceId = some (outcome, next)) :
    next.WellFormed nextId := by
  simp only [Session.closeWorkspace, Option.bind_eq_bind, Option.bind_eq_some_iff,
    Option.some.injEq, Prod.mk.injEq] at closed
  rcases closed with ⟨workspaceIx, -, workspace, -, -, rfl⟩
  exact wellFormed.sublist (List.eraseIdx_sublist ..)

theorem closeTab (wellFormed : session.WellFormed nextId) {tabId : TabId} {outcome : CloseOutcome}
    {next : Session} (closed : session.closeTab tabId = some (outcome, next)) :
    next.WellFormed nextId := by
  simp only [Session.closeTab, Option.bind_eq_bind, Option.bind_eq_some_iff] at closed
  rcases closed with ⟨workspaceIx, -, workspace, workspaceAt, tabIx, tabFound, closed⟩
  rcases Lists.findIdx?_getElem? tabFound with ⟨tab, tabAt, -⟩
  split_ifs at closed with last
  · exact wellFormed.closeWorkspace closed
  · simp only [tabAt, Option.bind_some, Option.some.injEq, Prod.mk.injEq] at closed
    rcases closed with ⟨-, rfl⟩
    refine wellFormed.withFewerTabs workspaceAt rfl (List.eraseIdx_sublist ..)
      (List.Perm.refl _) ?_
    intro nothing
    have length := congrArg List.length nothing
    have inBounds := (List.getElem?_eq_some_iff.mp tabAt).1
    rw [List.length_eraseIdx_of_lt inBounds, List.length_nil] at length
    omega

theorem moveElement_perm {α : Type} (list : List α) (source : ℕ) {target : ℕ}
    (inBounds : target < list.length) : (moveElement list source target).Perm list := by
  unfold moveElement
  split
  · exact List.Perm.refl _
  · next element found =>
      rcases List.getElem?_eq_some_iff.mp found with ⟨sourceIn, rfl⟩
      refine (List.perm_insertIdx _ _ ?_).trans (List.getElem_cons_eraseIdx_perm sourceIn)
      rw [List.length_eraseIdx_of_lt sourceIn]
      omega

theorem moveWorkspace (wellFormed : session.WellFormed nextId) (workspaceId : WorkspaceId)
    (targetIx : ℕ) : (session.moveWorkspace workspaceId targetIx).2.WellFormed nextId := by
  unfold Session.moveWorkspace
  split
  · exact wellFormed
  · split_ifs with refused
    · exact wellFormed
    · simp only [Bool.or_eq_true, decide_eq_true_eq, not_or, not_le] at refused
      exact wellFormed.perm (moveElement_perm _ _ refused.1)

theorem moveTab (wellFormed : session.WellFormed nextId) (tabId : TabId) (targetIx : ℕ) :
    (session.moveTab tabId targetIx).2.WellFormed nextId := by
  unfold Session.moveTab
  split
  · exact wellFormed
  next workspaceIx found =>
  rcases Lists.findIdx?_getElem? found with ⟨workspace, workspaceAt, -⟩
  simp only [workspaceAt]
  split
  · exact wellFormed
  split_ifs with refused
  · exact wellFormed
  simp only [Bool.or_eq_true, decide_eq_true_eq, not_or, not_le] at refused
  have reordered := moveElement_perm workspace.tabs ‹ℕ› refused.1
  refine wellFormed.withFewerTabs workspaceAt rfl (List.Sublist.refl _) reordered ?_
  intro nothing
  have length := reordered.length_eq
  rw [nothing, List.length_nil] at length
  omega

end Session.WellFormed

end Condr
