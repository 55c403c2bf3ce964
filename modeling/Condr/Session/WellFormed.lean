import Condr.Session.Basic
import Mathlib.Data.List.Flatten

/-!
# Well-formed Sessions

What `validate` checks of a Session, and the limits that hold besides. Every
operation changes one Workspace, or the list of them, so the invariant is kept
through one lemma about replacing a Workspace and a few about the list.
-/

namespace Condr

/-- An id that has been handed out: positive and below the counter. -/
def idWithin (bound id : ℕ) : Prop :=
  0 < id ∧ id < bound

theorem idWithin.mono {bound larger id : ℕ} (le : bound ≤ larger) (within : idWithin bound id) :
    idWithin larger id :=
  ⟨within.1, within.2.trans_le le⟩

/-- What `validate` checks of a terminal Tab. -/
structure TerminalLayout.Valid (bound : ℕ) (terminals : TerminalLayout) : Prop where
  nonempty : terminals.panes ≠ []
  idsWithin : ∀ id ∈ terminals.paneIds, idWithin bound id.asU64
  resumesValid : ∀ pane ∈ terminals.panes, validResume pane.agentResume = true
  idsNodup : terminals.paneIds.Nodup
  focusedMem : terminals.focusedPane ∈ terminals.paneIds
  historyNodup : terminals.focusHistory.Nodup
  historyMem : ∀ id ∈ terminals.focusHistory,
    id ∈ terminals.paneIds ∧ id ≠ terminals.focusedPane
  leavesPerm : terminals.layout.leaves.Perm terminals.paneIds
  ratiosInRange : ∀ ratio ∈ terminals.layout.ratios, ratioInRange ratio = true

/-- What else holds of a terminal Tab: the depth limit, and a zoom on a Pane of its own. -/
structure TerminalLayout.Fits (terminals : TerminalLayout) : Prop where
  depth : terminals.layout.depth ≤ maxSnapshotLayoutDepth
  zoomedMem : ∀ id, terminals.zoomedPane = some id → id ∈ terminals.paneIds

namespace TabContent

def Valid (bound : ℕ) : TabContent → Prop
  | .terminals layout => layout.Valid bound
  | diff path => validDiffPath path = true
  | file path => validDiffPath path = true

def Fits : TabContent → Prop
  | .terminals layout => layout.Fits
  | _ => True

end TabContent

structure Tab.Valid (bound : ℕ) (tab : Tab) : Prop where
  idWithin : idWithin bound tab.id.asU64
  content : tab.content.Valid bound

structure WorktreeAssociation.Valid (bound : ℕ) (workspaceId : WorkspaceId)
    (association : WorktreeAssociation) : Prop where
  parentWithin : idWithin bound association.parentWorkspaceId.asU64
  parentDiffers : association.parentWorkspaceId ≠ workspaceId
  rootNonempty : association.parentRootDirectory.isEmpty = false

def Workspace.diffTabs (workspace : Workspace) : ℕ :=
  workspace.tabs.countP (·.content.isDiff)

def Workspace.fileTabs (workspace : Workspace) : ℕ :=
  workspace.tabs.countP (·.content.isFile)

structure Workspace.Valid (bound : ℕ) (workspace : Workspace) : Prop where
  idWithin : idWithin bound workspace.id.asU64
  named : workspace.name.isEmpty = false
  nonempty : workspace.tabs ≠ []
  worktreeValid : ∀ association, workspace.worktree = some association →
    association.Valid bound workspace.id
  tabsValid : ∀ tab ∈ workspace.tabs, tab.Valid bound
  oneDiff : workspace.diffTabs ≤ 1
  oneFile : workspace.fileTabs ≤ 1

/-- What `validate` checks, with the ids below a bound. -/
structure Session.Valid (bound : ℕ) (session : Session) : Prop where
  workspaceIdsNodup : session.workspaceIds.Nodup
  tabIdsNodup : session.tabIds.Nodup
  paneIdsNodup : session.paneIds.Nodup
  workspacesValid : ∀ workspace ∈ session.workspaces, workspace.Valid bound

/-- The invariant of a Session whose ids come from a counter that stands at `nextId`. -/
structure Session.WellFormed (nextId : ℕ) (session : Session) : Prop extends
    Session.Valid nextId session where
  tabsFit : ∀ tab ∈ session.tabs, tab.content.Fits
  workspaceLimit : session.workspaces.length ≤ maxSnapshotWorkspaces
  tabLimit : session.tabCount ≤ maxSnapshotTabs
  paneLimit : session.paneCount ≤ maxSnapshotPanes

structure Store.WellFormed (store : Store) : Prop where
  session : store.session.WellFormed store.nextId
  positive : 0 < store.nextId
  counter : store.nextId ≤ maxNextStableIdExclusive

namespace TerminalLayout.Valid

variable {bound : ℕ} {terminals : TerminalLayout} (valid : terminals.Valid bound)
include valid

theorem mem_leaves {id : PaneId} : id ∈ terminals.layout.leaves ↔ id ∈ terminals.paneIds :=
  valid.leavesPerm.mem_iff

theorem leavesNodup : terminals.layout.leaves.Nodup :=
  valid.leavesPerm.nodup_iff.mpr valid.idsNodup

end TerminalLayout.Valid

/-! ## The ids of a Session -/

/-- The ids `validate` reads of a Tab, in its order. -/
def Tab.stableIds (tab : Tab) : List ℕ :=
  tab.id.asU64 :: tab.paneIds.map (·.asU64)

def Workspace.stableIds (workspace : Workspace) : List ℕ :=
  workspace.id.asU64 :: (workspace.worktree.toList.map (·.parentWorkspaceId.asU64) ++
    workspace.tabs.flatMap Tab.stableIds)

def Session.stableIds (session : Session) : List ℕ :=
  session.workspaces.flatMap Workspace.stableIds

theorem TabContent.Valid.within {bound : ℕ} {tab : Tab} (valid : tab.content.Valid bound)
    {id : PaneId} (contained : id ∈ tab.paneIds) : idWithin bound id.asU64 := by
  rcases shown : tab.content with terminals | path | path
  · rw [shown] at valid
    rw [Tab.paneIds_terminals shown] at contained
    exact valid.idsWithin id contained
  all_goals simp [Tab.paneIds, Tab.panes, Tab.terminals, shown] at contained

theorem TabContent.Valid.paneIdsNodup {bound : ℕ} {tab : Tab}
    (valid : tab.content.Valid bound) : tab.paneIds.Nodup := by
  rcases shown : tab.content with terminals | path | path
  · rw [shown] at valid
    rw [Tab.paneIds_terminals shown]
    exact valid.idsNodup
  all_goals simp [Tab.paneIds, Tab.panes, Tab.terminals, shown]

theorem Tab.Valid.within {bound : ℕ} {tab : Tab} (valid : tab.Valid bound) :
    ∀ id ∈ tab.stableIds, Condr.idWithin bound id := by
  simp only [stableIds, List.mem_cons, List.mem_map, forall_eq_or_imp, forall_exists_index,
    and_imp, forall_apply_eq_imp_iff₂]
  exact ⟨valid.idWithin, fun id contained => valid.content.within contained⟩

theorem Workspace.Valid.within {bound : ℕ} {workspace : Workspace}
    (valid : workspace.Valid bound) : ∀ id ∈ workspace.stableIds, Condr.idWithin bound id := by
  intro id contained
  simp only [stableIds, List.mem_cons, List.mem_append, List.mem_map, Option.mem_toList,
    List.mem_flatMap] at contained
  rcases contained with rfl | ⟨association, found, rfl⟩ | ⟨tab, tabMem, idMem⟩
  · exact valid.idWithin
  · exact (valid.worktreeValid association found).parentWithin
  · exact (valid.tabsValid tab tabMem).within id idMem

theorem Session.Valid.within {bound : ℕ} {session : Session} (valid : session.Valid bound) :
    ∀ id ∈ session.stableIds, Condr.idWithin bound id := by
  intro id contained
  rcases List.mem_flatMap.mp contained with ⟨workspace, workspaceMem, idMem⟩
  exact (valid.workspacesValid workspace workspaceMem).within id idMem

/-! ## Another bound for the same ids -/

section Rebound

variable {bound other : ℕ}

theorem Tab.Valid.rebound {tab : Tab} (valid : tab.Valid bound)
    (within : ∀ id ∈ tab.stableIds, Condr.idWithin other id) : tab.Valid other := by
  refine ⟨within _ (List.mem_cons_self ..), ?_⟩
  have content := valid.content
  rcases shown : tab.content with terminals | path | path
  · rw [shown] at content
    refine { content with idsWithin := fun id contained => within _ (List.mem_cons_of_mem _ ?_) }
    rw [Tab.paneIds_terminals shown]
    exact List.mem_map_of_mem contained
  · rwa [shown] at content
  · rwa [shown] at content

theorem Workspace.Valid.rebound {workspace : Workspace} (valid : workspace.Valid bound)
    (within : ∀ id ∈ workspace.stableIds, Condr.idWithin other id) : workspace.Valid other := by
  refine { valid with
    idWithin := within _ (List.mem_cons_self ..)
    worktreeValid := ?_
    tabsValid := ?_ }
  · intro association found
    refine { valid.worktreeValid association found with parentWithin := within _ ?_ }
    simp [stableIds, found]
  · intro tab tabMem
    refine (valid.tabsValid tab tabMem).rebound fun id idMem => within id ?_
    simp only [stableIds, List.mem_cons, List.mem_append, List.mem_flatMap]
    exact Or.inr (Or.inr ⟨tab, tabMem, idMem⟩)

theorem Session.Valid.rebound {session : Session} (valid : session.Valid bound)
    (within : ∀ id ∈ session.stableIds, Condr.idWithin other id) : session.Valid other := by
  refine { valid with workspacesValid := fun workspace workspaceMem => ?_ }
  refine (valid.workspacesValid workspace workspaceMem).rebound fun id idMem => within id ?_
  exact List.mem_flatMap.mpr ⟨workspace, workspaceMem, idMem⟩

variable (le : bound ≤ other)
include le

theorem Tab.Valid.mono {tab : Tab} (valid : tab.Valid bound) : tab.Valid other :=
  valid.rebound fun id contained => (valid.within id contained).mono le

theorem Workspace.Valid.mono {workspace : Workspace} (valid : workspace.Valid bound) :
    workspace.Valid other :=
  valid.rebound fun id contained => (valid.within id contained).mono le

theorem Session.Valid.mono {session : Session} (valid : session.Valid bound) :
    session.Valid other :=
  valid.rebound fun id contained => (valid.within id contained).mono le

theorem Session.WellFormed.mono {session : Session} (wellFormed : session.WellFormed bound) :
    session.WellFormed other :=
  { wellFormed with toValid := wellFormed.toValid.mono le }

end Rebound

/-! ## Ids of the tables -/

theorem Workspace.paneIds_mem {workspace : Workspace} {tab : Tab} {id : PaneId}
    (contained : tab ∈ workspace.tabs) (idMem : id ∈ tab.paneIds) : id ∈ workspace.paneIds :=
  List.mem_flatMap.mpr ⟨tab, contained, idMem⟩

theorem Session.tabs_mem {session : Session} {workspace : Workspace} {tab : Tab}
    (contained : workspace ∈ session.workspaces) (tabMem : tab ∈ workspace.tabs) :
    tab ∈ session.tabs :=
  List.mem_flatMap.mpr ⟨workspace, contained, tabMem⟩

theorem Session.tabIds_eq (session : Session) :
    session.tabIds = session.workspaces.flatMap Workspace.tabIds := by
  simp only [tabIds, tabs, List.map_flatMap]
  rfl

theorem Session.paneIds_eq_flatMap (session : Session) :
    session.paneIds = session.workspaces.flatMap Workspace.paneIds := by
  simp only [paneIds, tabs, List.flatMap_assoc]
  rfl

namespace Session.Valid

variable {bound : ℕ} {session : Session}

theorem tabValid (valid : session.Valid bound) {tab : Tab} (contained : tab ∈ session.tabs) :
    tab.Valid bound := by
  rcases List.mem_flatMap.mp contained with ⟨workspace, workspaceMem, tabMem⟩
  exact (valid.workspacesValid workspace workspaceMem).tabsValid tab tabMem

theorem workspaceIdsWithin (valid : session.Valid bound) {id : WorkspaceId}
    (contained : id ∈ session.workspaceIds) : idWithin bound id.asU64 := by
  rcases List.mem_map.mp contained with ⟨workspace, workspaceMem, rfl⟩
  exact (valid.workspacesValid workspace workspaceMem).idWithin

theorem tabIdsWithin (valid : session.Valid bound) {id : TabId}
    (contained : id ∈ session.tabIds) : idWithin bound id.asU64 := by
  rcases List.mem_map.mp contained with ⟨tab, tabMem, rfl⟩
  exact (valid.tabValid tabMem).idWithin

theorem paneIdsWithin (valid : session.Valid bound) {id : PaneId}
    (contained : id ∈ session.paneIds) : idWithin bound id.asU64 := by
  rcases List.mem_flatMap.mp contained with ⟨tab, tabMem, idMem⟩
  exact (valid.tabValid tabMem).content.within idMem

end Session.Valid

/-! ## Replacing a Workspace -/

/-- A Workspace that may stand in another's place: the ids it adds come from the counter. -/
structure Workspace.Replaces (nextId later : ℕ) (old new : Workspace) : Prop where
  id : new.id = old.id
  valid : new.Valid later
  fits : ∀ tab ∈ new.tabs, tab.content.Fits
  tabIdsNodup : new.tabIds.Nodup
  tabIdsFresh : ∀ id ∈ new.tabIds, id ∈ old.tabIds ∨ nextId ≤ id.asU64
  paneIdsNodup : new.paneIds.Nodup
  paneIdsFresh : ∀ id ∈ new.paneIds, id ∈ old.paneIds ∨ nextId ≤ id.asU64

namespace Session.WellFormed

variable {nextId later : ℕ} {session : Session}

theorem workspaceTabIdsNodup (wellFormed : session.WellFormed nextId) {workspace : Workspace}
    (contained : workspace ∈ session.workspaces) : workspace.tabIds.Nodup := by
  have all := wellFormed.tabIdsNodup
  rw [Session.tabIds_eq, List.nodup_flatMap] at all
  exact all.1 workspace contained

theorem workspacePaneIdsNodup (wellFormed : session.WellFormed nextId) {workspace : Workspace}
    (contained : workspace ∈ session.workspaces) : workspace.paneIds.Nodup := by
  have all := wellFormed.paneIdsNodup
  rw [Session.paneIds_eq_flatMap, List.nodup_flatMap] at all
  exact all.1 workspace contained

theorem workspaceFits (wellFormed : session.WellFormed nextId) {workspace : Workspace}
    (contained : workspace ∈ session.workspaces) :
    ∀ tab ∈ workspace.tabs, tab.content.Fits :=
  fun tab tabMem => wellFormed.tabsFit tab (Session.tabs_mem contained tabMem)

/-- A Workspace replaces itself. -/
theorem replaces_self (wellFormed : session.WellFormed nextId) {workspace : Workspace}
    (contained : workspace ∈ session.workspaces) : workspace.Replaces nextId nextId workspace where
  id := rfl
  valid := wellFormed.workspacesValid workspace contained
  fits := wellFormed.workspaceFits contained
  tabIdsNodup := wellFormed.workspaceTabIdsNodup contained
  tabIdsFresh _ idMem := Or.inl idMem
  paneIdsNodup := wellFormed.workspacePaneIdsNodup contained
  paneIdsFresh _ idMem := Or.inl idMem

/-- The invariant survives the replacement of one Workspace within the limits. -/
theorem replaceWorkspace (wellFormed : session.WellFormed nextId) (le : nextId ≤ later)
    {front back : List Workspace} {old new : Workspace}
    (split : session.workspaces = front ++ old :: back) (replaces : old.Replaces nextId later new)
    (tabLimit : session.tabCount + new.tabs.length ≤ maxSnapshotTabs + old.tabs.length)
    (paneLimit : session.paneCount + new.paneIds.length ≤
      maxSnapshotPanes + old.paneIds.length) :
    Session.WellFormed later ⟨front ++ new :: back⟩ := by
  have member : ∀ workspace ∈ front ++ new :: back,
      workspace = new ∨ workspace ∈ session.workspaces := by
    intro workspace contained
    rw [split]
    simp only [List.mem_append, List.mem_cons] at contained ⊢
    tauto
  have tabIds : session.tabIds = front.flatMap Workspace.tabIds ++ old.tabIds ++
      back.flatMap Workspace.tabIds := by
    simp [Session.tabIds_eq, split]
  have paneIds : session.paneIds = front.flatMap Workspace.paneIds ++ old.paneIds ++
      back.flatMap Workspace.paneIds := by
    simp [Session.paneIds_eq_flatMap, split]
  refine ⟨⟨?_, ?_, ?_, ?_⟩, ?_, ?_, ?_, ?_⟩
  · have same := wellFormed.workspaceIdsNodup
    simpa [Session.workspaceIds, split, replaces.id] using same
  · have whole := Lists.nodup_replace (tabIds ▸ wellFormed.tabIdsNodup) replaces.tabIdsNodup ?_
    · simpa [Session.tabIds_eq] using whole
    · intro id idMem
      refine (replaces.tabIdsFresh id idMem).imp_right fun fresh contained => ?_
      have := (wellFormed.tabIdsWithin (tabIds ▸ contained)).2
      omega
  · have whole := Lists.nodup_replace (paneIds ▸ wellFormed.paneIdsNodup) replaces.paneIdsNodup ?_
    · simpa [Session.paneIds_eq_flatMap] using whole
    · intro id idMem
      refine (replaces.paneIdsFresh id idMem).imp_right fun fresh contained => ?_
      have := (wellFormed.paneIdsWithin (paneIds ▸ contained)).2
      omega
  · intro workspace contained
    rcases member workspace contained with rfl | before
    · exact replaces.valid
    · exact (wellFormed.workspacesValid workspace before).mono le
  · intro tab contained
    rcases List.mem_flatMap.mp contained with ⟨workspace, workspaceMem, tabMem⟩
    rcases member workspace workspaceMem with rfl | before
    · exact replaces.fits tab tabMem
    · exact wellFormed.workspaceFits before tab tabMem
  · have := wellFormed.workspaceLimit
    simpa [split] using this
  · simp only [Session.tabCount, split, List.map_append, List.map_cons, List.sum_append,
      List.sum_cons] at tabLimit ⊢
    omega
  · rw [Session.paneCount_eq] at paneLimit ⊢
    rw [paneIds] at paneLimit
    simp only [Session.paneIds_eq_flatMap, List.flatMap_append, List.flatMap_cons,
      List.length_append] at paneLimit ⊢
    omega

/-- Closing Workspaces keeps the invariant. -/
theorem sublist (wellFormed : session.WellFormed nextId) {rest : List Workspace}
    (remains : rest.Sublist session.workspaces) : Session.WellFormed nextId ⟨rest⟩ := by
  have tabs : Session.tabs ⟨rest⟩ |>.Sublist session.tabs := remains.flatMap _
  have tabIds : (Session.tabIds ⟨rest⟩).Sublist session.tabIds := tabs.map _
  have paneIds : (Session.paneIds ⟨rest⟩).Sublist session.paneIds := tabs.flatMap _
  refine ⟨⟨?_, ?_, ?_, ?_⟩, ?_, ?_, ?_, ?_⟩
  · exact wellFormed.workspaceIdsNodup.sublist (remains.map _)
  · exact wellFormed.tabIdsNodup.sublist tabIds
  · exact wellFormed.paneIdsNodup.sublist paneIds
  · exact fun workspace contained =>
      wellFormed.workspacesValid workspace (remains.subset contained)
  · exact fun tab contained => wellFormed.tabsFit tab (tabs.subset contained)
  · exact remains.length_le.trans wellFormed.workspaceLimit
  · rw [Session.tabCount_eq]
    exact tabIds.length_le.trans (Session.tabCount_eq session ▸ wellFormed.tabLimit)
  · rw [Session.paneCount_eq]
    exact paneIds.length_le.trans (Session.paneCount_eq session ▸ wellFormed.paneLimit)

/-- Reordering Workspaces keeps the invariant. -/
theorem perm (wellFormed : session.WellFormed nextId) {others : List Workspace}
    (reordered : others.Perm session.workspaces) : Session.WellFormed nextId ⟨others⟩ := by
  have tabs : (Session.tabs ⟨others⟩).Perm session.tabs := reordered.flatMap_right _
  have tabIds : (Session.tabIds ⟨others⟩).Perm session.tabIds := tabs.map _
  have paneIds : (Session.paneIds ⟨others⟩).Perm session.paneIds := tabs.flatMap_right _
  refine ⟨⟨?_, ?_, ?_, ?_⟩, ?_, ?_, ?_, ?_⟩
  · exact (reordered.map _).nodup_iff.mpr wellFormed.workspaceIdsNodup
  · exact tabIds.nodup_iff.mpr wellFormed.tabIdsNodup
  · exact paneIds.nodup_iff.mpr wellFormed.paneIdsNodup
  · exact fun workspace contained =>
      wellFormed.workspacesValid workspace (reordered.subset contained)
  · exact fun tab contained => wellFormed.tabsFit tab (tabs.subset contained)
  · exact reordered.length_eq ▸ wellFormed.workspaceLimit
  · rw [Session.tabCount_eq, tabIds.length_eq, ← Session.tabCount_eq]
    exact wellFormed.tabLimit
  · rw [Session.paneCount_eq, paneIds.length_eq, ← Session.paneCount_eq]
    exact wellFormed.paneLimit

/-- A new Workspace with fresh ids may be added within the limits. -/
theorem append (wellFormed : session.WellFormed nextId) (le : nextId ≤ later) {added : Workspace}
    (idFresh : nextId ≤ added.id.asU64) (valid : added.Valid later)
    (fits : ∀ tab ∈ added.tabs, tab.content.Fits)
    (tabIdsNodup : added.tabIds.Nodup) (tabIdsFresh : ∀ id ∈ added.tabIds, nextId ≤ id.asU64)
    (paneIdsNodup : added.paneIds.Nodup) (paneIdsFresh : ∀ id ∈ added.paneIds, nextId ≤ id.asU64)
    (workspaceLimit : session.workspaces.length < maxSnapshotWorkspaces)
    (tabLimit : session.tabCount + added.tabs.length ≤ maxSnapshotTabs)
    (paneLimit : session.paneCount + added.paneIds.length ≤ maxSnapshotPanes) :
    Session.WellFormed later ⟨session.workspaces ++ [added]⟩ := by
  have tabIds : Session.tabIds ⟨session.workspaces ++ [added]⟩ =
      session.tabIds ++ added.tabIds := by
    simp [Session.tabIds_eq]
  have paneIds : Session.paneIds ⟨session.workspaces ++ [added]⟩ =
      session.paneIds ++ added.paneIds := by
    simp [Session.paneIds_eq_flatMap]
  refine ⟨⟨?_, ?_, ?_, ?_⟩, ?_, ?_, ?_, ?_⟩
  · have fresh : added.id ∉ session.workspaceIds := by
      intro contained
      have := (wellFormed.workspaceIdsWithin contained).2
      omega
    simp only [Session.workspaceIds, List.map_append, List.map_cons, List.map_nil]
    exact List.nodup_append'.mpr ⟨wellFormed.workspaceIdsNodup, by simp,
      by simpa [Session.workspaceIds] using fresh⟩
  · rw [tabIds]
    refine List.nodup_append'.mpr ⟨wellFormed.tabIdsNodup, tabIdsNodup, ?_⟩
    intro id before new
    have := (wellFormed.tabIdsWithin before).2
    have := tabIdsFresh id new
    omega
  · rw [paneIds]
    refine List.nodup_append'.mpr ⟨wellFormed.paneIdsNodup, paneIdsNodup, ?_⟩
    intro id before new
    have := (wellFormed.paneIdsWithin before).2
    have := paneIdsFresh id new
    omega
  · intro workspace contained
    rcases List.mem_append.mp contained with before | new
    · exact (wellFormed.workspacesValid workspace before).mono le
    · rcases List.mem_singleton.mp new with rfl
      exact valid
  · intro tab contained
    rcases List.mem_flatMap.mp contained with ⟨workspace, workspaceMem, tabMem⟩
    rcases List.mem_append.mp workspaceMem with before | new
    · exact wellFormed.workspaceFits before tab tabMem
    · rcases List.mem_singleton.mp new with rfl
      exact fits tab tabMem
  · simpa using Nat.succ_le_of_lt workspaceLimit
  · simpa [Session.tabCount] using tabLimit
  · rw [Session.paneCount_eq, paneIds, List.length_append, ← Session.paneCount_eq]
    exact paneLimit

/-! ## Changing one Workspace in place -/

/-- A Workspace changed in place, at its index. -/
theorem modifyWorkspace (wellFormed : session.WellFormed nextId) (le : nextId ≤ later)
    {workspaceIx : ℕ} {workspace : Workspace} {change : Workspace → Workspace}
    (workspaceAt : session.workspaces[workspaceIx]? = some workspace)
    (replaces : workspace.Replaces nextId later (change workspace))
    (tabLimit : session.tabCount + (change workspace).tabs.length ≤
      maxSnapshotTabs + workspace.tabs.length)
    (paneLimit : session.paneCount + (change workspace).paneIds.length ≤
      maxSnapshotPanes + workspace.paneIds.length) :
    (session.modifyWorkspace workspaceIx change).WellFormed later := by
  rcases Lists.exists_segments workspaceAt with ⟨front, back, split, -, modified, -⟩
  rw [Session.modifyWorkspace, modified]
  exact wellFormed.replaceWorkspace le split replaces tabLimit paneLimit

end Session.WellFormed

/-- The same Workspace with other Tabs. -/
theorem Workspace.Valid.withTabs {bound larger : ℕ} {workspace : Workspace}
    (valid : workspace.Valid bound) (le : bound ≤ larger) {tabs : List Tab} (nonempty : tabs ≠ [])
    (tabsValid : ∀ tab ∈ tabs, tab.Valid larger) (oneDiff : tabs.countP (·.content.isDiff) ≤ 1)
    (oneFile : tabs.countP (·.content.isFile) ≤ 1) :
    ({ workspace with tabs } : Workspace).Valid larger :=
  { valid.mono le with nonempty, tabsValid, oneDiff, oneFile }

/-- A Tab that may stand in another's place. -/
structure Tab.Replaces (nextId later : ℕ) (old new : Tab) : Prop where
  id : new.id = old.id
  isDiff : new.content.isDiff = old.content.isDiff
  isFile : new.content.isFile = old.content.isFile
  content : new.content.Valid later
  fits : new.content.Fits
  paneIdsNodup : new.paneIds.Nodup
  paneIdsFresh : ∀ id ∈ new.paneIds, id ∈ old.paneIds ∨ nextId ≤ id.asU64

namespace Session.WellFormed

variable {nextId later : ℕ} {session : Session}

/-- The invariant survives the change of one Tab within the limits. -/
theorem modifyTab (wellFormed : session.WellFormed nextId) (le : nextId ≤ later)
    {workspaceIx tabIx : ℕ} {workspace : Workspace} {tab : Tab} {change : Tab → Tab}
    (workspaceAt : session.workspaces[workspaceIx]? = some workspace)
    (tabAt : workspace.tabs[tabIx]? = some tab) (replaces : tab.Replaces nextId later (change tab))
    (paneLimit : session.paneCount + (change tab).paneIds.length ≤
      maxSnapshotPanes + tab.paneIds.length) :
    (session.modifyTab workspaceIx tabIx change).WellFormed later := by
  have workspaceMem := List.mem_of_getElem? workspaceAt
  have valid := wellFormed.workspacesValid workspace workspaceMem
  have paneIdsNodup := wellFormed.workspacePaneIdsNodup workspaceMem
  rcases Lists.exists_segments tabAt with ⟨front, back, split, -, modified, -⟩
  have tabMem : tab ∈ workspace.tabs := List.mem_of_getElem? tabAt
  have member : ∀ other ∈ front ++ change tab :: back,
      other = change tab ∨ other ∈ workspace.tabs := by
    intro other contained
    rw [split]
    simp only [List.mem_append, List.mem_cons] at contained ⊢
    tauto
  have paneIds : workspace.paneIds = front.flatMap Tab.paneIds ++ tab.paneIds ++
      back.flatMap Tab.paneIds := by
    simp [Workspace.paneIds, split]
  have sameIds : ({ workspace with tabs := front ++ change tab :: back } : Workspace).tabIds =
      workspace.tabIds := by
    simp [Workspace.tabIds, split, replaces.id]
  refine wellFormed.modifyWorkspace le workspaceAt ?_ ?_ ?_ <;> rw [modified]
  · refine ⟨rfl, ?_, ?_, ?_, ?_, ?_, ?_⟩
    · refine valid.withTabs le (by simp) ?_ ?_ ?_
      · intro other contained
        rcases member other contained with rfl | before
        · refine ⟨?_, replaces.content⟩
          rw [replaces.id]
          exact (valid.tabsValid tab tabMem).idWithin.mono le
        · exact (valid.tabsValid other before).mono le
      · have := valid.oneDiff
        simpa [Workspace.diffTabs, split, List.countP_cons, replaces.isDiff] using this
      · have := valid.oneFile
        simpa [Workspace.fileTabs, split, List.countP_cons, replaces.isFile] using this
    · intro other contained
      rcases member other contained with rfl | before
      · exact replaces.fits
      · exact wellFormed.workspaceFits workspaceMem other before
    · rw [sameIds]
      exact wellFormed.workspaceTabIdsNodup workspaceMem
    · rw [sameIds]
      exact fun id contained => Or.inl contained
    · have whole := Lists.nodup_replace (paneIds ▸ paneIdsNodup) replaces.paneIdsNodup ?_
      · simpa [Workspace.paneIds] using whole
      · intro id idMem
        refine (replaces.paneIdsFresh id idMem).imp_right fun fresh contained => ?_
        rw [← paneIds] at contained
        have inSession : id ∈ session.paneIds := by
          rw [Session.paneIds_eq_flatMap]
          exact List.mem_flatMap.mpr ⟨workspace, workspaceMem, contained⟩
        have := (wellFormed.paneIdsWithin inSession).2
        omega
    · intro id contained
      rcases List.mem_flatMap.mp contained with ⟨other, otherMem, idMem⟩
      rcases member other otherMem with rfl | before
      · exact (replaces.paneIdsFresh id idMem).imp_left (Workspace.paneIds_mem tabMem)
      · exact Or.inl (Workspace.paneIds_mem before idMem)
  · have := wellFormed.tabLimit
    simp only [split, List.length_append, List.length_cons]
    omega
  · rw [paneIds]
    simp only [Workspace.paneIds, List.flatMap_append, List.flatMap_cons, List.length_append]
    omega

theorem terminalLayoutValid (wellFormed : session.WellFormed nextId) {workspaceIx tabIx : ℕ}
    {terminals : TerminalLayout}
    (found : session.terminalLayout workspaceIx tabIx = some terminals) :
    terminals.Valid nextId ∧ terminals.Fits := by
  rcases Session.terminalLayout_eq_some found with ⟨workspace, tab, workspaceAt, tabAt, shown⟩
  have workspaceMem := List.mem_of_getElem? workspaceAt
  have tabMem := List.mem_of_getElem? tabAt
  have content := ((wellFormed.workspacesValid workspace workspaceMem).tabsValid tab tabMem).content
  have fits := wellFormed.workspaceFits workspaceMem tab tabMem
  rw [shown] at content fits
  exact ⟨content, fits⟩

/-- Writing a valid terminal layout over another keeps the invariant. -/
theorem setTerminals (wellFormed : session.WellFormed nextId) (le : nextId ≤ later)
    {workspaceIx tabIx : ℕ} {old new : TerminalLayout}
    (found : session.terminalLayout workspaceIx tabIx = some old) (valid : new.Valid later)
    (fits : new.Fits) (paneIdsFresh : ∀ id ∈ new.paneIds, id ∈ old.paneIds ∨ nextId ≤ id.asU64)
    (paneLimit : session.paneCount + new.panes.length ≤ maxSnapshotPanes + old.panes.length) :
    (session.setTerminals workspaceIx tabIx new).WellFormed later := by
  rcases Session.terminalLayout_eq_some found with ⟨workspace, tab, workspaceAt, tabAt, content⟩
  have oldIds := Tab.paneIds_terminals content
  have newIds : Tab.paneIds { tab with content := .terminals new } = new.paneIds :=
    Tab.paneIds_terminals rfl
  refine wellFormed.modifyTab le workspaceAt tabAt ?_ ?_
  · refine ⟨rfl, ?_, ?_, valid, fits, ?_, ?_⟩
    · rw [content]
      rfl
    · rw [content]
      rfl
    · rw [newIds]
      exact valid.idsNodup
    · rw [newIds, oldIds]
      exact paneIdsFresh
  · rw [newIds, oldIds]
    simpa [TerminalLayout.paneIds] using paneLimit

/-- A new Tab with fresh ids may be added within the limits. -/
theorem appendTab (wellFormed : session.WellFormed nextId) (le : nextId ≤ later)
    {workspaceIx : ℕ} {workspace : Workspace} {added : Tab}
    (workspaceAt : session.workspaces[workspaceIx]? = some workspace)
    (idFresh : nextId ≤ added.id.asU64) (valid : added.Valid later) (fits : added.content.Fits)
    (oneDiff : added.content.isDiff = true → ∀ tab ∈ workspace.tabs, tab.content.isDiff = false)
    (oneFile : added.content.isFile = true → ∀ tab ∈ workspace.tabs, tab.content.isFile = false)
    (paneIdsNodup : added.paneIds.Nodup) (paneIdsFresh : ∀ id ∈ added.paneIds, nextId ≤ id.asU64)
    (tabLimit : session.tabCount < maxSnapshotTabs)
    (paneLimit : session.paneCount + added.paneIds.length ≤ maxSnapshotPanes) :
    (session.modifyWorkspace workspaceIx fun workspace =>
      { workspace with tabs := workspace.tabs ++ [added] }).WellFormed later := by
  have workspaceMem := List.mem_of_getElem? workspaceAt
  have workspaceValid := wellFormed.workspacesValid workspace workspaceMem
  -- a kind of viewer that the Workspace lacks is found once after the addition
  have once : ∀ kind : TabContent → Bool, workspace.tabs.countP (kind ·.content) ≤ 1 →
      (kind added.content = true → ∀ tab ∈ workspace.tabs, kind tab.content = false) →
      (workspace.tabs ++ [added]).countP (kind ·.content) ≤ 1 := by
    intro kind before lacks
    rw [List.countP_append, List.countP_singleton]
    by_cases shows : kind added.content = true
    · have none : workspace.tabs.countP (kind ·.content) = 0 :=
        List.countP_eq_zero.mpr fun tab contained => by simp [lacks shows tab contained]
      simp [none, shows]
    · simpa [shows] using before
  refine wellFormed.modifyWorkspace le workspaceAt ⟨rfl, ?_, ?_, ?_, ?_, ?_, ?_⟩ ?_ ?_
  · refine workspaceValid.withTabs le (by simp) ?_ (once _ workspaceValid.oneDiff oneDiff)
      (once _ workspaceValid.oneFile oneFile)
    intro tab contained
    rcases List.mem_append.mp contained with before | new
    · exact (workspaceValid.tabsValid tab before).mono le
    · rcases List.mem_singleton.mp new with rfl
      exact valid
  · intro tab contained
    rcases List.mem_append.mp contained with before | new
    · exact wellFormed.workspaceFits workspaceMem tab before
    · rcases List.mem_singleton.mp new with rfl
      exact fits
  · simp only [Workspace.tabIds, List.map_append, List.map_cons, List.map_nil]
    refine List.nodup_append'.mpr ⟨wellFormed.workspaceTabIdsNodup workspaceMem, by simp, ?_⟩
    refine List.disjoint_singleton.mpr fun contained => ?_
    rcases List.mem_map.mp contained with ⟨tab, tabMem, same⟩
    have := (workspaceValid.tabsValid tab tabMem).idWithin.2
    rw [same] at this
    omega
  · intro id contained
    simp only [Workspace.tabIds, List.map_append, List.map_cons, List.map_nil, List.mem_append,
      List.mem_singleton] at contained
    rcases contained with before | rfl
    · exact Or.inl before
    · exact Or.inr idFresh
  · simp only [Workspace.paneIds, List.flatMap_append, List.flatMap_cons, List.flatMap_nil,
      List.append_nil]
    refine List.nodup_append'.mpr
      ⟨wellFormed.workspacePaneIdsNodup workspaceMem, paneIdsNodup, ?_⟩
    intro id before new
    rcases List.mem_flatMap.mp before with ⟨tab, tabMem, idMem⟩
    have := ((workspaceValid.tabsValid tab tabMem).content.within idMem).2
    have := paneIdsFresh id new
    omega
  · intro id contained
    simp only [Workspace.paneIds, List.flatMap_append, List.flatMap_cons, List.flatMap_nil,
      List.append_nil, List.mem_append] at contained
    exact contained.imp_right (paneIdsFresh id)
  · simp only [List.length_append, List.length_cons, List.length_nil]
    omega
  · simp only [Workspace.paneIds, List.flatMap_append, List.flatMap_cons, List.flatMap_nil,
      List.append_nil, List.length_append]
    omega

/-- Other Tabs of the same Workspace, at most the ones it has: closing and reordering. -/
theorem withFewerTabs (wellFormed : session.WellFormed nextId) {workspaceIx : ℕ}
    {workspace : Workspace} {tabs rest : List Tab} {change : Workspace → Workspace}
    (workspaceAt : session.workspaces[workspaceIx]? = some workspace)
    (changed : change workspace = { workspace with tabs }) (remains : rest.Sublist workspace.tabs)
    (reordered : tabs.Perm rest) (nonempty : tabs ≠ []) :
    (session.modifyWorkspace workspaceIx change).WellFormed nextId := by
  have workspaceMem := List.mem_of_getElem? workspaceAt
  have valid := wellFormed.workspacesValid workspace workspaceMem
  have subset : ∀ tab ∈ tabs, tab ∈ workspace.tabs :=
    fun tab contained => remains.subset (reordered.subset contained)
  have count : ∀ kind : Tab → Bool, tabs.countP kind ≤ workspace.tabs.countP kind := by
    intro kind
    rw [reordered.countP_eq]
    exact remains.countP_le
  have paneIdsRemain : (rest.flatMap Tab.paneIds).Sublist workspace.paneIds := remains.flatMap _
  refine wellFormed.modifyWorkspace le_rfl workspaceAt ?_ ?_ ?_ <;> rw [changed]
  · refine ⟨rfl, ?_, ?_, ?_, ?_, ?_, ?_⟩
    · exact valid.withTabs le_rfl nonempty
        (fun tab contained => valid.tabsValid tab (subset tab contained))
        ((count _).trans valid.oneDiff) ((count _).trans valid.oneFile)
    · exact fun tab contained =>
        wellFormed.workspaceFits workspaceMem tab (subset tab contained)
    · exact (reordered.map _).nodup_iff.mpr
        ((wellFormed.workspaceTabIdsNodup workspaceMem).sublist (remains.map _))
    · intro id contained
      rcases List.mem_map.mp contained with ⟨tab, tabMem, rfl⟩
      exact Or.inl (List.mem_map_of_mem (subset tab tabMem))
    · exact (reordered.flatMap_right _).nodup_iff.mpr
        ((wellFormed.workspacePaneIdsNodup workspaceMem).sublist paneIdsRemain)
    · intro id contained
      rcases List.mem_flatMap.mp contained with ⟨tab, tabMem, idMem⟩
      exact Or.inl (Workspace.paneIds_mem (subset tab tabMem) idMem)
  · have := wellFormed.tabLimit
    have := remains.length_le
    rw [reordered.length_eq]
    omega
  · have := wellFormed.paneLimit
    have := paneIdsRemain.length_le
    simp only [Workspace.paneIds] at this ⊢
    rw [(reordered.flatMap_right _).length_eq]
    omega

/-- A Workspace that keeps its id and its Tabs. -/
theorem relabel (wellFormed : session.WellFormed nextId) {workspaceIx : ℕ} {workspace : Workspace}
    {change : Workspace → Workspace}
    (workspaceAt : session.workspaces[workspaceIx]? = some workspace)
    (id : (change workspace).id = workspace.id) (tabs : (change workspace).tabs = workspace.tabs)
    (valid : (change workspace).Valid nextId) :
    (session.modifyWorkspace workspaceIx change).WellFormed nextId := by
  have workspaceMem := List.mem_of_getElem? workspaceAt
  have tabIds : (change workspace).tabIds = workspace.tabIds := by
    simp only [Workspace.tabIds, tabs]
  have paneIds : (change workspace).paneIds = workspace.paneIds := by
    simp only [Workspace.paneIds, tabs]
  have same := wellFormed.replaces_self workspaceMem
  refine wellFormed.modifyWorkspace le_rfl workspaceAt ⟨id, valid, ?_, ?_, ?_, ?_, ?_⟩ ?_ ?_
  · rw [tabs]
    exact same.fits
  · rw [tabIds]
    exact same.tabIdsNodup
  · rw [tabIds]
    exact same.tabIdsFresh
  · rw [paneIds]
    exact same.paneIdsNodup
  · rw [paneIds]
    exact same.paneIdsFresh
  · rw [tabs]
    have := wellFormed.tabLimit
    omega
  · rw [paneIds]
    have := wellFormed.paneLimit
    omega

end Session.WellFormed

end Condr
