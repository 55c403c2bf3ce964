import Condr.Session.Validation

/-!
# Restored Sessions are well formed

A table of layout nodes that passed its check describes one layout, no deeper
than the limit, and a Session that is restored satisfies the whole invariant.
-/

namespace Condr

/-! ## The layout a table describes -/

/-- The layout found in a table of nodes from an index on. -/
inductive Describes (nodes : List LayoutNodeSnapshot) : ℕ → PaneLayout F32 → Prop where
  | pane {index : ℕ} {id : PaneId} (found : nodes[index]? = some (.pane id)) :
      Describes nodes index (.pane id)
  | split {index first second : ℕ} {direction : SplitDirection} {ratio : F32}
      {firstLayout secondLayout : PaneLayout F32}
      (found : nodes[index]? = some (.split direction ratio first second))
      (firstDescribes : Describes nodes first firstLayout)
      (secondDescribes : Describes nodes second secondLayout) :
      Describes nodes index (.split direction ratio firstLayout secondLayout)

theorem restoreNode_eq_some {nodes : List LayoutNodeSnapshot} {depth index : ℕ}
    {layout : PaneLayout F32} :
    restoreNode nodes depth index = some layout ↔
      Describes nodes index layout ∧ layout.depth ≤ depth := by
  induction depth generalizing index layout with
  | zero =>
      refine ⟨by simp [restoreNode], fun both => ?_⟩
      rcases both with ⟨-, shallow⟩
      cases layout <;> simp at shallow
  | succ depth ih =>
      constructor
      · intro restored
        simp only [restoreNode] at restored
        split at restored
        · contradiction
        · next id found =>
            rcases Option.some.inj restored with rfl
            exact ⟨.pane found, by simp⟩
        · next direction ratio first second found =>
            simp only [Option.bind_eq_bind, Option.bind_eq_some_iff, Option.some.injEq, ih]
              at restored
            obtain ⟨firstLayout, ⟨firstDescribes, firstDepth⟩, secondLayout,
              ⟨secondDescribes, secondDepth⟩, rfl⟩ := restored
            refine ⟨.split found firstDescribes secondDescribes, ?_⟩
            simp only [PaneLayout.depth]
            omega
      · rintro ⟨describes, shallow⟩
        cases describes with
        | pane found => simp [restoreNode, found]
        | split found firstDescribes secondDescribes =>
            simp only [PaneLayout.depth] at shallow
            have firstRestored := ih.mpr ⟨firstDescribes, by omega⟩
            have secondRestored := ih.mpr ⟨secondDescribes, by omega⟩
            simp [restoreNode, found, firstRestored, secondRestored]

/-! ## The tables within their limits -/

def ResourceCounts.Within (counts : ResourceCounts) : Prop :=
  counts.tabs ≤ maxSnapshotTabs ∧ counts.panes ≤ maxSnapshotPanes ∧
    counts.layoutNodes ≤ maxSnapshotLayoutNodes

namespace TabSnapshot

def paneCount (tab : TabSnapshot) : ℕ :=
  match tab.content with
  | .terminals panes _ _ _ => panes.length
  | _ => 0

def nodeCount (tab : TabSnapshot) : ℕ :=
  match tab.content with
  | .terminals _ _ _ layout => layout.nodes.length
  | _ => 0

end TabSnapshot

theorem countTab_eq_ok {counts next : ResourceCounts} {tab : TabSnapshot}
    (within : counts.Within) :
    countTab counts tab = .ok next ↔
      next = { counts with
        panes := counts.panes + tab.paneCount
        layoutNodes := counts.layoutNodes + tab.nodeCount } ∧ next.Within := by
  rcases tab with ⟨id, name, content⟩
  cases content with
  | terminals panes focused history layout =>
      simp only [countTab, TabSnapshot.paneCount, TabSnapshot.nodeCount, invalid_bind, check_eq_ok,
        not_lt, Except.ok.injEq]
      constructor
      · rintro ⟨panes, nodes, rfl⟩
        exact ⟨rfl, within.1, panes, nodes⟩
      · rintro ⟨rfl, -, panes, nodes⟩
        exact ⟨panes, nodes, rfl⟩
  | diff path | file path =>
      simp only [countTab, TabSnapshot.paneCount, TabSnapshot.nodeCount, Except.ok.injEq,
        Nat.add_zero]
      constructor
      · rintro rfl
        exact ⟨rfl, within⟩
      · rintro ⟨rfl, -⟩
        rfl

theorem countTabs_eq_ok {tabs : List TabSnapshot} {counts next : ResourceCounts}
    (within : counts.Within) :
    tabs.foldlM countTab counts = .ok next ↔
      next = { counts with
        panes := counts.panes + (tabs.map (·.paneCount)).sum
        layoutNodes := counts.layoutNodes + (tabs.map (·.nodeCount)).sum } ∧ next.Within := by
  induction tabs generalizing counts with
  | nil =>
      simp only [List.foldlM_nil, pure, Except.pure, Except.ok.injEq, List.map_nil, List.sum_nil,
        Nat.add_zero]
      constructor
      · rintro rfl
        exact ⟨rfl, within⟩
      · rintro ⟨rfl, -⟩
        rfl
  | cons tab tabs ih =>
      simp only [List.foldlM_cons, Lists.bind_eq_ok, countTab_eq_ok within, List.map_cons,
        List.sum_cons]
      constructor
      · rintro ⟨_, ⟨rfl, partWithin⟩, rest⟩
        rcases (ih partWithin).mp rest with ⟨rfl, nextWithin⟩
        exact ⟨by simp [Nat.add_assoc], nextWithin⟩
      · rintro ⟨rfl, nextWithin⟩
        rcases nextWithin with ⟨tabsLe, panesLe, nodesLe⟩
        simp only at tabsLe panesLe nodesLe
        have partWithin : ResourceCounts.Within { counts with
            panes := counts.panes + tab.paneCount
            layoutNodes := counts.layoutNodes + tab.nodeCount } :=
          ⟨tabsLe, by simp only; omega, by simp only; omega⟩
        refine ⟨_, ⟨rfl, partWithin⟩, (ih partWithin).mpr ⟨?_, tabsLe, panesLe, nodesLe⟩⟩
        simp [Nat.add_assoc]

namespace SessionSnapshot

def tabs (snapshot : SessionSnapshot) : List TabSnapshot :=
  snapshot.workspaces.flatMap (·.tabs)

end SessionSnapshot

theorem countWorkspaces_eq_ok {workspaces : List WorkspaceSnapshot} {counts next : ResourceCounts}
    (within : counts.Within) :
    workspaces.foldlM countWorkspace counts = .ok next ↔
      next = {
        tabs := counts.tabs + (workspaces.map (·.tabs.length)).sum
        panes := counts.panes + ((workspaces.flatMap (·.tabs)).map (·.paneCount)).sum
        layoutNodes := counts.layoutNodes + ((workspaces.flatMap (·.tabs)).map (·.nodeCount)).sum } ∧
      next.Within := by
  induction workspaces generalizing counts with
  | nil =>
      simp only [List.foldlM_nil, pure, Except.pure, Except.ok.injEq, List.flatMap_nil,
        List.map_nil, List.sum_nil, Nat.add_zero]
      constructor
      · rintro rfl
        exact ⟨rfl, within⟩
      · rintro ⟨rfl, -⟩
        rfl
  | cons workspace workspaces ih =>
      simp only [List.foldlM_cons, Lists.bind_eq_ok, countWorkspace, invalid_bind, check_eq_ok,
        not_lt, List.map_cons, List.sum_cons, List.flatMap_cons, List.map_append, List.sum_append]
      constructor
      · rintro ⟨part, ⟨tabsLe, counted⟩, rest⟩
        have partWithin : ResourceCounts.Within
            { counts with tabs := counts.tabs + workspace.tabs.length } :=
          ⟨tabsLe, within.2.1, within.2.2⟩
        rcases (countTabs_eq_ok partWithin).mp counted with ⟨rfl, counted⟩
        rcases (ih counted).mp rest with ⟨rfl, nextWithin⟩
        exact ⟨by simp [Nat.add_assoc], nextWithin⟩
      · rintro ⟨rfl, nextWithin⟩
        rcases nextWithin with ⟨tabsLe, panesLe, nodesLe⟩
        simp only at tabsLe panesLe nodesLe
        have partWithin : ResourceCounts.Within
            { counts with tabs := counts.tabs + workspace.tabs.length } :=
          ⟨by simp only; omega, within.2.1, within.2.2⟩
        have counted : ResourceCounts.Within {
            tabs := counts.tabs + workspace.tabs.length
            panes := counts.panes + (workspace.tabs.map (·.paneCount)).sum
            layoutNodes := counts.layoutNodes + (workspace.tabs.map (·.nodeCount)).sum } :=
          ⟨by simp only; omega, by simp only; omega, by simp only; omega⟩
        refine ⟨_, ⟨partWithin.1, (countTabs_eq_ok partWithin).mpr ⟨rfl, counted⟩⟩,
          (ih counted).mpr ⟨?_, tabsLe, panesLe, nodesLe⟩⟩
        simp [Nat.add_assoc]

/-- What `validate_snapshot_resources` accepts. -/
structure SessionSnapshot.Resources (snapshot : SessionSnapshot) : Prop where
  workspaceLimit : snapshot.workspaces.length ≤ maxSnapshotWorkspaces
  tabLimit : (snapshot.workspaces.map (·.tabs.length)).sum ≤ maxSnapshotTabs
  paneLimit : (snapshot.tabs.map (·.paneCount)).sum ≤ maxSnapshotPanes
  nodeLimit : (snapshot.tabs.map (·.nodeCount)).sum ≤ maxSnapshotLayoutNodes
  layouts : ∀ workspace ∈ snapshot.workspaces, ∀ tab ∈ workspace.tabs,
    validateTabLayout tab = .ok ()

theorem validateSnapshotResources_eq_ok {snapshot : SessionSnapshot} :
    validateSnapshotResources snapshot = .ok () ↔ snapshot.Resources := by
  have none : ResourceCounts.Within {} := ⟨Nat.zero_le _, Nat.zero_le _, Nat.zero_le _⟩
  simp only [validateSnapshotResources, invalid_bind, check_eq_ok, Lists.bind_eq_ok, not_lt,
    countWorkspaces_eq_ok none, Lists.forM_eq_ok_iff, Nat.zero_add]
  constructor
  · rintro ⟨workspaceLimit, _, ⟨rfl, tabLimit, paneLimit, nodeLimit⟩, layouts⟩
    exact ⟨workspaceLimit, tabLimit, paneLimit, nodeLimit, layouts⟩
  · rintro ⟨workspaceLimit, tabLimit, paneLimit, nodeLimit, layouts⟩
    exact ⟨workspaceLimit, _, ⟨rfl, tabLimit, paneLimit, nodeLimit⟩, layouts⟩

/-! ## Restoring -/

theorem TabSnapshot.restore_spec {snapshot : TabSnapshot} {tab : Tab}
    (restored : snapshot.restore = some tab) :
    tab.panes.length = snapshot.paneCount ∧ tab.content.Fits := by
  rcases Option.map_eq_some_iff.mp restored with ⟨content, contentEq, rfl⟩
  unfold TabSnapshot.paneCount
  rcases shown : snapshot.content with ⟨panes, focused, history, layout⟩ | path | path <;>
    rw [shown] at contentEq
  · rcases Option.map_eq_some_iff.mp contentEq with ⟨restored, layoutEq, rfl⟩
    refine ⟨by simp [Tab.panes, Tab.terminals], ?_, by simp⟩
    exact (restoreNode_eq_some.mp layoutEq).2
  · rcases Option.some.inj contentEq with rfl
    exact ⟨rfl, trivial⟩
  · rcases Option.some.inj contentEq with rfl
    exact ⟨rfl, trivial⟩

theorem WorkspaceSnapshot.restore_spec {snapshot : WorkspaceSnapshot} {workspace : Workspace}
    (restored : snapshot.restore = some workspace) :
    workspace.tabs.length = snapshot.tabs.length ∧
      workspace.tabs.map (·.panes.length) = snapshot.tabs.map (·.paneCount) ∧
      ∀ tab ∈ workspace.tabs, tab.content.Fits := by
  rcases Option.map_eq_some_iff.mp restored with ⟨tabs, tabsEq, rfl⟩
  refine ⟨?_, ?_, ?_⟩
  · have := congrArg List.length (Lists.mapM_eq_some_iff.mp tabsEq)
    simpa using this.symm
  · exact Lists.map_eq_of_mapM tabsEq fun _ _ restored => (TabSnapshot.restore_spec restored).1
  · intro tab contained
    rcases Lists.exists_of_mem_mapM tabsEq contained with ⟨snapshot, -, restored⟩
    exact (TabSnapshot.restore_spec restored).2

/-- A Session that is restored is well formed, with the counter behind its ids. -/
theorem Session.restore_wellFormed {snapshot : SessionSnapshot} {nextId : ℕ} {store : Store}
    (counter : nextId ≤ maxNextStableIdExclusive)
    (restored : Session.restore snapshot nextId = .ok store) : store.WellFormed := by
  simp only [Session.restore, Lists.bind_eq_ok] at restored
  rcases restored with ⟨⟨⟩, checked, restored⟩
  have resources := validateSnapshotResources_eq_ok.mp checked
  split at restored
  · simp at restored
  next workspaces workspacesEq =>
  simp only [Lists.bind_eq_ok, Session.validate_eq_ok] at restored
  rcases restored with ⟨_, ⟨valid, rfl⟩, done⟩
  rcases Except.ok.inj done with rfl
  have le : ∀ id ∈ Session.stableIds ⟨workspaces⟩, id ≤ Session.maxId ⟨workspaces⟩ :=
    fun id contained => Lists.le_foldl_max contained
  refine ⟨⟨?_, ?_, ?_, ?_, ?_⟩, by simp, ?_⟩
  · refine valid.rebound fun id contained => ⟨(valid.within id contained).1, ?_⟩
    have := le id contained
    simp only
    omega
  · intro tab contained
    rcases List.mem_flatMap.mp contained with ⟨workspace, workspaceMem, tabMem⟩
    rcases Lists.exists_of_mem_mapM workspacesEq workspaceMem with ⟨snapshot, -, restored⟩
    exact (WorkspaceSnapshot.restore_spec restored).2.2 tab tabMem
  · have := congrArg List.length (Lists.mapM_eq_some_iff.mp workspacesEq)
    rw [List.length_map, List.length_map] at this
    exact this ▸ resources.workspaceLimit
  · have same : workspaces.map (·.tabs.length) = snapshot.workspaces.map (·.tabs.length) :=
      Lists.map_eq_of_mapM workspacesEq fun _ _ restored =>
        (WorkspaceSnapshot.restore_spec restored).1
    simp only [Session.tabCount, same]
    exact resources.tabLimit
  · have same : workspaces.map (fun workspace => workspace.tabs.map (·.panes.length)) =
        snapshot.workspaces.map (fun workspace => workspace.tabs.map (·.paneCount)) :=
      Lists.map_eq_of_mapM workspacesEq fun _ _ restored =>
        (WorkspaceSnapshot.restore_spec restored).2.1
    have limit := resources.paneLimit
    simp only [SessionSnapshot.tabs, List.map_flatMap] at limit
    simp only [Session.paneCount, Session.tabs, List.map_flatMap]
    rw [List.flatMap_def] at limit ⊢
    rw [same]
    exact limit
  · have bounded : ∀ id ∈ Session.stableIds ⟨workspaces⟩, id < maxNextStableIdExclusive :=
      fun id contained => (valid.within id contained).2
    have := Lists.foldl_max_lt (by decide : 0 < maxNextStableIdExclusive) bounded
    simp only [Session.maxId]
    omega

end Condr
