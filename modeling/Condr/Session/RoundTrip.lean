import Condr.Session.Restoration

/-!
# A snapshot restores its Session

The table that a layout is flattened to passes its check and describes the layout,
so the snapshot of a well-formed Session restores to the Session, without zoom.
-/

namespace Condr

/-! ## Places in the table -/

/-- A layout found in a table of nodes, with the indices its nodes take. -/
inductive Occupies (nodes : List LayoutNodeSnapshot) : ℕ → PaneLayout F32 → List ℕ → Prop where
  | pane {index : ℕ} {id : PaneId} (found : nodes[index]? = some (.pane id)) :
      Occupies nodes index (.pane id) [index]
  | split {index first second : ℕ} {direction : SplitDirection} {ratio : F32}
      {firstLayout secondLayout : PaneLayout F32} {firstPlaces secondPlaces : List ℕ}
      (found : nodes[index]? = some (.split direction ratio first second))
      (firstOccupies : Occupies nodes first firstLayout firstPlaces)
      (secondOccupies : Occupies nodes second secondLayout secondPlaces) :
      Occupies nodes index (.split direction ratio firstLayout secondLayout)
        (index :: (firstPlaces ++ secondPlaces))

theorem Occupies.describes {nodes : List LayoutNodeSnapshot} {index : ℕ}
    {layout : PaneLayout F32} {places : List ℕ} (occupies : Occupies nodes index layout places) :
    Describes nodes index layout := by
  induction occupies with
  | pane found => exact .pane found
  | split found _ _ ihFirst ihSecond => exact .split found ihFirst ihSecond

/-- Layouts that start at consecutive indices. -/
inductive OccupyFrom (nodes : List LayoutNodeSnapshot) :
    ℕ → List (PaneLayout F32) → List ℕ → Prop where
  | nil {start : ℕ} : OccupyFrom nodes start [] []
  | cons {start : ℕ} {layout : PaneLayout F32} {rest : List (PaneLayout F32)}
      {places others : List ℕ} (first : Occupies nodes start layout places)
      (later : OccupyFrom nodes (start + 1) rest others) :
      OccupyFrom nodes start (layout :: rest) (places ++ others)

theorem OccupyFrom.append_pair {nodes : List LayoutNodeSnapshot}
    {front : List (PaneLayout F32)} {first second : PaneLayout F32} {start : ℕ}
    {places : List ℕ} (occupy : OccupyFrom nodes start (front ++ [first, second]) places) :
    ∃ frontPlaces firstPlaces secondPlaces,
      OccupyFrom nodes start front frontPlaces ∧
      Occupies nodes (start + front.length) first firstPlaces ∧
      Occupies nodes (start + front.length + 1) second secondPlaces ∧
      places = frontPlaces ++ (firstPlaces ++ secondPlaces) := by
  induction front generalizing start places with
  | nil =>
      cases occupy with
      | cons firstOccupies later =>
          cases later with
          | cons secondOccupies none =>
              cases none
              exact ⟨[], _, _, .nil, firstOccupies, secondOccupies, by simp⟩
  | cons head front ih =>
      cases occupy with
      | cons headOccupies later =>
          obtain ⟨frontPlaces, firstPlaces, secondPlaces, frontOccupy, firstOccupies,
            secondOccupies, rfl⟩ := ih later
          refine ⟨_, firstPlaces, secondPlaces, .cons headOccupies frontOccupy, ?_, ?_, ?_⟩
          · simpa [Nat.add_assoc, Nat.add_comm 1] using firstOccupies
          · simpa [Nat.add_assoc, Nat.add_comm 1] using secondOccupies
          · rw [List.append_assoc]

/-! ## Flattening -/

theorem PaneLayout.nodeCount_eq {R : Type} (layout : PaneLayout R) :
    layout.nodeCount + 1 = 2 * layout.leaves.length := by
  induction layout with
  | pane id => rfl
  | split direction ratio first second ihFirst ihSecond =>
      simp only [nodeCount, leaves, List.length_append]
      omega

namespace LayoutSnapshot

/-- The nodes still to be emitted, and the places they take: behind what was emitted, each
pending layout starts where it waits, and together they fill the table. -/
theorem occupyFrom_flatten {turns : ℕ} {pending : List (PaneLayout F32)}
    {emitted : List LayoutNodeSnapshot}
    (enough : turns = (pending.map PaneLayout.nodeCount).sum) :
    (flatten turns pending (emitted.length + pending.length)).length = turns ∧
      ∃ places,
        OccupyFrom (emitted ++ flatten turns pending (emitted.length + pending.length))
          emitted.length pending places ∧
        places.Perm (List.range' emitted.length turns) := by
  induction turns generalizing pending emitted with
  | zero =>
      rcases pending with _ | ⟨layout, rest⟩
      · exact ⟨rfl, [], .nil, by simp⟩
      · have positive : 0 < layout.nodeCount := by cases layout <;> simp [PaneLayout.nodeCount]
        simp only [List.map_cons, List.sum_cons] at enough
        omega
  | succ turns ih =>
      rcases pending with _ | ⟨layout, rest⟩
      · simp at enough
      cases layout with
      | pane id =>
          have count : turns = (rest.map PaneLayout.nodeCount).sum := by
            simp only [List.map_cons, List.sum_cons, PaneLayout.nodeCount] at enough
            omega
          have pushed : emitted.length + (PaneLayout.pane id :: rest).length =
              (emitted ++ [LayoutNodeSnapshot.pane id]).length + rest.length := by
            simp; omega
          rcases @ih rest (emitted ++ [.pane id]) count with ⟨length, places, occupy, perm⟩
          rw [← pushed] at length occupy
          rw [List.length_append, List.length_singleton] at perm occupy
          refine ⟨congrArg (· + 1) length, [emitted.length] ++ places, ?_, ?_⟩
          · simp only [flatten]
            refine .cons (.pane ?_) ?_
            · simp
            · simpa using occupy
          · rw [List.range'_succ]
            exact List.Perm.cons _ perm
      | split direction ratio first second =>
          have count : turns =
              ((rest ++ [first, second]).map PaneLayout.nodeCount).sum := by
            simp only [List.map_cons, List.sum_cons, PaneLayout.nodeCount] at enough
            simp only [List.map_append, List.map_cons, List.map_nil, List.sum_append,
              List.sum_cons, List.sum_nil]
            omega
          have pushed : emitted.length +
              (PaneLayout.split direction ratio first second :: rest).length =
              emitted.length + 1 + rest.length := by
            simp; omega
          rw [pushed]
          have pushedLater : emitted.length + 1 + rest.length + 2 =
              (emitted ++ [LayoutNodeSnapshot.split direction ratio
                (emitted.length + 1 + rest.length)
                (emitted.length + 1 + rest.length + 1)]).length +
                (rest ++ [first, second]).length := by
            simp; omega
          obtain ⟨length, places, occupy, perm⟩ :=
            @ih (rest ++ [first, second]) (emitted ++ [.split direction ratio
              (emitted.length + 1 + rest.length) (emitted.length + 1 + rest.length + 1)]) count
          rw [← pushedLater] at length occupy
          rw [List.length_append, List.length_singleton] at perm occupy
          obtain ⟨restPlaces, firstPlaces, secondPlaces, restOccupy, firstOccupies,
            secondOccupies, rfl⟩ := occupy.append_pair
          refine ⟨congrArg (· + 1) length,
            (emitted.length :: (firstPlaces ++ secondPlaces)) ++ restPlaces, ?_, ?_⟩
          · simp only [flatten]
            rw [List.append_assoc, List.singleton_append] at restOccupy firstOccupies secondOccupies
            exact .cons (.split (by simp) firstOccupies secondOccupies) restOccupy
          · rw [List.range'_succ, List.cons_append]
            exact List.Perm.cons _ (List.perm_append_comm.trans perm)

/-- The table of a layout: the layout starts at the root and fills it. -/
theorem occupies_fromLayout (layout : PaneLayout F32) :
    (fromLayout layout).nodes.length = layout.nodeCount ∧
      ∃ places, Occupies (fromLayout layout).nodes 0 layout places ∧
        places.Perm (List.range layout.nodeCount) := by
  rcases @occupyFrom_flatten layout.nodeCount [layout] [] (by simp)
    with ⟨length, places, occupy, perm⟩
  cases occupy with
  | cons occupies none =>
      cases none
      refine ⟨length, _, occupies, ?_⟩
      simpa [List.range_eq_range'] using perm

end LayoutSnapshot

/-! ## The check of a flattened layout -/

/-- The nodes of a layout are entered and left; the others stay as they were. -/
theorem visitLayout_occupied {nodes : List LayoutNodeSnapshot} {index : ℕ}
    {layout : PaneLayout F32} {places : List ℕ} (occupies : Occupies nodes index layout places)
    {states : List VisitState} {panes : List PaneId} {stack : List (ℕ × ℕ × Bool)} {depth : ℕ}
    (distinct : places.Nodup) (unseen : ∀ place ∈ places, states[place]? = some .unseen)
    (fresh : (panes ++ layout.leaves).Nodup)
    (ratios : ∀ ratio ∈ layout.ratios, ratioInRange ratio = true)
    (shallow : layout.depth + depth ≤ maxSnapshotLayoutDepth + 1) :
    ∃ later,
      visitLayout nodes states panes ((index, depth, false) :: stack) =
        visitLayout nodes later (panes ++ layout.leaves) stack ∧
      (∀ place ∈ places, later[place]? = some .finished) ∧
      (∀ place, place ∉ places → later[place]? = states[place]?) := by
  induction occupies generalizing states panes stack depth with
  | @pane index id found =>
      have here := unseen index (by simp)
      have inBounds := (List.getElem?_eq_some_iff.mp here).1
      have isNew : id ∉ panes := by
        intro contained
        exact (List.nodup_append.mp fresh).2.2 id contained id (by simp) rfl
      have within : ¬maxSnapshotLayoutDepth < depth := by
        simp only [PaneLayout.depth] at shallow
        omega
      refine ⟨states.set index .finished, ?_, ?_, ?_⟩
      · rw [visitLayout]
        simp [found, here, within, isNew]
      · simp [inBounds]
      · intro place absent
        rw [List.getElem?_set_ne]
        simpa [eq_comm] using absent
  | @split index first second direction ratio firstLayout secondLayout firstPlaces secondPlaces
      found firstOccupies secondOccupies ihFirst ihSecond =>
      have here := unseen index (by simp)
      have inBounds := (List.getElem?_eq_some_iff.mp here).1
      have within : ¬maxSnapshotLayoutDepth < depth := by
        simp only [PaneLayout.depth] at shallow
        omega
      have inRange : ratioInRange ratio = true := ratios ratio (by simp)
      simp only [PaneLayout.leaves, ← List.append_assoc] at fresh
      simp only [PaneLayout.depth] at shallow
      rcases List.nodup_cons.mp distinct with ⟨notPlaced, childrenDistinct⟩
      rcases List.nodup_append.mp childrenDistinct with ⟨firstDistinct, secondDistinct, apart⟩
      simp only [List.mem_append, not_or] at notPlaced
      -- entering the node leaves its children unseen
      have entered : ∀ place ∈ firstPlaces ++ secondPlaces,
          (states.set index .entered)[place]? = some .unseen := by
        intro place contained
        rw [List.getElem?_set_ne, unseen place (by simp [List.mem_append.mp contained])]
        rintro rfl
        exact (List.nodup_cons.mp distinct).1 contained
      obtain ⟨afterFirst, firstVisited, firstFinished, firstOthers⟩ :=
        @ihFirst (states.set index .entered) panes
          ((second, depth + 1, false) :: (index, depth, true) :: stack) (depth + 1) firstDistinct
          (fun place contained => entered place (by simp [contained]))
          (List.nodup_append.mp fresh).1 (fun ratio contained => ratios ratio (by simp [contained]))
          (by omega)
      obtain ⟨afterSecond, secondVisited, secondFinished, secondOthers⟩ :=
        @ihSecond afterFirst (panes ++ firstLayout.leaves)
          ((index, depth, true) :: stack) (depth + 1) secondDistinct
          (fun place contained => by
            rw [firstOthers place fun inFirst => apart place inFirst place contained rfl]
            exact entered place (by simp [contained]))
          fresh (fun ratio contained => ratios ratio (by simp [contained])) (by omega)
      have stays : ∀ place, place ∉ firstPlaces → place ∉ secondPlaces →
          afterSecond[place]? = (states.set index .entered)[place]? := by
        intro place notFirst notSecond
        rw [secondOthers place notSecond, firstOthers place notFirst]
      have stillInBounds : index < afterSecond.length := by
        have := stays index notPlaced.1 notPlaced.2
        rw [List.getElem?_set_self inBounds] at this
        exact (List.getElem?_eq_some_iff.mp this).1
      refine ⟨afterSecond.set index .finished, ?_, ?_, ?_⟩
      · rw [visitLayout]
        simp only [found, here, within, inRange, if_false, dif_pos, Bool.not_true,
          Bool.false_eq_true]
        rw [firstVisited, secondVisited, visitLayout]
        simp [found, List.append_assoc]
      · intro place contained
        rcases List.mem_cons.mp contained with rfl | inChild
        · exact List.getElem?_set_self stillInBounds
        · have differs : index ≠ place := by
            rintro rfl
            exact (List.nodup_cons.mp distinct).1 inChild
          rw [List.getElem?_set_ne differs]
          by_cases inSecond : place ∈ secondPlaces
          · exact secondFinished place inSecond
          · rw [secondOthers place inSecond]
            exact firstFinished place ((List.mem_append.mp inChild).resolve_right inSecond)
      · intro place absent
        simp only [List.mem_cons, List.mem_append, not_or] at absent
        rw [List.getElem?_set_ne (Ne.symm absent.1), stays place absent.2.1 absent.2.2,
          List.getElem?_set_ne (Ne.symm absent.1)]

/-- The table is the tree, node by node, with the Panes for its leaves. -/
structure LayoutSnapshot.Holds (table : LayoutSnapshot) (expectedPanes : List PaneId)
    (tree : PaneLayout F32) : Prop where
  places : ∃ places, Occupies table.nodes table.root tree places ∧
    places.Perm (List.range table.nodes.length)
  ratios : ∀ ratio ∈ tree.ratios, ratioInRange ratio = true
  depth : tree.depth ≤ maxSnapshotLayoutDepth
  leaves : tree.leaves.Perm expectedPanes

theorem Occupies.length {nodes : List LayoutNodeSnapshot} {index : ℕ} {tree : PaneLayout F32}
    {places : List ℕ} (occupies : Occupies nodes index tree places) :
    places.length = tree.nodeCount := by
  induction occupies with
  | pane found => rfl
  | split found firstOccupies secondOccupies ihFirst ihSecond =>
      rw [List.length_cons, List.length_append, ihFirst, ihSecond, PaneLayout.nodeCount]

theorem Occupies.index_mem {nodes : List LayoutNodeSnapshot} {index : ℕ} {tree : PaneLayout F32}
    {places : List ℕ} (occupies : Occupies nodes index tree places) :
    index ∈ places := by
  cases occupies <;> simp

/-- A tree that fills a table gets through the check. -/
theorem LayoutSnapshot.Holds.validates {table : LayoutSnapshot} {expectedPanes : List PaneId}
    {tree : PaneLayout F32} (holds : table.Holds expectedPanes tree)
    (distinct : expectedPanes.Nodup) : validateLayoutSnapshot table expectedPanes = .ok () := by
  rcases holds with ⟨⟨places, occupies, all⟩, ratios, depth, leaves⟩
  have count := tree.nodeCount_eq
  have length : table.nodes.length = tree.nodeCount := by
    rw [← occupies.length, all.length_eq, List.length_range]
  have bounded : ∀ place ∈ places, place < table.nodes.length := by
    intro place member
    exact List.mem_range.mp (all.subset member)
  have positive : 0 < tree.leaves.length := List.length_pos_iff.mpr tree.leaves_ne_nil
  rcases @visitLayout_occupied _ _ _ _ occupies
    (List.replicate table.nodes.length .unseen) [] [] 1 (all.nodup_iff.mpr List.nodup_range)
    (fun place member => by simp [bounded place member])
    (by simpa using leaves.nodup_iff.mpr distinct) ratios (by omega)
    with ⟨later, visited, finished, others⟩
  have allSeen : VisitState.unseen ∉ later := by
    intro member
    rcases List.getElem?_of_mem member with ⟨place, found⟩
    by_cases placed : place ∈ places
    · rw [finished place placed] at found
      cases found
    · rw [others place placed] at found
      have inBounds := (List.getElem?_eq_some_iff.mp found).1
      rw [List.length_replicate] at inBounds
      exact placed (all.symm.subset (List.mem_range.mpr inBounds))
  simp only [validateLayoutSnapshot, invalid_bind, check_eq_ok, Lists.bind_eq_ok]
  refine ⟨?_, ?_, ?_, ⟨later, tree.leaves⟩, ?_, allSeen, ?_⟩
  · rw [List.isEmpty_iff]
    rintro rfl
    simp [leaves.length_eq] at positive
  · have := leaves.length_eq
    omega
  · have := bounded _ occupies.index_mem
    omega
  · rw [visited, visitLayout]
    rfl
  · simp [leaves.subset, leaves.symm.subset, pure, Except.pure]

/-- The table of a well-formed layout passes the check against the Panes of its Tab. -/
theorem validateLayoutSnapshot_fromLayout {layout : PaneLayout F32} {expectedPanes : List PaneId}
    (leavesPerm : layout.leaves.Perm expectedPanes) (nodup : expectedPanes.Nodup)
    (ratios : ∀ ratio ∈ layout.ratios, ratioInRange ratio = true)
    (depth : layout.depth ≤ maxSnapshotLayoutDepth) :
    validateLayoutSnapshot (.fromLayout layout) expectedPanes = .ok () := by
  rcases LayoutSnapshot.occupies_fromLayout layout with ⟨length, places, occupies, perm⟩
  have holds : (LayoutSnapshot.fromLayout layout).Holds expectedPanes layout :=
    ⟨⟨places, occupies, length ▸ perm⟩, ratios, depth, leavesPerm⟩
  exact holds.validates nodup

theorem restoreLayout_fromLayout {layout : PaneLayout F32}
    (depth : layout.depth ≤ maxSnapshotLayoutDepth) :
    restoreLayout (.fromLayout layout) = some layout := by
  rcases LayoutSnapshot.occupies_fromLayout layout with ⟨-, places, occupies, -⟩
  exact restoreNode_eq_some.mpr ⟨occupies.describes, depth⟩

/-! ## The Session -/

/-- The Tab as a restart finds it: the zoom is not saved. -/
def Tab.withoutZoom (tab : Tab) : Tab :=
  match tab.content with
  | .terminals terminals => { tab with content := .terminals { terminals with zoomedPane := none } }
  | _ => tab

def Workspace.withoutZoom (workspace : Workspace) : Workspace :=
  { workspace with tabs := workspace.tabs.map Tab.withoutZoom }

/-- The Session except zoom. -/
def Session.withoutZoom (session : Session) : Session :=
  ⟨session.workspaces.map Workspace.withoutZoom⟩

section WithoutZoom

variable {bound : ℕ}

@[simp]
theorem Tab.withoutZoom_id (tab : Tab) : tab.withoutZoom.id = tab.id := by
  unfold withoutZoom
  split <;> rfl

@[simp]
theorem Tab.withoutZoom_paneIds (tab : Tab) : tab.withoutZoom.paneIds = tab.paneIds := by
  rcases tab with ⟨id, name, content⟩
  cases content <;> rfl

@[simp]
theorem Tab.withoutZoom_kinds (tab : Tab) :
    tab.withoutZoom.content.isDiff = tab.content.isDiff ∧
      tab.withoutZoom.content.isFile = tab.content.isFile := by
  rcases tab with ⟨id, name, content⟩
  cases content <;> exact ⟨rfl, rfl⟩

theorem Tab.Valid.withoutZoom {tab : Tab} (valid : tab.Valid bound) :
    tab.withoutZoom.Valid bound := by
  rcases tab with ⟨id, name, content⟩
  cases content with
  | terminals terminals => exact ⟨valid.idWithin, { valid.content with }⟩
  | diff path => exact valid
  | file path => exact valid

theorem Workspace.Valid.withoutZoom {workspace : Workspace} (valid : workspace.Valid bound) :
    workspace.withoutZoom.Valid bound where
  idWithin := valid.idWithin
  named := valid.named
  nonempty := by simpa [Workspace.withoutZoom] using valid.nonempty
  worktreeValid := valid.worktreeValid
  tabsValid := by
    intro tab contained
    rcases List.mem_map.mp contained with ⟨old, oldMem, rfl⟩
    exact (valid.tabsValid old oldMem).withoutZoom
  oneDiff := by
    have oneDiff := valid.oneDiff
    simpa [diffTabs, Workspace.withoutZoom, List.countP_map, Function.comp_def] using oneDiff
  oneFile := by
    have oneFile := valid.oneFile
    simpa [fileTabs, Workspace.withoutZoom, List.countP_map, Function.comp_def] using oneFile

theorem Session.withoutZoom_tabs (session : Session) :
    session.withoutZoom.tabs = session.tabs.map Tab.withoutZoom := by
  simp [tabs, withoutZoom, Workspace.withoutZoom, List.flatMap_map, List.map_flatMap]

@[simp]
theorem Session.withoutZoom_stableIds (session : Session) :
    session.withoutZoom.stableIds = session.stableIds := by
  have tabIds : ∀ tab : Tab, tab.withoutZoom.stableIds = tab.stableIds := by simp [Tab.stableIds]
  simp only [stableIds, withoutZoom, List.flatMap_map]
  congr 1
  funext workspace
  simp [Workspace.stableIds, Workspace.withoutZoom, List.flatMap_map, tabIds]

theorem Session.Valid.withoutZoom {session : Session} (valid : session.Valid bound) :
    session.withoutZoom.Valid bound where
  workspaceIdsNodup := by
    have nodup := valid.workspaceIdsNodup
    simpa [workspaceIds, Session.withoutZoom, Workspace.withoutZoom, Function.comp_def] using nodup
  tabIdsNodup := by
    have nodup := valid.tabIdsNodup
    simpa [tabIds, withoutZoom_tabs, Function.comp_def] using nodup
  paneIdsNodup := by
    have nodup := valid.paneIdsNodup
    simpa [paneIds, withoutZoom_tabs, List.flatMap_map] using nodup
  workspacesValid := by
    intro workspace contained
    rcases List.mem_map.mp contained with ⟨old, oldMem, rfl⟩
    exact (valid.workspacesValid old oldMem).withoutZoom

end WithoutZoom

theorem Pane.restore_snapshot (pane : Pane) : pane.snapshot.restore = pane := rfl

theorem Tab.restore_snapshot {tab : Tab} (fits : tab.content.Fits) :
    tab.snapshot.restore = some tab.withoutZoom := by
  rcases tab with ⟨id, name, content⟩
  cases content with
  | terminals terminals =>
      have layout := restoreLayout_fromLayout fits.depth
      simp [TabSnapshot.restore, Tab.snapshot, TabContent.snapshot, TabContentSnapshot.restore,
        layout, withoutZoom, Function.comp_def, Pane.restore_snapshot]
  | diff path | file path => rfl

theorem Workspace.restore_snapshot {workspace : Workspace}
    (fits : ∀ tab ∈ workspace.tabs, tab.content.Fits) :
    workspace.snapshot.restore = some workspace.withoutZoom := by
  have tabs : workspace.snapshot.tabs.mapM TabSnapshot.restore =
      some (workspace.tabs.map Tab.withoutZoom) := by
    rw [Lists.mapM_eq_some_iff]
    simp only [Workspace.snapshot, List.map_map]
    exact List.map_congr_left fun tab contained => Tab.restore_snapshot (fits tab contained)
  rw [WorkspaceSnapshot.restore, tabs]
  rfl

theorem validateTabLayout_snapshot {bound : ℕ} {tab : Tab} (valid : tab.content.Valid bound)
    (fits : tab.content.Fits) : validateTabLayout tab.snapshot = .ok () := by
  rcases tab with ⟨id, name, content⟩
  cases content with
  | terminals terminals =>
      have paneIds : (terminals.panes.map Pane.snapshot).map (·.id) = terminals.paneIds := by
        simp [TerminalLayout.paneIds, Pane.snapshot]
      simp only [validateTabLayout, Tab.snapshot, TabContent.snapshot, invalid_bind, check_eq_ok,
        paneIds, not_not]
      exact ⟨valid.idsNodup, validateLayoutSnapshot_fromLayout valid.leavesPerm valid.idsNodup
        valid.ratiosInRange fits.depth⟩
  | diff path | file path => rfl

/-- The table of a Tab has one node for each Pane and one for each split between them. -/
theorem Tab.snapshot_counts {bound : ℕ} {tab : Tab} (valid : tab.content.Valid bound) :
    tab.snapshot.paneCount = tab.panes.length ∧
      tab.snapshot.nodeCount = 2 * tab.panes.length - 1 := by
  rcases tab with ⟨id, name, content⟩
  cases content with
  | terminals terminals =>
      have nodes := (LayoutSnapshot.occupies_fromLayout terminals.layout).1
      have count := terminals.layout.nodeCount_eq
      have leaves := valid.leavesPerm.length_eq
      simp only [TerminalLayout.paneIds, List.length_map] at leaves
      have panes : Tab.panes ⟨id, name, .terminals terminals⟩ = terminals.panes := rfl
      refine ⟨by simp [TabSnapshot.paneCount, snapshot, TabContent.snapshot, panes], ?_⟩
      simp only [TabSnapshot.nodeCount, snapshot, TabContent.snapshot, panes, nodes]
      omega
  | diff path | file path => exact ⟨rfl, rfl⟩

/-- The tables of several Tabs, of which some show terminals. -/
theorem sum_nodeCount_le (counts : List ℕ) :
    (counts.map fun count => 2 * count - 1).sum ≤ 2 * counts.sum - 1 := by
  induction counts with
  | nil => rfl
  | cons count counts ih =>
      simp only [List.map_cons, List.sum_cons]
      omega

/-- The snapshot of a well-formed Session is within every limit. -/
theorem Session.WellFormed.snapshot_resources {nextId : ℕ} {session : Session}
    (wellFormed : session.WellFormed nextId) : session.snapshot.Resources := by
  have counts := fun tab (contained : tab ∈ session.tabs) =>
    Tab.snapshot_counts (wellFormed.tabValid contained).content
  have tabs : session.snapshot.tabs = session.tabs.map Tab.snapshot := by
    simp [SessionSnapshot.tabs, Session.snapshot, Workspace.snapshot, Session.tabs,
      List.flatMap_map, List.map_flatMap]
  have panes : session.snapshot.tabs.map (·.paneCount) = session.tabs.map (·.panes.length) := by
    rw [tabs, List.map_map]
    exact List.map_congr_left fun tab contained => (counts tab contained).1
  have nodes : session.snapshot.tabs.map (·.nodeCount) =
      (session.tabs.map (·.panes.length)).map fun count => 2 * count - 1 := by
    rw [tabs, List.map_map, List.map_map]
    exact List.map_congr_left fun tab contained => (counts tab contained).2
  have paneLimit := wellFormed.paneLimit
  refine ⟨?_, ?_, ?_, ?_, ?_⟩
  · simpa [Session.snapshot] using wellFormed.workspaceLimit
  · have tabLimit := wellFormed.tabLimit
    simpa [Session.snapshot, Workspace.snapshot, Session.tabCount, Function.comp_def] using tabLimit
  · rw [panes]
    exact paneLimit
  · rw [nodes]
    apply (sum_nodeCount_le _).trans
    simp only [maxSnapshotLayoutNodes]
    rw [Session.paneCount] at paneLimit
    omega
  · intro workspaceSnapshot contained tabSnapshot tabContained
    rcases List.mem_map.mp contained with ⟨workspace, workspaceMem, rfl⟩
    rcases List.mem_map.mp tabContained with ⟨tab, tabMem, rfl⟩
    have inSession := Session.tabs_mem workspaceMem tabMem
    exact validateTabLayout_snapshot (wellFormed.tabValid inSession).content
      (wellFormed.tabsFit tab inSession)

/-- `restore` brings a well-formed Session back, except zoom, and moves the counter behind
its ids. -/
theorem Session.WellFormed.restore_snapshot {nextId : ℕ} {session : Session}
    (wellFormed : session.WellFormed nextId) (counter : nextId ≤ maxNextStableIdExclusive)
    (started : ℕ) :
    Session.restore session.snapshot started =
      .ok { session := session.withoutZoom, nextId := max started (session.maxId + 1) } := by
  have restored : session.snapshot.workspaces.mapM WorkspaceSnapshot.restore =
      some (session.workspaces.map Workspace.withoutZoom) := by
    rw [Lists.mapM_eq_some_iff]
    simp only [Session.snapshot, List.map_map]
    exact List.map_congr_left fun workspace contained =>
      Workspace.restore_snapshot (wellFormed.workspaceFits contained)
  have sameMax : session.withoutZoom.maxId = session.maxId := by
    simp only [Session.maxId, Session.withoutZoom_stableIds]
  have accepted : session.withoutZoom.validate = .ok session.maxId :=
    Session.validate_eq_ok.mpr
      ⟨(wellFormed.toValid.mono counter).withoutZoom, sameMax.symm⟩
  simp only [Session.restore, Lists.bind_eq_ok, restored]
  exact ⟨(), validateSnapshotResources_eq_ok.mpr wellFormed.snapshot_resources, session.maxId,
    accepted, rfl⟩

end Condr
