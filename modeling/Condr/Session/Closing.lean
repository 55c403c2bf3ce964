import Condr.Session.Context
import Condr.Session.Runs

/-!
# What closing closes

A Pane goes with its Tab when it is the last one, and a Tab with its Workspace. What is closed is
listed, each id once, and everything else stays where it was. The focus of a Tab that lost its
focused Pane goes back to the one focused before it, or to the first one of the layout.
-/

namespace Condr

/-- The terminals of a Tab without one of several Panes. -/
structure TerminalLayout.Loses (terminals : TerminalLayout) (paneId : PaneId)
    (next : TerminalLayout) : Prop where
  panes : ∃ front pane back, terminals.panes = front ++ pane :: back ∧ pane.id = paneId ∧
    next.panes = front ++ back ∧ front ++ back ≠ []
  layout : terminals.layout.Detaches paneId next.layout
  history : next.focusHistory =
    if terminals.focusedPane = paneId then terminals.focusHistory.dropLast
    else terminals.focusHistory.filter (· ≠ paneId)
  /-- The history ends with the Pane focused last before. -/
  focused : next.focusedPane =
    if terminals.focusedPane = paneId then
      terminals.focusHistory.getLast?.getD next.layout.firstPaneId
    else terminals.focusedPane
  zoomed : next.zoomedPane =
    if terminals.zoomedPane = some paneId then none else terminals.zoomedPane

/-- A Workspace, a Tab or a Pane is closed, and what is around it stays. -/
inductive Session.Closes : Session → CloseOutcome → Session → Prop where
  | workspace {front back : List Workspace} (closed : Workspace) :
      Closes ⟨front ++ closed :: back⟩ ⟨closed.paneIds, closed.tabIds, [closed.id]⟩ ⟨front ++ back⟩
  | tab {front back : List Workspace} (workspace : Workspace) {tabs others : List Tab} (closed : Tab)
      (around : workspace.tabs = tabs ++ closed :: others) (several : tabs ++ others ≠ []) :
      Closes ⟨front ++ workspace :: back⟩ ⟨closed.paneIds, [closed.id], []⟩
        ⟨front ++ { workspace with tabs := tabs ++ others } :: back⟩
  | pane {front back : List Workspace} (workspace : Workspace) {tabs others : List Tab} (tab : Tab)
      {terminals next : TerminalLayout} {paneId : PaneId}
      (around : workspace.tabs = tabs ++ tab :: others) (shown : tab.content = .terminals terminals)
      (loses : terminals.Loses paneId next) :
      Closes ⟨front ++ workspace :: back⟩ ⟨[paneId], [], []⟩
        ⟨front ++ { workspace with
          tabs := tabs ++ { tab with content := .terminals next } :: others } :: back⟩

/-- What was there before and is not there after is listed, once. -/
structure CloseOutcome.Exact (outcome : CloseOutcome) (session next : Session) : Prop where
  panes : outcome.panes.Nodup ∧
    ∀ id, id ∈ outcome.panes ↔ id ∈ session.paneIds ∧ id ∉ next.paneIds
  tabs : outcome.tabs.Nodup ∧ ∀ id, id ∈ outcome.tabs ↔ id ∈ session.tabIds ∧ id ∉ next.tabIds
  workspaces : outcome.workspaces.Nodup ∧
    ∀ id, id ∈ outcome.workspaces ↔ id ∈ session.workspaceIds ∧ id ∉ next.workspaceIds

variable {session next : Session} {outcome : CloseOutcome} {nextId : ℕ}

/-! ## What is listed -/

theorem Session.Closes.paneIds (closes : session.Closes outcome next) :
    session.paneIds.Perm (outcome.panes ++ next.paneIds) := by
  cases closes with
  | @workspace front back closed =>
      simp only [Session.paneIds_eq_flatMap, List.flatMap_append, List.flatMap_cons]
      exact List.perm_append_comm_assoc ..
  | @tab front back workspace tabs others closed around several =>
      have inside : workspace.paneIds.Perm
          (closed.paneIds ++ Workspace.paneIds { workspace with tabs := tabs ++ others }) := by
        simp only [Workspace.paneIds, around, List.flatMap_append, List.flatMap_cons]
        exact List.perm_append_comm_assoc ..
      simp only [Session.paneIds_eq_flatMap, List.flatMap_append, List.flatMap_cons]
      refine ((inside.append_right _).append_left _).trans ?_
      rw [List.append_assoc]
      exact List.perm_append_comm_assoc ..
  | @pane front back workspace tabs others tab terminals later paneId around shown loses =>
      rcases loses.panes with ⟨before, pane, behind, panes, rfl, rest, -⟩
      have here : tab.paneIds.Perm
          (pane.id :: Tab.paneIds { tab with content := .terminals later }) := by
        rw [Tab.paneIds_terminals shown, Tab.paneIds_terminals rfl, TerminalLayout.paneIds,
          TerminalLayout.paneIds, panes, rest, List.map_append, List.map_append, List.map_cons]
        exact List.perm_middle
      have inside : workspace.paneIds.Perm ([pane.id] ++ Workspace.paneIds { workspace with
          tabs := tabs ++ { tab with content := .terminals later } :: others }) := by
        simp only [Workspace.paneIds, around, List.flatMap_append, List.flatMap_cons]
        refine ((here.append_right _).append_left _).trans ?_
        exact List.perm_middle
      simp only [Session.paneIds_eq_flatMap, List.flatMap_append, List.flatMap_cons]
      refine ((inside.append_right _).append_left _).trans ?_
      exact List.perm_middle

theorem Session.Closes.tabIds (closes : session.Closes outcome next) :
    session.tabIds.Perm (outcome.tabs ++ next.tabIds) := by
  cases closes with
  | @workspace front back closed =>
      simp only [Session.tabIds_eq, List.flatMap_append, List.flatMap_cons]
      exact List.perm_append_comm_assoc ..
  | @tab front back workspace tabs others closed around several =>
      have inside : workspace.tabIds.Perm
          ([closed.id] ++ Workspace.tabIds { workspace with tabs := tabs ++ others }) := by
        simp only [Workspace.tabIds, around, List.map_append, List.map_cons]
        exact List.perm_middle
      simp only [Session.tabIds_eq, List.flatMap_append, List.flatMap_cons]
      refine ((inside.append_right _).append_left _).trans ?_
      exact List.perm_middle
  | @pane front back workspace tabs others tab terminals later paneId around shown loses =>
      simp only [Session.tabIds_eq, List.flatMap_append, List.flatMap_cons, Workspace.tabIds,
        around, List.map_append, List.map_cons, List.nil_append]
      exact .refl _

theorem Session.Closes.workspaceIds (closes : session.Closes outcome next) :
    session.workspaceIds.Perm (outcome.workspaces ++ next.workspaceIds) := by
  cases closes with
  | @workspace front back closed =>
      simp only [Session.workspaceIds, List.map_append, List.map_cons]
      exact List.perm_middle
  | @tab front back workspace tabs others closed around several =>
      simp [Session.workspaceIds]
  | @pane front back workspace tabs others tab terminals later paneId around shown loses =>
      simp [Session.workspaceIds]

/-- What is closed and what is left have nothing in common. -/
theorem Session.Closes.exact (closes : session.Closes outcome next)
    (wellFormed : session.WellFormed nextId) : outcome.Exact session next where
  panes := Lists.exact_of_perm closes.paneIds wellFormed.paneIdsNodup
  tabs := Lists.exact_of_perm closes.tabIds wellFormed.tabIdsNodup
  workspaces := Lists.exact_of_perm closes.workspaceIds wellFormed.workspaceIdsNodup

/-! ## What each operation closes -/

/-- The Pane's place in the layout goes to its sibling, and the focus back to a Pane of the Tab. -/
theorem TerminalLayout.loses_of_removePane {terminals later : TerminalLayout} {paneId : PaneId}
    {paneIx : ℕ} {pane : Pane} (valid : terminals.Valid nextId)
    (paneAt : terminals.panes[paneIx]? = some pane) (id : pane.id = paneId)
    (several : 1 < terminals.panes.length)
    (removes : terminals.removePane paneId paneIx = some later) :
    terminals.Loses paneId later := by
  simp only [removePane, Option.bind_eq_bind, Option.bind_eq_some_iff] at removes
  rcases removes with ⟨layout, layoutEq, removes⟩
  have member : paneId ∈ terminals.layout.leaves := by
    rw [valid.mem_leaves, ← id]
    exact List.mem_map_of_mem (List.mem_of_getElem? paneAt)
  have detaches := (PaneLayout.removeFromLayout_eq_some_iff valid.leavesNodup member).mp layoutEq
  have remaining : (terminals.panes.eraseIdx paneIx).map (·.id) =
      terminals.paneIds.filter (· ≠ paneId) := by
    rw [← id]
    exact Lists.map_eraseIdx_eq_filter valid.idsNodup paneAt
  rcases Lists.exists_segments paneAt with ⟨front, back, split, -, -, erased⟩
  have panes : ∃ front pane back, terminals.panes = front ++ pane :: back ∧ pane.id = paneId ∧
      terminals.panes.eraseIdx paneIx = front ++ back ∧ front ++ back ≠ [] := by
    refine ⟨front, pane, back, split, id, erased, ?_⟩
    intro nothing
    have length := congrArg List.length split
    have none := congrArg List.length nothing
    simp only [List.length_append, List.length_cons, List.length_nil] at length none
    omega
  by_cases here : terminals.focusedPane = paneId
  · -- no history names the focused Pane, and all that it names is in the Tab
    have kept : terminals.focusHistory.filter (· ≠ paneId) = terminals.focusHistory := by
      apply List.filter_eq_self.mpr
      intro other contained
      apply decide_eq_true
      intro same
      exact (valid.historyMem other contained).2 (same.trans here.symm)
    have found : terminals.focusHistory.getLast?.filter
        (fun id => (terminals.panes.eraseIdx paneIx).any (·.id = id)) =
          terminals.focusHistory.getLast? := by
      cases lastAt : terminals.focusHistory.getLast? with
      | none => rfl
      | some last =>
          apply Option.filter_some_pos
          have contained := List.mem_of_getLast? lastAt
          have listed : last ∈ (terminals.panes.eraseIdx paneIx).map (·.id) := by
            rw [remaining, List.mem_filter]
            refine ⟨(valid.historyMem last contained).1, decide_eq_true ?_⟩
            intro same
            exact (valid.historyMem last contained).2 (same.trans here.symm)
          rcases List.mem_map.mp listed with ⟨other, otherMem, same⟩
          exact List.any_eq_true.mpr ⟨other, otherMem, decide_eq_true same⟩
    rw [if_pos here] at removes
    cases Option.some.inj removes
    refine ⟨panes, detaches, ?_, ?_, rfl⟩
    · rw [if_pos here, kept]
    · simp only [kept, found]
      rw [if_pos here]
  · rw [if_neg here] at removes
    cases Option.some.inj removes
    exact ⟨panes, detaches, by rw [if_neg here], by rw [if_neg here], rfl⟩

theorem Session.closeWorkspace_cases {workspaceId : WorkspaceId}
    (closed : session.closeWorkspace workspaceId = some (outcome, next)) :
    ∃ front workspace back, session.workspaces = front ++ workspace :: back ∧
      workspace.id = workspaceId ∧ next = ⟨front ++ back⟩ ∧
      outcome = ⟨workspace.paneIds, workspace.tabIds, [workspace.id]⟩ := by
  simp only [closeWorkspace, Option.bind_eq_bind, Option.bind_eq_some_iff, Option.some.injEq,
    Prod.mk.injEq] at closed
  rcases closed with ⟨workspaceIx, found, workspace, workspaceAt, rfl, rfl⟩
  rcases Lists.findIdx?_getElem? found with ⟨same, sameAt, id⟩
  rw [workspaceAt, Option.some.injEq] at sameAt
  subst sameAt
  rcases Lists.exists_segments workspaceAt with ⟨front, back, split, -, -, erased⟩
  exact ⟨front, workspace, back, split, of_decide_eq_true id, by rw [erased],
    by rw [of_decide_eq_true id]⟩

theorem Session.closes_of_closeWorkspace {workspaceId : WorkspaceId}
    (closed : session.closeWorkspace workspaceId = some (outcome, next)) :
    session.Closes outcome next ∧ workspaceId ∈ outcome.workspaces := by
  rcases Session.closeWorkspace_cases closed with ⟨front, workspace, back, split, rfl, rfl, rfl⟩
  rcases session with ⟨workspaces⟩
  change workspaces = front ++ workspace :: back at split
  subst split
  exact ⟨.workspace workspace, List.mem_singleton_self _⟩

/-- A Workspace that keeps other Tabs. -/
theorem Session.closes_tab {workspaceIx tabIx : ℕ} {workspace : Workspace} {tab : Tab}
    {change : Workspace → Workspace}
    (workspaceAt : session.workspaces[workspaceIx]? = some workspace)
    (tabAt : workspace.tabs[tabIx]? = some tab) (several : workspace.tabs.length ≠ 1)
    (changes : change workspace = { workspace with tabs := workspace.tabs.eraseIdx tabIx }) :
    session.Closes ⟨tab.paneIds, [tab.id], []⟩ (session.modifyWorkspace workspaceIx change) := by
  rcases Lists.exists_segments tabAt with ⟨tabs, others, around, -, -, erased⟩
  rcases Lists.exists_segments workspaceAt with ⟨front, back, split, -, edited, -⟩
  rcases session with ⟨workspaces⟩
  change workspaces = front ++ workspace :: back at split
  have result : Session.modifyWorkspace ⟨workspaces⟩ workspaceIx change =
      ⟨front ++ { workspace with tabs := tabs ++ others } :: back⟩ := by
    rw [← erased, ← changes]
    exact congrArg Session.mk (edited _)
  rw [result, split]
  refine .tab workspace tab around ?_
  intro nothing
  have length := congrArg List.length around
  have none := congrArg List.length nothing
  simp only [List.length_append, List.length_cons, List.length_nil] at length none
  omega

theorem Session.closes_of_closeTab (wellFormed : session.WellFormed nextId) {tabId : TabId}
    (closed : session.closeTab tabId = some (outcome, next)) :
    session.Closes outcome next ∧ tabId ∈ outcome.tabs := by
  simp only [closeTab, Option.bind_eq_bind, Option.bind_eq_some_iff] at closed
  rcases closed with ⟨workspaceIx, -, workspace, workspaceAt, tabIx, tabFound, closed⟩
  rcases Lists.findIdx?_getElem? tabFound with ⟨tab, tabAt, id⟩
  by_cases last : workspace.tabs.length = 1
  · -- the Workspace with the id is the one the Tab is in
    rw [if_pos last] at closed
    rcases Session.closeWorkspace_cases closed with ⟨front, other, back, split, same, -, lists⟩
    have otherMem : other ∈ session.workspaces := by
      rw [split]
      exact List.mem_append_right _ List.mem_cons_self
    have here : other = workspace := List.inj_on_of_nodup_map wellFormed.workspaceIdsNodup otherMem
      (List.mem_of_getElem? workspaceAt) same
    refine ⟨(Session.closes_of_closeWorkspace closed).1, ?_⟩
    rw [lists, here, ← of_decide_eq_true id]
    exact List.mem_map_of_mem (List.mem_of_getElem? tabAt)
  · rw [if_neg last] at closed
    simp only [tabAt, Option.bind_some, Option.some.injEq, Prod.mk.injEq] at closed
    rcases closed with ⟨rfl, rfl⟩
    rw [← of_decide_eq_true id]
    exact ⟨Session.closes_tab workspaceAt tabAt last rfl, List.mem_singleton_self _⟩

theorem Session.closes_of_closePane (wellFormed : session.WellFormed nextId) {paneId : PaneId}
    (closed : session.closePane paneId = some (outcome, next)) :
    session.Closes outcome next ∧ paneId ∈ outcome.panes := by
  simp only [closePane, Option.bind_eq_bind, Option.bind_eq_some_iff] at closed
  rcases closed with ⟨⟨workspaceIx, tabIx, paneIx⟩, found, workspace', workspaceAt, tab', tabAt,
    closed⟩
  rcases Session.findPane_located found with ⟨workspace, tab, terminals, pane, located⟩
  rw [located.workspaceAt, Option.some.injEq] at workspaceAt
  subst workspaceAt
  rw [located.tabAt, Option.some.injEq] at tabAt
  subst tabAt
  rcases wellFormed.terminalsValid located with ⟨valid, -⟩
  have shown : tab.panes = terminals.panes := by
    simp [Tab.panes, Tab.terminals, located.content]
  by_cases several : 1 < tab.panes.length
  · rw [if_pos several] at closed
    simp only [Option.bind_eq_some_iff, Tab.terminals, located.content, Option.some.injEq,
      exists_eq_left', Prod.mk.injEq] at closed
    rcases closed with ⟨later, removes, rfl, rfl⟩
    rw [shown] at several
    have loses := TerminalLayout.loses_of_removePane valid located.paneAt located.id several removes
    rcases Lists.exists_segments located.workspaceAt with ⟨front, back, split, -, edited, -⟩
    rcases Lists.exists_segments located.tabAt with ⟨tabs, others, around, -, changed, -⟩
    rcases session with ⟨workspaces⟩
    change workspaces = front ++ workspace :: back at split
    have result : Session.setTerminals ⟨workspaces⟩ workspaceIx tabIx later =
        ⟨front ++ { workspace with
          tabs := tabs ++ { tab with content := .terminals later } :: others } :: back⟩ := by
      exact congrArg Session.mk ((edited _).trans (by rw [changed]))
    rw [result, split]
    exact ⟨.pane workspace tab around located.content loses, List.mem_singleton_self _⟩
  · -- the only Pane of its Tab
    have alone : tab.paneIds = [paneId] := by
      rw [shown] at several
      have inBounds := (List.getElem?_eq_some_iff.mp located.paneAt).1
      rcases List.length_eq_one_iff.mp (by omega : terminals.panes.length = 1) with ⟨only, panes⟩
      have first : paneIx = 0 := by
        rw [panes, List.length_singleton] at inBounds
        omega
      have same := located.paneAt
      rw [panes, first] at same
      rw [Tab.paneIds_terminals located.content, TerminalLayout.paneIds, panes, ← located.id,
        Option.some.inj same]
      rfl
    rw [if_neg several] at closed
    rcases Lists.exists_segments located.tabAt with ⟨tabs, others, around, -, -, erased⟩
    by_cases last : (workspace.tabs.eraseIdx tabIx).isEmpty = true
    · simp only [last, Bool.not_true, Bool.false_eq_true, if_false, Option.some.injEq,
        Prod.mk.injEq] at closed
      rcases closed with ⟨rfl, rfl⟩
      rw [erased, List.isEmpty_iff, List.append_eq_nil_iff] at last
      rcases last with ⟨rfl, rfl⟩
      rcases Lists.exists_segments located.workspaceAt with ⟨front, back, split, -, -, without⟩
      rcases session with ⟨workspaces⟩
      change workspaces = front ++ workspace :: back at split
      have ids : workspace.paneIds = [paneId] ∧ workspace.tabIds = [tab.id] := by
        simp [Workspace.paneIds, Workspace.tabIds, around, alone]
      rw [← ids.1, ← ids.2]
      change Session.Closes _ _ ⟨workspaces.eraseIdx workspaceIx⟩ ∧ _
      rw [without, split]
      exact ⟨.workspace workspace, by simp [ids.1]⟩
    · simp only [last, Bool.not_false, if_true, Option.some.injEq, Prod.mk.injEq] at closed
      rcases closed with ⟨rfl, rfl⟩
      rw [← alone]
      refine ⟨Session.closes_tab located.workspaceAt located.tabAt ?_ rfl, by simp [alone]⟩
      intro single
      apply last
      rw [erased, List.isEmpty_iff, List.append_eq_nil_iff]
      rw [around, List.length_append, List.length_cons] at single
      exact ⟨List.length_eq_zero_iff.mp (by omega), List.length_eq_zero_iff.mp (by omega)⟩

/-- Whatever is closed is listed, each id once, and the rest stays as it was. A Tab that remains is
focused on the Pane focused last before, or on the first one of its layout. -/
theorem closings_are_exact (wellFormed : session.WellFormed nextId) (outcome : CloseOutcome)
    (next : Session) :
    (∀ paneId, session.closePane paneId = some (outcome, next) →
      session.Closes outcome next ∧ outcome.Exact session next ∧ paneId ∈ outcome.panes) ∧
    (∀ tabId, session.closeTab tabId = some (outcome, next) →
      session.Closes outcome next ∧ outcome.Exact session next ∧ tabId ∈ outcome.tabs) ∧
    (∀ workspaceId, session.closeWorkspace workspaceId = some (outcome, next) →
      session.Closes outcome next ∧ outcome.Exact session next ∧
        workspaceId ∈ outcome.workspaces) := by
  refine ⟨?_, ?_, ?_⟩
  · intro paneId closed
    rcases Session.closes_of_closePane wellFormed closed with ⟨closes, listed⟩
    exact ⟨closes, closes.exact wellFormed, listed⟩
  · intro tabId closed
    rcases Session.closes_of_closeTab wellFormed closed with ⟨closes, listed⟩
    exact ⟨closes, closes.exact wellFormed, listed⟩
  · intro workspaceId closed
    rcases Session.closes_of_closeWorkspace closed with ⟨closes, listed⟩
    exact ⟨closes, closes.exact wellFormed, listed⟩

/-- Three Panes in a row, the last of which is focused and the only one that ever was. -/
def focusedLast : Store :=
  runOperations ⟨.empty, 1⟩ [.createWorkspace (.utf8 "/work"),
    .splitPaneInBackground ⟨3⟩ .horizontal (.finite (1 / 2)),
    .splitPaneInBackground ⟨3⟩ .horizontal (.finite (1 / 2)),
    .splitPaneInBackground ⟨4⟩ .horizontal (.finite (1 / 2)), .focusPane ⟨6⟩, .closePane ⟨3⟩]

theorem focusedLast_reachable : sessionSystem.Reachable focusedLast :=
  runOperations_reachable emptyStore_reachable (by simp [SessionOperation.Checked])

theorem closings_are_exact_example :
    ∃ outcome next, focusedLast.session.closePane ⟨6⟩ = some (outcome, next) ∧
      focusedLast.session.Closes outcome next ∧ outcome.Exact focusedLast.session next := by
  have wellFormed := (sessionSystem_wellFormed focusedLast_reachable).session
  have closes : (focusedLast.session.closePane ⟨6⟩).isSome = true := by decide
  rcases Option.isSome_iff_exists.mp closes with ⟨⟨outcome, next⟩, closed⟩
  rcases (closings_are_exact wellFormed outcome next).1 ⟨6⟩ closed with ⟨spec, exact, -⟩
  exact ⟨outcome, next, closed, spec, exact⟩

/-- The focus goes to a Pane that was not focused before and is no neighbor, past the one that is. -/
theorem closed_focus_may_pass_neighbor :
    sessionSystem.Reachable focusedLast ∧
      ∃ before after outcome next, focusedLast.session.terminalLayout 0 0 = some before ∧
        before.focusedPane = ⟨6⟩ ∧ before.focusHistory = [] ∧
        before.layout.neighborPaneId ⟨6⟩ .left = some ⟨4⟩ ∧
        (∀ direction, before.layout.neighborPaneId ⟨6⟩ direction ≠ some ⟨5⟩) ∧
        focusedLast.session.closePane ⟨6⟩ = some (outcome, next) ∧
        next.terminalLayout 0 0 = some after ∧ ⟨4⟩ ∈ after.paneIds ∧
        after.focusedPane = ⟨5⟩ := by
  refine ⟨focusedLast_reachable, _, _, _, _, rfl, rfl, rfl, by decide +kernel, ?_, rfl, rfl,
    by decide, rfl⟩
  intro direction
  cases direction <;> decide +kernel

end Condr
