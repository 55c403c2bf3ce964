import Condr.Session.Context
import Condr.Session.Runs

/-!
# Moving and exchanging Panes

A Pane that moves leaves its place in the layout to its sibling and comes back beside its target.
Two Panes that are exchanged trade their places, and trade them back when exchanged again.
-/

namespace Condr

/-- The same Session but for the layout of one Tab, which has both Panes. -/
def Session.Relays (session : Session) (paneId other : PaneId) (before after : PaneLayout F32)
    (next : Session) : Prop :=
  paneId ≠ other ∧ ∃ workspaceIx tabIx paneIx workspace tab terminals pane,
    session.Located paneId workspaceIx tabIx paneIx workspace tab terminals pane ∧
    other ∈ terminals.paneIds ∧ terminals.layout = before ∧
    next = session.setTerminals workspaceIx tabIx { terminals with layout := after }

/-! ## Searching again -/

theorem Session.findPane_congr {session next : Session}
    (same : next.workspaces.map (fun workspace => workspace.tabs.map Tab.panes) =
      session.workspaces.map fun workspace => workspace.tabs.map Tab.panes) (paneId : PaneId) :
    next.findPane paneId = session.findPane paneId := by
  have reads : ∀ session : Session, session.findPane paneId =
      (session.workspaces.map fun workspace => workspace.tabs.map Tab.panes).zipIdx.findSome?
        fun (tabs, workspaceIx) => tabs.zipIdx.findSome? fun (panes, tabIx) =>
          (panes.findIdx? (·.id = paneId)).map (workspaceIx, tabIx, ·) := by
    intro session
    simp only [findPane, List.zipIdx_map, List.findSome?_map, Function.comp_def, Prod.map_fst,
      Prod.map_snd, id]
  rw [reads, reads, same]

namespace Session.Located

variable {session : Session} {paneId : PaneId} {workspaceIx tabIx paneIx : ℕ}
  {workspace : Workspace} {tab : Tab} {terminals : TerminalLayout} {pane : Pane}

/-- Another layout of a Tab leaves its Panes where they are found. -/
theorem findPane_setTerminals
    (located : session.Located paneId workspaceIx tabIx paneIx workspace tab terminals pane)
    (layout : PaneLayout F32) (other : PaneId) :
    (session.setTerminals workspaceIx tabIx { terminals with layout }).findPane other =
      session.findPane other := by
  apply Session.findPane_congr
  apply Lists.map_modify_of_same
  intro found foundAt
  rw [located.workspaceAt, Option.some.injEq] at foundAt
  subst foundAt
  apply Lists.map_modify_of_same
  intro shown shownAt
  rw [located.tabAt, Option.some.injEq] at shownAt
  subst shownAt
  simp [Tab.panes, Tab.terminals, located.content]

/-- A Tab that gets its terminals back is as it was, and so is the Session. -/
theorem setTerminals_setTerminals
    (located : session.Located paneId workspaceIx tabIx paneIx workspace tab terminals pane)
    (between : TerminalLayout) :
    (session.setTerminals workspaceIx tabIx between).setTerminals workspaceIx tabIx terminals =
      session := by
  have restores : workspace.tabs.modify tabIx (fun tab => { tab with
      content := .terminals terminals }) = workspace.tabs := by
    apply Lists.modify_eq_self
    intro found foundAt
    rw [located.tabAt, Option.some.injEq] at foundAt
    subst foundAt
    rw [← located.content]
  simp only [Session.setTerminals, Session.modifyTab, Session.modifyWorkspace,
    List.modify_modify_eq]
  apply congrArg Session.mk
  apply Lists.modify_eq_self
  intro found foundAt
  rw [located.workspaceAt, Option.some.injEq] at foundAt
  subst foundAt
  simp only [Function.comp_apply, List.modify_modify_eq]
  exact congrArg (fun tabs => { workspace with tabs }) restores

theorem terminalLayout_setTerminals
    (located : session.Located paneId workspaceIx tabIx paneIx workspace tab terminals pane)
    (next : TerminalLayout) :
    (session.setTerminals workspaceIx tabIx next).terminalLayout workspaceIx tabIx = some next := by
  simp [Session.terminalLayout, Session.setTerminals, Session.modifyTab, Session.modifyWorkspace,
    located.workspaceAt, located.tabAt, Tab.terminals]

end Session.Located

theorem Session.withTerminals_eq_false {session next : Session} {paneId : PaneId}
    {change : TerminalLayout → Option TerminalLayout}
    (fails : session.withTerminals paneId change = (false, next)) : next = session := by
  rw [withTerminals] at fails
  cases found : session.findPane paneId with
  | none =>
      rw [found] at fails
      exact (Prod.mk.inj fails).2.symm
  | some place =>
      rcases place with ⟨workspaceIx, tabIx, paneIx⟩
      rw [found] at fails
      cases changed : (session.terminalLayout workspaceIx tabIx).bind change with
      | none =>
          simp only [changed, Prod.mk.injEq, true_and] at fails
          exact fails.symm
      | some terminals => simp [changed] at fails

theorem Session.withTerminals_eq_true {session next : Session} {paneId : PaneId}
    {change : TerminalLayout → Option TerminalLayout}
    (succeeds : session.withTerminals paneId change = (true, next)) :
    ∃ workspaceIx tabIx paneIx workspace tab terminals pane changed,
      session.findPane paneId = some (workspaceIx, tabIx, paneIx) ∧
      session.Located paneId workspaceIx tabIx paneIx workspace tab terminals pane ∧
      change terminals = some changed ∧ next = session.setTerminals workspaceIx tabIx changed := by
  rw [withTerminals] at succeeds
  cases found : session.findPane paneId with
  | none =>
      rw [found] at succeeds
      cases succeeds
  | some place =>
      rcases place with ⟨workspaceIx, tabIx, paneIx⟩
      rcases Session.findPane_located found with ⟨workspace, tab, terminals, pane, located⟩
      rw [found] at succeeds
      simp only [located.terminalLayout, Option.bind_some] at succeeds
      cases outcome : change terminals with
      | none => simp [outcome] at succeeds
      | some changed =>
          simp only [outcome, Prod.mk.injEq, true_and] at succeeds
          exact ⟨workspaceIx, tabIx, paneIx, workspace, tab, terminals, pane, changed, rfl,
            located, outcome, succeeds.symm⟩

/-! ## Moving -/

theorem TerminalLayout.movePane_cases {terminals next : TerminalLayout} {paneId target : PaneId}
    {side : PaneDirection} (moves : terminals.movePane paneId target side = some next) :
    ∃ rest after, terminals.layout.removeFromLayout paneId = some rest ∧
      rest.splitLayout target paneId side (RatioNumber.literal (1 / 2)) = (true, after) ∧
      next = { terminals with layout := after } := by
  simp only [movePane, Option.bind_eq_bind, Option.bind_eq_some_iff] at moves
  rcases moves with ⟨rest, removes, depth, -, moves⟩
  by_cases deep : maxSnapshotLayoutDepth ≤ depth
  · rw [if_pos deep] at moves
    cases moves
  · rcases outcome : rest.splitLayout target paneId side (RatioNumber.literal (1 / 2))
      with ⟨done, after⟩
    rw [if_neg deep, outcome] at moves
    cases done with
    | false => simp at moves
    | true => exact ⟨rest, after, removes, outcome, (Option.some.inj moves).symm⟩

/-- A move takes the Pane out of the layout and puts it back beside the target. -/
theorem Session.movePane_spec {session next : Session} {nextId : ℕ}
    (wellFormed : session.WellFormed nextId) {paneId target : PaneId} {side : PaneDirection}
    (moves : session.movePane paneId target side = (true, next)) :
    ∃ before rest after, session.Relays paneId target before after next ∧
      before.Detaches paneId rest ∧
      rest.Attaches target paneId side (RatioNumber.literal (1 / 2)) after ∧
      after.removeFromLayout paneId = before.removeFromLayout paneId ∧
      after.leaves.Perm before.leaves ∧ after.depth ≤ maxSnapshotLayoutDepth := by
  rw [movePane] at moves
  by_cases same : paneId = target
  · rw [if_pos same] at moves
    cases moves
  rw [if_neg same] at moves
  rcases Session.withTerminals_eq_true moves with ⟨workspaceIx, tabIx, paneIx, workspace, tab,
    terminals, pane, moved, -, located, changed, rfl⟩
  split_ifs at changed with known
  rcases wellFormed.terminalsValid located with ⟨valid, fits⟩
  have rearranges := TerminalLayout.movePane_rearranges valid fits located.paneIds_mem changed
  rcases TerminalLayout.movePane_cases changed with ⟨rest, after, removes, splits, rfl⟩
  have member : paneId ∈ terminals.layout.leaves := valid.mem_leaves.mpr located.paneIds_mem
  have restNodup : rest.leaves.Nodup := by
    rw [(PaneLayout.removeFromLayout_eq_some removes).1]
    exact valid.leavesNodup.filter _
  have leaves : after.leaves.Perm terminals.layout.leaves :=
    rearranges.valid.leavesPerm.trans valid.leavesPerm.symm
  have attaches := (PaneLayout.splitLayout_eq_iff restNodup).mp splits
  refine ⟨terminals.layout, rest, after, ⟨same, ?_⟩, ?_, attaches, ?_, leaves,
    rearranges.fits.depth⟩
  · refine ⟨workspaceIx, tabIx, paneIx, workspace, tab, terminals, pane, located, ?_, rfl, rfl⟩
    simpa [TerminalLayout.paneIds] using known
  · exact (PaneLayout.removeFromLayout_eq_some_iff valid.leavesNodup member).mp removes
  · rw [removes, PaneLayout.removeFromLayout_eq_some_iff (leaves.nodup_iff.mpr valid.leavesNodup)
      (leaves.mem_iff.mpr member)]
    exact attaches.detaches

/-! ## Exchanging -/

/-- An exchange renames two Panes in the layout, and is undone by another. -/
theorem Session.swapPanes_spec {session next : Session} {paneId other : PaneId}
    (swaps : session.swapPanes paneId other = (true, next)) :
    ∃ before, session.Relays paneId other before (before.relabel (Equiv.swap paneId other)) next ∧
      next.swapPanes paneId other = (true, session) := by
  rw [swapPanes] at swaps
  by_cases same : paneId = other
  · rw [if_pos same] at swaps
    cases swaps
  rw [if_neg same] at swaps
  rcases Session.withTerminals_eq_true swaps with ⟨workspaceIx, tabIx, paneIx, workspace, tab,
    terminals, pane, swapped, found, located, changed, rfl⟩
  split_ifs at changed with known
  rcases Option.some.inj changed with rfl
  refine ⟨terminals.layout, ⟨same, ?_⟩, ?_⟩
  · refine ⟨workspaceIx, tabIx, paneIx, workspace, tab, terminals, pane, located, ?_, rfl, ?_⟩
    · simpa [TerminalLayout.paneIds] using known
    · rw [PaneLayout.swapLayoutPanes_eq]
  · have back := located.setTerminals_setTerminals
      { terminals with layout := terminals.layout.swapLayoutPanes paneId other }
    rw [swapPanes, if_neg same, withTerminals, located.findPane_setTerminals, found]
    simp only [located.terminalLayout_setTerminals, Option.bind_some, known, if_true,
      PaneLayout.swapLayoutPanes_swapLayoutPanes]
    rw [back]

theorem Session.eq_of_movePane_fails {session next : Session} {paneId target : PaneId}
    {side : PaneDirection} (fails : session.movePane paneId target side = (false, next)) :
    next = session := by
  rw [movePane] at fails
  split_ifs at fails
  · exact (Prod.mk.inj fails).2.symm
  · exact Session.withTerminals_eq_false fails

theorem Session.eq_of_swapPanes_fails {session next : Session} {paneId other : PaneId}
    (fails : session.swapPanes paneId other = (false, next)) : next = session := by
  rw [swapPanes] at fails
  split_ifs at fails
  · exact (Prod.mk.inj fails).2.symm
  · exact Session.withTerminals_eq_false fails

/-- A move that reports success removed the Pane and split its target with it, an exchange traded
two Panes, and neither changed anything else or, when it failed, anything at all. -/
theorem panes_move_and_swap {session : Session} {nextId : ℕ}
    (wellFormed : session.WellFormed nextId) (paneId other : PaneId) (side : PaneDirection) :
    (∀ next, session.movePane paneId other side = (true, next) →
      ∃ before rest after, session.Relays paneId other before after next ∧
        before.Detaches paneId rest ∧
        rest.Attaches other paneId side (RatioNumber.literal (1 / 2)) after ∧
        after.removeFromLayout paneId = before.removeFromLayout paneId ∧
        after.leaves.Perm before.leaves ∧ after.depth ≤ maxSnapshotLayoutDepth) ∧
    (∀ next, session.movePane paneId other side = (false, next) → next = session) ∧
    (∀ next, session.swapPanes paneId other = (true, next) →
      ∃ before, session.Relays paneId other before
          (before.relabel (Equiv.swap paneId other)) next ∧
        next.swapPanes paneId other = (true, session)) ∧
    (∀ next, session.swapPanes paneId other = (false, next) → next = session) := by
  refine ⟨?_, ?_, ?_, ?_⟩
  · intro next moves
    exact Session.movePane_spec wellFormed moves
  · intro next fails
    exact Session.eq_of_movePane_fails fails
  · intro next swaps
    exact Session.swapPanes_spec swaps
  · intro next fails
    exact Session.eq_of_swapPanes_fails fails

/-- A Workspace with three Panes, the second and the third one below the other. -/
def threePanes : Store :=
  runOperations ⟨.empty, 1⟩ [.createWorkspace (.utf8 "/work"),
    .splitPane ⟨3⟩ .horizontal (.finite (1 / 2)), .splitPane ⟨4⟩ .vertical (.finite (1 / 4))]

theorem threePanes_wellFormed : threePanes.session.WellFormed threePanes.nextId :=
  (sessionSystem_wellFormed (runOperations_reachable emptyStore_reachable
    (by simp [SessionOperation.Checked]))).session

theorem panes_move_and_swap_example :
    (∃ before rest after, threePanes.session.Relays ⟨4⟩ ⟨3⟩ before after
        (threePanes.session.movePane ⟨4⟩ ⟨3⟩ .up).2 ∧
      before.Detaches ⟨4⟩ rest ∧
      rest.Attaches ⟨3⟩ ⟨4⟩ .up (RatioNumber.literal (1 / 2)) after ∧
      after.removeFromLayout ⟨4⟩ = before.removeFromLayout ⟨4⟩ ∧
      after.leaves.Perm before.leaves ∧ after.depth ≤ maxSnapshotLayoutDepth) ∧
    (threePanes.session.swapPanes ⟨4⟩ ⟨3⟩).2.swapPanes ⟨4⟩ ⟨3⟩ = (true, threePanes.session) := by
  rcases panes_move_and_swap threePanes_wellFormed ⟨4⟩ ⟨3⟩ .up with ⟨moves, -, swaps, -⟩
  rcases swaps _ (Prod.ext (by decide) rfl) with ⟨before, -, undone⟩
  exact ⟨moves _ (Prod.ext (by decide) rfl), undone⟩

end Condr
