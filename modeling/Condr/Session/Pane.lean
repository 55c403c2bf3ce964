import Condr.Session.Basic

/-!
# Pane operations

The operations that reach a Pane through the Tab it lives in. Each returns the
Session it leaves, which is the one it was given where it reports failure.
-/

namespace Condr

namespace TerminalLayout

/-- The Pane at an index, changed in place. -/
def modifyPane (terminals : TerminalLayout) (paneIx : ℕ) (change : Pane → Pane) : TerminalLayout :=
  { terminals with panes := terminals.panes.modify paneIx change }

/-- The part of `split_pane` that changes the Tab; `none` when the target is not in the layout. -/
def attachPane (terminals : TerminalLayout) (paneId newPaneId : PaneId) (cwd : PathBuf)
    (side : PaneDirection) (ratio : F32) : Option TerminalLayout :=
  let (done, layout) := terminals.layout.splitLayout paneId newPaneId side ratio
  let previousFocus := terminals.focusedPane
  if done then
    some {
      panes := terminals.panes ++ [{ id := newPaneId, cwd := some cwd, agentResume := none }]
      focusedPane := newPaneId
      focusHistory := terminals.focusHistory.filter (· ≠ previousFocus) ++ [previousFocus]
      layout
      zoomedPane := none }
  else none

/-- The part of `focus_pane` that changes the Tab. -/
def focusPane (terminals : TerminalLayout) (paneId : PaneId) : TerminalLayout :=
  let previousFocus := terminals.focusedPane
  if previousFocus ≠ paneId then
    { terminals with
      focusHistory :=
        terminals.focusHistory.filter (fun id => id ≠ paneId && id ≠ previousFocus) ++
          [previousFocus]
      focusedPane := paneId }
  else terminals

/-- The part of `close_pane` that removes one of several Panes; `none` is its `expect`. -/
def removePane (terminals : TerminalLayout) (paneId : PaneId) (paneIx : ℕ) :
    Option TerminalLayout := do
  let layout ← terminals.layout.removeFromLayout paneId
  let panes := terminals.panes.eraseIdx paneIx
  let focusHistory := terminals.focusHistory.filter (· ≠ paneId)
  let zoomedPane := if terminals.zoomedPane = some paneId then none else terminals.zoomedPane
  if terminals.focusedPane = paneId then
    let popped := focusHistory.getLast?.filter fun id => panes.any (·.id = id)
    some {
      panes
      focusedPane := popped.getD layout.firstPaneId
      focusHistory := focusHistory.dropLast
      layout
      zoomedPane }
  else some { terminals with panes, focusHistory, layout, zoomedPane }

/-- The part of `move_pane` that changes the Tab. -/
def movePane (terminals : TerminalLayout) (paneId target : PaneId) (side : PaneDirection) :
    Option TerminalLayout := do
  let layout ← terminals.layout.removeFromLayout paneId
  let depth ← layout.paneLayoutDepth target 1
  if maxSnapshotLayoutDepth ≤ depth then none
  else
    let (done, layout) := layout.splitLayout target paneId side (RatioNumber.literal (1 / 2))
    if done then some { terminals with layout } else none

end TerminalLayout

namespace Session

/-- `set_pane_agent_resume`: reports whether the conversation to resume changed. -/
def setPaneAgentResume (session : Session) (paneId : PaneId) (resume : Option AgentResume) :
    Bool × Session :=
  if !validResume resume then (false, session)
  else match session.findPane paneId with
  | none => (false, session)
  | some (workspaceIx, tabIx, paneIx) =>
      match session.terminalLayout workspaceIx tabIx with
      | none => (false, session)
      | some terminals =>
          if (terminals.panes[paneIx]?).map (·.agentResume) = some resume then (false, session)
          else
            (true, session.setTerminals workspaceIx tabIx
              (terminals.modifyPane paneIx fun pane => { pane with agentResume := resume }))

end Session

def SplitDirection.side : SplitDirection → PaneDirection
  | .horizontal => .right
  | .vertical => .down

/-- `split_pane`. -/
def Store.splitPane (store : Store) (paneId : PaneId) (direction : SplitDirection) (ratio : F32) :
    Option PaneId × Store :=
  let session := store.session
  if maxSnapshotPanes ≤ session.paneCount then (none, store)
  else match session.findPane paneId with
  | none => (none, store)
  | some (workspaceIx, tabIx, paneIx) =>
      match session.workspaces[workspaceIx]?, session.terminalLayout workspaceIx tabIx with
      | some workspace, some terminals =>
          let cwd := ((terminals.panes[paneIx]?).bind (·.cwd)).getD workspace.rootDirectory
          match terminals.layout.paneLayoutDepth paneId 1 with
          | none => (none, store)
          | some depth =>
              if maxSnapshotLayoutDepth ≤ depth then (none, store)
              else match reserveIds store.nextId 1 with
              | none => (none, store)
              | some (first, nextId) =>
                  match terminals.attachPane paneId ⟨first⟩ cwd direction.side
                      (validSplitRatio ratio) with
                  | none => (none, { store with nextId })
                  | some terminals =>
                      (some ⟨first⟩,
                        { session := session.setTerminals workspaceIx tabIx terminals, nextId })
      | _, _ => (none, store)

namespace Session

/-- Applies a change to the Tab a Pane lives in; `none` changes nothing. -/
def withTerminals (session : Session) (paneId : PaneId)
    (change : TerminalLayout → Option TerminalLayout) : Bool × Session :=
  match session.findPane paneId with
  | none => (false, session)
  | some (workspaceIx, tabIx, _) =>
      match (session.terminalLayout workspaceIx tabIx).bind change with
      | none => (false, session)
      | some terminals => (true, session.setTerminals workspaceIx tabIx terminals)

/-- `set_pane_cwd`: the first Pane with the id, searched for like `find_pane` does. -/
def setPaneCwd (session : Session) (paneId : PaneId) (cwd : Option PathBuf) : Bool × Session :=
  match session.findPane paneId with
  | none => (false, session)
  | some (workspaceIx, tabIx, paneIx) =>
      match session.terminalLayout workspaceIx tabIx with
      | none => (false, session)
      | some terminals =>
          (true, session.setTerminals workspaceIx tabIx
            (terminals.modifyPane paneIx fun pane => { pane with cwd }))

def focusPane (session : Session) (paneId : PaneId) : Bool × Session :=
  session.withTerminals paneId fun terminals => some (terminals.focusPane paneId)

/-- `close_pane`. -/
def closePane (session : Session) (paneId : PaneId) : Option (CloseOutcome × Session) := do
  let (workspaceIx, tabIx, paneIx) ← session.findPane paneId
  let workspace ← session.workspaces[workspaceIx]?
  let tab ← workspace.tabs[tabIx]?
  if 1 < tab.panes.length then
    let terminals ← tab.terminals
    let terminals ← terminals.removePane paneId paneIx
    some (⟨[paneId], [], []⟩, session.setTerminals workspaceIx tabIx terminals)
  else
    let tabs := workspace.tabs.eraseIdx tabIx
    if !tabs.isEmpty then
      some (⟨[paneId], [tab.id], []⟩,
        session.modifyWorkspace workspaceIx fun workspace => { workspace with tabs })
    else
      some (⟨[paneId], [tab.id], [workspace.id]⟩,
        ⟨session.workspaces.eraseIdx workspaceIx⟩)

/-- `focus_pane_in_direction`. -/
def focusPaneInDirection (session : Session) (paneId : PaneId) (direction : PaneDirection) :
    Bool × Session :=
  match session.findPane paneId with
  | none => (false, session)
  | some (workspaceIx, tabIx, _) =>
      match (session.terminalLayout workspaceIx tabIx).bind
          (·.layout.neighborPaneId paneId direction) with
      | none => (false, session)
      | some neighbor => session.focusPane neighbor

end Session

/-- The boundary a resize moves: the trailing one when the Pane has a neighbor there. -/
def PaneDirection.boundaries : PaneDirection → PaneDirection × PaneDirection
  | .left | .right => (.right, .left)
  | .up | .down => (.down, .up)

open RatioNumber in
/-- The part of `resize_pane` that changes the layout. -/
def PaneLayout.resizePane {R : Type} [RatioNumber R] (layout : PaneLayout R) (paneId : PaneId)
    (direction : PaneDirection) (amount : R) : Bool × PaneLayout R :=
  let (trailing, leading) := direction.boundaries
  let found := match layout.neighborPaneId paneId trailing with
    | some neighbor => some (neighbor, decide (direction = trailing))
    | none =>
        (layout.neighborPaneId paneId leading).map (·, decide (direction = leading))
  match found with
  | none => (false, layout)
  | some (neighbor, paneGrows) =>
      let amount := RatioNumber.min (abs amount) (literal (2 / 5))
      if paneGrows then layout.resizeBetween paneId neighbor amount
      else layout.resizeBetween neighbor paneId amount

namespace Session

/-- `resize_pane`. -/
def resizePane (session : Session) (paneId : PaneId) (direction : PaneDirection) (amount : F32) :
    Bool × Session :=
  if !RatioNumber.isFinite amount || RatioNumber.eq amount (RatioNumber.literal 0) then
    (false, session)
  else
    session.withTerminals paneId fun terminals =>
      match terminals.layout.resizePane paneId direction amount with
      | (true, layout) => some { terminals with layout }
      | (false, _) => none

/-- `swap_pane`. -/
def swapPane (session : Session) (paneId : PaneId) (direction : PaneDirection) : Bool × Session :=
  session.withTerminals paneId fun terminals =>
    (terminals.layout.neighborPaneId paneId direction).map fun neighbor =>
      { terminals with layout := terminals.layout.swapLayoutPanes paneId neighbor }

/-- `swap_panes`. -/
def swapPanes (session : Session) (paneId other : PaneId) : Bool × Session :=
  if paneId = other then (false, session)
  else
    session.withTerminals paneId fun terminals =>
      if terminals.panes.any (·.id = other) then
        some { terminals with layout := terminals.layout.swapLayoutPanes paneId other }
      else none

/-- `move_pane`. -/
def movePane (session : Session) (paneId target : PaneId) (side : PaneDirection) :
    Bool × Session :=
  if paneId = target then (false, session)
  else
    session.withTerminals paneId fun terminals =>
      if terminals.panes.any (·.id = target) then terminals.movePane paneId target side else none

/-- `set_tab_split_ratios`. -/
def setTabSplitRatios (session : Session) (tabId : TabId) (ratios : List F32) : Bool × Session :=
  if ratios.any fun ratio => !RatioNumber.isFinite ratio then (false, session)
  else match session.workspaces.findIdx? fun workspace => workspace.tabs.any (·.id = tabId) with
  | none => (false, session)
  | some workspaceIx =>
      match ((session.workspaces[workspaceIx]?).map (·.tabs)).bind
          (·.findIdx? (·.id = tabId)) with
      | none => (false, session)
      | some tabIx =>
          match session.terminalLayout workspaceIx tabIx with
          | none => (false, session)
          | some terminals =>
              if terminals.layout.splitCount ≠ ratios.length then (false, session)
              else match terminals.layout.applySplitRatios ratios with
              | none => (false, session)
              | some (layout, _) =>
                  (!layout.eq terminals.layout,
                    session.setTerminals workspaceIx tabIx { terminals with layout })

/-- `toggle_pane_zoom`: focuses the Pane, then zooms it or leaves the zoom. -/
def togglePaneZoom (session : Session) (paneId : PaneId) : Bool × Session :=
  match session.focusPane paneId with
  | (false, session) => (false, session)
  | (true, session) =>
      session.withTerminals paneId fun terminals =>
        if terminals.panes.length = 1 then none
        else
          some { terminals with
            zoomedPane := if terminals.zoomedPane ≠ some paneId then some paneId else none }

end Session

end Condr
