import Condr.Session.Pane
import Condr.Session.WellFormed

/-!
# Pane operations keep a Session well formed

First what each operation does to the terminal layout of one Tab, then the same
for the Session, where the Tab is found through the Pane.
-/

namespace Condr

namespace TerminalLayout

variable {bound : ℕ} {terminals next : TerminalLayout} {paneId : PaneId}

theorem single_valid {pane : Pane} (within : idWithin bound pane.id.asU64)
    (resume : pane.agentResume = none) : (single pane).Valid bound where
  nonempty := by simp [single]
  idsWithin := by simpa [single, paneIds] using within
  resumesValid := by simp [single, resume, validResume]
  idsNodup := by simp [single, paneIds]
  focusedMem := by simp [single, paneIds]
  historyNodup := by simp [single]
  historyMem := by simp [single]
  leavesPerm := by simp [single, paneIds]
  ratiosInRange := by simp [single]

theorem single_fits (pane : Pane) : (single pane).Fits where
  depth := by simp [single, maxSnapshotLayoutDepth]
  zoomedMem := by simp [single]

/-- A change of the arrangement only: the Panes stay what they were. -/
structure Rearranges (bound : ℕ) (terminals next : TerminalLayout) : Prop where
  valid : next.Valid bound
  fits : next.Fits
  panes : next.panes = terminals.panes

namespace Rearranges

theorem paneIds (rearranges : Rearranges bound terminals next) :
    next.paneIds = terminals.paneIds := by
  simp only [TerminalLayout.paneIds, rearranges.panes]

/-- Another layout of the same Panes. -/
theorem ofLayout (valid : terminals.Valid bound) (fits : terminals.Fits)
    {layout : PaneLayout F32} (leaves : layout.leaves.Perm terminals.layout.leaves)
    (depth : layout.depth ≤ maxSnapshotLayoutDepth)
    (ratios : ∀ ratio ∈ layout.ratios, ratioInRange ratio = true) :
    Rearranges bound terminals { terminals with layout } where
  valid := { valid with leavesPerm := leaves.trans valid.leavesPerm, ratiosInRange := ratios }
  fits := { fits with depth }
  panes := rfl

end Rearranges

/-! ## Focus -/

theorem focusPane_rearranges (valid : terminals.Valid bound) (fits : terminals.Fits)
    (present : paneId ∈ terminals.paneIds) :
    Rearranges bound terminals (terminals.focusPane paneId) := by
  by_cases moves : terminals.focusedPane ≠ paneId
  · rw [focusPane, if_pos moves]
    refine ⟨{ valid with focusedMem := present, historyNodup := ?_, historyMem := ?_ },
      { fits with }, rfl⟩
    · refine List.nodup_append'.mpr ⟨valid.historyNodup.filter _, by simp, ?_⟩
      intro id inHistory inFocused
      rcases List.mem_singleton.mp inFocused with rfl
      simp at inHistory
    · intro id contained
      simp only [List.mem_append, List.mem_filter, List.mem_singleton, Bool.and_eq_true,
        decide_eq_true_eq] at contained
      rcases contained with ⟨inHistory, differs, -⟩ | rfl
      · exact ⟨(valid.historyMem id inHistory).1, differs⟩
      · exact ⟨valid.focusedMem, moves⟩
  · rw [focusPane, if_neg moves]
    exact ⟨valid, fits, rfl⟩

/-! ## Splitting -/

theorem attachPane_panes {newPaneId : PaneId} {cwd : PathBuf} {side : PaneDirection} {ratio : F32}
    (attached : terminals.attachPane paneId newPaneId cwd side ratio = some next) :
    next.panes = terminals.panes ++ [⟨newPaneId, some cwd, none⟩] := by
  unfold attachPane at attached
  rcases outcome : terminals.layout.splitLayout paneId newPaneId side ratio with ⟨done, layout⟩
  rw [outcome] at attached
  cases done
  · simp at attached
  · rcases Option.some.inj attached with rfl
    rfl

/-- What `split_pane` does to its Tab: the fresh Pane joins it and takes the focus. -/
theorem attachPane_spec {later : ℕ} {newPaneId : PaneId} {cwd : PathBuf} {side : PaneDirection}
    {ratio : F32} {depth : ℕ} (valid : terminals.Valid bound) (fits : terminals.Fits)
    (fresh : bound ≤ newPaneId.asU64) (within : newPaneId.asU64 < later) (positive : 0 < bound)
    (located : terminals.layout.paneLayoutDepth paneId 1 = some depth)
    (shallow : depth < maxSnapshotLayoutDepth) (ratioValid : ratioInRange ratio = true)
    (attached : terminals.attachPane paneId newPaneId cwd side ratio = some next) :
    next.Valid later ∧ next.Fits := by
  have present : paneId ∈ terminals.layout.leaves :=
    PaneLayout.paneLayoutDepth_isSome.mp (by rw [located]; rfl)
  have isNew : newPaneId ∉ terminals.paneIds := by
    intro contained
    have := (valid.idsWithin _ contained).2
    omega
  unfold attachPane at attached
  rcases outcome : terminals.layout.splitLayout paneId newPaneId side ratio with ⟨done, layout⟩
  rw [outcome] at attached
  have leaves := PaneLayout.leaves_splitLayout_perm newPaneId side ratio present
  have depthLe := PaneLayout.depth_splitLayout newPaneId side ratio located
  have ratios := PaneLayout.ratios_splitLayout paneId newPaneId side ratio terminals.layout
  rw [outcome] at leaves depthLe ratios
  cases done
  · simp at attached
  · rcases Option.some.inj attached with rfl
    refine ⟨⟨by simp, ?_, ?_, ?_, ?_, ?_, ?_, ?_, ?_⟩, ⟨?_, ?_⟩⟩
    · intro id contained
      simp only [paneIds, List.map_append, List.map_cons, List.map_nil, List.mem_append,
        List.mem_singleton] at contained
      rcases contained with before | rfl
      · have := valid.idsWithin id before
        exact this.mono (by omega)
      · exact ⟨by omega, within⟩
    · intro pane contained
      rcases List.mem_append.mp contained with before | added
      · exact valid.resumesValid pane before
      · rcases List.mem_singleton.mp added with rfl
        rfl
    · simp only [paneIds, List.map_append, List.map_cons, List.map_nil]
      refine List.nodup_append'.mpr ⟨valid.idsNodup, by simp, ?_⟩
      exact List.disjoint_singleton.mpr isNew
    · simp [paneIds]
    · refine List.nodup_append'.mpr ⟨valid.historyNodup.filter _, by simp, ?_⟩
      intro id inHistory inFocused
      rcases List.mem_singleton.mp inFocused with rfl
      simp at inHistory
    · intro id contained
      have before : id ∈ terminals.paneIds := by
        simp only [List.mem_append, List.mem_filter, List.mem_singleton] at contained
        rcases contained with ⟨inHistory, -⟩ | rfl
        · exact (valid.historyMem id inHistory).1
        · exact valid.focusedMem
      refine ⟨?_, fun same => isNew ?_⟩
      · simp only [paneIds, List.map_append, List.mem_append]
        exact Or.inl before
      · obtain rfl : id = newPaneId := same
        exact before
    · refine leaves.trans ?_
      simp only [paneIds, List.map_append, List.map_cons, List.map_nil]
      exact (List.Perm.cons _ valid.leavesPerm).trans (List.perm_append_singleton _ _).symm
    · intro member contained
      rcases ratios member contained with rfl | before
      · exact ratioValid
      · exact valid.ratiosInRange member before
    · have := fits.depth
      simp only at depthLe ⊢
      omega
    · simp

/-! ## Closing -/

/-- The focus that is left when the focused Pane closes is another Pane's, and the history that
is left does not name it. -/
theorem fallback_focus {history remaining : List PaneId} (layout : PaneLayout F32)
    (inTab : PaneId → Bool) (nodup : history.Nodup)
    (historyMem : ∀ id ∈ history, id ∈ remaining) (leavesMem : layout.firstPaneId ∈ remaining)
    (knows : ∀ id ∈ remaining, inTab id = true) :
    let focused := (history.getLast?.filter inTab).getD layout.firstPaneId
    focused ∈ remaining ∧ history.dropLast.Nodup ∧
      ∀ id ∈ history.dropLast, id ∈ remaining ∧ id ≠ focused := by
  rcases List.eq_nil_or_concat history with rfl | ⟨front, last, rfl⟩
  · simpa using leavesMem
  · have lastMem : last ∈ remaining := historyMem last (by simp)
    rw [List.concat_eq_append] at nodup
    rcases List.nodup_append.mp nodup with ⟨frontNodup, -, apart⟩
    simp only [List.concat_eq_append, List.getLast?_concat, Option.filter_some,
      knows last lastMem, if_true, Option.getD_some, List.dropLast_concat]
    refine ⟨lastMem, frontNodup, fun id contained => ⟨historyMem id (by simp [contained]), ?_⟩⟩
    exact apart id contained last (by simp)

/-- What `close_pane` does to a Tab with several Panes: the Pane is gone, and the focus falls
back to the last focused Pane or to the first one of the layout. -/
theorem removePane_spec {paneIx : ℕ} {pane : Pane} (valid : terminals.Valid bound)
    (fits : terminals.Fits) (paneAt : terminals.panes[paneIx]? = some pane)
    (idEq : pane.id = paneId)
    (removed : terminals.removePane paneId paneIx = some next) :
    next.Valid bound ∧ next.Fits ∧ next.panes = terminals.panes.eraseIdx paneIx := by
  have remaining : (terminals.panes.eraseIdx paneIx).map (·.id) =
      terminals.paneIds.filter (· ≠ paneId) := by
    rw [← idEq]
    exact Lists.map_eraseIdx_eq_filter valid.idsNodup paneAt
  simp only [removePane, Option.bind_eq_bind, Option.bind_eq_some_iff] at removed
  rcases removed with ⟨layout, layoutEq, removed⟩
  rcases PaneLayout.removeFromLayout_eq_some layoutEq with ⟨leavesEq, depthLe, ratiosSub⟩
  have leavesPerm : layout.leaves.Perm ((terminals.panes.eraseIdx paneIx).map (·.id)) := by
    rw [remaining, leavesEq]
    exact valid.leavesPerm.filter _
  have historyMem : ∀ id ∈ terminals.focusHistory.filter (· ≠ paneId),
      id ∈ (terminals.panes.eraseIdx paneIx).map (·.id) ∧ id ≠ terminals.focusedPane := by
    intro id contained
    rcases List.mem_filter.mp contained with ⟨inHistory, differs⟩
    rw [remaining]
    exact ⟨List.mem_filter.mpr ⟨(valid.historyMem id inHistory).1, differs⟩,
      (valid.historyMem id inHistory).2⟩
  -- whatever becomes of the focus, the Panes that remain make a valid Tab
  have assemble : ∀ {focused : PaneId} {history : List PaneId} {zoomed : Option PaneId},
      focused ∈ (terminals.panes.eraseIdx paneIx).map (·.id) → history.Nodup →
      (∀ id ∈ history,
        id ∈ (terminals.panes.eraseIdx paneIx).map (·.id) ∧ id ≠ focused) →
      zoomed = (if terminals.zoomedPane = some paneId then none else terminals.zoomedPane) →
      (TerminalLayout.mk (terminals.panes.eraseIdx paneIx) focused history layout zoomed).Valid
        bound ∧
      (TerminalLayout.mk (terminals.panes.eraseIdx paneIx) focused history layout zoomed).Fits := by
    intro focused history zoomed focusedMem historyNodup historyMem zoomedEq
    refine ⟨⟨?_, ?_, ?_, ?_, focusedMem, historyNodup, historyMem, leavesPerm, ?_⟩, ⟨?_, ?_⟩⟩
    · intro nothing
      change terminals.panes.eraseIdx paneIx = [] at nothing
      have leaves := leavesPerm.length_eq
      rw [List.length_map, nothing, List.length_nil] at leaves
      exact layout.leaves_ne_nil (List.length_eq_zero_iff.mp leaves)
    · intro id contained
      change id ∈ (terminals.panes.eraseIdx paneIx).map (·.id) at contained
      rw [remaining] at contained
      exact valid.idsWithin id (List.mem_of_mem_filter contained)
    · exact fun other contained =>
        valid.resumesValid other ((List.eraseIdx_sublist ..).subset contained)
    · exact valid.idsNodup.sublist ((List.eraseIdx_sublist ..).map _)
    · exact fun ratio contained => valid.ratiosInRange ratio (ratiosSub contained)
    · exact depthLe.trans fits.depth
    · intro id zoomedAt
      change id ∈ (terminals.panes.eraseIdx paneIx).map (·.id)
      obtain rfl : zoomed = some id := zoomedAt
      split_ifs at zoomedEq with closes
      rw [remaining]
      refine List.mem_filter.mpr ⟨fits.zoomedMem id zoomedEq.symm, ?_⟩
      exact decide_eq_true fun same => closes (zoomedEq.symm.trans (by rw [same]))
  by_cases wasFocused : terminals.focusedPane = paneId
  · rw [if_pos wasFocused] at removed
    rcases Option.some.inj removed with rfl
    obtain ⟨focusedMem, historyNodup, restMem⟩ := fallback_focus layout
      (fun id => (terminals.panes.eraseIdx paneIx).any (·.id = id))
      (valid.historyNodup.filter _) (fun id contained => (historyMem id contained).1)
      (leavesPerm.subset layout.firstPaneId_mem_leaves)
      (fun id contained => by
        rcases List.mem_map.mp contained with ⟨other, otherMem, rfl⟩
        exact List.any_eq_true.mpr ⟨other, otherMem, by simp⟩)
    rcases assemble focusedMem historyNodup restMem rfl with ⟨nextValid, nextFits⟩
    exact ⟨nextValid, nextFits, rfl⟩
  · rw [if_neg wasFocused] at removed
    rcases Option.some.inj removed with rfl
    have focusedMem : terminals.focusedPane ∈ (terminals.panes.eraseIdx paneIx).map (·.id) := by
      rw [remaining]
      exact List.mem_filter.mpr ⟨valid.focusedMem, decide_eq_true wasFocused⟩
    rcases assemble focusedMem (valid.historyNodup.filter _) historyMem rfl
      with ⟨nextValid, nextFits⟩
    exact ⟨nextValid, nextFits, rfl⟩

/-! ## Rearranging -/

theorem movePane_rearranges {target : PaneId} {side : PaneDirection}
    (valid : terminals.Valid bound) (fits : terminals.Fits)
    (present : paneId ∈ terminals.paneIds)
    (moved : terminals.movePane paneId target side = some next) :
    Rearranges bound terminals next := by
  simp only [movePane, Option.bind_eq_bind, Option.bind_eq_some_iff] at moved
  rcases moved with ⟨rest, restEq, depth, located, moved⟩
  rcases PaneLayout.removeFromLayout_eq_some restEq with ⟨leavesEq, depthLe, ratiosSub⟩
  by_cases shallow : maxSnapshotLayoutDepth ≤ depth
  · simp [shallow] at moved
  rw [if_neg shallow] at moved
  rcases outcome : rest.splitLayout target paneId side (RatioNumber.literal (1 / 2))
    with ⟨done, layout⟩
  rw [outcome] at moved
  have targetMem : target ∈ rest.leaves :=
    PaneLayout.paneLayoutDepth_isSome.mp (by rw [located]; rfl)
  have leaves := PaneLayout.leaves_splitLayout_perm paneId side
    (RatioNumber.literal (1 / 2) : F32) targetMem
  have depthBound := PaneLayout.depth_splitLayout paneId side
    (RatioNumber.literal (1 / 2) : F32) located
  have ratios := PaneLayout.ratios_splitLayout target paneId side
    (RatioNumber.literal (1 / 2) : F32) rest
  rw [outcome] at leaves depthBound ratios
  cases done
  · simp at moved
  · rcases Option.some.inj moved with rfl
    refine Rearranges.ofLayout valid fits ?_ ?_ ?_
    · -- the Pane leaves its place and comes back at another
      refine leaves.trans ?_
      have erased : terminals.layout.leaves.filter (· ≠ paneId) =
          terminals.layout.leaves.erase paneId := by
        rw [valid.leavesNodup.erase_eq_filter]
        exact List.filter_congr fun id _ => by rw [Bool.eq_iff_iff]; simp
      rw [leavesEq, erased]
      exact (List.perm_cons_erase (valid.mem_leaves.mpr present)).symm
    · have := fits.depth
      change layout.depth + 1 ≤ _ at depthBound
      change layout.depth ≤ _
      omega
    · intro member contained
      rcases ratios member contained with rfl | before
      · exact F32.ratioInRange_half
      · exact valid.ratiosInRange member (ratiosSub before)

theorem swap_rearranges {other : PaneId} (valid : terminals.Valid bound) (fits : terminals.Fits)
    (present : paneId ∈ terminals.paneIds) (otherPresent : other ∈ terminals.paneIds) :
    Rearranges bound terminals
      { terminals with layout := terminals.layout.swapLayoutPanes paneId other } := by
  refine Rearranges.ofLayout valid fits ?_ ?_ ?_
  · exact PaneLayout.leaves_swapLayoutPanes_perm valid.leavesNodup
      (valid.mem_leaves.mpr present) (valid.mem_leaves.mpr otherPresent)
  · rw [PaneLayout.depth_swapLayoutPanes]
    exact fits.depth
  · rw [PaneLayout.ratios_swapLayoutPanes]
    exact valid.ratiosInRange

/-- A resize moves the ratio of one split, through the clamp. -/
theorem resize_rearranges (paneId : PaneId) (direction : PaneDirection) (amount : F32)
    (valid : terminals.Valid bound) (fits : terminals.Fits) :
    Rearranges bound terminals
      { terminals with layout := (terminals.layout.resizePane paneId direction amount).2 } := by
  have between : ∀ (target neighbor : PaneId) (amount : F32), Rearranges bound terminals
      { terminals with layout := (terminals.layout.resizeBetween target neighbor amount).2 } := by
    intro target neighbor amount
    refine Rearranges.ofLayout valid fits ?_ ?_ ?_
    · rw [PaneLayout.leaves_resizeBetween]
    · rw [PaneLayout.depth_resizeBetween]
      exact fits.depth
    · intro ratio contained
      rcases PaneLayout.ratios_resizeBetween contained with ⟨value, rfl⟩ | before
      · exact ratioInRange_validSplitRatio value
      · exact valid.ratiosInRange ratio before
  simp only [PaneLayout.resizePane]
  split
  · exact ⟨valid, fits, rfl⟩
  · split_ifs
    · exact between ..
    · exact between ..

theorem splitRatios_rearranges {ratios rest : List F32} {layout : PaneLayout F32}
    (valid : terminals.Valid bound) (fits : terminals.Fits)
    (count : terminals.layout.splitCount = ratios.length)
    (applied : terminals.layout.applySplitRatios ratios = some (layout, rest)) :
    Rearranges bound terminals { terminals with layout } := by
  obtain ⟨next, nextEq, leaves, depth, nextRatios⟩ :=
    PaneLayout.applySplitRatios_append terminals.layout ratios []
      (by rw [← count, PaneLayout.splitCount_eq_length_ratios])
  rw [List.append_nil, applied, Option.some.injEq, Prod.mk.injEq] at nextEq
  rcases nextEq with ⟨rfl, -⟩
  refine Rearranges.ofLayout valid fits (by rw [leaves]) (by rw [depth]; exact fits.depth) ?_
  intro ratio contained
  rw [nextRatios, List.mem_map] at contained
  rcases contained with ⟨given, -, rfl⟩
  exact ratioInRange_validSplitRatio given

end TerminalLayout

namespace Session.WellFormed

variable {nextId : ℕ} {session : Session} {paneId : PaneId}

theorem terminalsValid (wellFormed : session.WellFormed nextId) {workspaceIx tabIx paneIx : ℕ}
    {workspace : Workspace} {tab : Tab} {terminals : TerminalLayout} {pane : Pane}
    (located : session.Located paneId workspaceIx tabIx paneIx workspace tab terminals pane) :
    terminals.Valid nextId ∧ terminals.Fits := by
  have content := (wellFormed.workspacesValid workspace located.workspaceMem).tabsValid tab
    located.tabMem |>.content
  have fits := wellFormed.workspaceFits located.workspaceMem tab located.tabMem
  rw [located.content] at content fits
  exact ⟨content, fits⟩

theorem setRearranged (wellFormed : session.WellFormed nextId) {workspaceIx tabIx : ℕ}
    {old new : TerminalLayout} (found : session.terminalLayout workspaceIx tabIx = some old)
    (rearranges : TerminalLayout.Rearranges nextId old new) :
    (session.setTerminals workspaceIx tabIx new).WellFormed nextId := by
  refine wellFormed.setTerminals le_rfl found rearranges.valid rearranges.fits ?_ ?_
  · intro id contained
    rw [rearranges.paneIds] at contained
    exact Or.inl contained
  · rw [rearranges.panes]
    have := wellFormed.paneLimit
    omega

/-- The operations that only rearrange the Tab a Pane lives in. -/
theorem withTerminals (wellFormed : session.WellFormed nextId)
    {change : TerminalLayout → Option TerminalLayout}
    (rearranges : ∀ old new, old.Valid nextId → old.Fits → paneId ∈ old.paneIds →
      change old = some new → TerminalLayout.Rearranges nextId old new) :
    (session.withTerminals paneId change).2.WellFormed nextId := by
  simp only [Session.withTerminals]
  rcases found : session.findPane paneId with _ | ⟨workspaceIx, tabIx, paneIx⟩
  · exact wellFormed
  · rcases Session.findPane_located found with ⟨workspace, tab, terminals, pane, located⟩
    simp only [located.terminalLayout, Option.bind_some]
    rcases changed : change terminals with _ | new
    · exact wellFormed
    · rcases wellFormed.terminalsValid located with ⟨valid, fits⟩
      exact wellFormed.setRearranged located.terminalLayout
        (rearranges terminals new valid fits located.paneIds_mem changed)

theorem focusPane (wellFormed : session.WellFormed nextId) (paneId : PaneId) :
    (session.focusPane paneId).2.WellFormed nextId := by
  refine wellFormed.withTerminals fun old new valid fits present changed => ?_
  rcases Option.some.inj changed with rfl
  exact TerminalLayout.focusPane_rearranges valid fits present

theorem focusPaneInDirection (wellFormed : session.WellFormed nextId) (paneId : PaneId)
    (direction : PaneDirection) :
    (session.focusPaneInDirection paneId direction).2.WellFormed nextId := by
  simp only [Session.focusPaneInDirection]
  split
  · exact wellFormed
  · split
    · exact wellFormed
    · exact wellFormed.focusPane _

theorem resizePane (wellFormed : session.WellFormed nextId) (paneId : PaneId)
    (direction : PaneDirection) (amount : F32) :
    (session.resizePane paneId direction amount).2.WellFormed nextId := by
  unfold Session.resizePane
  split_ifs
  · exact wellFormed
  · refine wellFormed.withTerminals fun old new valid fits _ changed => ?_
    have resized := TerminalLayout.resize_rearranges paneId direction amount valid fits
    rcases outcome : old.layout.resizePane paneId direction amount with ⟨done, layout⟩
    rw [outcome] at changed resized
    cases done
    · simp at changed
    · rcases Option.some.inj changed with rfl
      exact resized

theorem swapPane (wellFormed : session.WellFormed nextId) (paneId : PaneId)
    (direction : PaneDirection) : (session.swapPane paneId direction).2.WellFormed nextId := by
  refine wellFormed.withTerminals fun old new valid fits present changed => ?_
  rcases Option.map_eq_some_iff.mp changed with ⟨neighbor, found, rfl⟩
  exact TerminalLayout.swap_rearranges valid fits present
    (valid.mem_leaves.mp (PaneLayout.neighborPaneId_mem found).1)

theorem swapPanes (wellFormed : session.WellFormed nextId) (paneId other : PaneId) :
    (session.swapPanes paneId other).2.WellFormed nextId := by
  unfold Session.swapPanes
  split_ifs
  · exact wellFormed
  · refine wellFormed.withTerminals fun old new valid fits present changed => ?_
    split_ifs at changed with known
    rcases Option.some.inj changed with rfl
    refine TerminalLayout.swap_rearranges valid fits present ?_
    simpa [TerminalLayout.paneIds] using known

theorem movePane (wellFormed : session.WellFormed nextId) (paneId target : PaneId)
    (side : PaneDirection) : (session.movePane paneId target side).2.WellFormed nextId := by
  unfold Session.movePane
  split_ifs
  · exact wellFormed
  · refine wellFormed.withTerminals fun old new valid fits present changed => ?_
    split_ifs at changed
    exact TerminalLayout.movePane_rearranges valid fits present changed

theorem togglePaneZoom (wellFormed : session.WellFormed nextId) (paneId : PaneId) :
    (session.togglePaneZoom paneId).2.WellFormed nextId := by
  have focused := wellFormed.focusPane paneId
  unfold Session.togglePaneZoom
  rcases outcome : session.focusPane paneId with ⟨done, next⟩
  rw [outcome] at focused
  cases done
  · exact focused
  · refine focused.withTerminals fun old new valid fits present changed => ?_
    split_ifs at changed
    all_goals obtain rfl := Option.some.inj changed
    · refine ⟨{ valid with }, { fits with zoomedMem := ?_ }, rfl⟩
      rintro id zoomed
      rcases Option.some.inj zoomed with rfl
      exact present
    · exact ⟨{ valid with }, { fits with zoomedMem := by simp }, rfl⟩

/-- A change of a Pane's record that keeps its id. -/
theorem modifyPane {bound : ℕ} (paneIx : ℕ) {terminals : TerminalLayout} {change : Pane → Pane}
    (valid : terminals.Valid bound) (fits : terminals.Fits) (id : ∀ pane, (change pane).id = pane.id)
    (resume : ∀ pane, validResume pane.agentResume = true →
      validResume (change pane).agentResume = true) :
    (terminals.modifyPane paneIx change).Valid bound ∧
      (terminals.modifyPane paneIx change).Fits ∧
      (terminals.modifyPane paneIx change).paneIds = terminals.paneIds := by
  have ids : (terminals.modifyPane paneIx change).paneIds = terminals.paneIds := by
    simp only [TerminalLayout.paneIds, TerminalLayout.modifyPane]
    refine List.ext_getElem? fun index => ?_
    rw [List.getElem?_map, List.getElem?_map, List.getElem?_modify]
    rcases terminals.panes[index]? with _ | pane
    · rfl
    · by_cases here : paneIx = index <;> simp [here, id]
  refine ⟨⟨?_, ?_, ?_, ?_, ?_, valid.historyNodup, ?_, ?_, valid.ratiosInRange⟩,
    ⟨fits.depth, ?_⟩, ids⟩
  · intro nothing
    have := congrArg List.length ids
    simp only [TerminalLayout.paneIds, List.length_map, nothing, List.length_nil] at this
    exact valid.nonempty (List.length_eq_zero_iff.mp this.symm)
  · rw [ids]
    exact valid.idsWithin
  · intro pane contained
    rcases List.getElem?_of_mem contained with ⟨index, paneAt⟩
    simp only [TerminalLayout.modifyPane, List.getElem?_modify, Option.map_eq_map,
      Option.map_eq_some_iff] at paneAt
    rcases paneAt with ⟨old, oldAt, rfl⟩
    have oldValid := valid.resumesValid old (List.mem_of_getElem? oldAt)
    split_ifs
    · exact resume old oldValid
    · exact oldValid
  · rw [ids]
    exact valid.idsNodup
  · rw [ids]
    exact valid.focusedMem
  · rw [ids]
    exact valid.historyMem
  · rw [ids]
    exact valid.leavesPerm
  · rw [ids]
    exact fits.zoomedMem

/-- The operations that change the record of one Pane. -/
theorem setModifiedPane (wellFormed : session.WellFormed nextId) {workspaceIx tabIx paneIx : ℕ}
    {terminals : TerminalLayout} {change : Pane → Pane}
    (found : session.terminalLayout workspaceIx tabIx = some terminals)
    (valid : terminals.Valid nextId) (fits : terminals.Fits)
    (id : ∀ pane, (change pane).id = pane.id)
    (resume : ∀ pane, validResume pane.agentResume = true →
      validResume (change pane).agentResume = true) :
    (session.setTerminals workspaceIx tabIx
      (terminals.modifyPane paneIx change)).WellFormed nextId := by
  rcases modifyPane paneIx valid fits id resume with ⟨nextValid, nextFits, ids⟩
  refine wellFormed.setTerminals le_rfl found nextValid nextFits ?_ ?_
  · rw [ids]
    exact fun id contained => Or.inl contained
  · have := wellFormed.paneLimit
    simp only [TerminalLayout.modifyPane, List.length_modify]
    omega

theorem setPaneCwd (wellFormed : session.WellFormed nextId) (paneId : PaneId)
    (cwd : Option PathBuf) : (session.setPaneCwd paneId cwd).2.WellFormed nextId := by
  simp only [Session.setPaneCwd]
  rcases found : session.findPane paneId with _ | ⟨workspaceIx, tabIx, paneIx⟩
  · exact wellFormed
  · rcases Session.findPane_located found with ⟨workspace, tab, terminals, pane, located⟩
    rcases wellFormed.terminalsValid located with ⟨valid, fits⟩
    simp only [located.terminalLayout]
    exact wellFormed.setModifiedPane located.terminalLayout valid fits (fun _ => rfl)
      fun _ before => before

theorem setPaneAgentResume (wellFormed : session.WellFormed nextId) (paneId : PaneId)
    (resume : Option AgentResume) :
    (session.setPaneAgentResume paneId resume).2.WellFormed nextId := by
  unfold Session.setPaneAgentResume
  split_ifs with invalid
  · exact wellFormed
  · rcases found : session.findPane paneId with _ | ⟨workspaceIx, tabIx, paneIx⟩
    · exact wellFormed
    · rcases Session.findPane_located found with ⟨workspace, tab, terminals, pane, located⟩
      rcases wellFormed.terminalsValid located with ⟨valid, fits⟩
      simp only [located.terminalLayout]
      split_ifs
      · exact wellFormed
      · exact wellFormed.setModifiedPane located.terminalLayout valid fits (fun _ => rfl)
          fun _ _ => by simpa using invalid

theorem closePane (wellFormed : session.WellFormed nextId) {outcome : CloseOutcome}
    {next : Session} (closed : session.closePane paneId = some (outcome, next)) :
    next.WellFormed nextId := by
  simp only [Session.closePane, Option.bind_eq_bind, Option.bind_eq_some_iff] at closed
  rcases closed
    with ⟨⟨workspaceIx, tabIx, paneIx⟩, found, workspace', workspaceAt, tab', tabAt, closed⟩
  rcases Session.findPane_located found with ⟨workspace, tab, terminals, pane, located⟩
  obtain rfl : workspace' = workspace := by
    simpa [located.workspaceAt] using workspaceAt.symm
  obtain rfl : tab' = tab := by
    simpa [located.tabAt] using tabAt.symm
  rcases wellFormed.terminalsValid located with ⟨valid, fits⟩
  split_ifs at closed with several lastTab
  · simp only [Option.bind_eq_some_iff, Tab.terminals, located.content, Option.some.injEq,
      exists_eq_left', Prod.mk.injEq] at closed
    rcases closed with ⟨rest, removed, -, rfl⟩
    rcases TerminalLayout.removePane_spec valid fits located.paneAt located.id removed
      with ⟨restValid, restFits, panes⟩
    have fewer : rest.panes.length ≤ terminals.panes.length := by
      rw [panes]
      exact (List.eraseIdx_sublist ..).length_le
    refine wellFormed.setTerminals le_rfl located.terminalLayout restValid restFits ?_ ?_
    · intro id contained
      simp only [TerminalLayout.paneIds, panes] at contained ⊢
      exact Or.inl (((List.eraseIdx_sublist ..).map _).subset contained)
    · have := wellFormed.paneLimit
      omega
  · rcases Prod.mk.inj (Option.some.inj closed) with ⟨-, rfl⟩
    exact wellFormed.withFewerTabs located.workspaceAt rfl (List.eraseIdx_sublist ..)
      (List.Perm.refl _) (by simpa using lastTab)
  · rcases Prod.mk.inj (Option.some.inj closed) with ⟨-, rfl⟩
    exact wellFormed.sublist (List.eraseIdx_sublist ..)

theorem setTabSplitRatios (wellFormed : session.WellFormed nextId) (tabId : TabId)
    (ratios : List F32) : (session.setTabSplitRatios tabId ratios).2.WellFormed nextId := by
  simp only [Session.setTabSplitRatios]
  split
  · exact wellFormed
  split
  · exact wellFormed
  split
  · exact wellFormed
  split
  · exact wellFormed
  next terminals found =>
  split
  · exact wellFormed
  next count =>
  split
  · exact wellFormed
  next layout rest applied =>
  rcases wellFormed.terminalLayoutValid found with ⟨valid, fits⟩
  exact wellFormed.setRearranged found
    (TerminalLayout.splitRatios_rearranges valid fits (not_not.mp count) applied)

end Session.WellFormed

/-- `split_pane` keeps the Store well formed: the new Pane's id comes from the counter. -/
theorem Store.WellFormed.splitPane {store : Store} (wellFormed : store.WellFormed)
    (paneId : PaneId) (direction : SplitDirection) (ratio : F32) :
    (store.splitPane paneId direction ratio).2.WellFormed := by
  simp only [Store.splitPane]
  split
  · exact wellFormed
  next room =>
  split
  · exact wellFormed
  next workspaceIx tabIx paneIx found =>
  rcases Session.findPane_located found with ⟨workspace, tab, terminals, pane, located⟩
  rcases wellFormed.session.terminalsValid located with ⟨valid, fits⟩
  simp only [located.workspaceAt, located.terminalLayout]
  split
  · exact wellFormed
  next depth depthEq =>
  split
  · exact wellFormed
  next shallow =>
  split
  · exact wellFormed
  next first later reserved =>
  rcases reserveIds_eq_some reserved with ⟨counter, rfl, rfl⟩
  split
  · exact ⟨wellFormed.session.mono (Nat.le_succ _), Nat.succ_pos _, counter⟩
  next attached attachedEq =>
  have panes := TerminalLayout.attachPane_panes attachedEq
  obtain ⟨nextValid, nextFits⟩ := TerminalLayout.attachPane_spec valid fits le_rfl
    (Nat.lt_succ_self _) wellFormed.positive depthEq (not_le.mp shallow)
    (ratioInRange_validSplitRatio ratio) attachedEq
  refine ⟨wellFormed.session.setTerminals (Nat.le_succ _) located.terminalLayout nextValid
    nextFits ?_ ?_, Nat.succ_pos _, counter⟩
  · intro id contained
    simp only [TerminalLayout.paneIds, panes, List.map_append, List.map_cons, List.map_nil,
      List.mem_append, List.mem_singleton] at contained ⊢
    rcases contained with before | rfl
    · exact Or.inl before
    · exact Or.inr le_rfl
  · rw [panes, List.length_append, List.length_singleton]
    omega

end Condr
