import Condr.Session.Snapshot
import Condr.Session.WellFormed

/-!
# What the checks accept

`validate` accepts exactly the Sessions that are `Valid` below the id limit, and
returns their largest id. Each check is described by what it accepts and what it
records; a pass over a table then accepts what every element passes against the
record of those before it.
-/

namespace Condr

/-! ## Single checks -/

@[simp]
theorem invalid_ne_ok {α : Type} {text : String} {value : α} :
    (invalid text : Except SnapshotError α) ≠ .ok value := by
  simp [invalid]

@[simp]
theorem invalid_bind {α β : Type} {text : String} {rest : α → Except SnapshotError β} :
    (invalid text >>= rest) = invalid text := rfl

theorem check_eq_ok {α : Type} {refused : Prop} [Decidable refused] {text : String}
    {rest : Except SnapshotError α} {value : α} :
    (if refused then invalid text else rest) = .ok value ↔ ¬refused ∧ rest = .ok value := by
  by_cases holds : refused <;> simp [holds]

theorem validateId_eq_ok {id maxId next : ℕ} :
    validateId id maxId = .ok next ↔
      idWithin maxNextStableIdExclusive id ∧ next = max maxId id := by
  unfold validateId
  rw [check_eq_ok, Except.ok.injEq, @eq_comm _ next]
  refine and_congr_left' ?_
  simp only [Bool.or_eq_true, decide_eq_true_eq, not_or, not_lt, idWithin,
    maxNextStableIdExclusive, Nat.lt_succ_iff, Nat.pos_iff_ne_zero]

/-! ## Panes -/

def recordPane (seen : Seen × List PaneId) (pane : Pane) : Seen × List PaneId :=
  ({ seen.1 with
      paneIds := seen.1.paneIds ++ [pane.id]
      maxId := max seen.1.maxId pane.id.asU64 },
    seen.2 ++ [pane.id])

theorem validatePane_eq_ok (seen : Seen × List PaneId) (pane : Pane)
    (next : Seen × List PaneId) :
    validatePane seen pane = .ok next ↔
      (idWithin maxNextStableIdExclusive pane.id.asU64 ∧ validResume pane.agentResume = true ∧
        pane.id ∉ seen.1.paneIds ∧ pane.id ∉ seen.2) ∧ next = recordPane seen pane := by
  simp only [validatePane, invalid_bind, Lists.bind_eq_ok, check_eq_ok, validateId_eq_ok,
    Bool.not_eq_true', Bool.not_eq_false, not_or, Except.ok.injEq, recordPane]
  constructor
  · rintro ⟨maxId, ⟨within, rfl⟩, resume, unseen, rfl⟩
    exact ⟨⟨within, resume, unseen⟩, rfl⟩
  · rintro ⟨⟨within, resume, unseen⟩, rfl⟩
    exact ⟨_, ⟨within, rfl⟩, resume, unseen, rfl⟩

theorem foldl_recordPane (panes : List Pane) (seen : Seen × List PaneId) :
    panes.foldl recordPane seen =
      ({ seen.1 with
          paneIds := seen.1.paneIds ++ panes.map (·.id)
          maxId := (panes.map (·.id.asU64)).foldl max seen.1.maxId },
        seen.2 ++ panes.map (·.id)) := by
  induction panes generalizing seen with
  | nil => simp
  | cons pane panes ih => simp [ih, recordPane]

/-- The pass over the Panes of a Tab. -/
theorem validatePanes_eq_ok {panes : List Pane} {seen : Seen} {next : Seen × List PaneId} :
    panes.foldlM validatePane (seen, []) = .ok next ↔
      ((∀ pane ∈ panes, idWithin maxNextStableIdExclusive pane.id.asU64 ∧
          validResume pane.agentResume = true) ∧
        (∀ pane ∈ panes, pane.id ∉ seen.paneIds) ∧ (panes.map (·.id)).Nodup) ∧
      next = ({ seen with
          paneIds := seen.paneIds ++ panes.map (·.id)
          maxId := (panes.map (·.id.asU64)).foldl max seen.maxId }, panes.map (·.id)) := by
  rw [Lists.foldlM_eq_ok_iff validatePane_eq_ok]
  simp only [foldl_recordPane, List.nil_append]
  refine and_congr_left' ?_
  rw [← Lists.forall_segments_iff_nodup]
  constructor
  · intro passes
    refine ⟨?_, ?_⟩
    · intro pane contained
      rcases List.append_of_mem contained with ⟨front, back, split⟩
      exact ⟨(passes front pane back split).1, (passes front pane back split).2.1⟩
    · intro front pane back split
      have := (passes front pane back split).2.2
      simp only [List.mem_append, not_or] at this
      exact this.1
  · rintro ⟨each, fresh⟩ front pane back split
    have here := each pane (by simp [split])
    have := fresh front pane back split
    refine ⟨here.1, here.2, ?_, this.2⟩
    simpa only [List.mem_append, not_or] using this

/-! ## Terminal Tabs -/

theorem validateLayout_eq_ok {layout : PaneLayout F32} {paneIds next : List PaneId} :
    validateLayout layout paneIds = .ok next ↔
      ((∀ ratio ∈ layout.ratios, ratioInRange ratio = true) ∧
        (∀ id ∈ layout.leaves, id ∉ paneIds) ∧ layout.leaves.Nodup) ∧
      next = paneIds ++ layout.leaves := by
  induction layout generalizing paneIds next with
  | pane id =>
      simp only [validateLayout, check_eq_ok, Except.ok.injEq, PaneLayout.ratios,
        PaneLayout.leaves, List.not_mem_nil, false_implies, implies_true, List.mem_singleton,
        forall_eq, List.nodup_singleton, and_true, true_and]
      exact and_congr_right' eq_comm
  | split direction ratio first second ihFirst ihSecond =>
      simp only [validateLayout, invalid_bind, check_eq_ok, Lists.bind_eq_ok, ihFirst, ihSecond,
        Bool.not_eq_true', Bool.not_eq_false, PaneLayout.ratios, PaneLayout.leaves, List.mem_cons,
        List.mem_append, List.nodup_append', or_imp, forall_and, forall_eq,
        ← List.append_assoc]
      constructor
      · rintro ⟨ratioValid, firstIds, ⟨⟨firstRatios, firstFresh, firstNodup⟩, rfl⟩,
          ⟨secondRatios, secondFresh, secondNodup⟩, rfl⟩
        simp only [List.mem_append, not_or] at secondFresh
        refine ⟨⟨⟨ratioValid, firstRatios, secondRatios⟩, ⟨firstFresh, fun id contained =>
          (secondFresh id contained).1⟩, firstNodup, secondNodup, ?_⟩, rfl⟩
        exact fun id inFirst inSecond => (secondFresh id inSecond).2 inFirst
      · rintro ⟨⟨⟨ratioValid, firstRatios, secondRatios⟩, ⟨firstFresh, secondFresh⟩, firstNodup,
          secondNodup, apart⟩, rfl⟩
        refine ⟨ratioValid, _, ⟨⟨firstRatios, firstFresh, firstNodup⟩, rfl⟩,
          ⟨secondRatios, ?_, secondNodup⟩, rfl⟩
        intro id contained
        simp only [List.mem_append, not_or]
        exact ⟨secondFresh id contained, fun inFirst => apart inFirst contained⟩

/-- What `validate` records of a Tab. -/
def Seen.withPanes (seen : Seen) (terminals : TerminalLayout) : Seen :=
  { seen with
    paneIds := seen.paneIds ++ terminals.paneIds
    maxId := (terminals.paneIds.map (·.asU64)).foldl max seen.maxId }

theorem validateTerminals_eq_ok {seen next : Seen} {terminals : TerminalLayout} :
    validateTerminals seen terminals = .ok next ↔
      (terminals.Valid maxNextStableIdExclusive ∧
        ∀ id ∈ terminals.paneIds, id ∉ seen.paneIds) ∧ next = seen.withPanes terminals := by
  simp only [validateTerminals, invalid_bind, check_eq_ok, Lists.bind_eq_ok, validatePanes_eq_ok,
    validateLayout_eq_ok, List.nil_append, not_not, List.isEmpty_iff]
  constructor
  · rintro ⟨nonempty, ⟨_, _⟩, ⟨⟨each, fresh, nodup⟩, recorded⟩, focused, history, leaves,
      ⟨⟨ratios, -, leavesNodup⟩, rfl⟩, same, done⟩
    rcases Prod.mk.inj recorded with ⟨rfl, rfl⟩
    rcases Except.ok.inj done with rfl
    refine ⟨⟨⟨nonempty, ?_, fun pane contained => (each pane contained).2, nodup, focused,
      history.2, fun id contained => (history.1 id contained).symm, ?_, ratios⟩, ?_⟩, ?_⟩
    · intro id contained
      rcases List.mem_map.mp contained with ⟨pane, paneMem, rfl⟩
      exact (each pane paneMem).1
    · exact (List.perm_ext_iff_of_nodup leavesNodup nodup).mpr fun id =>
        ⟨fun contained => same.1 contained, fun contained => same.2 contained⟩
    · intro id contained
      rcases List.mem_map.mp contained with ⟨pane, paneMem, rfl⟩
      exact fresh pane paneMem
    · simp [Seen.withPanes, TerminalLayout.paneIds, Function.comp_def]
  · rintro ⟨⟨valid, fresh⟩, rfl⟩
    refine ⟨valid.nonempty, (_, _), ⟨⟨?_, ?_, valid.idsNodup⟩, rfl⟩, valid.focusedMem,
      ⟨fun id contained => (valid.historyMem id contained).symm, valid.historyNodup⟩, _,
      ⟨⟨valid.ratiosInRange, by simp, valid.leavesNodup⟩, rfl⟩,
      ⟨valid.leavesPerm.subset, valid.leavesPerm.symm.subset⟩, ?_⟩
    · exact fun pane contained =>
        ⟨valid.idsWithin _ (List.mem_map_of_mem contained), valid.resumesValid pane contained⟩
    · exact fun pane contained => fresh _ (List.mem_map_of_mem contained)
    · simp [Seen.withPanes, TerminalLayout.paneIds, Function.comp_def]

/-! ## Tabs -/

def recordTab (seen : Seen × ViewerCounts) (tab : Tab) : Seen × ViewerCounts :=
  ({ seen.1 with
      tabIds := seen.1.tabIds ++ [tab.id]
      paneIds := seen.1.paneIds ++ tab.paneIds
      maxId := tab.stableIds.foldl max seen.1.maxId },
    { diffTabs := seen.2.diffTabs + if tab.content.isDiff then 1 else 0
      fileTabs := seen.2.fileTabs + if tab.content.isFile then 1 else 0 })

theorem validateTab_eq_ok (seen : Seen × ViewerCounts) (tab : Tab) (next : Seen × ViewerCounts) :
    validateTab seen tab = .ok next ↔
      (tab.Valid maxNextStableIdExclusive ∧ tab.id ∉ seen.1.tabIds ∧
        (∀ id ∈ tab.paneIds, id ∉ seen.1.paneIds) ∧
        (tab.content.isDiff = true → seen.2.diffTabs = 0) ∧
        (tab.content.isFile = true → seen.2.fileTabs = 0)) ∧ next = recordTab seen tab := by
  rcases seen with ⟨seen, viewers⟩
  rcases tab with ⟨id, name, content⟩
  have valid : ∀ bound, (⟨id, name, content⟩ : Tab).Valid bound ↔
      idWithin bound id.asU64 ∧ content.Valid bound :=
    fun bound => ⟨fun valid => ⟨valid.idWithin, valid.content⟩, fun both => ⟨both.1, both.2⟩⟩
  cases content with
  | terminals terminals =>
      simp only [validateTab, invalid_bind, check_eq_ok, Lists.bind_eq_ok, validateId_eq_ok,
        validateTerminals_eq_ok, valid, TabContent.Valid, TabContent.isDiff, TabContent.isFile,
        @Tab.paneIds_terminals ⟨id, name, .terminals terminals⟩ terminals rfl, recordTab,
        Seen.withPanes, Tab.stableIds]
      constructor
      · rintro ⟨_, ⟨within, rfl⟩, unseen, _, ⟨⟨terminalsValid, fresh⟩, rfl⟩, done⟩
        rcases Except.ok.inj done with rfl
        exact ⟨⟨⟨within, terminalsValid⟩, unseen, fresh, by simp, by simp⟩, by simp⟩
      · rintro ⟨⟨⟨within, terminalsValid⟩, unseen, fresh, -, -⟩, rfl⟩
        exact ⟨_, ⟨within, rfl⟩, unseen, _, ⟨⟨terminalsValid, fresh⟩, rfl⟩, by simp⟩
  | diff path =>
      simp only [validateTab, invalid_bind, check_eq_ok, Lists.bind_eq_ok, validateId_eq_ok, valid,
        TabContent.Valid, TabContent.isDiff, TabContent.isFile, Bool.not_eq_true',
        Bool.not_eq_false, recordTab, Tab.stableIds, Tab.paneIds, Tab.panes, Tab.terminals]
      constructor
      · rintro ⟨_, ⟨within, rfl⟩, unseen, pathValid, single, done⟩
        rcases Except.ok.inj done with rfl
        exact ⟨⟨⟨within, pathValid⟩, unseen, by simp, by omega, by simp⟩, by simp⟩
      · rintro ⟨⟨⟨within, pathValid⟩, unseen, -, single, -⟩, rfl⟩
        exact ⟨_, ⟨within, rfl⟩, unseen, pathValid, by simp at single; omega, by simp⟩
  | file path =>
      simp only [validateTab, invalid_bind, check_eq_ok, Lists.bind_eq_ok, validateId_eq_ok, valid,
        TabContent.Valid, TabContent.isDiff, TabContent.isFile, Bool.not_eq_true',
        Bool.not_eq_false, recordTab, Tab.stableIds, Tab.paneIds, Tab.panes, Tab.terminals]
      constructor
      · rintro ⟨_, ⟨within, rfl⟩, unseen, pathValid, single, done⟩
        rcases Except.ok.inj done with rfl
        exact ⟨⟨⟨within, pathValid⟩, unseen, by simp, by simp, by omega⟩, by simp⟩
      · rintro ⟨⟨⟨within, pathValid⟩, unseen, -, -, single⟩, rfl⟩
        exact ⟨_, ⟨within, rfl⟩, unseen, pathValid, by simp at single; omega, by simp⟩

theorem foldl_recordTab (tabs : List Tab) (seen : Seen × ViewerCounts) :
    tabs.foldl recordTab seen =
      ({ seen.1 with
          tabIds := seen.1.tabIds ++ tabs.map (·.id)
          paneIds := seen.1.paneIds ++ tabs.flatMap Tab.paneIds
          maxId := (tabs.flatMap Tab.stableIds).foldl max seen.1.maxId },
        { diffTabs := seen.2.diffTabs + tabs.countP (·.content.isDiff)
          fileTabs := seen.2.fileTabs + tabs.countP (·.content.isFile) }) := by
  induction tabs generalizing seen with
  | nil => simp
  | cons tab tabs ih =>
      rw [List.foldl_cons, ih]
      simp [recordTab, List.countP_cons, List.foldl_append, Nat.add_assoc, Nat.add_comm]

/-- A kind of viewer is met at most once when each one of the kind is the first. -/
theorem countP_le_one_iff {tabs : List Tab} {kind : Tab → Bool} :
    tabs.countP kind ≤ 1 ↔ ∀ front tab back, tabs = front ++ tab :: back →
      kind tab = true → front.countP kind = 0 := by
  constructor
  · rintro once front tab back rfl shows
    rw [List.countP_append, List.countP_cons_of_pos shows] at once
    omega
  · intro first
    induction tabs using List.reverseRecOn with
    | nil => simp
    | append_singleton front last ih =>
        rw [List.countP_append, List.countP_singleton]
        split_ifs with shows
        · rw [first front last [] rfl shows]
        · exact ih fun before tab back split => first before tab (back ++ [last]) (by simp [split])

/-- The pass over the Tabs of a Workspace. -/
theorem validateTabs_eq_ok {tabs : List Tab} {seen : Seen} {next : Seen × ViewerCounts} :
    tabs.foldlM validateTab (seen, {}) = .ok next ↔
      ((∀ tab ∈ tabs, tab.Valid maxNextStableIdExclusive) ∧
        ((∀ tab ∈ tabs, tab.id ∉ seen.tabIds) ∧ (tabs.map (·.id)).Nodup) ∧
        ((∀ id ∈ tabs.flatMap Tab.paneIds, id ∉ seen.paneIds) ∧
          (tabs.flatMap Tab.paneIds).Nodup) ∧
        tabs.countP (·.content.isDiff) ≤ 1 ∧ tabs.countP (·.content.isFile) ≤ 1) ∧
      next = tabs.foldl recordTab (seen, {}) := by
  rw [Lists.foldlM_eq_ok_iff validateTab_eq_ok]
  refine and_congr_left' ?_
  simp only [foldl_recordTab, Nat.zero_add]
  rw [← Lists.forall_segments_iff_nodup, countP_le_one_iff, countP_le_one_iff]
  constructor
  · intro passes
    refine ⟨?_, ?_, ⟨?_, ?_⟩, ?_, ?_⟩
    · intro tab contained
      rcases List.append_of_mem contained with ⟨front, back, split⟩
      exact (passes front tab back split).1
    · intro front tab back split
      simpa only [List.mem_append, not_or] using (passes front tab back split).2.1
    · intro id contained
      rcases List.mem_flatMap.mp contained with ⟨tab, tabMem, idMem⟩
      rcases List.append_of_mem tabMem with ⟨front, back, split⟩
      have := (passes front tab back split).2.2.1 id idMem
      simp only [List.mem_append, not_or] at this
      exact this.1
    · refine Lists.nodup_flatMap_of_segments fun front tab back split => ?_
      rcases passes front tab back split with ⟨valid, -, fresh, -⟩
      refine ⟨fun id contained => ?_, valid.content.paneIdsNodup⟩
      have := fresh id contained
      simp only [List.mem_append, not_or] at this
      exact this.2
    · exact fun front tab back split => (passes front tab back split).2.2.2.1
    · exact fun front tab back split => (passes front tab back split).2.2.2.2
  · rintro ⟨valid, tabIds, ⟨paneIds, paneIdsNodup⟩, diffs, files⟩ front tab back split
    refine ⟨valid tab (by simp [split]), ?_, ?_, diffs front tab back split,
      files front tab back split⟩
    · simpa only [List.mem_append, not_or] using tabIds front tab back split
    · intro id contained
      rw [List.mem_append, not_or]
      refine ⟨paneIds id (List.mem_flatMap.mpr ⟨tab, by simp [split], contained⟩), ?_⟩
      rw [split] at paneIdsNodup
      exact (Lists.nodup_flatMap_segment paneIdsNodup).1 id contained

/-! ## Workspaces -/

def recordWorkspace (seen : Seen) (workspace : Workspace) : Seen where
  workspaceIds := seen.workspaceIds ++ [workspace.id]
  tabIds := seen.tabIds ++ workspace.tabIds
  paneIds := seen.paneIds ++ workspace.paneIds
  maxId := workspace.stableIds.foldl max seen.maxId

theorem validateWorktree_eq_ok {workspaceId : WorkspaceId} {maxId next : ℕ}
    {worktree : Option WorktreeAssociation} :
    validateWorktree workspaceId maxId worktree = .ok next ↔
      (∀ association, worktree = some association →
        association.Valid maxNextStableIdExclusive workspaceId) ∧
      next = (worktree.toList.map (·.parentWorkspaceId.asU64)).foldl max maxId := by
  rcases worktree with _ | association
  · simp [validateWorktree, eq_comm]
  · simp only [validateWorktree, invalid_bind, Lists.bind_eq_ok, check_eq_ok, validateId_eq_ok,
      not_or, Bool.not_eq_true, Option.some.injEq, forall_eq', Option.toList_some, List.map_cons,
      List.map_nil, List.foldl_cons, List.foldl_nil]
    constructor
    · rintro ⟨_, ⟨within, rfl⟩, ⟨differs, nonempty⟩, done⟩
      exact ⟨⟨within, differs, nonempty⟩, (Except.ok.inj done).symm⟩
    · rintro ⟨⟨within, differs, nonempty⟩, rfl⟩
      exact ⟨_, ⟨within, rfl⟩, ⟨differs, nonempty⟩, rfl⟩

theorem validateWorkspace_eq_ok (seen : Seen) (workspace : Workspace) (next : Seen) :
    validateWorkspace seen workspace = .ok next ↔
      (workspace.Valid maxNextStableIdExclusive ∧ workspace.id ∉ seen.workspaceIds ∧
        ((∀ id ∈ workspace.tabIds, id ∉ seen.tabIds) ∧ workspace.tabIds.Nodup) ∧
        ((∀ id ∈ workspace.paneIds, id ∉ seen.paneIds) ∧ workspace.paneIds.Nodup)) ∧
      next = recordWorkspace seen workspace := by
  simp only [validateWorkspace, invalid_bind, Lists.bind_eq_ok, check_eq_ok, validateId_eq_ok,
    validateWorktree_eq_ok, validateTabs_eq_ok, not_or, Bool.not_eq_true, List.isEmpty_eq_false_iff]
  constructor
  · rintro ⟨_, ⟨within, rfl⟩, unseen, ⟨named, nonempty⟩, _, ⟨worktree, rfl⟩, ⟨_, _⟩,
      ⟨⟨tabs, ⟨tabIds, tabIdsNodup⟩, paneIds, diffs, files⟩, recorded⟩, done⟩
    rw [foldl_recordTab, Prod.mk.injEq] at recorded
    rcases recorded with ⟨rfl, -⟩
    rcases Except.ok.inj done with rfl
    refine ⟨⟨⟨within, named, nonempty, worktree, tabs, diffs, files⟩, unseen, ⟨?_, tabIdsNodup⟩,
      paneIds⟩, ?_⟩
    · simpa [Workspace.tabIds] using tabIds
    · simp [recordWorkspace, Workspace.tabIds, Workspace.paneIds, Workspace.stableIds,
        List.foldl_append]
  · rintro ⟨⟨valid, unseen, ⟨tabIds, tabIdsNodup⟩, paneIds⟩, rfl⟩
    refine ⟨_, ⟨valid.idWithin, rfl⟩, unseen, ⟨valid.named, valid.nonempty⟩, _,
      ⟨valid.worktreeValid, rfl⟩, (_, _), ⟨⟨valid.tabsValid, ⟨?_, tabIdsNodup⟩, paneIds,
        valid.oneDiff, valid.oneFile⟩, (foldl_recordTab ..).symm⟩, ?_⟩
    · simpa [Workspace.tabIds] using tabIds
    · simp [recordWorkspace, Workspace.tabIds, Workspace.paneIds, Workspace.stableIds,
        List.foldl_append]

theorem foldl_recordWorkspace (workspaces : List Workspace) (seen : Seen) :
    workspaces.foldl recordWorkspace seen = {
      workspaceIds := seen.workspaceIds ++ workspaces.map (·.id)
      tabIds := seen.tabIds ++ workspaces.flatMap Workspace.tabIds
      paneIds := seen.paneIds ++ workspaces.flatMap Workspace.paneIds
      maxId := (workspaces.flatMap Workspace.stableIds).foldl max seen.maxId } := by
  induction workspaces generalizing seen with
  | nil => simp
  | cons workspace workspaces ih => simp [ih, recordWorkspace, List.foldl_append]

/-! ## Sessions -/

/-- The largest id of a Session. -/
def Session.maxId (session : Session) : ℕ :=
  session.stableIds.foldl max 0

/-- `validate` accepts the Sessions that are valid below the id limit. -/
theorem Session.validate_eq_ok {session : Session} {maxId : ℕ} :
    session.validate = .ok maxId ↔
      session.Valid maxNextStableIdExclusive ∧ maxId = session.maxId := by
  simp only [validate, Lists.bind_eq_ok, Lists.foldlM_eq_ok_iff validateWorkspace_eq_ok,
    foldl_recordWorkspace, List.nil_append]
  have distinct : session.Valid maxNextStableIdExclusive ↔
      ∀ front workspace back, session.workspaces = front ++ workspace :: back →
        workspace.Valid maxNextStableIdExclusive ∧ workspace.id ∉ front.map (·.id) ∧
          ((∀ id ∈ workspace.tabIds, id ∉ front.flatMap Workspace.tabIds) ∧
            workspace.tabIds.Nodup) ∧
          ((∀ id ∈ workspace.paneIds, id ∉ front.flatMap Workspace.paneIds) ∧
            workspace.paneIds.Nodup) := by
    constructor
    · intro valid front workspace back split
      have tabIds := valid.tabIdsNodup
      have paneIds := valid.paneIdsNodup
      rw [Session.tabIds_eq, split] at tabIds
      rw [Session.paneIds_eq_flatMap, split] at paneIds
      refine ⟨valid.workspacesValid workspace (by simp [split]), ?_,
        Lists.nodup_flatMap_segment tabIds, Lists.nodup_flatMap_segment paneIds⟩
      exact (Lists.forall_segments_iff_nodup.mpr
        ⟨fun _ _ => List.not_mem_nil, valid.workspaceIdsNodup⟩ front workspace back split).2
    · intro passes
      refine ⟨?_, ?_, ?_, ?_⟩
      · exact (Lists.forall_segments_iff_nodup.mp fun front workspace back split =>
          ⟨List.not_mem_nil, (passes front workspace back split).2.1⟩).2
      · rw [Session.tabIds_eq]
        exact Lists.nodup_flatMap_of_segments fun front workspace back split =>
          (passes front workspace back split).2.2.1
      · rw [Session.paneIds_eq_flatMap]
        exact Lists.nodup_flatMap_of_segments fun front workspace back split =>
          (passes front workspace back split).2.2.2
      · intro workspace contained
        rcases List.append_of_mem contained with ⟨front, back, split⟩
        exact (passes front workspace back split).1
  rw [distinct]
  constructor
  · rintro ⟨_, ⟨passes, rfl⟩, done⟩
    exact ⟨passes, (Except.ok.inj done).symm⟩
  · rintro ⟨passes, rfl⟩
    exact ⟨_, ⟨passes, rfl⟩, rfl⟩

end Condr
