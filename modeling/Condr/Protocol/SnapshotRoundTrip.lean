import Condr.Protocol.SessionSnapshot
import Condr.Session.RoundTrip

/-!
# What a saved Session keeps

The decoder of a saved Session refuses some of what the encoder writes: viewer
paths it does not take for relative, tables above their limits; and it drops an
Agent of a kind it does not know. A snapshot that has none of these comes back
as it was, and whatever the decoder returns has none of them.
-/

namespace Condr

/-! ## Portable snapshots -/

/-- No Agent of an unknown kind is to be resumed. -/
def Resumable (agentResume : Option AgentResume) : Prop :=
  ∀ resume, agentResume = some resume → resume.kind ≠ .other

namespace TabContentSnapshot

/-- What the decoder keeps of a Tab. -/
def Portable : TabContentSnapshot → Prop
  | terminals panes _ _ _ => ∀ pane ∈ panes, Resumable pane.agentResume
  | diff path => isRelativeText path.inner = true
  | file path => isRelativeText path.inner = true

/-- The tables of a Tab are within the limits of the decoder. -/
def Bounded : TabContentSnapshot → Prop
  | terminals panes _ history layout =>
      panes.length ≤ maxSnapshotPanes ∧ history.length ≤ maxSnapshotPanes ∧
        layout.nodes.length ≤ maxSnapshotLayoutNodes
  | _ => True

end TabContentSnapshot

structure WorkspaceSnapshot.Portable (workspace : WorkspaceSnapshot) : Prop where
  tabLimit : workspace.tabs.length ≤ maxSnapshotTabs
  tabs : ∀ tab ∈ workspace.tabs, tab.content.Portable ∧ tab.content.Bounded

structure SessionSnapshot.Portable (snapshot : SessionSnapshot) : Prop where
  workspaceLimit : snapshot.workspaces.length ≤ maxSnapshotWorkspaces
  workspaces : ∀ workspace ∈ snapshot.workspaces, workspace.Portable

/-! ## What the encoder writes comes back -/

theorem AgentResume.toDomain_toWire (resume : AgentResume) :
    resume.toWire.toDomain = .ok resume := by
  simp [AgentResume.toWire, Pb.AgentResume.toDomain, bind, Except.bind]

theorem PaneSnapshot.toDomain_toWire {pane : PaneSnapshot} {wire : Pb.PaneSnapshot}
    (resumable : Resumable pane.agentResume) (encoded : pane.toWire = .ok wire) :
    wire.toDomain = .ok pane := by
  rcases pane with ⟨id, cwd, agentResume⟩
  simp only [toWire, Lists.bind_eq_ok, optionalPathText_eq_ok, Except.ok.injEq] at encoded
  rcases encoded with ⟨cwd, rfl, rfl⟩
  cases agentResume with
  | none => rfl
  | some resume =>
      have known : (resume.kind != .other) = true := bne_iff_ne.mpr (resumable resume rfl)
      simp [Pb.PaneSnapshot.toDomain, transposeMap, AgentResume.toDomain_toWire, Except.map, bind,
        Except.bind, known]

theorem LayoutNodeSnapshot.toDomain_toWire (node : LayoutNodeSnapshot) :
    Pb.LayoutNode.toDomain (some node.toWire) = .ok node := by
  cases node <;> simp [toWire, Pb.LayoutNode.toDomain, member, bind, Except.bind]

theorem LayoutSnapshot.toDomain_toWire {layout : LayoutSnapshot}
    (nodeLimit : layout.nodes.length ≤ maxSnapshotLayoutNodes) :
    layout.toWire.toDomain = .ok layout := by
  have nodes : layout.toWire.nodes.mapM Pb.LayoutNode.toDomain = .ok layout.nodes := by
    rw [Lists.mapM_eq_ok_iff]
    simp only [toWire, List.forall₂_map_left_iff, List.forall₂_same]
    exact fun node _ => node.toDomain_toWire
  simp only [Pb.LayoutSnapshot.toDomain, Lists.bind_eq_ok, bounded_eq_ok]
  exact ⟨(), by simpa [toWire] using nodeLimit, layout.nodes, nodes, rfl⟩

theorem TabContentSnapshot.toDomain_toWire {content : TabContentSnapshot} {wire : Pb.TabContent}
    (portable : content.Portable) (bounded : content.Bounded)
    (encoded : content.toWire = .ok wire) : wire.toDomain = .ok content := by
  cases content with
  | terminals panes focusedPane focusHistory layout =>
      simp only [toWire, Lists.bind_eq_ok, Except.ok.injEq] at encoded
      rcases encoded with ⟨wirePanes, panesEncoded, rfl⟩
      rcases bounded with ⟨paneLimit, historyLimit, nodeLimit⟩
      have panesDecoded := Lists.mapM_roundTrip
        (fun pane contained _ => PaneSnapshot.toDomain_toWire (portable pane contained))
        panesEncoded
      simp only [Pb.TabContent.toDomain, Lists.bind_eq_ok, bounded_eq_ok, required]
      refine ⟨(), panesDecoded.2 ▸ paneLimit, (), by simpa using historyLimit, panes,
        panesDecoded.1, _, rfl, layout, LayoutSnapshot.toDomain_toWire nodeLimit, ?_⟩
      simp [Function.comp_def]
  | diff path | file path =>
      rcases Except.ok.inj encoded with rfl
      simp [Pb.TabContent.toDomain, relativePath_eq_ok.mpr ⟨portable, rfl⟩, Except.map]

theorem TabSnapshot.toDomain_toWire {tab : TabSnapshot} {wire : Pb.TabSnapshot}
    (portable : tab.content.Portable ∧ tab.content.Bounded) (encoded : tab.toWire = .ok wire) :
    wire.toDomain = .ok tab := by
  simp only [toWire, Lists.bind_eq_ok, Except.ok.injEq] at encoded
  rcases encoded with ⟨content, contentEncoded, rfl⟩
  have decoded := TabContentSnapshot.toDomain_toWire portable.1 portable.2 contentEncoded
  simp [Pb.TabSnapshot.toDomain, member, decoded, bind, Except.bind]

theorem WorktreeAssociation.toDomain_toWire {worktree : WorktreeAssociation}
    {wire : Pb.WorktreeAssociation} (encoded : worktree.toWire = .ok wire) :
    wire.toDomain = worktree := by
  rcases worktree with ⟨parentWorkspaceId, parentRootDirectory, managed, baseBranch⟩
  simp only [toWire, Lists.bind_eq_ok, pathText_eq_ok, Except.ok.injEq] at encoded
  rcases encoded with ⟨text, rfl, rfl⟩
  rfl

theorem WorkspaceSnapshot.toDomain_toWire {workspace : WorkspaceSnapshot}
    {wire : Pb.WorkspaceSnapshot} (portable : workspace.Portable)
    (encoded : workspace.toWire = .ok wire) : wire.toDomain = .ok workspace := by
  rcases workspace with ⟨id, name, rootDirectory, worktree, tabs⟩
  simp only [toWire, Lists.bind_eq_ok, pathText_eq_ok, Except.ok.injEq] at encoded
  rcases encoded with ⟨rootText, rfl, wireWorktree, worktreeEncoded, wireTabs, tabsEncoded, rfl⟩
  have tabsDecoded := Lists.mapM_roundTrip
    (fun tab contained _ => TabSnapshot.toDomain_toWire (portable.tabs tab contained)) tabsEncoded
  have worktreeDecoded : wireWorktree.map Pb.WorktreeAssociation.toDomain = worktree := by
    cases worktree with
    | none =>
        rcases Except.ok.inj worktreeEncoded with rfl
        rfl
    | some association =>
        rcases outcome : association.toWire with error | converted <;>
          rw [transposeMap, outcome] at worktreeEncoded
        · cases worktreeEncoded
        · rcases Except.ok.inj worktreeEncoded with rfl
          simp [WorktreeAssociation.toDomain_toWire outcome]
  simp only [Pb.WorkspaceSnapshot.toDomain, Lists.bind_eq_ok, bounded_eq_ok]
  exact ⟨(), tabsDecoded.2 ▸ portable.tabLimit, tabs, tabsDecoded.1, by simp [worktreeDecoded]⟩

/-- A portable snapshot comes back from the wire as it was. -/
theorem SessionSnapshot.toDomain_toWire {snapshot : SessionSnapshot} {wire : Pb.SessionSnapshot}
    (portable : snapshot.Portable) (encoded : snapshot.toWire = .ok wire) :
    wire.toDomain = .ok snapshot := by
  simp only [toWire, Lists.bind_eq_ok, Except.ok.injEq] at encoded
  rcases encoded with ⟨workspaces, workspacesEncoded, rfl⟩
  have decoded := Lists.mapM_roundTrip
    (fun workspace contained _ =>
      WorkspaceSnapshot.toDomain_toWire (portable.workspaces workspace contained))
    workspacesEncoded
  simp only [Pb.SessionSnapshot.toDomain, Lists.bind_eq_ok, bounded_eq_ok]
  exact ⟨(), decoded.2 ▸ portable.workspaceLimit, snapshot.workspaces, decoded.1, rfl⟩

/-! ## What the decoder returns is portable -/

theorem Pb.PaneSnapshot.toDomain_resumable {wire : Pb.PaneSnapshot} {pane : Condr.PaneSnapshot}
    (decoded : wire.toDomain = .ok pane) : Resumable pane.agentResume := by
  simp only [toDomain, Lists.bind_eq_ok, Except.ok.injEq] at decoded
  rcases decoded with ⟨agentResume, -, rfl⟩
  intro resume kept
  exact bne_iff_ne.mp (Option.filter_eq_some_iff.mp kept).2

theorem Pb.TabContent.toDomain_portable {wire : Pb.TabContent} {content : TabContentSnapshot}
    (decoded : wire.toDomain = .ok content) : content.Portable ∧ content.Bounded := by
  have relative : ∀ (path : String) (kind : RelativePathBuf → TabContentSnapshot),
      (relativePath path).map kind = .ok content →
        isRelativeText path = true ∧ content = kind ⟨path⟩ := by
    intro path kind mapped
    rcases outcome : relativePath path with error | found <;> rw [outcome] at mapped
    · cases mapped
    · rcases relativePath_eq_ok.mp outcome with ⟨isRelative, rfl⟩
      exact ⟨isRelative, (Except.ok.inj mapped).symm⟩
  cases wire with
  | terminals tab =>
      simp only [toDomain, Lists.bind_eq_ok, bounded_eq_ok, Except.ok.injEq] at decoded
      rcases decoded with ⟨_, paneLimit, _, historyLimit, panes, panesDecoded, wireLayout, -,
        layout, layoutDecoded, rfl⟩
      simp only [LayoutSnapshot.toDomain, Lists.bind_eq_ok, bounded_eq_ok,
        Except.ok.injEq] at layoutDecoded
      rcases layoutDecoded with ⟨_, nodeLimit, nodes, nodesDecoded, rfl⟩
      have paneCount := (Lists.mapM_eq_ok_iff.mp panesDecoded).length_eq
      have nodeCount := (Lists.mapM_eq_ok_iff.mp nodesDecoded).length_eq
      refine ⟨?_, paneCount ▸ paneLimit, by simpa using historyLimit, nodeCount ▸ nodeLimit⟩
      intro pane contained
      rcases Lists.exists_of_mem_mapM_ok panesDecoded contained with ⟨_, -, paneDecoded⟩
      exact PaneSnapshot.toDomain_resumable paneDecoded
  | diff path =>
      rcases relative path _ decoded with ⟨isRelative, rfl⟩
      exact ⟨isRelative, trivial⟩
  | file path =>
      rcases relative path _ decoded with ⟨isRelative, rfl⟩
      exact ⟨isRelative, trivial⟩

/-- Whatever message is decoded, the snapshot is portable. -/
theorem Pb.SessionSnapshot.toDomain_portable {wire : Pb.SessionSnapshot}
    {snapshot : Condr.SessionSnapshot} (decoded : wire.toDomain = .ok snapshot) : snapshot.Portable := by
  simp only [toDomain, Lists.bind_eq_ok, bounded_eq_ok, Except.ok.injEq] at decoded
  rcases decoded with ⟨_, workspaceLimit, workspaces, workspacesDecoded, rfl⟩
  have workspaceCount := (Lists.mapM_eq_ok_iff.mp workspacesDecoded).length_eq
  refine ⟨workspaceCount ▸ workspaceLimit, ?_⟩
  intro workspace contained
  rcases Lists.exists_of_mem_mapM_ok workspacesDecoded contained with ⟨_, -, workspaceDecoded⟩
  simp only [WorkspaceSnapshot.toDomain, Lists.bind_eq_ok, bounded_eq_ok,
    Except.ok.injEq] at workspaceDecoded
  rcases workspaceDecoded with ⟨_, tabLimit, tabs, tabsDecoded, rfl⟩
  have tabCount := (Lists.mapM_eq_ok_iff.mp tabsDecoded).length_eq
  refine ⟨tabCount ▸ tabLimit, ?_⟩
  intro tab tabContained
  rcases Lists.exists_of_mem_mapM_ok tabsDecoded tabContained with ⟨_, -, tabDecoded⟩
  simp only [TabSnapshot.toDomain, Lists.bind_eq_ok, Except.ok.injEq] at tabDecoded
  rcases tabDecoded with ⟨_, -, content, contentDecoded, rfl⟩
  exact TabContent.toDomain_portable contentDecoded

end Condr
