import Condr.Agent.Detector
import Condr.Protocol.Git
import Condr.Protocol.SessionSnapshot
import Condr.Terminal.WireRoundTrip

/-!
# The records of a Bootstrap

What a Bootstrap carries of each Pane and Workspace beside the Session's structure: one
record each, written as one message. A terminal's view has the links of the process that
holds it, and comes back with the links that its wire table had room for.
-/

namespace Condr

inductive TerminalProgressState where
  | normal
  | error
  | indeterminate
  | paused
deriving DecidableEq

structure TerminalProgress where
  state : TerminalProgressState
  /-- 0 through 100, when the program gave one. -/
  percent : Option UInt8
deriving DecidableEq

structure PaneTerminalSnapshot (Link : Type) where
  paneId : PaneId
  /-- `none` for a Pane outside what the client watches. -/
  view : Option (TerminalView Link)
  exited : Bool
  title : Option String
  attention : Bool
  progress : Option TerminalProgress

structure PaneAgentSnapshot where
  paneId : PaneId
  agent : AgentSnapshot
  unseen : Bool

inductive BootstrapRecord (Link : Type) where
  | terminal (snapshot : PaneTerminalSnapshot Link)
  | agent (snapshot : PaneAgentSnapshot)
  | workspaceGit (git : WorkspaceGitSnapshot)
  | zoomedPane (pane : PaneId)

/-- The snapshot with another view. -/
def PaneTerminalSnapshot.withView {Link Other : Type} (snapshot : PaneTerminalSnapshot Link)
    (view : Option (TerminalView Other)) : PaneTerminalSnapshot Other where
  paneId := snapshot.paneId
  view := view
  exited := snapshot.exited
  title := snapshot.title
  attention := snapshot.attention
  progress := snapshot.progress

namespace Pb

structure TerminalProgress where
  state : ℤ
  percent : Option UInt32

structure PaneTerminalSnapshot where
  paneId : ℕ
  view : Option Pb.TerminalView
  exited : Bool
  title : Option String
  attention : Bool
  progress : Option TerminalProgress

structure AgentSnapshot where
  sessionId : Option String
  kind : ℤ
  state : ℤ
  detail : Option String

structure PaneAgentSnapshot where
  paneId : ℕ
  agent : Option AgentSnapshot
  unseen : Bool

/-- The member of a record's oneof. -/
inductive BootstrapRecordMember where
  | terminal (snapshot : PaneTerminalSnapshot)
  | agent (snapshot : PaneAgentSnapshot)
  | workspaceGit (git : WorkspaceGitSnapshot)
  | zoomedPane (pane : ℕ)

structure BootstrapRecord where
  record : Option BootstrapRecordMember

end Pb

/-! ## Enums -/

def AgentState.toWire : AgentState → ℤ
  | .unknown => 1
  | .idle => 2
  | .working => 3
  | .blocked => 4
  | .done => 5
  | .error => 6

def agentState (raw : ℤ) : WireResult AgentState :=
  enumOr raw "agent state" .unknown fun
    | 1 => some .unknown
    | 2 => some .idle
    | 3 => some .working
    | 4 => some .blocked
    | 5 => some .done
    | 6 => some .error
    | _ => none

def TerminalProgressState.toWire : TerminalProgressState → ℤ
  | .normal => 1
  | .error => 2
  | .indeterminate => 3
  | .paused => 4

def progressState (raw : ℤ) : WireResult TerminalProgressState :=
  enumOr raw "progress state" .indeterminate fun
    | 1 => some .normal
    | 2 => some .error
    | 3 => some .indeterminate
    | 4 => some .paused
    | _ => none

@[simp]
theorem agentState_toWire (state : AgentState) : agentState state.toWire = .ok state := by
  cases state <;> rfl

@[simp]
theorem progressState_toWire (state : TerminalProgressState) :
    progressState state.toWire = .ok state := by
  cases state <;> rfl

/-! ## Encoding -/

def encodeProgress (progress : TerminalProgress) : Pb.TerminalProgress where
  state := progress.state.toWire
  percent := progress.percent.map UInt8.toUInt32

def AgentSnapshot.toWire (agent : AgentSnapshot) : Pb.AgentSnapshot where
  sessionId := agent.sessionId
  kind := agent.kind.toWire
  state := agent.state.toWire
  detail := agent.detail

def encodePaneAgent (agent : PaneAgentSnapshot) : Pb.PaneAgentSnapshot where
  paneId := agent.paneId.asU64
  agent := some agent.agent.toWire
  unseen := agent.unseen

def BootstrapRecord.toWire (memory : Memory) (record : BootstrapRecord SmolStr) :
    Pb.BootstrapRecord where
  record := some (match record with
    | terminal snapshot => .terminal {
        paneId := snapshot.paneId.asU64
        view := snapshot.view.map (TerminalView.toWire memory)
        exited := snapshot.exited
        title := snapshot.title
        attention := snapshot.attention
        progress := snapshot.progress.map encodeProgress }
    | agent snapshot => .agent (encodePaneAgent snapshot)
    | workspaceGit git => .workspaceGit (encodeGit git)
    | zoomedPane pane => .zoomedPane pane.asU64)

/-! ## Decoding -/

def decodeProgress (progress : Pb.TerminalProgress) : WireResult TerminalProgress := do
  let state ← progressState progress.state
  let percent ← transposeMap
    (fun percent => (narrow8 percent "progress percent").map
      fun percent => if percent ≤ 100 then percent else 100)
    progress.percent
  .ok { state, percent }

def Pb.AgentSnapshot.toDomain (agent : Pb.AgentSnapshot) : WireResult Condr.AgentSnapshot := do
  let kind ← agentKind agent.kind
  let state ← agentState agent.state
  .ok { sessionId := agent.sessionId, kind, state, detail := agent.detail }

def decodePaneAgent (agent : Pb.PaneAgentSnapshot) : WireResult PaneAgentSnapshot := do
  let snapshot ← required agent.agent "agent"
  let snapshot ← snapshot.toDomain
  .ok { paneId := ⟨agent.paneId⟩, agent := snapshot, unseen := agent.unseen }

/-- `decode_bootstrap_record`: none for a kind that this build does not know. -/
def Pb.BootstrapRecord.toDomain (record : Pb.BootstrapRecord) :
    ReadResult (Option (Condr.BootstrapRecord String)) :=
  match record.record with
  | none => .ok none
  | some (.terminal snapshot) => do
      let view ← transposeMap Pb.TerminalView.toDomain snapshot.view
      let progress ← fromWire (transposeMap decodeProgress snapshot.progress)
      .ok (some (.terminal {
        paneId := ⟨snapshot.paneId⟩
        view
        exited := snapshot.exited
        title := snapshot.title
        attention := snapshot.attention
        progress }))
  | some (.agent snapshot) => do
      let snapshot ← fromWire (decodePaneAgent snapshot)
      .ok (some (.agent snapshot))
  | some (.workspaceGit git) => do
      let git ← fromWire (Pb.decodeGit git)
      .ok (some (.workspaceGit git))
  | some (.zoomedPane pane) => .ok (some (.zoomedPane ⟨pane⟩))

/-! ## What survives the wire -/

/-- The record as it comes back: a view loses the links its wire table has no room for. -/
def BootstrapRecord.settled (memory : Memory) : BootstrapRecord SmolStr → BootstrapRecord String
  | terminal snapshot =>
      .terminal (snapshot.withView
        (snapshot.view.map fun view => settleView ∅ (view.map (SmolStr.read memory))))
  | agent snapshot => .agent snapshot
  | workspaceGit git => .workspaceGit git
  | zoomedPane pane => .zoomedPane pane

/-- A cell for every place of the grid, no more than a decoder takes, and short texts. -/
structure TerminalView.Sized {Link : Type} (view : TerminalView Link) : Prop where
  grid : view.cells.length = view.size.rows.toNat * view.size.columns.toNat
  few : view.cells.length ≤ maxTerminalCells
  short : ∀ cell ∈ view.cells, cell.text.utf8ByteSize ≤ maxTerminalCellTextBytes

/-- The percentage a program gave is one. -/
def TerminalProgress.Proper (progress : TerminalProgress) : Prop :=
  ∀ percent, progress.percent = some percent → percent ≤ 100

/-- The decoder takes the record as it is. -/
def BootstrapRecord.Portable {Link : Type} : BootstrapRecord Link → Prop
  | terminal snapshot =>
      (∀ view, snapshot.view = some view → view.Sized) ∧
        ∀ progress, snapshot.progress = some progress → progress.Proper
  | agent _ => True
  | workspaceGit git => git.Relative
  | zoomedPane _ => True

theorem narrow8_toUInt32 (value : UInt8) (field : String) :
    narrow8 value.toUInt32 field = .ok value := by
  rw [narrow8, narrow, if_pos (by rw [UInt8.toNat_toUInt32]; exact value.toNat_lt)]
  rw [UInt8.toUInt8_toUInt32]

theorem decodeProgress_encodeProgress {progress : TerminalProgress} (proper : progress.Proper) :
    decodeProgress (encodeProgress progress) = .ok progress := by
  rcases progress with ⟨state, percent⟩
  cases percent with
  | none => simp [decodeProgress, encodeProgress, transposeMap, Lists.ok_bind]
  | some percent =>
      have least : percent ≤ 100 := proper percent rfl
      simp only [decodeProgress, encodeProgress, progressState_toWire, Lists.ok_bind, transposeMap,
        Option.map_some, narrow8_toUInt32, Except.map, if_pos least]

theorem decodePaneAgent_encodePaneAgent (agent : PaneAgentSnapshot) :
    decodePaneAgent (encodePaneAgent agent) = .ok agent := by
  simp [decodePaneAgent, encodePaneAgent, required, Pb.AgentSnapshot.toDomain, AgentSnapshot.toWire,
    Lists.ok_bind]

theorem BootstrapRecord.toDomain_toWire {memory : Memory} {record : BootstrapRecord SmolStr}
    (portable : record.Portable) :
    (record.toWire memory).toDomain = .ok (some (record.settled memory)) := by
  cases record with
  | terminal snapshot =>
      rcases portable with ⟨sized, proper⟩
      have view : transposeMap Pb.TerminalView.toDomain
          (snapshot.view.map (TerminalView.toWire memory)) =
          .ok (snapshot.view.map fun view => settleView ∅ (view.map (SmolStr.read memory))) := by
        cases present : snapshot.view with
        | none => rfl
        | some view =>
            have size := sized view present
            simp [transposeMap, toDomain_toWire_view size.grid size.few size.short, Except.map]
      have progress : transposeMap decodeProgress (snapshot.progress.map encodeProgress) =
          .ok snapshot.progress := by
        cases present : snapshot.progress with
        | none => rfl
        | some progress =>
            simp [transposeMap, decodeProgress_encodeProgress (proper progress present),
              Except.map]
      simp only [toWire, Pb.BootstrapRecord.toDomain, view, progress, fromWire_ok, Lists.ok_bind]
      rfl
  | agent snapshot =>
      simp only [toWire, Pb.BootstrapRecord.toDomain, decodePaneAgent_encodePaneAgent, fromWire_ok,
        Lists.ok_bind]
      rfl
  | workspaceGit git =>
      have decodes := (decodeGit_encodeGit git git).mpr ⟨portable, rfl⟩
      simp only [toWire, Pb.BootstrapRecord.toDomain, decodes, fromWire_ok, Lists.ok_bind]
      rfl
  | zoomedPane pane => rfl

end Condr
