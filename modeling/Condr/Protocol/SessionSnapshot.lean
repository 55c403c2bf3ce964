import Condr.Foundation.Protobuf
import Condr.Protocol.Pb
import Condr.Session.Snapshot

/-!
# The Session Snapshot on the wire

The messages that carry a snapshot, their fields, and the conversions between them
and the domain's snapshot. A snapshot is written to disk as the same message.
-/

namespace Condr

namespace Pb

structure AgentResume where
  kind : ℤ
  sessionId : String
deriving DecidableEq

structure PaneSnapshot where
  id : ℕ
  cwd : Option String
  agentResume : Option AgentResume
deriving DecidableEq

structure LayoutSplitSnapshot where
  direction : ℤ
  ratio : F32
  first : ℕ
  second : ℕ
deriving DecidableEq

/-- The member of the oneof `node`. -/
inductive LayoutNode where
  | pane (id : ℕ)
  | split (split : LayoutSplitSnapshot)
deriving DecidableEq

structure LayoutSnapshot where
  root : ℕ
  nodes : List (Option LayoutNode)
deriving DecidableEq

structure TerminalsTabSnapshot where
  panes : List PaneSnapshot
  focusedPane : ℕ
  focusHistory : List ℕ
  layout : Option LayoutSnapshot
deriving DecidableEq

/-- The member of the oneof `content`. -/
inductive TabContent where
  | terminals (terminals : TerminalsTabSnapshot)
  | diff (path : String)
  | file (path : String)
deriving DecidableEq

structure TabSnapshot where
  id : ℕ
  name : String
  content : Option TabContent
deriving DecidableEq

structure WorktreeAssociation where
  parentWorkspaceId : ℕ
  parentRootDirectory : String
  managed : Bool
  baseBranch : Option String
deriving DecidableEq

structure WorkspaceSnapshot where
  id : ℕ
  name : String
  rootDirectory : String
  worktree : Option WorktreeAssociation
  tabs : List TabSnapshot
deriving DecidableEq

structure SessionSnapshot where
  workspaces : List WorkspaceSnapshot
deriving DecidableEq

end Pb

/-! ## Enums -/

def SplitDirection.toWire : SplitDirection → ℤ
  | horizontal => 1
  | vertical => 2

def splitDirection (raw : ℤ) : WireResult SplitDirection :=
  enumValue raw "split direction" fun raw => match raw with
    | 1 => some .horizontal
    | 2 => some .vertical
    | _ => none

def AgentKind.toWire : AgentKind → ℤ
  | claude => 1
  | codex => 2
  | openCode => 3
  | pi => 4
  | omp => 5
  | antigravity => 6
  | grok => 7
  | cursor => 8
  | copilot => 9
  | kimi => 10
  | other => 11

def agentKind (raw : ℤ) : WireResult AgentKind :=
  enumOr raw "agent kind" .other fun raw => match raw with
    | 1 => some .claude
    | 2 => some .codex
    | 3 => some .openCode
    | 4 => some .pi
    | 5 => some .omp
    | 6 => some .antigravity
    | 7 => some .grok
    | 8 => some .cursor
    | 9 => some .copilot
    | 10 => some .kimi
    | 11 => some .other
    | _ => none

@[simp]
theorem splitDirection_toWire (direction : SplitDirection) :
    splitDirection direction.toWire = .ok direction := by
  cases direction <;> rfl

@[simp]
theorem agentKind_toWire (kind : AgentKind) : agentKind kind.toWire = .ok kind := by
  cases kind <;> rfl

/-! ## Encoding -/

def AgentResume.toWire (resume : AgentResume) : Pb.AgentResume where
  kind := resume.kind.toWire
  sessionId := resume.sessionId

def PaneSnapshot.toWire (pane : PaneSnapshot) : Except String Pb.PaneSnapshot := do
  let cwd ← optionalPathText pane.cwd
  .ok { id := pane.id.asU64, cwd, agentResume := pane.agentResume.map AgentResume.toWire }

def LayoutNodeSnapshot.toWire : LayoutNodeSnapshot → Pb.LayoutNode
  | pane id => .pane id.asU64
  | split direction ratio first second =>
      .split { direction := direction.toWire, ratio, first, second }

def LayoutSnapshot.toWire (layout : LayoutSnapshot) : Pb.LayoutSnapshot where
  root := layout.root
  nodes := layout.nodes.map fun node => some node.toWire

def TabContentSnapshot.toWire : TabContentSnapshot → Except String Pb.TabContent
  | terminals panes focusedPane focusHistory layout => do
      let panes ← panes.mapM PaneSnapshot.toWire
      .ok (.terminals {
        panes
        focusedPane := focusedPane.asU64
        focusHistory := focusHistory.map (·.asU64)
        layout := some layout.toWire })
  | diff path => .ok (.diff path.inner)
  | file path => .ok (.file path.inner)

def TabSnapshot.toWire (tab : TabSnapshot) : Except String Pb.TabSnapshot := do
  let content ← tab.content.toWire
  .ok { id := tab.id.asU64, name := tab.name, content := some content }

def WorktreeAssociation.toWire (worktree : WorktreeAssociation) :
    Except String Pb.WorktreeAssociation := do
  let parentRootDirectory ← pathText worktree.parentRootDirectory
  .ok {
    parentWorkspaceId := worktree.parentWorkspaceId.asU64
    parentRootDirectory
    managed := worktree.managed
    baseBranch := worktree.baseBranch }

def WorkspaceSnapshot.toWire (workspace : WorkspaceSnapshot) :
    Except String Pb.WorkspaceSnapshot := do
  let rootDirectory ← pathText workspace.rootDirectory
  let worktree ← transposeMap WorktreeAssociation.toWire workspace.worktree
  let tabs ← workspace.tabs.mapM TabSnapshot.toWire
  .ok { id := workspace.id.asU64, name := workspace.name, rootDirectory, worktree, tabs }

def SessionSnapshot.toWire (snapshot : SessionSnapshot) : Except String Pb.SessionSnapshot := do
  let workspaces ← snapshot.workspaces.mapM WorkspaceSnapshot.toWire
  .ok { workspaces }

/-! ## Decoding -/

namespace Pb

def AgentResume.toDomain (resume : AgentResume) : WireResult Condr.AgentResume := do
  let kind ← agentKind resume.kind
  .ok { kind, sessionId := resume.sessionId }

/-- A resume of a kind this build does not know is dropped. -/
def PaneSnapshot.toDomain (pane : PaneSnapshot) : WireResult Condr.PaneSnapshot := do
  let agentResume ← transposeMap AgentResume.toDomain pane.agentResume
  .ok {
    id := ⟨pane.id⟩
    cwd := pane.cwd.map .utf8
    agentResume := agentResume.filter fun resume => resume.kind != .other }

def LayoutNode.toDomain (node : Option LayoutNode) : WireResult LayoutNodeSnapshot := do
  match ← member node with
  | .pane id => .ok (.pane ⟨id⟩)
  | .split node => do
      let direction ← splitDirection node.direction
      .ok (.split direction node.ratio node.first node.second)

def LayoutSnapshot.toDomain (layout : LayoutSnapshot) : WireResult Condr.LayoutSnapshot := do
  bounded layout.nodes.length maxSnapshotLayoutNodes "layout nodes"
  let nodes ← layout.nodes.mapM LayoutNode.toDomain
  .ok { root := layout.root, nodes }

def TabContent.toDomain : TabContent → WireResult TabContentSnapshot
  | .terminals tab => do
      bounded tab.panes.length maxSnapshotPanes "Panes"
      bounded tab.focusHistory.length maxSnapshotPanes "focus history entries"
      let panes ← tab.panes.mapM PaneSnapshot.toDomain
      let layout ← required tab.layout "layout"
      let layout ← layout.toDomain
      .ok (.terminals panes ⟨tab.focusedPane⟩ (tab.focusHistory.map (⟨·⟩)) layout)
  | diff path => (relativePath path).map .diff
  | file path => (relativePath path).map .file

def TabSnapshot.toDomain (tab : TabSnapshot) : WireResult Condr.TabSnapshot := do
  let content ← member tab.content
  let content ← content.toDomain
  .ok { id := ⟨tab.id⟩, name := tab.name, content }

def WorktreeAssociation.toDomain (worktree : WorktreeAssociation) : Condr.WorktreeAssociation where
  parentWorkspaceId := ⟨worktree.parentWorkspaceId⟩
  parentRootDirectory := .utf8 worktree.parentRootDirectory
  managed := worktree.managed
  baseBranch := worktree.baseBranch

def WorkspaceSnapshot.toDomain (workspace : WorkspaceSnapshot) :
    WireResult Condr.WorkspaceSnapshot := do
  bounded workspace.tabs.length maxSnapshotTabs "Tabs"
  let tabs ← workspace.tabs.mapM TabSnapshot.toDomain
  .ok {
    id := ⟨workspace.id⟩
    name := workspace.name
    rootDirectory := .utf8 workspace.rootDirectory
    worktree := workspace.worktree.map WorktreeAssociation.toDomain
    tabs }

def SessionSnapshot.toDomain (snapshot : SessionSnapshot) : WireResult Condr.SessionSnapshot := do
  bounded snapshot.workspaces.length maxSnapshotWorkspaces "Workspaces"
  let workspaces ← snapshot.workspaces.mapM WorkspaceSnapshot.toDomain
  .ok { workspaces }

end Pb

/-! ## Fields -/

/-- The bits of an `f32`. -/
def F32.bits : F32 → ℕ
  | finite value =>
      if value = 0 then 0
      else
        let sign := if value < 0 then 2 ^ 31 else 0
        let power := max (exponent value) (-126)
        let significand := (|value| / (2 : ℚ) ^ (power - 23)).floor.toNat
        -- a significand below 2 ^ 23 is subnormal, whose exponent field is zero
        if significand < 2 ^ 23 then sign + significand
        else sign + (power + 127).toNat * 2 ^ 23 + (significand - 2 ^ 23)
  | infinite negative => (if negative then 2 ^ 31 else 0) + 255 * 2 ^ 23
  | nan => 255 * 2 ^ 23 + 2 ^ 22

namespace Pb

open Protobuf

def AgentResume.fields (resume : AgentResume) : List Field :=
  int 1 resume.kind ++ string 2 resume.sessionId

def PaneSnapshot.fields (pane : PaneSnapshot) : List Field :=
  uint 1 pane.id ++ optionalString 2 pane.cwd ++
    optionalMessage 3 (pane.agentResume.map AgentResume.fields)

def LayoutSplitSnapshot.fields (split : LayoutSplitSnapshot) : List Field :=
  int 1 split.direction ++ float 2 split.ratio.bits ++ uint 3 split.first ++ uint 4 split.second

def LayoutNode.fields : Option LayoutNode → List Field
  | none => []
  | some (.pane id) => memberUint 1 id
  | some (.split node) => message 2 node.fields

def LayoutSnapshot.fields (layout : LayoutSnapshot) : List Field :=
  uint 1 layout.root ++ repeatedMessage 2 (layout.nodes.map LayoutNode.fields)

def TerminalsTabSnapshot.fields (terminals : TerminalsTabSnapshot) : List Field :=
  repeatedMessage 1 (terminals.panes.map PaneSnapshot.fields) ++ uint 2 terminals.focusedPane ++
    packed 3 terminals.focusHistory ++ optionalMessage 4 (terminals.layout.map LayoutSnapshot.fields)

def TabContent.fields : TabContent → List Field
  | .terminals tab => message 3 tab.fields
  | diff path => message 4 (string 1 path)
  | file path => message 5 (string 1 path)

def TabSnapshot.fields (tab : TabSnapshot) : List Field :=
  uint 1 tab.id ++ string 2 tab.name ++ (tab.content.toList.flatMap TabContent.fields)

def WorktreeAssociation.fields (worktree : WorktreeAssociation) : List Field :=
  uint 1 worktree.parentWorkspaceId ++ string 2 worktree.parentRootDirectory ++
    flag 3 worktree.managed ++ optionalString 4 worktree.baseBranch

def WorkspaceSnapshot.fields (workspace : WorkspaceSnapshot) : List Field :=
  uint 1 workspace.id ++ string 2 workspace.name ++ string 3 workspace.rootDirectory ++
    optionalMessage 4 (workspace.worktree.map WorktreeAssociation.fields) ++
    repeatedMessage 5 (workspace.tabs.map TabSnapshot.fields)

def SessionSnapshot.fields (snapshot : SessionSnapshot) : List Field :=
  repeatedMessage 1 (snapshot.workspaces.map WorkspaceSnapshot.fields)

/-- `encode_to_vec`. -/
def SessionSnapshot.encode (snapshot : SessionSnapshot) : List UInt8 :=
  Protobuf.encode snapshot.fields

end Pb

/-! ## Bytes -/

/-- `MAX_SNAPSHOT_BYTES`: 8 MiB. -/
def maxSnapshotBytes : ℕ := 8 * 1024 * 1024

/-- prost's decoder of the message, which is generated code outside the repository. -/
abbrev SnapshotDecoder := List UInt8 → Except String Pb.SessionSnapshot

def oversize (length : ℕ) : String :=
  "Session Snapshot is " ++ toString length ++ " bytes; limit is " ++ toString maxSnapshotBytes ++
    " bytes"

/-- `to_bytes`. -/
def SessionSnapshot.toBytes (snapshot : SessionSnapshot) : Except String (List UInt8) := do
  let wire ← snapshot.toWire
  let length := Protobuf.encodedLen wire.fields
  if maxSnapshotBytes < length then .error (oversize length)
  else .ok wire.encode

/-- How `WireError` is displayed. -/
def WireError.display : WireError → String
  | malformed reason => reason
  | unknown => "a value from a newer protocol"

/-- `from_bytes`. -/
def SessionSnapshot.fromBytes (decode : SnapshotDecoder) (bytes : List UInt8) :
    Except String SessionSnapshot := do
  if maxSnapshotBytes < bytes.length then .error (oversize bytes.length)
  else
    let wire ← decode bytes
    wire.toDomain.mapError WireError.display

end Condr
