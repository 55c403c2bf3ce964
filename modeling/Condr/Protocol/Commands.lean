import Condr.Files.Read
import Condr.Protocol.BootstrapRecord

/-!
# Commands on the wire

What a client asks of the Session's layout, of the Agents, of a Workspace's files and of the
Server itself. The encoder writes a relative path as it is, and every kind of Agent; the decoder
refuses some paths, and takes a command that names an Agent of another kind for one that a newer
client sent.
-/

namespace Condr

inductive LayoutCommand where
  | createWorkspace (rootDirectory : PathBuf) (name : Option String)
  | createWorkspaceDirectory (parentDirectory : PathBuf) (directoryName : String)
      (name cloneUrl : Option String)
  | createWorktree (parentWorkspaceId : WorkspaceId) (branch : String)
  | openWorktree (parentWorkspaceId : WorkspaceId) (rootDirectory : PathBuf)
  | removeWorktree (workspaceId : WorkspaceId)
  | createTab (workspaceId : WorkspaceId) (name : Option String) (cwdFrom : Option PaneId)
  | renameWorkspace (workspaceId : WorkspaceId) (name : String)
  | renameTab (tabId : TabId) (name : String)
  | activateWorkspace (workspaceId : WorkspaceId)
  | activateTab (tabId : TabId)
  | moveWorkspace (workspaceId : WorkspaceId) (targetIndex : UInt32)
  | moveTab (tabId : TabId) (targetIndex : UInt32)
  | splitPane (paneId : PaneId) (direction : SplitDirection) (focus : Bool)
  | focusPane (paneId : PaneId)
  | focusPaneDirection (paneId : PaneId) (direction : PaneDirection)
  | resizePane (paneId : PaneId) (direction : PaneDirection) (amount : F32)
  | setSplitRatios (tabId : TabId) (ratios : List F32)
  | swapPane (paneId : PaneId) (direction : PaneDirection)
  | swapPanes (paneId other : PaneId)
  | movePane (paneId targetPaneId : PaneId) (side : PaneDirection)
  | togglePaneZoom (paneId : PaneId)
  | closePane (paneId : PaneId)
  | closeTab (tabId : TabId)
  | closeWorkspace (workspaceId : WorkspaceId)
  | showDiff (workspaceId : WorkspaceId) (path : RelativePathBuf)
  | showFile (workspaceId : WorkspaceId) (path : RelativePathBuf)
deriving DecidableEq

inductive HooksAction where
  | install
  | uninstall
  | status
deriving DecidableEq

inductive AgentCommand where
  | available
  | list
  | start (name : String) (kind : AgentKind) (paneId : PaneId) (args : List String)
      (timeoutMs : ℕ)
  | prompt (target text : String) (states : Option (List AgentState)) (timeoutMs : ℕ)
  | wait (target : String) (states : List AgentState) (timeoutMs : ℕ)
  | hooks (agent : AgentKind) (action : HooksAction)
deriving DecidableEq

inductive ServerAdminCommand where
  | status
  | saveListen (address : Option String)
  | saveP2p (enabled : Bool)
  | restart
  | clients
  | invite
  | revoke (key : String)
deriving DecidableEq

inductive FileMutation where
  /-- With a base, only while the file still has that version. -/
  | write (path : RelativePathBuf) (text : String) (base : Option ℕ)
  | create (path : RelativePathBuf) (kind : FileKind)
  | rename (source target : RelativePathBuf)
  | delete (path : RelativePathBuf)
deriving DecidableEq

namespace Pb

structure CreateWorkspace where
  rootDirectory : String
  name : Option String

structure CreateWorkspaceDirectory where
  parentDirectory : String
  directoryName : String
  name : Option String
  cloneUrl : Option String

structure CreateWorktree where
  parentWorkspaceId : ℕ
  branch : String

structure OpenWorktree where
  parentWorkspaceId : ℕ
  rootDirectory : String

structure WorkspaceTarget where
  workspaceId : ℕ

structure TabTarget where
  tabId : ℕ

structure PaneTarget where
  paneId : ℕ

structure CreateTab where
  workspaceId : ℕ
  name : Option String
  cwdFrom : Option ℕ

structure RenameWorkspace where
  workspaceId : ℕ
  name : String

structure RenameTab where
  tabId : ℕ
  name : String

structure MoveWorkspace where
  workspaceId : ℕ
  targetIndex : UInt32

structure MoveTab where
  tabId : ℕ
  targetIndex : UInt32

structure SplitPane where
  paneId : ℕ
  direction : ℤ
  focus : Bool

structure PaneInDirection where
  paneId : ℕ
  direction : ℤ

structure ResizePane where
  paneId : ℕ
  direction : ℤ
  amount : F32

structure SetSplitRatios where
  tabId : ℕ
  ratios : List F32

structure SwapPanes where
  paneId : ℕ
  other : ℕ

structure MovePane where
  paneId : ℕ
  targetPaneId : ℕ
  side : ℤ

structure WorkspacePath where
  workspaceId : ℕ
  path : String

inductive LayoutCommandMember where
  | createWorkspace (create : CreateWorkspace)
  | createWorktree (create : CreateWorktree)
  | openWorktree (target : OpenWorktree)
  | removeWorktree (target : WorkspaceTarget)
  | createTab (create : CreateTab)
  | renameWorkspace (rename : RenameWorkspace)
  | renameTab (rename : RenameTab)
  | activateWorkspace (target : WorkspaceTarget)
  | activateTab (target : TabTarget)
  | moveWorkspace (target : MoveWorkspace)
  | moveTab (target : MoveTab)
  | splitPane (split : SplitPane)
  | focusPane (target : PaneTarget)
  | focusPaneDirection (target : PaneInDirection)
  | resizePane (resize : ResizePane)
  | setSplitRatios (ratios : SetSplitRatios)
  | swapPane (target : PaneInDirection)
  | swapPanes (swap : SwapPanes)
  | movePane (move : MovePane)
  | togglePaneZoom (target : PaneTarget)
  | closePane (target : PaneTarget)
  | closeTab (target : TabTarget)
  | closeWorkspace (target : WorkspaceTarget)
  | showDiff (target : WorkspacePath)
  | showFile (target : WorkspacePath)
  | createWorkspaceDirectory (create : CreateWorkspaceDirectory)

structure LayoutCommand where
  command : Option LayoutCommandMember

structure AgentStart where
  name : String
  kind : ℤ
  paneId : ℕ
  args : List String
  timeoutMs : ℕ

structure AgentStates where
  states : List ℤ

structure AgentPrompt where
  target : String
  text : String
  states : Option AgentStates
  timeoutMs : ℕ

structure AgentWait where
  target : String
  states : List ℤ
  timeoutMs : ℕ

structure AgentHooks where
  agent : ℤ
  action : ℤ

inductive AgentCommandMember where
  | available
  | list
  | start (start : AgentStart)
  | prompt (prompt : AgentPrompt)
  | wait (wait : AgentWait)
  | hooks (hooks : AgentHooks)

structure AgentCommand where
  command : Option AgentCommandMember

structure SaveListen where
  address : Option String

inductive ServerAdminCommandMember where
  | status
  | saveListen (save : SaveListen)
  | saveP2p (enabled : Bool)
  | restart
  | clients
  | invite
  | revoke (key : String)

structure ServerAdminCommand where
  command : Option ServerAdminCommandMember

structure WriteFile where
  path : String
  text : String
  base : Option ℕ

structure CreateEntry where
  path : String
  kind : ℤ

structure RenameEntry where
  source : String
  target : String

/-- The member of the oneof `mutation`. -/
inductive FileMutation where
  | write (write : WriteFile)
  | create (create : CreateEntry)
  | rename (rename : RenameEntry)
  | delete (path : String)

end Pb

/-! ## Enums -/

def PaneDirection.toWire : PaneDirection → ℤ
  | left => 1
  | right => 2
  | up => 3
  | down => 4

def paneDirection (raw : ℤ) : WireResult PaneDirection :=
  enumValue raw "pane direction" fun
    | 1 => some .left
    | 2 => some .right
    | 3 => some .up
    | 4 => some .down
    | _ => none

/-- The values of the wire's enum. -/
def definedAgentKind : ℤ → Option AgentKind
  | 1 => some .claude
  | 2 => some .codex
  | 3 => some .openCode
  | 4 => some .pi
  | 5 => some .omp
  | 6 => some .antigravity
  | 7 => some .grok
  | 8 => some .cursor
  | 9 => some .copilot
  | 10 => some .kimi
  | 11 => some .other
  | _ => none

/-- The kind of an Agent that a command names: nothing could run one of another kind. -/
def commandAgentKind (raw : ℤ) : WireResult AgentKind := do
  match ← enumValue raw "agent kind" definedAgentKind with
  | .other => .error .unknown
  | _ => agentKind raw

def HooksAction.toWire : HooksAction → ℤ
  | install => 1
  | uninstall => 2
  | status => 3

def hooksAction (raw : ℤ) : WireResult HooksAction :=
  enumValue raw "hooks action" fun
    | 1 => some .install
    | 2 => some .uninstall
    | 3 => some .status
    | _ => none

def FileKind.toWire : FileKind → ℤ
  | directory => 1
  | file => 2

def fileKind (raw : ℤ) : WireResult FileKind :=
  enumValue raw "file kind" fun
    | 1 => some .directory
    | 2 => some .file
    | _ => none

@[simp]
theorem paneDirection_toWire (direction : PaneDirection) :
    paneDirection direction.toWire = .ok direction := by
  cases direction <;> rfl

theorem commandAgentKind_toWire {kind : AgentKind} (runnable : kind ≠ .other) :
    commandAgentKind kind.toWire = .ok kind := by
  cases kind with
  | other => exact absurd rfl runnable
  | _ => rfl

@[simp]
theorem commandAgentKind_other : commandAgentKind AgentKind.other.toWire = .error .unknown := rfl

@[simp]
theorem commandAgentKind_toWire_eq_ok {kind found : AgentKind} :
    commandAgentKind kind.toWire = .ok found ↔ kind ≠ .other ∧ found = kind := by
  by_cases stranger : kind = .other
  · subst stranger
    simp
  · simp [commandAgentKind_toWire stranger, stranger, eq_comm]

@[simp]
theorem hooksAction_toWire (action : HooksAction) : hooksAction action.toWire = .ok action := by
  cases action <;> rfl

@[simp]
theorem fileKind_toWire (kind : FileKind) : fileKind kind.toWire = .ok kind := by
  cases kind <;> rfl

/-! ## Layout commands -/

def LayoutCommand.toMember : LayoutCommand → Except String Pb.LayoutCommandMember
  | createWorkspace rootDirectory name => do
      let rootDirectory ← pathText rootDirectory
      .ok (.createWorkspace { rootDirectory, name })
  | createWorkspaceDirectory parentDirectory directoryName name cloneUrl => do
      let parentDirectory ← pathText parentDirectory
      .ok (.createWorkspaceDirectory { parentDirectory, directoryName, name, cloneUrl })
  | createWorktree parentWorkspaceId branch =>
      .ok (.createWorktree { parentWorkspaceId := parentWorkspaceId.asU64, branch })
  | openWorktree parentWorkspaceId rootDirectory => do
      let rootDirectory ← pathText rootDirectory
      .ok (.openWorktree { parentWorkspaceId := parentWorkspaceId.asU64, rootDirectory })
  | removeWorktree workspaceId => .ok (.removeWorktree ⟨workspaceId.asU64⟩)
  | createTab workspaceId name cwdFrom =>
      .ok (.createTab {
        workspaceId := workspaceId.asU64
        name
        cwdFrom := cwdFrom.map (·.asU64) })
  | renameWorkspace workspaceId name =>
      .ok (.renameWorkspace { workspaceId := workspaceId.asU64, name })
  | renameTab tabId name => .ok (.renameTab { tabId := tabId.asU64, name })
  | activateWorkspace workspaceId => .ok (.activateWorkspace ⟨workspaceId.asU64⟩)
  | activateTab tabId => .ok (.activateTab ⟨tabId.asU64⟩)
  | moveWorkspace workspaceId targetIndex =>
      .ok (.moveWorkspace { workspaceId := workspaceId.asU64, targetIndex })
  | moveTab tabId targetIndex => .ok (.moveTab { tabId := tabId.asU64, targetIndex })
  | splitPane paneId direction focus =>
      .ok (.splitPane { paneId := paneId.asU64, direction := direction.toWire, focus })
  | focusPane paneId => .ok (.focusPane ⟨paneId.asU64⟩)
  | focusPaneDirection paneId direction =>
      .ok (.focusPaneDirection { paneId := paneId.asU64, direction := direction.toWire })
  | resizePane paneId direction amount =>
      .ok (.resizePane { paneId := paneId.asU64, direction := direction.toWire, amount })
  | setSplitRatios tabId ratios => .ok (.setSplitRatios { tabId := tabId.asU64, ratios })
  | swapPane paneId direction =>
      .ok (.swapPane { paneId := paneId.asU64, direction := direction.toWire })
  | swapPanes paneId other => .ok (.swapPanes { paneId := paneId.asU64, other := other.asU64 })
  | movePane paneId targetPaneId side =>
      .ok (.movePane {
        paneId := paneId.asU64
        targetPaneId := targetPaneId.asU64
        side := side.toWire })
  | togglePaneZoom paneId => .ok (.togglePaneZoom ⟨paneId.asU64⟩)
  | closePane paneId => .ok (.closePane ⟨paneId.asU64⟩)
  | closeTab tabId => .ok (.closeTab ⟨tabId.asU64⟩)
  | closeWorkspace workspaceId => .ok (.closeWorkspace ⟨workspaceId.asU64⟩)
  | showDiff workspaceId path =>
      .ok (.showDiff { workspaceId := workspaceId.asU64, path := path.inner })
  | showFile workspaceId path =>
      .ok (.showFile { workspaceId := workspaceId.asU64, path := path.inner })

def LayoutCommand.toWire (command : LayoutCommand) : Except String Pb.LayoutCommand := do
  let command ← command.toMember
  .ok { command := some command }

def Pb.LayoutCommandMember.toDomain : Pb.LayoutCommandMember → WireResult Condr.LayoutCommand
  | .createWorkspace create => .ok (.createWorkspace (.utf8 create.rootDirectory) create.name)
  | .createWorkspaceDirectory create =>
      .ok (.createWorkspaceDirectory (.utf8 create.parentDirectory) create.directoryName
        create.name create.cloneUrl)
  | .createWorktree create => .ok (.createWorktree ⟨create.parentWorkspaceId⟩ create.branch)
  | .openWorktree target =>
      .ok (.openWorktree ⟨target.parentWorkspaceId⟩ (.utf8 target.rootDirectory))
  | .removeWorktree target => .ok (.removeWorktree ⟨target.workspaceId⟩)
  | .createTab create =>
      .ok (.createTab ⟨create.workspaceId⟩ create.name (create.cwdFrom.map (⟨·⟩)))
  | .renameWorkspace rename => .ok (.renameWorkspace ⟨rename.workspaceId⟩ rename.name)
  | .renameTab rename => .ok (.renameTab ⟨rename.tabId⟩ rename.name)
  | .activateWorkspace target => .ok (.activateWorkspace ⟨target.workspaceId⟩)
  | .activateTab target => .ok (.activateTab ⟨target.tabId⟩)
  | .moveWorkspace target => .ok (.moveWorkspace ⟨target.workspaceId⟩ target.targetIndex)
  | .moveTab target => .ok (.moveTab ⟨target.tabId⟩ target.targetIndex)
  | .splitPane split => do
      let direction ← splitDirection split.direction
      .ok (.splitPane ⟨split.paneId⟩ direction split.focus)
  | .focusPane target => .ok (.focusPane ⟨target.paneId⟩)
  | .focusPaneDirection target => do
      let direction ← paneDirection target.direction
      .ok (.focusPaneDirection ⟨target.paneId⟩ direction)
  | .resizePane resize => do
      let direction ← paneDirection resize.direction
      .ok (.resizePane ⟨resize.paneId⟩ direction resize.amount)
  | .setSplitRatios ratios => .ok (.setSplitRatios ⟨ratios.tabId⟩ ratios.ratios)
  | .swapPane target => do
      let direction ← paneDirection target.direction
      .ok (.swapPane ⟨target.paneId⟩ direction)
  | .swapPanes swap => .ok (.swapPanes ⟨swap.paneId⟩ ⟨swap.other⟩)
  | .movePane move => do
      let side ← paneDirection move.side
      .ok (.movePane ⟨move.paneId⟩ ⟨move.targetPaneId⟩ side)
  | .togglePaneZoom target => .ok (.togglePaneZoom ⟨target.paneId⟩)
  | .closePane target => .ok (.closePane ⟨target.paneId⟩)
  | .closeTab target => .ok (.closeTab ⟨target.tabId⟩)
  | .closeWorkspace target => .ok (.closeWorkspace ⟨target.workspaceId⟩)
  | .showDiff target => (relativePath target.path).map (.showDiff ⟨target.workspaceId⟩)
  | .showFile target => (relativePath target.path).map (.showFile ⟨target.workspaceId⟩)

def Pb.LayoutCommand.toDomain (command : Pb.LayoutCommand) : WireResult Condr.LayoutCommand := do
  let command ← member command.command
  command.toDomain

/-! ## Agent commands -/

def AgentCommand.toMember : AgentCommand → Pb.AgentCommandMember
  | available => .available
  | list => .list
  | start name kind paneId args timeoutMs =>
      .start { name, kind := kind.toWire, paneId := paneId.asU64, args, timeoutMs }
  | prompt target text states timeoutMs =>
      .prompt {
        target
        text
        states := states.map fun states => ⟨states.map AgentState.toWire⟩
        timeoutMs }
  | wait target states timeoutMs =>
      .wait { target, states := states.map AgentState.toWire, timeoutMs }
  | hooks agent action => .hooks { agent := agent.toWire, action := action.toWire }

def AgentCommand.toWire (command : AgentCommand) : Pb.AgentCommand where
  command := some command.toMember

def Pb.AgentCommandMember.toDomain : Pb.AgentCommandMember → WireResult Condr.AgentCommand
  | .available => .ok .available
  | .list => .ok .list
  | .start command => do
      let kind ← commandAgentKind command.kind
      .ok (.start command.name kind ⟨command.paneId⟩ command.args command.timeoutMs)
  | .prompt command => do
      let states ← transposeMap (fun states => states.states.mapM agentState) command.states
      .ok (.prompt command.target command.text states command.timeoutMs)
  | .wait command => do
      let states ← command.states.mapM agentState
      .ok (.wait command.target states command.timeoutMs)
  | .hooks command => do
      let agent ← commandAgentKind command.agent
      let action ← hooksAction command.action
      .ok (.hooks agent action)

def Pb.AgentCommand.toDomain (command : Pb.AgentCommand) : WireResult Condr.AgentCommand := do
  let command ← member command.command
  command.toDomain

/-! ## Server commands -/

def ServerAdminCommand.toWire (command : ServerAdminCommand) : Pb.ServerAdminCommand where
  command := some (match command with
    | .status => .status
    | .saveListen address => .saveListen { address }
    | .saveP2p enabled => .saveP2p enabled
    | .restart => .restart
    | .clients => .clients
    | .invite => .invite
    | .revoke key => .revoke key)

def Pb.ServerAdminCommand.toDomain (command : Pb.ServerAdminCommand) :
    WireResult Condr.ServerAdminCommand := do
  match ← member command.command with
  | .status => .ok .status
  | .saveListen save => .ok (.saveListen save.address)
  | .saveP2p enabled => .ok (.saveP2p enabled)
  | .restart => .ok .restart
  | .clients => .ok .clients
  | .invite => .ok .invite
  | .revoke key => .ok (.revoke key)

/-! ## Changes of files -/

/-- `encode_mutation`. -/
def encodeMutation : FileMutation → Pb.FileMutation
  | .write path text base => .write { path := path.inner, text, base }
  | .create path kind => .create { path := path.inner, kind := kind.toWire }
  | .rename source target => .rename { source := source.inner, target := target.inner }
  | .delete path => .delete path.inner

/-- Creating a kind this build does not know is not creating a file. -/
def decodeMutation : Pb.FileMutation → WireResult FileMutation
  | .write write => do
      let path ← relativePath write.path
      .ok (.write path write.text write.base)
  | .create create => do
      let path ← relativePath create.path
      let kind ← fileKind create.kind
      .ok (.create path kind)
  | .rename rename => do
      let source ← relativePath rename.source
      let target ← relativePath rename.target
      .ok (.rename source target)
  | .delete path => (relativePath path).map .delete

/-! ## The commands that come back -/

/-- The decoder takes the path. -/
def RelativePathBuf.Admitted (path : RelativePathBuf) : Prop :=
  isRelativeText path.inner = true

/-- The native path is text. -/
def PathBuf.IsText (path : PathBuf) : Prop := ∃ text, path = .utf8 text

/-- The decoder takes the relative paths of the command. -/
def LayoutCommand.Relative : LayoutCommand → Prop
  | showDiff _ path | showFile _ path => path.Admitted
  | _ => True

/-- The native paths of the command are text. -/
def LayoutCommand.IsText : LayoutCommand → Prop
  | createWorkspace rootDirectory _ => rootDirectory.IsText
  | createWorkspaceDirectory parentDirectory _ _ _ => parentDirectory.IsText
  | openWorktree _ rootDirectory => rootDirectory.IsText
  | _ => True

/-- The command names no Agent of another kind. -/
def AgentCommand.Runnable : AgentCommand → Prop
  | start _ kind _ _ _ => kind ≠ .other
  | hooks agent _ => agent ≠ .other
  | _ => True

def FileMutation.Relative : FileMutation → Prop
  | write path _ _ | create path _ | delete path => path.Admitted
  | rename source target => source.Admitted ∧ target.Admitted

theorem pathText_ok_iff {path : PathBuf} :
    (∃ text, pathText path = .ok text) ↔ path.IsText := by
  simp [pathText_eq_ok, PathBuf.IsText]

theorem relativePath_inner_eq_ok {path other : RelativePathBuf} :
    relativePath path.inner = .ok other ↔ path.Admitted ∧ other = path :=
  relativePath_eq_ok

theorem relativePath_map_eq_ok {α : Type} {path : RelativePathBuf} {value : α}
    {kind : RelativePathBuf → α} :
    (relativePath path.inner).map kind = .ok value ↔ path.Admitted ∧ value = kind path := by
  by_cases admitted : path.Admitted
  · rw [relativePath_inner_eq_ok.mpr ⟨admitted, rfl⟩]
    simp [Except.map, admitted, eq_comm]
  · rcases outcome : relativePath path.inner with error | found
    · simp [Except.map, admitted]
    · exact absurd (relativePath_inner_eq_ok.mp outcome).1 admitted

/-- A layout command has a message exactly when its native paths are text. -/
theorem LayoutCommand.toMember_ok_iff {command : LayoutCommand} :
    (∃ wire, command.toMember = .ok wire) ↔ command.IsText := by
  cases command with
  | createWorkspace rootDirectory _ =>
      simp [toMember, Lists.bind_eq_ok, IsText, ← pathText_ok_iff]
  | createWorkspaceDirectory parentDirectory _ _ _ =>
      simp [toMember, Lists.bind_eq_ok, IsText, ← pathText_ok_iff]
  | openWorktree _ rootDirectory =>
      simp [toMember, Lists.bind_eq_ok, IsText, ← pathText_ok_iff]
  | _ => simp [toMember, IsText]

theorem LayoutCommand.toDomain_toMember {command other : LayoutCommand}
    {wire : Pb.LayoutCommandMember} (encoded : command.toMember = .ok wire) :
    wire.toDomain = .ok other ↔ command.Relative ∧ other = command := by
  cases command with
  | createWorkspace | createWorkspaceDirectory | openWorktree =>
      simp only [toMember, Lists.bind_eq_ok, pathText_eq_ok, Except.ok.injEq] at encoded
      rcases encoded with ⟨text, rfl, rfl⟩
      simp [Pb.LayoutCommandMember.toDomain, Relative, eq_comm]
  | showDiff | showFile =>
      cases encoded
      simp [Pb.LayoutCommandMember.toDomain, Relative, relativePath_map_eq_ok]
  | createTab _ _ cwdFrom =>
      cases encoded
      simp [Pb.LayoutCommandMember.toDomain, Relative, eq_comm, Function.comp_def]
  | _ =>
      cases encoded
      simp [Pb.LayoutCommandMember.toDomain, Relative, Lists.ok_bind, eq_comm]

theorem LayoutCommand.toDomain_toWire {command other : LayoutCommand} {wire : Pb.LayoutCommand}
    (encoded : command.toWire = .ok wire) :
    wire.toDomain = .ok other ↔ command.Relative ∧ other = command := by
  simp only [toWire, Lists.bind_eq_ok, Except.ok.injEq] at encoded
  rcases encoded with ⟨found, converted, rfl⟩
  exact toDomain_toMember converted

theorem mapM_agentState (states : List AgentState) :
    (states.map AgentState.toWire).mapM agentState = .ok states := by
  rw [Lists.mapM_eq_ok_iff, List.forall₂_map_left_iff, List.forall₂_same]
  exact fun state _ => agentState_toWire state

theorem transposeMap_agentStates (states : Option (List AgentState)) :
    transposeMap (fun states : Pb.AgentStates => states.states.mapM agentState)
      (states.map fun states => ⟨states.map AgentState.toWire⟩) = .ok states := by
  cases states with
  | none => rfl
  | some states => simp only [Option.map_some, transposeMap, mapM_agentState, Except.map]

theorem AgentCommand.toDomain_toMember {command other : AgentCommand} :
    command.toMember.toDomain = .ok other ↔ command.Runnable ∧ other = command := by
  cases command with
  | start =>
      simp only [toMember, Pb.AgentCommandMember.toDomain, Lists.bind_eq_ok,
        commandAgentKind_toWire_eq_ok, Runnable]
      simp [@eq_comm _ other]
  | hooks =>
      simp only [toMember, Pb.AgentCommandMember.toDomain, Lists.bind_eq_ok,
        commandAgentKind_toWire_eq_ok, hooksAction_toWire, Lists.ok_bind, Runnable]
      simp [@eq_comm _ other]
  | prompt =>
      simp only [toMember, Pb.AgentCommandMember.toDomain, transposeMap_agentStates, Lists.ok_bind]
      simp [Runnable, @eq_comm _ other]
  | wait =>
      simp only [toMember, Pb.AgentCommandMember.toDomain, mapM_agentState, Lists.ok_bind]
      simp [Runnable, @eq_comm _ other]
  | available | list => simp [toMember, Pb.AgentCommandMember.toDomain, Runnable, eq_comm]

theorem AgentCommand.toDomain_toWire {command other : AgentCommand} :
    command.toWire.toDomain = .ok other ↔ command.Runnable ∧ other = command :=
  toDomain_toMember

/-- A command that names an Agent of another kind is one from a newer protocol. -/
theorem AgentCommand.toDomain_of_not_runnable {command : AgentCommand}
    (stranger : ¬command.Runnable) : command.toWire.toDomain = .error .unknown := by
  cases command with
  | start _ kind _ _ _ | hooks kind _ =>
      obtain rfl : kind = .other := by simpa [Runnable] using stranger
      rfl
  | _ => exact absurd trivial stranger

@[simp]
theorem ServerAdminCommand.toDomain_toWire (command : ServerAdminCommand) :
    command.toWire.toDomain = .ok command := by
  cases command <;> rfl

theorem decodeMutation_encodeMutation {mutation other : FileMutation} :
    decodeMutation (encodeMutation mutation) = .ok other ↔
      mutation.Relative ∧ other = mutation := by
  cases mutation with
  | delete path =>
      simp [decodeMutation, encodeMutation, FileMutation.Relative, relativePath_map_eq_ok]
  | write | create | rename =>
      simp only [decodeMutation, encodeMutation, FileMutation.Relative, Lists.bind_eq_ok,
        fileKind_toWire, relativePath_inner_eq_ok]
      simp [and_assoc, @eq_comm _ other]

end Condr
