import Condr.Protocol.Bootstrap
import Condr.Protocol.Commands
import Condr.Protocol.TerminalInput

/-!
# Client messages on the wire

What a client asks of a Server. The encoder fails for a path that is not text and for the
placeholder of an unknown message. The decoder takes a value from a newer client for that
placeholder, keeps the low bits of colours, and limits the Panes that are watched.
-/

namespace Condr

inductive DiffBase where
  | head
  | mergeBase
deriving DecidableEq

inductive ClipboardImageFormat where
  | png
  | jpeg
  | gif
  | webp
  | bmp
deriving DecidableEq

inductive ServerSetting where
  | shell (shell : String)
  | proxyMode (mode : ProxyMode)
  | proxyUrl (url : String)
  | shellIntegration (on : Bool)
deriving DecidableEq

/-- The colours a client draws terminals with. -/
structure TerminalColors where
  foreground : UInt32
  background : UInt32
  cursor : UInt32
  ansi : Vector UInt32 16
deriving DecidableEq

inductive ClientMessage where
  | snapshotRequest (sessionId : SessionId)
  | overviewRequest (sessionId : SessionId)
  | subscribe (sessionId : SessionId) (afterSequence : ℕ)
  | ping (serverId : ServerId) (nonce : ℕ)
  | layout (serverId : ServerId) (sessionId : SessionId) (requestId : ℕ) (command : LayoutCommand)
  | terminal (serverId : ServerId) (sessionId : SessionId) (paneId : PaneId)
      (command : TerminalCommand)
  | pasteImage (serverId : ServerId) (sessionId : SessionId) (paneId : PaneId)
      (format : ClipboardImageFormat) (bytes : List UInt8)
  | readPane (serverId : ServerId) (sessionId : SessionId) (paneId : PaneId) (lines : UInt32)
  | gitDiff (serverId : ServerId) (sessionId : SessionId) (requestId : ℕ)
      (workspaceId : WorkspaceId) (path : RelativePathBuf) (against : DiffBase)
      (fullContext : Bool) (commit : Option String)
  | gitOldFile (serverId : ServerId) (sessionId : SessionId) (requestId : ℕ)
      (workspaceId : WorkspaceId) (path : RelativePathBuf) (against : DiffBase)
  | gitLog (serverId : ServerId) (sessionId : SessionId) (requestId : ℕ)
      (workspaceId : WorkspaceId) (first : Option String) (skip limit : UInt32)
  | gitCommit (serverId : ServerId) (sessionId : SessionId) (requestId : ℕ)
      (workspaceId : WorkspaceId) (commit : String)
  | listDirectory (serverId : ServerId) (sessionId : SessionId) (requestId : ℕ)
      (workspaceId : WorkspaceId) (path : RelativePathBuf)
  | readFile (serverId : ServerId) (sessionId : SessionId) (requestId : ℕ)
      (workspaceId : WorkspaceId) (path : RelativePathBuf)
  | mutateFile (serverId : ServerId) (sessionId : SessionId) (requestId : ℕ)
      (workspaceId : WorkspaceId) (mutation : FileMutation)
  | browseDirectory (requestId : ℕ) (path : PathBuf)
  | agent (serverId : ServerId) (sessionId : SessionId) (command : AgentCommand)
  | setServerSettings (serverId : ServerId) (setting : ServerSetting)
  | stopServer (serverId : ServerId)
  | revokeDevice (key : String)
  | connectedDevices
  | serverAdmin (serverId : ServerId) (command : ServerAdminCommand)
  | detach
  | watchTerminals (panes : Finset PaneId)
  | terminalColors (colors : TerminalColors)
  | refreshWorkspace (serverId : ServerId) (sessionId : SessionId) (workspaceId : WorkspaceId)
  /-- A message from a newer client. Never sent. -/
  | unknown
deriving DecidableEq

namespace Pb

structure SessionRequest where
  sessionId : ℕ

structure Subscribe where
  sessionId : ℕ
  afterSequence : ℕ

structure Ping where
  serverId : ℕ
  nonce : ℕ

structure LayoutRequest where
  serverId : ℕ
  sessionId : ℕ
  requestId : ℕ
  command : Option LayoutCommand

structure TerminalRequest where
  serverId : ℕ
  sessionId : ℕ
  paneId : ℕ
  command : Option TerminalCommand

structure PasteImage where
  serverId : ℕ
  sessionId : ℕ
  paneId : ℕ
  format : ℤ
  bytes : List UInt8

structure ReadPane where
  serverId : ℕ
  sessionId : ℕ
  paneId : ℕ
  lines : UInt32

structure GitDiffRequest where
  serverId : ℕ
  sessionId : ℕ
  requestId : ℕ
  workspaceId : ℕ
  path : String
  against : ℤ
  fullContext : Bool
  commit : Option String

structure GitOldFileRequest where
  serverId : ℕ
  sessionId : ℕ
  requestId : ℕ
  workspaceId : ℕ
  path : String
  against : ℤ

structure GitLogRequest where
  serverId : ℕ
  sessionId : ℕ
  requestId : ℕ
  workspaceId : ℕ
  first : Option String
  skip : UInt32
  limit : UInt32

structure GitCommitRequest where
  serverId : ℕ
  sessionId : ℕ
  requestId : ℕ
  workspaceId : ℕ
  commit : String

structure PathRequest where
  serverId : ℕ
  sessionId : ℕ
  requestId : ℕ
  workspaceId : ℕ
  path : String

structure FileMutationRequest where
  serverId : ℕ
  sessionId : ℕ
  requestId : ℕ
  workspaceId : ℕ
  mutation : Option FileMutation

structure BrowseDirectory where
  requestId : ℕ
  path : String

structure AgentRequest where
  serverId : ℕ
  sessionId : ℕ
  command : Option AgentCommand

inductive ServerSetting where
  | shell (shell : String)
  | proxyMode (mode : ℤ)
  | proxyUrl (url : String)
  | shellIntegration (on : Bool)

structure SetServerSettings where
  serverId : ℕ
  setting : Option ServerSetting

structure ServerRequest where
  serverId : ℕ

structure RevokeDevice where
  key : String

structure ServerAdminRequest where
  serverId : ℕ
  command : Option ServerAdminCommand

structure WatchTerminals where
  panes : List ℕ

structure TerminalColors where
  foreground : UInt32
  background : UInt32
  cursor : UInt32
  ansi : List UInt32

structure RefreshWorkspace where
  serverId : ℕ
  sessionId : ℕ
  workspaceId : ℕ

inductive ClientMessageMember where
  | snapshotRequest (request : SessionRequest)
  | overviewRequest (request : SessionRequest)
  | subscribe (subscribe : Subscribe)
  | ping (ping : Ping)
  | layout (layout : LayoutRequest)
  | terminal (terminal : TerminalRequest)
  | pasteImage (image : PasteImage)
  | readPane (read : ReadPane)
  | gitDiff (diff : GitDiffRequest)
  | listDirectory (request : PathRequest)
  | readFile (request : PathRequest)
  | agent (agent : AgentRequest)
  | setServerSettings (settings : SetServerSettings)
  | stopServer (request : ServerRequest)
  | revokeDevice (revoke : RevokeDevice)
  | connectedDevices
  | serverAdmin (admin : ServerAdminRequest)
  | detach
  | browseDirectory (request : BrowseDirectory)
  | watchTerminals (watch : WatchTerminals)
  | mutateFile (request : FileMutationRequest)
  | refreshWorkspace (refresh : RefreshWorkspace)
  | gitLog (request : GitLogRequest)
  | gitCommit (request : GitCommitRequest)
  | terminalColors (colors : TerminalColors)
  | gitOldFile (request : GitOldFileRequest)

structure ClientMessage where
  message : Option ClientMessageMember

end Pb

/-! ## Enums -/

def DiffBase.toWire : DiffBase → ℤ
  | head => 1
  | mergeBase => 2

def diffBase (raw : ℤ) : WireResult DiffBase :=
  enumValue raw "diff base" fun
    | 1 => some .head
    | 2 => some .mergeBase
    | _ => none

def ClipboardImageFormat.toWire : ClipboardImageFormat → ℤ
  | png => 1
  | jpeg => 2
  | gif => 3
  | webp => 4
  | bmp => 5

def imageFormat (raw : ℤ) : WireResult ClipboardImageFormat :=
  enumValue raw "image format" fun
    | 1 => some .png
    | 2 => some .jpeg
    | 3 => some .gif
    | 4 => some .webp
    | 5 => some .bmp
    | _ => none

/-- Setting a mode this build does not know is not setting another one. -/
def proxyModeSetting (raw : ℤ) : WireResult ProxyMode :=
  enumValue raw "proxy mode" fun
    | 1 => some .system
    | 2 => some .none
    | 3 => some .manual
    | _ => none

@[simp]
theorem diffBase_toWire (base : DiffBase) : diffBase base.toWire = .ok base := by
  cases base <;> rfl

@[simp]
theorem imageFormat_toWire (format : ClipboardImageFormat) :
    imageFormat format.toWire = .ok format := by
  cases format <;> rfl

@[simp]
theorem proxyModeSetting_toWire (mode : ProxyMode) :
    proxyModeSetting mode.toWire = .ok mode := by
  cases mode <;> rfl

/-! ## Encoding -/

/-- The order in which a hash set is read, which its contents do not decide. -/
structure HashOrder where
  read : Finset PaneId → List PaneId
  nodup : ∀ panes, (read panes).Nodup
  toFinset : ∀ panes, (read panes).toFinset = panes

def ServerSetting.toWire : ServerSetting → Pb.ServerSetting
  | shell value => .shell value
  | proxyMode mode => .proxyMode mode.toWire
  | proxyUrl url => .proxyUrl url
  | shellIntegration on => .shellIntegration on

def TerminalColors.toWire (colors : TerminalColors) : Pb.TerminalColors where
  foreground := colors.foreground
  background := colors.background
  cursor := colors.cursor
  ansi := colors.ansi.toList

def pathRequest (serverId : ServerId) (sessionId : SessionId) (requestId : ℕ)
    (workspaceId : WorkspaceId) (path : RelativePathBuf) : Pb.PathRequest where
  serverId := serverId.value
  sessionId := sessionId.value
  requestId := requestId
  workspaceId := workspaceId.asU64
  path := path.inner

def ClientMessage.toMember (order : HashOrder) :
    ClientMessage → Except String Pb.ClientMessageMember
  | snapshotRequest sessionId => .ok (.snapshotRequest ⟨sessionId.value⟩)
  | overviewRequest sessionId => .ok (.overviewRequest ⟨sessionId.value⟩)
  | subscribe sessionId afterSequence =>
      .ok (.subscribe { sessionId := sessionId.value, afterSequence })
  | ping serverId nonce => .ok (.ping { serverId := serverId.value, nonce })
  | layout serverId sessionId requestId command => do
      let command ← command.toWire
      .ok (.layout {
        serverId := serverId.value
        sessionId := sessionId.value
        requestId
        command := some command })
  | terminal serverId sessionId paneId command =>
      .ok (.terminal {
        serverId := serverId.value
        sessionId := sessionId.value
        paneId := paneId.asU64
        command := some command.toWire })
  | pasteImage serverId sessionId paneId format bytes =>
      .ok (.pasteImage {
        serverId := serverId.value
        sessionId := sessionId.value
        paneId := paneId.asU64
        format := format.toWire
        bytes })
  | readPane serverId sessionId paneId lines =>
      .ok (.readPane {
        serverId := serverId.value
        sessionId := sessionId.value
        paneId := paneId.asU64
        lines })
  | gitDiff serverId sessionId requestId workspaceId path against fullContext commit =>
      .ok (.gitDiff {
        serverId := serverId.value
        sessionId := sessionId.value
        requestId
        workspaceId := workspaceId.asU64
        path := path.inner
        against := against.toWire
        fullContext
        commit })
  | gitOldFile serverId sessionId requestId workspaceId path against =>
      .ok (.gitOldFile {
        serverId := serverId.value
        sessionId := sessionId.value
        requestId
        workspaceId := workspaceId.asU64
        path := path.inner
        against := against.toWire })
  | gitLog serverId sessionId requestId workspaceId first skip limit =>
      .ok (.gitLog {
        serverId := serverId.value
        sessionId := sessionId.value
        requestId
        workspaceId := workspaceId.asU64
        first
        skip
        limit })
  | gitCommit serverId sessionId requestId workspaceId commit =>
      .ok (.gitCommit {
        serverId := serverId.value
        sessionId := sessionId.value
        requestId
        workspaceId := workspaceId.asU64
        commit })
  | listDirectory serverId sessionId requestId workspaceId path =>
      .ok (.listDirectory (pathRequest serverId sessionId requestId workspaceId path))
  | readFile serverId sessionId requestId workspaceId path =>
      .ok (.readFile (pathRequest serverId sessionId requestId workspaceId path))
  | mutateFile serverId sessionId requestId workspaceId mutation =>
      .ok (.mutateFile {
        serverId := serverId.value
        sessionId := sessionId.value
        requestId
        workspaceId := workspaceId.asU64
        mutation := some (encodeMutation mutation) })
  | refreshWorkspace serverId sessionId workspaceId =>
      .ok (.refreshWorkspace {
        serverId := serverId.value
        sessionId := sessionId.value
        workspaceId := workspaceId.asU64 })
  | browseDirectory requestId path => do
      let path ← pathText path
      .ok (.browseDirectory { requestId, path })
  | agent serverId sessionId command =>
      .ok (.agent {
        serverId := serverId.value
        sessionId := sessionId.value
        command := some command.toWire })
  | setServerSettings serverId setting =>
      .ok (.setServerSettings { serverId := serverId.value, setting := some setting.toWire })
  | stopServer serverId => .ok (.stopServer ⟨serverId.value⟩)
  | revokeDevice key => .ok (.revokeDevice { key })
  | connectedDevices => .ok .connectedDevices
  | serverAdmin serverId command =>
      .ok (.serverAdmin { serverId := serverId.value, command := some command.toWire })
  | detach => .ok .detach
  | watchTerminals panes => .ok (.watchTerminals { panes := (order.read panes).map (·.asU64) })
  | terminalColors colors => .ok (.terminalColors colors.toWire)
  | unknown => .error "an unknown message cannot be sent"

def ClientMessage.toWire (order : HashOrder) (message : ClientMessage) :
    Except String Pb.ClientMessage := do
  let message ← message.toMember order
  .ok { message := some message }

/-! ## Decoding -/

def rgb (value : UInt32) : UInt32 := value &&& 0xffffff

/-- A newer peer may send more than the 16 colours. -/
def Pb.TerminalColors.toDomain (colors : Pb.TerminalColors) : WireResult Condr.TerminalColors :=
  if enough : 16 ≤ colors.ansi.length then .ok {
    foreground := rgb colors.foreground
    background := rgb colors.background
    cursor := rgb colors.cursor
    ansi := ⟨((colors.ansi.take 16).map rgb).toArray, by simpa using enough⟩ }
  else malformed "terminal colours need 16 ANSI colours"

def Pb.ServerSetting.toDomain : Pb.ServerSetting → WireResult Condr.ServerSetting
  | .shell value => .ok (.shell value)
  | .proxyMode mode => (proxyModeSetting mode).map .proxyMode
  | .proxyUrl url => .ok (.proxyUrl url)
  | .shellIntegration on => .ok (.shellIntegration on)

def Pb.ClientMessageMember.toDomain : Pb.ClientMessageMember → WireResult Condr.ClientMessage
  | .snapshotRequest request => .ok (.snapshotRequest ⟨request.sessionId⟩)
  | .overviewRequest request => .ok (.overviewRequest ⟨request.sessionId⟩)
  | .subscribe request => .ok (.subscribe ⟨request.sessionId⟩ request.afterSequence)
  | .ping request => .ok (.ping ⟨request.serverId⟩ request.nonce)
  | .layout request => do
      let command ← required request.command "layout command"
      let command ← command.toDomain
      .ok (.layout ⟨request.serverId⟩ ⟨request.sessionId⟩ request.requestId command)
  | .terminal request => do
      let command ← required request.command "terminal command"
      let command ← command.toDomain
      .ok (.terminal ⟨request.serverId⟩ ⟨request.sessionId⟩ ⟨request.paneId⟩ command)
  | .pasteImage image => do
      let format ← imageFormat image.format
      .ok (.pasteImage ⟨image.serverId⟩ ⟨image.sessionId⟩ ⟨image.paneId⟩ format image.bytes)
  | .readPane request =>
      .ok (.readPane ⟨request.serverId⟩ ⟨request.sessionId⟩ ⟨request.paneId⟩ request.lines)
  | .gitDiff diff => do
      let path ← relativePath diff.path
      let against ← diffBase diff.against
      .ok (.gitDiff ⟨diff.serverId⟩ ⟨diff.sessionId⟩ diff.requestId ⟨diff.workspaceId⟩ path against
        diff.fullContext diff.commit)
  | .gitOldFile request => do
      let path ← relativePath request.path
      let against ← diffBase request.against
      .ok (.gitOldFile ⟨request.serverId⟩ ⟨request.sessionId⟩ request.requestId
        ⟨request.workspaceId⟩ path against)
  | .gitLog request =>
      .ok (.gitLog ⟨request.serverId⟩ ⟨request.sessionId⟩ request.requestId ⟨request.workspaceId⟩
        request.first request.skip request.limit)
  | .gitCommit request =>
      .ok (.gitCommit ⟨request.serverId⟩ ⟨request.sessionId⟩ request.requestId
        ⟨request.workspaceId⟩ request.commit)
  | .listDirectory request => do
      let path ← relativePath request.path
      .ok (.listDirectory ⟨request.serverId⟩ ⟨request.sessionId⟩ request.requestId
        ⟨request.workspaceId⟩ path)
  | .readFile request => do
      let path ← relativePath request.path
      .ok (.readFile ⟨request.serverId⟩ ⟨request.sessionId⟩ request.requestId
        ⟨request.workspaceId⟩ path)
  | .mutateFile request => do
      let mutation ← member request.mutation
      let mutation ← decodeMutation mutation
      .ok (.mutateFile ⟨request.serverId⟩ ⟨request.sessionId⟩ request.requestId
        ⟨request.workspaceId⟩ mutation)
  | .refreshWorkspace request =>
      .ok (.refreshWorkspace ⟨request.serverId⟩ ⟨request.sessionId⟩ ⟨request.workspaceId⟩)
  | .browseDirectory request => .ok (.browseDirectory request.requestId (.utf8 request.path))
  | .agent request => do
      let command ← required request.command "agent command"
      let command ← command.toDomain
      .ok (.agent ⟨request.serverId⟩ ⟨request.sessionId⟩ command)
  | .setServerSettings settings => do
      let setting ← member settings.setting
      let setting ← setting.toDomain
      .ok (.setServerSettings ⟨settings.serverId⟩ setting)
  | .stopServer request => .ok (.stopServer ⟨request.serverId⟩)
  | .revokeDevice revoke => .ok (.revokeDevice revoke.key)
  | .connectedDevices => .ok .connectedDevices
  | .serverAdmin admin => do
      let command ← required admin.command "admin command"
      let command ← command.toDomain
      .ok (.serverAdmin ⟨admin.serverId⟩ command)
  | .detach => .ok .detach
  | .watchTerminals watch => do
      bounded watch.panes.length maxSnapshotPanes "watched Panes"
      .ok (.watchTerminals (watch.panes.map (⟨·⟩)).toFinset)
  | .terminalColors colors => colors.toDomain.map .terminalColors

def decodeClientMessage (message : Pb.ClientMessage) : WireResult ClientMessage := do
  let message ← member message.message
  message.toDomain

/-- An unknown value anywhere inside makes the message unknown; only malformed input is an
error. -/
def Pb.ClientMessage.toDomain (message : Pb.ClientMessage) : WireResult Condr.ClientMessage :=
  match decodeClientMessage message with
  | .error .unknown => .ok .unknown
  | other => other

end Condr
