import Condr.Protocol.ClientMessage
import Condr.Protocol.Replies
import Condr.Terminal.RecentText

/-!
# Answers to reading requests

What the Server answers to a request for a Pane's text, a directory, a file, a diff or the
history. The host stands for what the Server reads: its Session, the disk, the repositories
and the terminals. A panic in the work of a request is one more error of what it reads.
-/

namespace Condr

/-- What a Workspace's base view compares against. -/
structure GitBase where
  name : String
  reference : PathBuf
  mergeBase : String

/-- What gix answers for one repository. No base is `HEAD`. -/
structure GitRepository where
  /-- The sides of a path, whose old one may have another name. -/
  sides : RelativePathBuf → Option RelativePathBuf → Option GitBase → Except String DiffOutcome
  oldSide : RelativePathBuf → Option RelativePathBuf → Option GitBase → OldSide
  walk : Option String → Except String Walk
  commit : String → Except String CommitSource
  commitChanges : String → Except String (List TreeChange)
  commitSides : String → RelativePathBuf → Option RelativePathBuf → Except String DiffOutcome
  /-- The ignore rules for the names in a directory, where it is in the repository and they can
  be read. -/
  excluded : PathBuf → RelativePathBuf → Option (String → FileKind → Bool)

structure WorkspaceGit where
  repository : GitRepository
  changes : GitChanges
  base : Option (GitBase × GitChanges)

structure Host where
  serverId : ServerId
  sessionId : SessionId
  rootDirectory : WorkspaceId → Option PathBuf
  workspaceGit : WorkspaceId → Option WorkspaceGit
  /-- The terminals by Pane, each unless its lock is poisoned. -/
  terminals : PaneId → Option (Option VtTerminal)
  file : PathBuf → RelativePathBuf → FileOnDisk
  directory : PathBuf → RelativePathBuf → Except String (List (Except String DiskEntry))
  /-- `str::to_lowercase`. -/
  lowercase : String → String
  fileVersion : List UInt8 → ℕ

def maxLogPage : ℕ := 1000

variable (host : Host)

namespace Host

def checkedRoot (serverId : ServerId) (sessionId : SessionId) (workspaceId : WorkspaceId) :
    Except String PathBuf :=
  if serverId ≠ host.serverId then .error "unknown Server"
  else if sessionId ≠ host.sessionId then .error "unknown Session"
  else match host.rootDirectory workspaceId with
  | none => .error "unknown Workspace"
  | some root => .ok root

def workspaceRepository (serverId : ServerId) (sessionId : SessionId) (workspaceId : WorkspaceId) :
    Except String GitRepository := do
  let _ ← host.checkedRoot serverId sessionId workspaceId
  match host.workspaceGit workspaceId with
  | none => .error "the Workspace is not in a Git repository"
  | some git => .ok git.repository

/-- The repository to compare in, where the compared side has the file, and the base. -/
def comparedSide (serverId : ServerId) (sessionId : SessionId) (workspaceId : WorkspaceId)
    (path : RelativePathBuf) (against : DiffBase) :
    Except String (GitRepository × Option RelativePathBuf × Option GitBase) := do
  let _ ← host.checkedRoot serverId sessionId workspaceId
  match host.workspaceGit workspaceId with
  | none => .error "the Workspace is not in a Git repository"
  | some git =>
      let (changes, base) ←
        match against, git.base with
        | .head, _ => .ok (git.changes, none)
        | .mergeBase, some (base, changes) => .ok (changes, some base)
        | .mergeBase, none => .error "the Workspace has no base branch"
      let entry := changes.entries.find? fun entry => comparePaths entry.path path == .eq
      .ok (git.repository, entry.bind (·.oldPath), base)

def readPane (serverId : ServerId) (sessionId : SessionId) (paneId : PaneId) (lines : UInt32) :
    Reply :=
  if serverId ≠ host.serverId then .error "unknown Server"
  else if sessionId ≠ host.sessionId then .error "unknown Session"
  else match host.terminals paneId with
  | none => .error "unknown Pane"
  | some terminal => .paneText paneId (recentText terminal lines.toNat)

/-- The diff of a commit, or of the work tree. -/
def gitDiff (serverId : ServerId) (sessionId : SessionId) (workspaceId : WorkspaceId)
    (path : RelativePathBuf) (against : DiffBase) (fullContext : Bool) :
    Option String → Except String FileDiff
  | some commit => do
      let repository ← host.workspaceRepository serverId sessionId workspaceId
      commitFileDiff (repository.commitChanges commit) path (repository.commitSides commit path)
        fullContext
  | none => do
      let (repository, oldPath, base) ←
        host.comparedSide serverId sessionId workspaceId path against
      fileDiff path oldPath (repository.sides path oldPath base) fullContext

def gitOldFile (serverId : ServerId) (sessionId : SessionId) (workspaceId : WorkspaceId)
    (path : RelativePathBuf) (against : DiffBase) : Except String OldFile := do
  let (repository, oldPath, base) ← host.comparedSide serverId sessionId workspaceId path against
  oldFile path oldPath (repository.oldSide path oldPath base)

def gitLog (serverId : ServerId) (sessionId : SessionId) (workspaceId : WorkspaceId)
    (first : Option String) (skip limit : UInt32) : Except String GitLog := do
  let repository ← host.workspaceRepository serverId sessionId workspaceId
  Condr.gitLog (repository.walk first) skip.toNat (min limit.toNat maxLogPage)

def gitCommit (serverId : ServerId) (sessionId : SessionId) (workspaceId : WorkspaceId)
    (commit : String) : Except String CommitDetails := do
  let repository ← host.workspaceRepository serverId sessionId workspaceId
  Condr.gitCommit (repository.commit commit)

def directoryListing (serverId : ServerId) (sessionId : SessionId) (workspaceId : WorkspaceId)
    (path : RelativePathBuf) : Except String DirectoryListing := do
  let root ← host.checkedRoot serverId sessionId workspaceId
  let listing ← listDirectory host.lowercase (host.directory root path) path
  match (host.workspaceGit workspaceId).bind (·.repository.excluded root path) with
  | none => .ok listing
  | some excluded => .ok (markIgnored excluded listing)

def fileContent (serverId : ServerId) (sessionId : SessionId) (workspaceId : WorkspaceId)
    (path : RelativePathBuf) : Except String FileContent := do
  let root ← host.checkedRoot serverId sessionId workspaceId
  readFile host.fileVersion (host.file root path) path

/-- The message that answers a reading request. -/
def answer : ClientMessage → Option Reply
  | .readPane serverId sessionId paneId lines =>
      some (host.readPane serverId sessionId paneId lines)
  | .gitDiff serverId sessionId requestId workspaceId path against fullContext commit =>
      some (.gitDiff requestId workspaceId path
        (host.gitDiff serverId sessionId workspaceId path against fullContext commit))
  | .gitOldFile serverId sessionId requestId workspaceId path against =>
      some (.gitOldFile requestId workspaceId path
        (host.gitOldFile serverId sessionId workspaceId path against))
  | .gitLog serverId sessionId requestId workspaceId first skip limit =>
      some (.gitLog requestId workspaceId
        (host.gitLog serverId sessionId workspaceId first skip limit))
  | .gitCommit serverId sessionId requestId workspaceId commit =>
      some (.gitCommit requestId workspaceId commit
        (host.gitCommit serverId sessionId workspaceId commit))
  | .listDirectory serverId sessionId requestId workspaceId path =>
      some (.directory requestId workspaceId path
        (host.directoryListing serverId sessionId workspaceId path))
  | .readFile serverId sessionId requestId workspaceId path =>
      some (.fileContent requestId workspaceId path
        (host.fileContent serverId sessionId workspaceId path))
  | _ => none

end Host

end Condr
