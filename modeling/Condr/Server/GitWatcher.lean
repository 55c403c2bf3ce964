import Condr.Files.FilePath
import Condr.Foundation.Transition
import Mathlib.Data.List.Infix
import Mathlib.Order.Defs.LinearOrder

/-!
# The Git watcher

What the watcher keeps of one Workspace, what its messages do to that and what a scan does. The
messages and scans of other Workspaces leave it alone. Discovering the repository, its
fingerprint and its status are given, and the paths its ignore rules exclude are a fixed set.
-/

namespace Condr.GitWatcher

/-! ## Paths -/

/-- The components of a path. -/
abbrev Path := List OsName

/-- `Path::strip_prefix`. -/
def relativeTo (base path : Path) : Option Path :=
  if base <+: path then some (path.drop base.length) else none

def dotGit : Path := [.utf8 ".git"]

/-- `is_transfer_temp`, of a name that is text. -/
def isTransferTemp : OsName → Bool
  | .utf8 text =>
      text.toList.head? = some '.' &&
        [".condr-upload-", ".condr-download-"].any fun mark => mark.toList <:+: text.toList
  | .other _ => false

def namesTransferTemp (relative : Path) : Bool := relative.getLast?.any isTransferTemp

def underGit (relative : Path) : Bool := relative.head? = some (.utf8 ".git")

/-! ## A Workspace under watch -/

/-- Instants are in milliseconds. -/
def gitWatchDebounce : ℕ := 300
def gitScanInterval : ℕ := 2000
def maxPendingPaths : ℕ := 256

/-- The subscriptions of the root and of the git directory are left out. -/
structure Watched (Fingerprint : Type) where
  root : Path
  /-- `root` with links resolved. -/
  realRoot : Path
  gitDir : Option Path
  /-- Paths changed since the last filesystem scan, relative to the root. -/
  pending : List Path
  filesystemDue : Option ℕ
  terminalDue : Option ℕ
  scannedAt : Option ℕ
  fingerprint : Option Fingerprint
  forced : Bool
  /-- The last window dropped paths past `maxPendingPaths`. -/
  overflow : Bool
  /-- Overflowing, all-ignored windows were skipped. -/
  storm : Bool

variable {Git Fingerprint : Type}

namespace Watched

def init (root realRoot : Path) : Watched Fingerprint where
  root
  realRoot
  gitDir := none
  pending := []
  filesystemDue := none
  terminalDue := none
  scannedAt := none
  fingerprint := none
  forced := false
  overflow := false
  storm := false

def terminalActivity (entry : Watched Fingerprint) (activity : ℕ) : Watched Fingerprint :=
  if entry.scannedAt.any (activity ≤ ·) then entry
  else
    let due := match entry.scannedAt with
      | none => activity
      | some scanned => max activity (scanned + gitScanInterval)
    { entry with
      terminalDue := some <| match entry.terminalDue with
        | none => due
        | some pending => min pending due }

def nextDue (entry : Watched Fingerprint) : Option ℕ :=
  match entry.filesystemDue, entry.terminalDue with
  | some filesystem, some terminal => some (min filesystem terminal)
  | some due, none | none, some due => some due
  | none, none => none

def recordScan (entry : Watched Fingerprint) (now : ℕ) (fingerprint : Option Fingerprint) :
    Watched Fingerprint :=
  { entry with scannedAt := some now, fingerprint, terminalDue := none }

/-- A change inside the git directory counts as `.git` itself; the object store never does. -/
def gitChange (inside : Path) : Option Path :=
  if inside.head? = some (.utf8 "objects") ∨ inside.head? = some (.utf8 "lfs") then none
  else some dotGit

/-- The path relative to the root, when it can change the Git status. -/
def relevantChange (entry : Watched Fingerprint) (path : Path) : Option Path :=
  match entry.gitDir.bind fun gitDir => relativeTo gitDir path with
  | some inside => gitChange inside
  | none =>
      match (relativeTo entry.root path).or (relativeTo entry.realRoot path) with
      | none => none
      | some relative =>
          if namesTransferTemp relative then none
          else if underGit relative then gitChange (relative.drop 1)
          else some relative

/-- A path of an event, at the time it is handled. -/
def notePath (now : ℕ) (entry : Watched Fingerprint) (path : Path) : Watched Fingerprint :=
  match entry.relevantChange path with
  | none => entry
  | some relative =>
      let entry :=
        if entry.pending.length < maxPendingPaths then
          { entry with pending := entry.pending ++ [relative] }
        else { entry with overflow := true }
      if entry.forced then entry
      else { entry with filesystemDue := some (now + gitWatchDebounce) }

end Watched

/-! ## Messages -/

inductive WatchMessage where
  /-- The root as it is spelled and with links resolved. -/
  | watch (root realRoot : Path) (gitDir : Option Path)
  | refresh
  /-- The latest activity, if it was not taken before. -/
  | terminalActivity (activity : Option ℕ)
  | filesystem (event : Except String (List Path))

/-- The paths of an event. -/
def WatchMessage.paths : WatchMessage → List Path
  | .filesystem (.ok paths) => paths
  | _ => []

/-- What `run_watcher` does with a message. -/
def Watched.handle (entry : Watched Fingerprint) (now : ℕ) :
    WatchMessage → Watched Fingerprint
  | .watch root realRoot gitDir =>
      let entry := if entry.root ≠ root then .init root realRoot else entry
      match gitDir with
      | none => entry
      | some gitDir => { entry with gitDir := some gitDir }
  | .refresh => { entry with forced := true, filesystemDue := some now }
  | .terminalActivity none => entry
  | .terminalActivity (some activity) => entry.terminalActivity activity
  | .filesystem (.error _) => entry
  | .filesystem (.ok paths) => paths.foldl (Watched.notePath now) entry

/-! ## Scans -/

/-- A repository that was discovered, and what computing its Git state ends with. -/
structure Repository (Git : Type) where
  gitDirectory : Path
  git : Except String Git

/-- What a scan meets: the fingerprint of the known repository, and the one it discovers. -/
structure Scan (Git Fingerprint : Type) where
  now : ℕ
  fingerprint : Option Fingerprint
  discovered : Except String (Option (Repository Git))

/-- What the Server knows of the Workspace: its root, while it is in the Session, and its Git
state. -/
structure Runtime (Git : Type) where
  root : Option Path
  git : Option Git

/-- The events a scan publishes. -/
inductive Event (Git : Type) where
  | workspaceGitChanged (git : Option Git)
  | workspaceFilesChanged
deriving DecidableEq

/-- Records a scan's result and tells clients when it differs; `false` when it is for nobody. -/
def applyWorkspaceGitRefresh [DecidableEq Git] (runtime : Runtime Git) (root : Path)
    (next : Option Git) : Bool × Runtime Git × List (Event Git) :=
  if runtime.root ≠ some root then (false, runtime, [])
  else if runtime.git = next then (true, runtime, [])
  else (true, { runtime with git := next }, [.workspaceGitChanged next])

/-- The Git state is recorded, and the Files sidebar told of the working tree. -/
def publishScan [DecidableEq Git] (runtime : Runtime Git) (root : Path) (next : Option Git)
    (workingTreeChanged : Bool) : Runtime Git × List (Event Git) :=
  match applyWorkspaceGitRefresh runtime root next with
  | (applied, runtime, events) =>
      (runtime, if applied && workingTreeChanged then events ++ [.workspaceFilesChanged]
        else events)

section

variable (ignored : Path → Bool)

/-- `ignores_all`: every one of the paths is ignored, and there is one. -/
def ignoresAll (paths : List Path) : Bool := !paths.isEmpty && paths.all ignored

namespace Watched

def filesystemIsDue (entry : Watched Fingerprint) (now : ℕ) : Bool :=
  entry.filesystemDue.any (· ≤ now)

def terminalIsDue (entry : Watched Fingerprint) (now : ℕ) : Bool :=
  entry.terminalDue.any (· ≤ now)

/-- The window of a filesystem scan is taken. -/
def takeWindow (entry : Watched Fingerprint) : Watched Fingerprint :=
  { entry with filesystemDue := none, pending := [], forced := false, overflow := false }

variable [DecidableEq Fingerprint]

/-- The fingerprint of the known repository, if there is one. -/
def knownFingerprint (runtime : Runtime Git) (scan : Scan Git Fingerprint) :
    Option Fingerprint :=
  if runtime.git.isSome then scan.fingerprint else none

/-- Terminal output asked for a scan, and the ref files moved since the last one. -/
def terminalChanged (entry : Watched Fingerprint) (runtime : Runtime Git)
    (scan : Scan Git Fingerprint) : Bool :=
  entry.terminalIsDue scan.now &&
    ((knownFingerprint runtime scan).isNone ||
      knownFingerprint runtime scan ≠ entry.fingerprint)

/-- Only index or ref files changed in the window. -/
def onlyGit (pending : List Path) : Bool := !pending.any (· ≠ dotGit)

/-- The window is skipped because the paths it kept are ignored. -/
def judged (entry : Watched Fingerprint) (now : ℕ) : Bool :=
  entry.filesystemIsDue now && !entry.forced && (entry.overflow || !entry.storm) &&
    ignoresAll ignored entry.pending

variable [DecidableEq Git]

/-- `refresh_workspace`. -/
def refreshWorkspace (entry : Watched Fingerprint) (runtime : Runtime Git)
    (scan : Scan Git Fingerprint) : Watched Fingerprint × Runtime Git × List (Event Git) :=
  let filesystemDue := entry.filesystemIsDue scan.now
  let terminalDue := entry.terminalIsDue scan.now
  let window := entry
  let entry := if filesystemDue then entry.takeWindow else entry
  if runtime.root ≠ some entry.root then ({ entry with terminalDue := none }, runtime, [])
  else
    let fingerprint := knownFingerprint runtime scan
    let terminalChanged := window.terminalChanged runtime scan
    let entry := if terminalDue then entry.recordScan scan.now fingerprint else entry
    if !filesystemDue && !terminalChanged then (entry, runtime, [])
    else
      let workingTreeChanged :=
        filesystemDue && (window.forced || !onlyGit window.pending)
      match scan.discovered with
      | .error _ => (entry.recordScan scan.now fingerprint, runtime, [])
      | .ok none =>
          (entry.recordScan scan.now fingerprint,
            publishScan runtime entry.root none workingTreeChanged)
      | .ok (some repository) =>
          if window.judged ignored scan.now && !terminalChanged then
            ({ entry with storm := window.overflow }, runtime, [])
          else
            let scanned := { entry with
              storm := false
              gitDir := some repository.gitDirectory }.recordScan scan.now fingerprint
            match repository.git with
            | .error _ => (scanned, runtime, [])
            | .ok git =>
                -- a window that was skipped for its ignored paths announces Git alone
                (scanned, publishScan runtime entry.root (some git)
                  (workingTreeChanged && !window.judged ignored scan.now))

end Watched

end

/-- A scan that panics loses its window. -/
def Watched.lostScan (entry : Watched Fingerprint) (now : ℕ) : Watched Fingerprint :=
  entry.takeWindow.recordScan now none

/-! ## Runs -/

/-- A change of a file that an event reported, counted from the first change. -/
structure Reported where
  number : ℕ
  relative : Path
deriving DecidableEq

/-- A scan: how many changes were made before it, the Git state that was known and the one it
found, and what it published. -/
structure ScanRecord (Git : Type) where
  begun : ℕ
  before : Option Git
  found : Option Git
  events : List (Event Git)

structure WatchRun (Git Fingerprint : Type) where
  entry : Watched Fingerprint
  runtime : Runtime Git
  /-- The changes made in the working tree so far. -/
  made : ℕ
  reported : List Reported
  scans : List (ScanRecord Git)

inductive WatchStep (Git Fingerprint : Type) where
  /-- Programs change files. -/
  | change (count : ℕ)
  /-- A message, and for each path it names the change it reports. -/
  | message (now : ℕ) (message : WatchMessage) (numbers : List ℕ)
  /-- A scan of the Workspace, which is due. -/
  | scan (scan : Scan Git Fingerprint)
  | panicked (now : ℕ)

/-- The Git state a scan finds. -/
def Scan.found (scan : Scan Git Fingerprint) : Option Git :=
  match scan.discovered with
  | .ok (some repository) => repository.git.toOption
  | _ => none

section

variable (ignored : Path → Bool)

/-- The path of a file in the root that is not ignored, not under `.git` and no transfer's
temporary file. -/
def countedPath (entry : Watched Fingerprint) (path : Path) : Option Path :=
  match (relativeTo entry.root path).or (relativeTo entry.realRoot path) with
  | none => none
  | some relative =>
      if ignored relative ∨ underGit relative ∨ namesTransferTemp relative ∨
          entry.gitDir.any (· <+: path) then none
      else some relative

namespace WatchRun

def init (root realRoot : Path) (git : Option Git) : WatchRun Git Fingerprint where
  entry := .init root realRoot
  runtime := { root := some root, git }
  made := 0
  reported := []
  scans := []

variable [DecidableEq Git] [DecidableEq Fingerprint]

def perform (state : WatchRun Git Fingerprint) :
    WatchStep Git Fingerprint → Option (WatchRun Git Fingerprint)
  | .change count => some { state with made := state.made + count }
  | .message now message numbers =>
      if numbers.length = message.paths.length ∧ ∀ number ∈ numbers, number < state.made then
        some { state with
          entry := state.entry.handle now message
          reported := state.reported ++ (numbers.zip message.paths).filterMap fun report =>
            (countedPath ignored state.entry report.2).map fun relative =>
              { number := report.1, relative } }
      else none
  | .scan scan =>
      if state.entry.nextDue.any (· ≤ scan.now) then
        match state.entry.refreshWorkspace ignored state.runtime scan with
        | (entry, runtime, events) => some { state with
            entry
            runtime
            scans := state.scans ++ [{
              begun := state.made
              before := state.runtime.git
              found := scan.found
              events }] }
      else none
  | .panicked now =>
      if state.entry.nextDue.any (· ≤ now) then
        some { state with entry := state.entry.lostScan now }
      else none

end WatchRun

end

end Condr.GitWatcher
