import Condr.Foundation.FileTree
import Condr.Foundation.Transition
import Condr.Git.WorktreePath

/-!
# Creating worktrees

The calls of `create_worktree` on one file tree, each call of the system a step of its own and
the steps of different calls in any order. Any step may fail. gix's part is given: opening
the repository, what its references and heads say and the branch it makes may come out either
way, and the branch is not in the tree. A checkout writes what it wants below the destination,
its `.git` apart, and the index of the registration.

Places have their links resolved, and a directory's removal takes what is in it piece by piece.
-/

namespace Condr.Worktree

open FilePath FileTree

abbrev Place := List FileName

abbrev Files (Call : Type) := Tree FileName Call (List Char)

/-! ## git's own names -/

def headName : FileName := nameOf "HEAD".toList (by decide)
def commondirName : FileName := nameOf "commondir".toList (by decide)
def gitdirName : FileName := nameOf "gitdir".toList (by decide)
def dotGitName : FileName := nameOf ".git".toList (by decide)
def indexName : FileName := nameOf "index".toList (by decide)
def indexLockName : FileName := nameOf "index.lock".toList (by decide)

/-- git writes forward slashes on every platform and reads either. -/
def gitPath (path : FilePath) : List Char :=
  path.toStringLossy.map fun character => if character = '\\' then '/' else character

/-! ## What is registered -/

/-- The files of a registration in the order in which they are written. -/
inductive RegistrationFile where
  | head
  | commondir
  | gitdir
  | dotGit
deriving DecidableEq

namespace Plan

def baseId (plan : Plan) : List Char :=
  ((plan.destination.fileName.bind fun name => name.name.toStr).getD "worktree").toList

/-- The id that the loop of `register` tries after `suffix` others were taken. -/
def adminId (plan : Plan) (suffix : ℕ) : List Char :=
  if suffix = 0 then plan.baseId else plan.baseId ++ suffix.repr.toList

def adminPath (plan : Plan) (suffix : ℕ) : FilePath :=
  plan.worktrees.join (ofText (plan.adminId suffix))

/-- Where a file of the registration is. -/
def filePath (plan : Plan) (admin : FilePath) : RegistrationFile → FilePath
  | .head => admin.child headName
  | .commondir => admin.child commondirName
  | .gitdir => admin.child gitdirName
  | .dotGit => plan.destination.child dotGitName

def fileText (plan : Plan) (admin : FilePath) : RegistrationFile → List Char
  | .head => "ref: ".toList ++ plan.reference ++ ['\n']
  | .commondir => "../..\n".toList
  | .gitdir => gitPath (plan.destination.child dotGitName) ++ ['\n']
  | .dotGit => "gitdir: ".toList ++ gitPath admin ++ ['\n']

/-- Where a checkout writes: below the destination, its `.git` apart, or the index. -/
def checkoutWrites (cwd : Place) (plan : Plan) (admin : FilePath) (place : Place) : Bool :=
  let destination := plan.destination.resolve cwd
  (destination.isPrefixOf place && place != destination &&
      !((destination ++ [dotGitName]).isPrefixOf place)) ||
    place == admin.resolve cwd ++ [indexName] ||
    place == admin.resolve cwd ++ [indexLockName]

end Plan

/-! ## The state of a call -/

inductive Phase where
  /-- `create_worktree` before `register`. -/
  | checking
  | makingWorktrees
  | reservingAdmin (suffix : ℕ)
  | makingParent
  | reservingDestination
  | writing (file : RegistrationFile)
  | checkingOut
  | validating
  | rollingBack (error : String)
  | created (admin : FilePath)
  | failed (error : String)
deriving DecidableEq

/-- A `WorktreeCreation` and how far its call is. -/
structure Creation where
  phase : Phase
  adminDirectory : Option FilePath
  destination : Option FilePath
  /-- The removals of `rollback` that failed. -/
  failures : List (FilePath × String)

namespace Creation

def init : Creation := ⟨.checking, none, none, []⟩

/-- The directories that `rollback` removes, in its order. -/
def owned (creation : Creation) : List FilePath :=
  creation.destination.toList ++ creation.adminDirectory.toList

/-- The first of them is taken from its field. -/
def release (creation : Creation) : Creation :=
  match creation.destination with
  | some _ => { creation with destination := none }
  | none => { creation with adminDirectory := none }

def enter (creation : Creation) (phase : Phase) : Creation := { creation with phase }

/-- What the call returns. -/
def result (creation : Creation) : Option (Except String FilePath) :=
  match creation.phase with
  | .created admin => some (.ok admin)
  | .failed error =>
      some (.error (if creation.failures = [] then error
        else error ++ "; failed to clean up worktree creation: " ++
          "; ".intercalate (creation.failures.map fun failure =>
            String.ofList failure.1.toStringLossy ++ ": " ++ failure.2)))
  | _ => none

end Creation

/-! ## Steps -/

/-- What a call does next. -/
inductive Move where
  /-- The call of the system that the phase makes succeeds. -/
  | proceed
  /-- `exists` fails, which it takes for absence. -/
  | overlook
  /-- `create_dir_all` makes a directory on the way. -/
  | ancestor (place : Place)
  /-- The directory to reserve is there. -/
  | occupied
  /-- A write stores other text first. -/
  | partly (text : List Char)
  | checkout (operation : Operation FileName (List Char))
  /-- `remove_dir_all` removes an entry below. -/
  | clear (place : Place)
  | fail (message : String)

def RegistrationFile.after : RegistrationFile → Phase
  | .head => .writing .commondir
  | .commondir => .writing .gitdir
  | .gitdir => .writing .dotGit
  | .dotGit => .checkingOut

def registerError (message : String) : String := "failed to register worktree: " ++ message

section Transition

variable {Call : Type} (cwd : Place) (plan : Plan) (call : Call)

/-- The last step of `create_dir_all`: the directory is there or is made. -/
def ensureDirectory (path : FilePath) (files : Files Call) : Option (Files Call) :=
  if isDirectory (path.resolve cwd) files then some files
  else perform call files (.createDirectory (path.resolve cwd))

/-- `create_dir_all` makes a directory on the way. -/
def makeAncestor (path : FilePath) (place : Place) (files : Files Call) : Option (Files Call) :=
  if place.isPrefixOf (path.resolve cwd) then perform call files (.createDirectory place)
  else none

def transition (files : Files Call) (creation : Creation) :
    Move → Option (Files Call × Creation)
  | .proceed =>
      match creation.phase with
      | .checking =>
          if find (plan.destination.resolve cwd) files ≠ none then
            some (files, creation.enter (.failed ("worktree destination already exists: " ++
              String.ofList plan.destination.toStringLossy)))
          else some (files, creation.enter .makingWorktrees)
      | .makingWorktrees =>
          (ensureDirectory cwd call plan.worktrees files).map fun files =>
            (files, creation.enter (.reservingAdmin 0))
      | .reservingAdmin suffix =>
          let admin := plan.adminPath suffix
          (perform call files (.createDirectory (admin.resolve cwd))).map fun files =>
            (files, { creation with phase := .makingParent, adminDirectory := some admin })
      | .makingParent =>
          match plan.destination.parent with
          | none => some (files, creation.enter .reservingDestination)
          | some parent =>
              (ensureDirectory cwd call parent files).map fun files =>
                (files, creation.enter .reservingDestination)
      | .reservingDestination =>
          (perform call files (.createDirectory (plan.destination.resolve cwd))).map fun files =>
            (files,
              { creation with phase := .writing .head, destination := some plan.destination })
      | .writing file =>
          creation.adminDirectory.bind fun admin =>
            (perform call files (.write ((plan.filePath admin file).resolve cwd)
              (plan.fileText admin file))).map fun files => (files, creation.enter file.after)
      | .checkingOut => some (files, creation.enter .validating)
      | .validating =>
          creation.adminDirectory.map fun admin =>
            (files, { creation with
              phase := .created admin, adminDirectory := none, destination := none })
      | .rollingBack error =>
          match creation.owned with
          | [] => some (files, creation.enter (.failed error))
          | root :: _ =>
              if find (root.resolve cwd) files = none then some (files, creation.release)
              else
                (perform call files (.remove (root.resolve cwd))).map fun files =>
                  (files, creation.release)
      | .created _ => none
      | .failed _ => none
  | .overlook =>
      match creation.phase with
      | .checking => some (files, creation.enter .makingWorktrees)
      | _ => none
  | .ancestor place =>
      match creation.phase with
      | .makingWorktrees =>
          (makeAncestor cwd call plan.worktrees place files).map fun files => (files, creation)
      | .makingParent =>
          plan.destination.parent.bind fun parent =>
            (makeAncestor cwd call parent place files).map fun files => (files, creation)
      | _ => none
  | .occupied =>
      match creation.phase with
      | .reservingAdmin suffix =>
          if find ((plan.adminPath suffix).resolve cwd) files ≠ none then
            some (files, creation.enter (.reservingAdmin (suffix + 1)))
          else none
      | _ => none
  | .partly text =>
      match creation.phase with
      | .writing file =>
          creation.adminDirectory.bind fun admin =>
            (perform call files (.write ((plan.filePath admin file).resolve cwd) text)).map
              fun files => (files, creation)
      | _ => none
  | .checkout operation =>
      match creation.phase with
      | .checkingOut =>
          creation.adminDirectory.bind fun admin =>
            if plan.checkoutWrites cwd admin operation.place &&
                !(isDirectory operation.place files) then
              (perform call files operation).map fun files => (files, creation)
            else none
      | _ => none
  | .clear place =>
      match creation.phase, creation.owned with
      | .rollingBack _, root :: _ =>
          if (root.resolve cwd).isPrefixOf place && place != root.resolve cwd then
            (perform call files (.remove place)).map fun files => (files, creation)
          else none
      | _, _ => none
  | .fail message =>
      match creation.phase with
      | .checking => some (files, creation.enter (.failed message))
      | .makingWorktrees | .reservingAdmin _ | .makingParent | .reservingDestination
      | .writing _ => some (files, creation.enter (.rollingBack (registerError message)))
      | .checkingOut | .validating => some (files, creation.enter (.rollingBack message))
      | .rollingBack _ =>
          match creation.owned with
          | [] => none
          | root :: _ =>
              some (files, { creation.release with
                failures := creation.failures ++ [(root, message)] })
      | .created _ => none
      | .failed _ => none

end Transition

/-! ## All calls -/

structure State (Call : Type) where
  files : Files Call
  creations : Call → Creation

section System

variable {Call : Type} [DecidableEq Call] (cwd : Place) (plans : Call → Plan)

/-- A step of one call. -/
def next (state : State Call) (label : Call × Move) : Option (State Call) :=
  (transition cwd (plans label.1) label.1 state.files (state.creations label.1) label.2).map
    fun result => ⟨result.1, Function.update state.creations label.1 result.2⟩

/-- Every call starts on the same tree, which nobody has changed. -/
def system (files : Files Call) : Transition.System (State Call) (Call × Move) where
  initial state := state.files = files ∧ state.creations = fun _ => .init
  step state label after := next cwd plans state label = some after

end System

end Condr.Worktree
