import Condr.Git.Diff
import Mathlib.Data.Int.Notation

/-!
# History

The commits reachable from `HEAD` a page at a time, and one commit's files and diffs
against its first parent. gix walks and reads the objects.
-/

namespace Condr

structure CommitSummary where
  id : String
  subject : String
  author : String
  time : ℤ
deriving DecidableEq

structure GitLog where
  start : Option String
  commits : List CommitSummary
  more : Bool
deriving DecidableEq

structure CommitDetails where
  id : String
  parents : List String
  author : String
  time : ℤ
  message : String
  changes : GitChanges
deriving DecidableEq

/-! ## Pages -/

/-- What a commit object says, as bytes. -/
structure CommitObject where
  summary : List UInt8
  author : List UInt8
  time : ℤ

/-- A step of the walk: the id, and the object it stands for. -/
structure WalkInfo where
  id : String
  object : Except String CommitObject

/-- The loop of `log`, after some commits. -/
def collectCommits (limit : ℕ) (commits : List CommitSummary) :
    List (Except String WalkInfo) → Except String (List CommitSummary × Bool)
  | [] => .ok (commits, false)
  | .error reason :: _ => .error reason
  | .ok info :: rest =>
      if commits.length = limit then .ok (commits, true)
      else match info.object with
      | .error reason => .error reason
      | .ok object =>
          let commit : CommitSummary := {
            id := info.id
            subject := Utf8.fromUtf8Lossy object.summary
            author := Utf8.fromUtf8Lossy object.author
            time := object.time }
          collectCommits limit (commits ++ [commit]) rest

/-- Where a walk starts, and its steps. There is no start on an unborn `HEAD`. -/
structure Walk where
  start : Option String
  steps : Except String (List (Except String WalkInfo))

/-- `log`, where `walk` is what the repository gives for the commit to start from. -/
def gitLog (walk : Except String Walk) (skip limit : ℕ) : Except String GitLog := do
  let walk ← walk
  match walk.start with
  | none => .ok { start := none, commits := [], more := false }
  | some start =>
      let steps ← walk.steps
      let (commits, more) ← collectCommits limit [] (steps.drop skip)
      .ok { start := some start, commits, more }

/-! ## Commits -/

inductive TreeChangeKind where
  | addition
  | deletion
  | modification
  | rewrite (sourceLocation : List UInt8) (copy : Bool)

/-- A difference of two trees. -/
structure TreeChange where
  location : List UInt8
  kind : TreeChangeKind
  isTree : Bool

def TreeChange.entry (change : TreeChange) : GitChangeEntry :=
  let path := gitPath change.location
  match change.kind with
  | .addition => { path, oldPath := none, status := .added, stat := none }
  | .deletion => { path, oldPath := none, status := .deleted, stat := none }
  | .modification => { path, oldPath := none, status := .modified, stat := none }
  -- a copy leaves its source in place, so it reads as a new file
  | .rewrite _ true => { path, oldPath := none, status := .added, stat := none }
  | .rewrite source false =>
      { path, oldPath := some (gitPath source), status := .renamed, stat := none }

/-- `changed_entries`: a map from paths to entries, as the list of its entries. -/
def changedEntries (changes : List TreeChange) : List GitChangeEntry :=
  (changes.filter (!·.isTree)).foldl
    (fun entries change => alterEntry change.entry.path (fun _ => some change.entry) entries) []

/-- A commit as the repository reads it. -/
structure CommitSource where
  id : String
  parents : List String
  /-- The author's name and time. -/
  author : Except String (List UInt8 × ℤ)
  message : List UInt8
  /-- Against its first parent. -/
  changes : Except String (List TreeChange)
  /-- The line counts, or why there is no `Differ`. -/
  differ : Except String (GitChangeEntry → Option GitDiffStat)

/-- `commit`. -/
def gitCommit (source : Except String CommitSource) : Except String CommitDetails := do
  let commit ← source
  let changes ← commit.changes
  let all := changedEntries changes
  let truncated := decide (maxGitChanges < all.length)
  let entries := all.take maxGitChanges
  let entries ←
    if truncated then .ok entries
    else commit.differ.map fun stat => entries.map fun entry => { entry with stat := stat entry }
  let (author, time) ← commit.author
  .ok {
    id := commit.id
    parents := commit.parents
    author := Utf8.fromUtf8Lossy author
    time
    message := Utf8.fromUtf8Lossy commit.message
    changes := { entries, truncated } }

/-- `commit_file_diff`: `outcome` is what gix makes of the path and its old path there. -/
def commitFileDiff (changes : Except String (List TreeChange)) (path : RelativePathBuf)
    (outcome : Option RelativePathBuf → Except String DiffOutcome) (fullContext : Bool) :
    Except String FileDiff :=
  if !validDiffPath path then .error "invalid path for a diff"
  else do
    let changes ← changes
    let entry := (changedEntries changes).find? fun entry => comparePaths path entry.path == .eq
    let oldPath := entry.bind (·.oldPath)
    (diffContent (outcome oldPath) fullContext).map fun content => { path, content }

end Condr
