import Condr.Server.Answers

/-!
# What answers carry

The texts that the Server reads for a request, and when they leave room in a frame. The sizes
are those of what is read: of a path, of the text that a file's bytes decode to, of the names of
a directory and of the texts of commits, each with some bytes for the fields around it.
-/

namespace Condr

open ClientWriter (maxFrameSize)

/-- The size of the text that bytes decode to. -/
def textSize (bytes : List UInt8) : ℕ :=
  (Utf8.fromUtf8Lossy bytes).utf8ByteSize

/-- A text of a size has room in a frame beside one that the reply repeats. -/
def FitsBeside (echoed size : ℕ) : Prop :=
  echoed + size + 256 ≤ maxFrameSize

/-- The error has room, where something cannot be read. -/
def ErrorFits {α : Type} (echoed : ℕ) (read : Except String α) : Prop :=
  ∀ reason, read = .error reason → FitsBeside echoed reason.utf8ByteSize

/-! ## Files -/

/-- A file that is read and is neither too large nor binary, with its bytes. -/
structure FileOnDisk.Reads (disk : FileOnDisk) (path : RelativePathBuf) (bytes : List UInt8) :
    Prop where
  valid : validDiffPath path = true
  metadata : ∃ metadata, disk.metadata = .ok metadata ∧ metadata.isDir = false ∧
    metadata.isFile = true ∧ metadata.len ≤ fileLimit path
  contents : disk.contents = .ok bytes
  small : bytes.length ≤ fileLimit path
  shown : isImage path = true ∨ looksBinary bytes = false

/-- What is shown of its bytes: an image as it is, and anything else as text. -/
def shownSize (path : RelativePathBuf) (bytes : List UInt8) : ℕ :=
  if isImage path then bytes.length else textSize bytes

structure FileOnDisk.Moderate (disk : FileOnDisk) (path : RelativePathBuf) : Prop where
  metadata : ErrorFits path.inner.utf8ByteSize disk.metadata
  contents : ErrorFits path.inner.utf8ByteSize disk.contents
  shown : ∀ bytes, disk.Reads path bytes →
    FitsBeside path.inner.utf8ByteSize (shownSize path bytes)

/-- An old side that is read as text, with its bytes. -/
structure OldSide.Reads (side : OldSide) (bytes : List UInt8) : Prop where
  noLink : side.worktreeLink = false
  entry : ∃ blob, side.entry = .ok (some blob) ∧ blob.link = false ∧
    (∃ size, blob.size = .ok size ∧ size ≤ maxDiffBytes) ∧ blob.checkout = .ok bytes
  small : bytes.length ≤ maxDiffBytes
  text : (bytes.take 8000).contains 0 = false

structure OldSide.Moderate (side : OldSide) (echoed : ℕ) : Prop where
  entry : ErrorFits echoed side.entry
  tracked : ErrorFits echoed side.tracked
  blob : ∀ blob, side.entry = .ok (some blob) →
    ErrorFits echoed blob.size ∧ ErrorFits echoed blob.checkout
  shown : ∀ bytes, side.Reads bytes → FitsBeside echoed (textSize bytes)

/-! ## Diffs -/

/-- Hunks within the limit, which counts their lines: a third more covers the fields of a line,
and the header of each hunk comes on top. The path is repeated twice. -/
structure DiffModerate (outcome : Except String DiffOutcome) (path : RelativePathBuf) : Prop where
  echo : FitsBeside (2 * path.inner.utf8ByteSize) 0
  read : ErrorFits path.inner.utf8ByteSize outcome
  hunks : ∀ diff unified context, outcome = .ok diff → diff.internal = some unified →
    context = diffContextLines ∨ context = min (max diff.beforeLines diff.afterLines) (2 ^ 32 - 1) →
      ErrorFits path.inner.utf8ByteSize (unified context) ∧ ∀ raw, unified context = .ok raw →
        hunkBytes (raw.map consumeHunk) ≤ maxDiffBytes →
          FitsBeside (2 * path.inner.utf8ByteSize) (maxDiffBytes * 4 / 3 + 64 * raw.length)

/-! ## Directories -/

/-- The names in a directory, without that of a repository. -/
def entryNames (disk : List (Except String DiskEntry)) : List String :=
  ((disk.filterMap Except.toOption).map fun entry => Utf8.fromUtf8Lossy entry.fileName).filter
    (· != ".git")

/-- The names that are listed. -/
def listedNames (disk : List (Except String DiskEntry)) : List String :=
  (entryNames disk).take maxDirectoryEntries

def namesSize (each : ℕ) (names : List String) : ℕ :=
  (names.map (·.utf8ByteSize + each)).sum

structure DirectoryModerate (directory : Except String (List (Except String DiskEntry)))
    (echoed : ℕ) : Prop where
  read : ErrorFits echoed directory
  entries : ∀ disk, directory = .ok disk → (∀ entry ∈ disk, ErrorFits echoed entry) ∧
    FitsBeside echoed (namesSize 64 (listedNames disk))

/-! ## History -/

/-- The texts of a commit in a page. -/
def stepSize (each : ℕ) : Except String WalkInfo → ℕ
  | .error _ => 0
  | .ok info =>
      match info.object with
      | .error _ => 0
      | .ok object =>
          info.id.utf8ByteSize + textSize object.summary + textSize object.author + each

def pageSize (each limit : ℕ) (steps : List (Except String WalkInfo)) : ℕ :=
  ((steps.take limit).map (stepSize each)).sum

def StepFits (step : Except String WalkInfo) : Prop :=
  ErrorFits 0 step ∧ ∀ info, step = .ok info → ErrorFits 0 info.object

structure LogModerate (walk : Except String Walk) (skip limit : ℕ) : Prop where
  read : ErrorFits 0 walk
  page : ∀ found start, walk = .ok found → found.start = some start →
    ErrorFits 0 found.steps ∧ ∀ steps, found.steps = .ok steps →
      (∀ step ∈ (steps.drop skip).take (limit + 1), StepFits step) ∧
      FitsBeside start.utf8ByteSize (pageSize 64 limit (steps.drop skip))

def changedSize (each : ℕ) (entry : GitChangeEntry) : ℕ :=
  entry.path.inner.utf8ByteSize + (entry.oldPath.map (·.inner.utf8ByteSize)).getD 0 + each

/-- The texts of a commit with the paths of its first changed files. -/
def commitSize (each : ℕ) (commit : CommitSource) (changes : List TreeChange)
    (author : List UInt8) : ℕ :=
  commit.id.utf8ByteSize + namesSize each commit.parents + textSize author +
    textSize commit.message +
    (((changedEntries changes).take maxGitChanges).map (changedSize each)).sum

structure CommitModerate (source : Except String CommitSource) (echoed : ℕ) : Prop where
  read : ErrorFits echoed source
  commit : ∀ commit, source = .ok commit → ErrorFits echoed commit.changes ∧
    ErrorFits echoed commit.differ ∧ ErrorFits echoed commit.author ∧
    ∀ changes author time, commit.changes = .ok changes → commit.author = .ok (author, time) →
      FitsBeside echoed (commitSize 96 commit changes author)

/-! ## Requests -/

namespace Host

/-- What the Server reads for a request leaves room in a frame. -/
def Moderate (host : Host) : ClientMessage → Prop
  | .readPane _ _ paneId lines => ∀ terminal, host.terminals paneId = some (some terminal) →
      FitsBeside 0 (rowsSize (terminal.recentRows lines.toNat))
  | .gitDiff serverId sessionId _ workspaceId path _ _ (some commit) =>
      FitsBeside path.inner.utf8ByteSize 0 ∧ ∀ repository,
        host.workspaceRepository serverId sessionId workspaceId = .ok repository →
          ErrorFits path.inner.utf8ByteSize (repository.commitChanges commit) ∧
          ∀ changes, repository.commitChanges commit = .ok changes →
            DiffModerate (repository.commitSides commit path (((changedEntries changes).find?
              fun entry => comparePaths path entry.path == .eq).bind (·.oldPath))) path
  | .gitDiff serverId sessionId _ workspaceId path against _ none =>
      FitsBeside path.inner.utf8ByteSize 0 ∧ ∀ repository oldPath base,
        host.comparedSide serverId sessionId workspaceId path against =
            .ok (repository, oldPath, base) →
          DiffModerate (repository.sides path oldPath base) path
  | .gitOldFile serverId sessionId _ workspaceId path against =>
      FitsBeside path.inner.utf8ByteSize 0 ∧ ∀ repository oldPath base,
        host.comparedSide serverId sessionId workspaceId path against =
            .ok (repository, oldPath, base) →
          (repository.oldSide path oldPath base).Moderate path.inner.utf8ByteSize
  | .gitLog serverId sessionId _ workspaceId first skip limit => ∀ repository,
      host.workspaceRepository serverId sessionId workspaceId = .ok repository →
        LogModerate (repository.walk first) skip.toNat (min limit.toNat maxLogPage)
  | .gitCommit serverId sessionId _ workspaceId commit =>
      FitsBeside commit.utf8ByteSize 0 ∧ ∀ repository,
        host.workspaceRepository serverId sessionId workspaceId = .ok repository →
          CommitModerate (repository.commit commit) commit.utf8ByteSize
  | .listDirectory serverId sessionId _ workspaceId path =>
      FitsBeside path.inner.utf8ByteSize 0 ∧ ∀ root,
        host.checkedRoot serverId sessionId workspaceId = .ok root →
          DirectoryModerate (host.directory root path) path.inner.utf8ByteSize
  | .readFile serverId sessionId _ workspaceId path =>
      FitsBeside path.inner.utf8ByteSize 0 ∧ ∀ root,
        host.checkedRoot serverId sessionId workspaceId = .ok root →
          (host.file root path).Moderate path
  | _ => True

end Host

end Condr
