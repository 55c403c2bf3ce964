import Condr.Git.Changes

/-!
# Diffs and old sides of files

What gix answers is given: the tree entry and the checked out text of an old side, the
sizes of binary sides, and the hunks of an internal diff for any number of context lines.
-/

namespace Condr

def diffContextLines : ℕ := 3

/-- The wire cost of a diff line beyond its text. -/
def diffLineOverhead : ℕ := 24

/-! ## Hunks -/

structure HunkHeader where
  beforeHunkStart : ℕ
  beforeHunkLen : ℕ
  afterHunkStart : ℕ
  afterHunkLen : ℕ

/-- A hunk as gix gives it, with the bytes of its lines. -/
structure RawHunk where
  header : HunkHeader
  lines : List (DiffLineKind × List UInt8)

/-- Without the line terminators at its end. -/
def trimNewlines (text : String) : String :=
  String.ofList (text.toList.reverse.dropWhile fun char => char == '\n' || char == '\r').reverse

def lineText (bytes : List UInt8) : String :=
  trimNewlines (Utf8.fromUtf8Lossy bytes)

/-- The lines of a hunk, each numbered on the sides that have it. -/
def numberLines (oldNumber newNumber : ℕ) : List (DiffLineKind × List UInt8) → List DiffLine
  | [] => []
  | (.context, text) :: rest =>
      { kind := .context, oldNumber := some oldNumber, newNumber := some newNumber,
        text := lineText text } :: numberLines (oldNumber + 1) (newNumber + 1) rest
  | (.added, text) :: rest =>
      { kind := .added, oldNumber := none, newNumber := some newNumber,
        text := lineText text } :: numberLines oldNumber (newNumber + 1) rest
  | (.removed, text) :: rest =>
      { kind := .removed, oldNumber := some oldNumber, newNumber := none,
        text := lineText text } :: numberLines (oldNumber + 1) newNumber rest

def consumeHunk (hunk : RawHunk) : DiffHunk where
  oldStart := hunk.header.beforeHunkStart
  oldLines := hunk.header.beforeHunkLen
  newStart := hunk.header.afterHunkStart
  newLines := hunk.header.afterHunkLen
  lines := numberLines hunk.header.beforeHunkStart hunk.header.afterHunkStart hunk.lines

/-- The text of the lines with the overhead of each. -/
def hunkBytes (hunks : List DiffHunk) : ℕ :=
  ((hunks.flatMap (·.lines)).map fun line => line.text.utf8ByteSize + diffLineOverhead).sum

/-- `hunks_content`, where `unified` is the diff with some lines of context. -/
def hunksContent (unified : ℕ → Except String (List RawHunk)) (context : ℕ) :
    Except String FileDiffContent := do
  let raw ← unified context
  let hunks := raw.map consumeHunk
  let bytes := hunkBytes hunks
  if maxDiffBytes < bytes then .ok (.tooLarge bytes) else .ok (.text hunks)

/-! ## Differ -/

/-- `prepare_diff`, for a path that is on a side. -/
structure DiffOutcome where
  /-- The sizes of the binary sides, the old one first. -/
  binarySides : List ℕ
  /-- The hunks of an internal diff. -/
  internal : Option (ℕ → Except String (List RawHunk))
  beforeLines : ℕ
  afterLines : ℕ

/-- `Differ::diff`. -/
def Differ.diff (outcome : Except String DiffOutcome)
    (render : (ℕ → Except String (List RawHunk)) → Except String FileDiffContent) :
    Except String FileDiffContent := do
  let outcome ← outcome
  match outcome.binarySides.find? fun size => maxDiffBytes < size with
  | some size => .ok (.tooLarge size)
  | none =>
      match outcome.internal with
      | some unified => render unified
      | none => .ok .binary

/-- What `file_diff` and `commit_file_diff` render: with full context one hunk that holds every
line, unless that passes the limit. -/
def renderDiff (fullContext : Bool) (lines : ℕ) (unified : ℕ → Except String (List RawHunk)) :
    Except String FileDiffContent :=
  if fullContext then do
    match ← hunksContent unified (min lines (2 ^ 32 - 1)) with
    | .tooLarge _ => hunksContent unified diffContextLines
    | content => .ok content
  else hunksContent unified diffContextLines

/-- The diff of a path whose sides the repository gives. -/
def diffContent (outcome : Except String DiffOutcome) (fullContext : Bool) :
    Except String FileDiffContent :=
  let lines := match outcome with
    | .ok outcome => max outcome.beforeLines outcome.afterLines
    | .error _ => 0
  Differ.diff outcome (renderDiff fullContext lines)

/-- `file_diff`, where `outcome` is what gix makes of the path and its old path. -/
def fileDiff (path : RelativePathBuf) (oldPath : Option RelativePathBuf)
    (outcome : Except String DiffOutcome) (fullContext : Bool) : Except String FileDiff :=
  if !validDiffPath path || oldPath.any (!validDiffPath ·) then .error "invalid path for a diff"
  else (diffContent outcome fullContext).map fun content => { path, content }

/-! ## Old sides -/

inductive OldFile where
  | text (text : String)
  | added
  | none
deriving DecidableEq

/-- A file in a tree. -/
structure TreeBlob where
  link : Bool
  /-- The header gives the size before the blob is read. -/
  size : Except String ℕ
  /-- The bytes that a checkout would write. -/
  checkout : Except String (List UInt8)

/-- What the repository answers about a path of the compared tree. -/
structure OldSide where
  /-- Whether the work tree has a link there. -/
  worktreeLink : Bool
  entry : Except String (Option TreeBlob)
  tracked : Except String Bool
  /-- None where the ignore rules cannot be built. -/
  excluded : Option Bool

def oldFile (path : RelativePathBuf) (oldPath : Option RelativePathBuf) (side : OldSide) :
    Except String OldFile :=
  if !validDiffPath path || oldPath.any (!validDiffPath ·) then .error "invalid path for a diff"
  else if side.worktreeLink then .ok .none
  else match side.entry with
  | .error reason => .error reason
  | .ok none =>
      match side.tracked with
      | .error reason => .error reason
      | .ok tracked =>
          if !tracked && side.excluded == some true then .ok .none else .ok .added
  | .ok (some blob) =>
      if blob.link then .ok .none
      else match blob.size with
      | .error reason => .error reason
      | .ok size =>
          if maxDiffBytes < size then .ok .none
          else match blob.checkout with
          | .error reason => .error reason
          | .ok bytes =>
              -- one byte past the limit is enough to tell it is too large
              let text := bytes.take (maxDiffBytes + 1)
              if maxDiffBytes < text.length || (text.take 8000).contains 0 then .ok .none
              else .ok (.text (Utf8.fromUtf8Lossy text))

end Condr
