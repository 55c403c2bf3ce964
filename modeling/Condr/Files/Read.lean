import Condr.Git.Changes
import Condr.Server.ClientWriter

/-!
# Reading files and directories

The Server's side of the Files sidebar. What the disk answers is given: a file's
metadata and its bytes, and a directory's entries in the order they are read.
-/

namespace Condr

def maxFileBytes : ℕ := maxDiffBytes
def maxImageBytes : ℕ := ClientWriter.maxFrameSize - 64 * 1024
def maxDirectoryEntries : ℕ := 2000
def binaryProbeBytes : ℕ := 8000

inductive FileKind where
  | directory
  | file
deriving DecidableEq

structure DirectoryEntry where
  name : String
  kind : FileKind
  /-- Excluded by the repository's ignore rules. -/
  ignored : Bool
deriving DecidableEq

structure DirectoryListing where
  entries : List DirectoryEntry
  truncated : Bool
deriving DecidableEq

inductive FileContent where
  | text (text : String) (version : Option ℕ) (lossy : Bool)
  | image (bytes : List UInt8)
  | binary
  | tooLarge (bytes : ℕ)
deriving DecidableEq

/-! ## Names -/

def imageExtensions : List String :=
  ["png", "jpg", "jpeg", "gif", "webp", "bmp", "ico", "tif", "tiff"]

/-- `RelativePath::extension`: what follows the last dot of the name, when something stands
before that dot. -/
def RelativePathBuf.extension (path : RelativePathBuf) : Option String :=
  match path.components.getLast? with
  | some (.normal name) =>
      let before := (name.reverse.dropWhile (· != '.')).drop 1
      if before.isEmpty then none
      else some (String.ofList (name.reverse.takeWhile (· != '.')).reverse)
  | _ => none

def isImage (path : RelativePathBuf) : Bool :=
  match path.extension with
  | none => false
  | some extension => imageExtensions.any fun image => extension.toLower == image

/-- The Workspace root itself, or a directory inside it. -/
def validDirectoryPath (path : RelativePathBuf) : Bool :=
  path.inner.isEmpty || validDiffPath path

/-! ## Directories -/

/-- An entry of a directory on the disk. A link is what it points at. -/
structure DiskEntry where
  fileName : List UInt8
  isDir : Bool

def DiskEntry.kind (entry : DiskEntry) : FileKind :=
  if entry.isDir then .directory else .file

/-- The loop of `read_listing`, after some entries. -/
def collectEntries (keep : FileKind → Bool) (entries : List DirectoryEntry) :
    List (Except String DiskEntry) → Except String (List DirectoryEntry × Bool)
  | [] => .ok (entries, false)
  | .error reason :: _ => .error reason
  | .ok entry :: rest =>
      let name := Utf8.fromUtf8Lossy entry.fileName
      if name = ".git" then collectEntries keep entries rest
      else if !keep entry.kind then collectEntries keep entries rest
      else if maxDirectoryEntries ≤ entries.length then .ok (entries, true)
      else collectEntries keep (entries ++ [{ name, kind := entry.kind, ignored := false }]) rest

/-- Directories first, then by name without its case, then by name. Text is ordered by its
bytes. -/
def entryOrder (lowercase : String → String) (left right : DirectoryEntry) : Ordering :=
  (compare (left.kind != .directory) (right.kind != .directory)).then
    ((compareComponents.compareLex (lowercase left.name).toList (lowercase right.name).toList).then
      (compareComponents.compareLex left.name.toList right.name.toList))

def readListing (lowercase : String → String)
    (directory : Except String (List (Except String DiskEntry))) (keep : FileKind → Bool) :
    Except String DirectoryListing := do
  let read ← directory
  let (entries, truncated) ← collectEntries keep [] read
  .ok {
    entries := entries.mergeSort fun left right => entryOrder lowercase left right != .gt
    truncated }

def listDirectory (lowercase : String → String)
    (directory : Except String (List (Except String DiskEntry))) (relative : RelativePathBuf) :
    Except String DirectoryListing :=
  if !validDirectoryPath relative then .error "invalid directory path"
  else readListing lowercase directory fun _ => true

/-- `GitRepository::mark_ignored`. -/
def markIgnored (excluded : String → FileKind → Bool) (listing : DirectoryListing) :
    DirectoryListing :=
  { listing with
    entries := listing.entries.map fun entry =>
      { entry with ignored := excluded entry.name entry.kind } }

/-! ## Files -/

structure Metadata where
  isDir : Bool
  isFile : Bool
  len : ℕ

/-- A file as the disk answers for it. -/
structure FileOnDisk where
  metadata : Except String Metadata
  contents : Except String (List UInt8)

/-- `String::from_utf8`: the text that is written with exactly these bytes. -/
def fromUtf8 (bytes : List UInt8) : Option String :=
  let text := Utf8.fromUtf8Lossy bytes
  if text.toUTF8.data.toList = bytes then some text else none

/-- Whether the first bytes have a zero, as for git's own heuristic. -/
def looksBinary (bytes : List UInt8) : Bool :=
  (bytes.take binaryProbeBytes).contains 0

def fileLimit (relative : RelativePathBuf) : ℕ :=
  if isImage relative then maxImageBytes else maxFileBytes

def readFile (fileVersion : List UInt8 → ℕ) (disk : FileOnDisk) (relative : RelativePathBuf) :
    Except String FileContent :=
  if !validDiffPath relative then .error "invalid file path"
  else match disk.metadata with
  | .error reason => .error reason
  | .ok metadata =>
      if metadata.isDir then .error "is a directory"
      else if !metadata.isFile then .error "not a regular file"
      else if fileLimit relative < metadata.len then .ok (.tooLarge metadata.len)
      else match disk.contents with
      | .error reason => .error reason
      | .ok bytes =>
          -- the file may have grown since
          if fileLimit relative < bytes.length then .ok (.tooLarge bytes.length)
          else if isImage relative then .ok (.image bytes)
          else if looksBinary bytes then .ok .binary
          else match fromUtf8 bytes with
          | some text => .ok (.text text (some (fileVersion bytes)) false)
          | none => .ok (.text (Utf8.fromUtf8Lossy bytes) none true)

end Condr
