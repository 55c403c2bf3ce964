import Condr.Git.History
import Condr.Protocol.Bootstrap
import Condr.Protocol.Commands

/-!
# Replies on the wire

The messages that answer what a client reads of files, of a repository and of a Pane, and the
fields they are encoded as.
-/

namespace Condr

open ClientWriter (maxFrameSize)
open Protobuf

/-- The members of `ServerMessage` that answer a reading request. -/
inductive Reply where
  | error (message : String)
  | paneText (paneId : PaneId) (text : String)
  | gitDiff (requestId : ℕ) (workspaceId : WorkspaceId) (path : RelativePathBuf)
      (result : Except String FileDiff)
  | gitOldFile (requestId : ℕ) (workspaceId : WorkspaceId) (path : RelativePathBuf)
      (result : Except String OldFile)
  | gitLog (requestId : ℕ) (workspaceId : WorkspaceId) (result : Except String GitLog)
  | gitCommit (requestId : ℕ) (workspaceId : WorkspaceId) (commit : String)
      (result : Except String CommitDetails)
  | directory (requestId : ℕ) (workspaceId : WorkspaceId) (path : RelativePathBuf)
      (result : Except String DirectoryListing)
  | fileContent (requestId : ℕ) (workspaceId : WorkspaceId) (path : RelativePathBuf)
      (result : Except String FileContent)

/-! ## Git -/

def GitDiffStat.fields (stat : GitDiffStat) : List Field :=
  uint 1 stat.added ++ uint 2 stat.deleted

namespace Pb

def GitChangeEntry.fields (entry : GitChangeEntry) : List Field :=
  string 1 entry.path ++ optionalString 2 entry.oldPath ++ int 3 entry.status ++
    optionalMessage 4 (entry.stat.map GitDiffStat.fields)

def GitChanges.fields (changes : GitChanges) : List Field :=
  repeatedMessage 1 (changes.entries.map GitChangeEntry.fields) ++ flag 2 changes.truncated

def DiffLine.fields (line : DiffLine) : List Field :=
  int 1 line.kind ++ optionalUint 2 line.oldNumber ++ optionalUint 3 line.newNumber ++
    string 4 line.text

def DiffHunk.fields (hunk : DiffHunk) : List Field :=
  uint 1 hunk.oldStart ++ uint 2 hunk.oldLines ++ uint 3 hunk.newStart ++ uint 4 hunk.newLines ++
    repeatedMessage 5 (hunk.lines.map DiffLine.fields)

def FileDiffContent.fields : FileDiffContent → List Field
  | text hunks => message 2 (repeatedMessage 1 (hunks.map DiffHunk.fields))
  | binary => message 3 []
  | tooLarge bytes => memberUint 4 bytes

def FileDiff.fields (diff : FileDiff) : List Field :=
  string 1 diff.path ++ diff.content.toList.flatMap FileDiffContent.fields

end Pb

def CommitSummary.fields (commit : CommitSummary) : List Field :=
  string 1 commit.id ++ string 2 commit.subject ++ string 3 commit.author ++ int 4 commit.time

def GitLog.fields (log : GitLog) : List Field :=
  optionalString 1 log.start ++ repeatedMessage 2 (log.commits.map CommitSummary.fields) ++
    flag 3 log.more

def CommitDetails.fields (details : CommitDetails) : List Field :=
  string 1 details.id ++ repeatedString 2 details.parents ++ string 3 details.author ++
    int 4 details.time ++ string 5 details.message ++
    Protobuf.message 6 details.changes.toWire.fields

/-! ## Files -/

def DirectoryEntry.fields (entry : DirectoryEntry) : List Field :=
  string 1 entry.name ++ int 2 entry.kind.toWire ++ flag 3 entry.ignored

def DirectoryListing.fields (listing : DirectoryListing) : List Field :=
  repeatedMessage 1 (listing.entries.map DirectoryEntry.fields) ++ flag 2 listing.truncated

def FileContent.fields : FileContent → List Field
  | .text content version lossy =>
      memberString 1 content ++ optionalUint 5 version ++ flag 6 lossy
  | .image bytes => [.bytes 4 bytes]
  | .binary => message 2 []
  | .tooLarge bytes => memberUint 3 bytes

/-! ## Replies -/

/-- A result: one member of a oneof for a value, another for an error. -/
def resultFields {α : Type} (okFields : α → List Field) (errNumber : ℕ) :
    Except String α → List Field
  | .ok value => okFields value
  | .error reason => memberString errNumber reason

def OldFile.fields : OldFile → List Field
  | .text content => memberString 4 content
  | .added => message 5 []
  | .none => message 6 []

def Reply.fields : Reply → List Field
  | error text => memberString 28 text
  | paneText paneId text => message 18 (uint 1 paneId.asU64 ++ string 2 text)
  | gitDiff requestId workspaceId path result =>
      message 19 (uint 1 requestId ++ uint 2 workspaceId.asU64 ++ string 3 path.inner ++
        resultFields (fun diff => message 4 diff.toWire.fields) 5 result)
  | gitOldFile requestId workspaceId path result =>
      message 33 (uint 1 requestId ++ uint 2 workspaceId.asU64 ++ string 3 path.inner ++
        resultFields OldFile.fields 7 result)
  | gitLog requestId workspaceId result =>
      message 31 (uint 1 requestId ++ uint 2 workspaceId.asU64 ++
        resultFields (fun log => message 3 log.fields) 4 result)
  | gitCommit requestId workspaceId commit result =>
      message 32 (uint 1 requestId ++ uint 2 workspaceId.asU64 ++ string 3 commit ++
        resultFields (fun details => message 4 details.fields) 5 result)
  | directory requestId workspaceId path result =>
      message 20 (uint 1 requestId ++ uint 2 workspaceId.asU64 ++ string 3 path.inner ++
        resultFields (fun listing => message 4 listing.fields) 5 result)
  | fileContent requestId workspaceId path result =>
      message 21 (uint 1 requestId ++ uint 2 workspaceId.asU64 ++ string 3 path.inner ++
        resultFields (fun content => message 4 content.fields) 5 result)

/-- `frame_message`. -/
def Reply.frame (reply : Reply) : Except String (List UInt8) :=
  frameBody (Protobuf.encode reply.fields) maxFrameSize

end Condr
