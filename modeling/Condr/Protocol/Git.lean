import Condr.Foundation.Protobuf
import Condr.Git.Changes
import Condr.Protocol.Pb
import Condr.Session.Basic

/-!
# Git on the wire

The messages that carry changes and diffs. The encoder writes every path as it
is; the decoder refuses a path that starts with a separator or has a backslash.
-/

namespace Condr

structure GitUpstream where
  ahead : ℕ
  behind : ℕ
deriving DecidableEq

/-- The base view of a Workspace's changes. -/
structure GitBaseChanges where
  branch : String
  changes : GitChanges
deriving DecidableEq

structure GitHead where
  commit : Option String
deriving DecidableEq

structure WorkspaceGitSnapshot where
  workspaceId : WorkspaceId
  branch : Option String
  linkedWorktree : Bool
  upstream : Option GitUpstream
  changes : GitChanges
  base : Option GitBaseChanges
  head : Option GitHead
deriving DecidableEq

namespace Pb

structure GitChangeEntry where
  path : String
  oldPath : Option String
  status : ℤ
  stat : Option GitDiffStat

structure GitChanges where
  entries : List GitChangeEntry
  truncated : Bool

structure GitBaseChanges where
  branch : String
  changes : Option GitChanges

structure WorkspaceGitSnapshot where
  workspaceId : ℕ
  branch : Option String
  linkedWorktree : Bool
  upstream : Option GitUpstream
  changes : Option GitChanges
  base : Option GitBaseChanges
  head : Option GitHead

structure DiffLine where
  kind : ℤ
  oldNumber : Option ℕ
  newNumber : Option ℕ
  text : String

structure DiffHunk where
  oldStart : ℕ
  oldLines : ℕ
  newStart : ℕ
  newLines : ℕ
  lines : List DiffLine

inductive FileDiffContent where
  | text (hunks : List DiffHunk)
  | binary
  | tooLarge (bytes : ℕ)

structure FileDiff where
  path : String
  content : Option FileDiffContent

end Pb

/-! ## Enums -/

def GitChangeStatus.toWire : GitChangeStatus → ℤ
  | added => 1
  | modified => 2
  | deleted => 3
  | renamed => 4
  | untracked => 5
  | conflicted => 6

def gitChangeStatus (raw : ℤ) : WireResult GitChangeStatus :=
  enumOr raw "change status" .modified fun raw => match raw with
    | 1 => some .added
    | 2 => some .modified
    | 3 => some .deleted
    | 4 => some .renamed
    | 5 => some .untracked
    | 6 => some .conflicted
    | _ => none

def DiffLineKind.toWire : DiffLineKind → ℤ
  | context => 1
  | added => 2
  | removed => 3

def diffLineKind (raw : ℤ) : WireResult DiffLineKind :=
  enumOr raw "diff line kind" .context fun raw => match raw with
    | 1 => some .context
    | 2 => some .added
    | 3 => some .removed
    | _ => none

@[simp]
theorem gitChangeStatus_toWire (status : GitChangeStatus) :
    gitChangeStatus status.toWire = .ok status := by
  cases status <;> rfl

@[simp]
theorem diffLineKind_toWire (kind : DiffLineKind) : diffLineKind kind.toWire = .ok kind := by
  cases kind <;> rfl

/-! ## Conversions -/

def GitChangeEntry.toWire (entry : GitChangeEntry) : Pb.GitChangeEntry where
  path := entry.path.inner
  oldPath := entry.oldPath.map (·.inner)
  status := entry.status.toWire
  stat := entry.stat

def GitChanges.toWire (changes : GitChanges) : Pb.GitChanges where
  entries := changes.entries.map GitChangeEntry.toWire
  truncated := changes.truncated

def GitBaseChanges.toWire (base : GitBaseChanges) : Pb.GitBaseChanges where
  branch := base.branch
  changes := some base.changes.toWire

/-- `encode_git`. -/
def encodeGit (git : WorkspaceGitSnapshot) : Pb.WorkspaceGitSnapshot where
  workspaceId := git.workspaceId.asU64
  branch := git.branch
  linkedWorktree := git.linkedWorktree
  upstream := git.upstream
  changes := some git.changes.toWire
  base := git.base.map GitBaseChanges.toWire
  head := git.head

def DiffLine.toWire (line : DiffLine) : Pb.DiffLine where
  kind := line.kind.toWire
  oldNumber := line.oldNumber
  newNumber := line.newNumber
  text := line.text

def DiffHunk.toWire (hunk : DiffHunk) : Pb.DiffHunk where
  oldStart := hunk.oldStart
  oldLines := hunk.oldLines
  newStart := hunk.newStart
  newLines := hunk.newLines
  lines := hunk.lines.map DiffLine.toWire

def FileDiffContent.toWire : FileDiffContent → Pb.FileDiffContent
  | text hunks => .text (hunks.map DiffHunk.toWire)
  | binary => .binary
  | tooLarge bytes => .tooLarge bytes

def FileDiff.toWire (diff : FileDiff) : Pb.FileDiff where
  path := diff.path.inner
  content := some diff.content.toWire

namespace Pb

def GitChangeEntry.toDomain (entry : GitChangeEntry) : WireResult Condr.GitChangeEntry := do
  let status ← gitChangeStatus entry.status
  let path ← relativePath entry.path
  let oldPath ← transposeMap relativePath entry.oldPath
  .ok { path, oldPath, status, stat := entry.stat }

def GitChanges.toDomain (changes : GitChanges) : WireResult Condr.GitChanges := do
  let entries ← changes.entries.mapM GitChangeEntry.toDomain
  .ok { entries, truncated := changes.truncated }

def GitBaseChanges.toDomain (base : GitBaseChanges) : WireResult Condr.GitBaseChanges := do
  let changes ← required base.changes "base changes"
  let changes ← changes.toDomain
  .ok { branch := base.branch, changes }

/-- `decode_git`. -/
def decodeGit (git : WorkspaceGitSnapshot) : WireResult Condr.WorkspaceGitSnapshot := do
  let changes ← required git.changes "Git changes"
  let changes ← changes.toDomain
  let base ← transposeMap GitBaseChanges.toDomain git.base
  .ok {
    workspaceId := ⟨git.workspaceId⟩
    branch := git.branch
    linkedWorktree := git.linkedWorktree
    upstream := git.upstream
    changes
    base
    head := git.head }

def DiffLine.toDomain (line : DiffLine) : WireResult Condr.DiffLine := do
  let kind ← diffLineKind line.kind
  .ok { kind, oldNumber := line.oldNumber, newNumber := line.newNumber, text := line.text }

def DiffHunk.toDomain (hunk : DiffHunk) : WireResult Condr.DiffHunk := do
  let lines ← hunk.lines.mapM DiffLine.toDomain
  .ok {
    oldStart := hunk.oldStart
    oldLines := hunk.oldLines
    newStart := hunk.newStart
    newLines := hunk.newLines
    lines }

def FileDiffContent.toDomain : FileDiffContent → WireResult Condr.FileDiffContent
  | text hunks => (hunks.mapM DiffHunk.toDomain).map .text
  | binary => .ok .binary
  | tooLarge bytes => .ok (.tooLarge bytes)

def FileDiff.toDomain (diff : FileDiff) : WireResult Condr.FileDiff := do
  let content ← member diff.content
  let content ← content.toDomain
  let path ← relativePath diff.path
  .ok { path, content }

end Pb

/-! ## What survives the wire -/

/-- The decoder takes every path of the entry for relative. -/
def GitChangeEntry.Relative (entry : GitChangeEntry) : Prop :=
  isRelativeText entry.path.inner = true ∧
    ∀ old, entry.oldPath = some old → isRelativeText old.inner = true

def GitChanges.Relative (changes : GitChanges) : Prop :=
  ∀ entry ∈ changes.entries, entry.Relative

structure WorkspaceGitSnapshot.Relative (git : WorkspaceGitSnapshot) : Prop where
  changes : git.changes.Relative
  base : ∀ base, git.base = some base → base.changes.Relative

theorem relativePath_inner (path other : RelativePathBuf) :
    relativePath path.inner = .ok other ↔ isRelativeText path.inner = true ∧ other = path :=
  relativePath_eq_ok

theorem GitChangeEntry.toDomain_toWire (entry other : GitChangeEntry) :
    entry.toWire.toDomain = .ok other ↔ entry.Relative ∧ other = entry := by
  simp only [toWire, Pb.GitChangeEntry.toDomain, Lists.bind_eq_ok, gitChangeStatus_toWire,
    Except.ok.injEq, relativePath_inner, transposeMap_map_eq_ok_iff relativePath_inner, Relative]
  constructor
  · rintro ⟨_, rfl, _, ⟨pathRelative, rfl⟩, _, ⟨oldRelative, rfl⟩, rfl⟩
    exact ⟨⟨pathRelative, oldRelative⟩, rfl⟩
  · rintro ⟨⟨pathRelative, oldRelative⟩, rfl⟩
    exact ⟨_, rfl, _, ⟨pathRelative, rfl⟩, _, ⟨oldRelative, rfl⟩, rfl⟩

/-- The wire form of changes is decoded exactly when every path in it is relative, and then to
the same changes. -/
theorem GitChanges.toDomain_toWire (changes other : GitChanges) :
    changes.toWire.toDomain = .ok other ↔ changes.Relative ∧ other = changes := by
  simp only [toWire, Pb.GitChanges.toDomain, Lists.bind_eq_ok, Except.ok.injEq,
    Lists.mapM_map_eq_ok_iff GitChangeEntry.toDomain_toWire, Relative]
  constructor
  · rintro ⟨_, ⟨relative, rfl⟩, rfl⟩
    exact ⟨relative, rfl⟩
  · rintro ⟨relative, rfl⟩
    exact ⟨_, ⟨relative, rfl⟩, rfl⟩

theorem GitBaseChanges.toDomain_toWire (base other : GitBaseChanges) :
    base.toWire.toDomain = .ok other ↔ base.changes.Relative ∧ other = base := by
  simp only [toWire, Pb.GitBaseChanges.toDomain, Lists.bind_eq_ok, required, Except.ok.injEq,
    exists_eq_left', GitChanges.toDomain_toWire]
  constructor
  · rintro ⟨_, ⟨relative, rfl⟩, rfl⟩
    exact ⟨relative, rfl⟩
  · rintro ⟨relative, rfl⟩
    exact ⟨_, ⟨relative, rfl⟩, rfl⟩

theorem decodeGit_encodeGit (git other : WorkspaceGitSnapshot) :
    Pb.decodeGit (encodeGit git) = .ok other ↔ git.Relative ∧ other = git := by
  simp only [encodeGit, Pb.decodeGit, Lists.bind_eq_ok, required, Except.ok.injEq, exists_eq_left',
    GitChanges.toDomain_toWire, transposeMap_map_eq_ok_iff GitBaseChanges.toDomain_toWire]
  constructor
  · rintro ⟨_, ⟨changesRelative, rfl⟩, _, ⟨baseRelative, rfl⟩, rfl⟩
    exact ⟨⟨changesRelative, baseRelative⟩, rfl⟩
  · rintro ⟨⟨changesRelative, baseRelative⟩, rfl⟩
    exact ⟨_, ⟨changesRelative, rfl⟩, _, ⟨baseRelative, rfl⟩, rfl⟩

theorem DiffLine.toDomain_toWire (line other : DiffLine) :
    line.toWire.toDomain = .ok other ↔ True ∧ other = line := by
  simp [toWire, Pb.DiffLine.toDomain, bind, Except.bind, @eq_comm _ other]

theorem DiffHunk.toDomain_toWire (hunk other : DiffHunk) :
    hunk.toWire.toDomain = .ok other ↔ True ∧ other = hunk := by
  simp only [toWire, Pb.DiffHunk.toDomain, Lists.bind_eq_ok, Except.ok.injEq,
    Lists.mapM_map_eq_ok_iff DiffLine.toDomain_toWire]
  constructor
  · rintro ⟨_, ⟨-, rfl⟩, rfl⟩
    exact ⟨trivial, rfl⟩
  · rintro ⟨-, rfl⟩
    exact ⟨_, ⟨fun _ _ => trivial, rfl⟩, rfl⟩

theorem FileDiffContent.toDomain_toWire (content : FileDiffContent) :
    content.toWire.toDomain = .ok content := by
  cases content with
  | text hunks =>
      have decoded := (Lists.mapM_map_eq_ok_iff DiffHunk.toDomain_toWire).mpr
        ⟨fun _ _ => trivial, @rfl _ hunks⟩
      simp [toWire, Pb.FileDiffContent.toDomain, decoded, Except.map]
  | binary => rfl
  | tooLarge bytes => rfl

theorem FileDiff.toDomain_toWire (diff other : FileDiff) :
    diff.toWire.toDomain = .ok other ↔ isRelativeText diff.path.inner = true ∧ other = diff := by
  simp only [toWire, Pb.FileDiff.toDomain, Lists.bind_eq_ok, member, Except.ok.injEq,
    exists_eq_left', FileDiffContent.toDomain_toWire, relativePath_inner]
  constructor
  · rintro ⟨_, ⟨relative, rfl⟩, rfl⟩
    exact ⟨relative, rfl⟩
  · rintro ⟨relative, rfl⟩
    exact ⟨_, ⟨relative, rfl⟩, rfl⟩

/-- The changes of a Workspace, the diff of a file and the Git state that events and Bootstraps
carry come back from the wire as they were exactly when every path in them is relative text.
Of a listing that means the names git listed: `isRelativeText_gitPath`. -/
theorem git_wire_round_trip_iff (changes : GitChanges) (diff : FileDiff)
    (git : WorkspaceGitSnapshot) :
    (changes.toWire.toDomain = .ok changes ↔ changes.Relative) ∧
      (diff.toWire.toDomain = .ok diff ↔ isRelativeText diff.path.inner = true) ∧
      (Pb.decodeGit (encodeGit git) = .ok git ↔ git.Relative) := by
  refine ⟨?_, ?_, ?_⟩
  · rw [GitChanges.toDomain_toWire]
    exact and_iff_left rfl
  · rw [FileDiff.toDomain_toWire]
    exact and_iff_left rfl
  · rw [decodeGit_encodeGit]
    exact and_iff_left rfl

/-- An untracked file whose name has a backslash, as Unix allows. -/
def backslashItem : FoldedStatus where
  path := [97, 92, 98]
  oldPath := none
  status := .untracked

def backslashChanges : GitChanges where
  entries := [{ path := ⟨"a\\b"⟩, oldPath := none, status := .untracked, stat := none }]
  truncated := false

/-- One such file makes the changes of its repository undecodable. -/
theorem listed_changes_not_decodable :
    ¬∀ (differ : Except String (GitChangeEntry → Option GitDiffStat)) (items : List FoldedStatus)
      (changes : GitChanges), listed differ items = .ok changes →
        changes.toWire.toDomain = .ok changes := by
  intro decodable
  have produced : listed (.ok fun _ => none) [backslashItem] = .ok backslashChanges := by
    rfl
  have decoded := decodable _ _ _ produced
  rw [GitChanges.toDomain_toWire] at decoded
  have relative := (decoded.1 _ (List.mem_singleton_self _)).1
  revert relative
  decide

end Condr
