import Condr.Foundation.Utf8
import Condr.Session.Path

/-!
# Changes of a work tree

What the Server reports of a repository: one entry a path, folded from the status
items that git lists, and the diffs of single files.
-/

namespace Condr

/-- How a path differs from `HEAD`, index and worktree differences folded together. -/
inductive GitChangeStatus where
  | added
  | modified
  | deleted
  | renamed
  | untracked
  | conflicted
deriving DecidableEq

structure GitDiffStat where
  added : ℕ
  deleted : ℕ
deriving DecidableEq

structure GitChangeEntry where
  path : RelativePathBuf
  /-- The previous path of a renamed file. -/
  oldPath : Option RelativePathBuf
  status : GitChangeStatus
  stat : Option GitDiffStat
deriving DecidableEq

structure GitChanges where
  entries : List GitChangeEntry
  /-- The list stopped at the limit; more exist. -/
  truncated : Bool
deriving DecidableEq

def maxGitChanges : ℕ := 1000

/-- A side of a diff larger than this is not diffed. -/
def maxDiffBytes : ℕ := 1024 * 1024

inductive DiffLineKind where
  | context
  | added
  | removed
deriving DecidableEq

structure DiffLine where
  kind : DiffLineKind
  oldNumber : Option ℕ
  newNumber : Option ℕ
  text : String
deriving DecidableEq

structure DiffHunk where
  oldStart : ℕ
  oldLines : ℕ
  newStart : ℕ
  newLines : ℕ
  lines : List DiffLine
deriving DecidableEq

inductive FileDiffContent where
  | text (hunks : List DiffHunk)
  | binary
  | tooLarge (bytes : ℕ)
deriving DecidableEq

structure FileDiff where
  path : RelativePathBuf
  content : FileDiffContent
deriving DecidableEq

/-! ## Listing -/

/-- Later statuses win when index and worktree disagree about one path. -/
def statusRank : GitChangeStatus → ℕ
  | .modified => 0
  | .untracked => 1
  | .deleted => 2
  | .added => 3
  | .renamed => 4
  | .conflicted => 5

/-- `git_path`: git spells repository paths with `/`. -/
def gitPath (path : List UInt8) : RelativePathBuf :=
  ⟨Utf8.fromUtf8Lossy path⟩

/-- A status item: its path, the path it was renamed from, and what happened to it. -/
structure FoldedStatus where
  path : List UInt8
  oldPath : Option (List UInt8)
  status : GitChangeStatus

/-- The order of components: the special ones come before every name. -/
def compareComponents : Component → Component → Ordering
  | .curDir, .curDir => .eq
  | .curDir, _ => .lt
  | .parentDir, .curDir => .gt
  | .parentDir, .parentDir => .eq
  | .parentDir, .normal _ => .lt
  | .normal left, .normal right => compareLex left right
  | .normal _, _ => .gt
where
  /-- Text is ordered by its bytes, which for UTF-8 is the order of the characters. -/
  compareLex : List Char → List Char → Ordering
    | [], [] => .eq
    | [], _ => .lt
    | _, [] => .gt
    | left :: lefts, right :: rights =>
        (compare left.toNat right.toNat).then (compareLex lefts rights)

/-- Relative paths are ordered component by component. -/
def comparePaths (left right : RelativePathBuf) : Ordering :=
  go left.components right.components
where
  go : List Component → List Component → Ordering
    | [], [] => .eq
    | [], _ => .lt
    | _, [] => .gt
    | left :: lefts, right :: rights => (compareComponents left right).then (go lefts rights)

/-- `BTreeMap::entry` of the map from each entry's path to the entry. -/
def alterEntry (path : RelativePathBuf)
    (change : Option GitChangeEntry → Option GitChangeEntry) :
    List GitChangeEntry → List GitChangeEntry
  | [] => (change none).toList
  | entry :: rest =>
      match comparePaths path entry.path with
      | .lt => (change none).toList ++ entry :: rest
      | .eq => (change (some entry)).toList ++ rest
      | .gt => entry :: alterEntry path change rest

/-- What an item does to the entry of its path. -/
def foldStatus (path : RelativePathBuf) (oldPath : Option RelativePathBuf)
    (status : GitChangeStatus) : Option GitChangeEntry → Option GitChangeEntry
  | none => some { path, oldPath, status, stat := none }
  | some entry =>
      match entry.status, status with
      -- staged as new, then deleted again: nothing is left against the tree
      | .added, .deleted | .deleted, .added => none
      | current, next =>
          if statusRank current < statusRank next then
            some { entry with status := next, oldPath := oldPath.or entry.oldPath }
          else some entry

def foldItem (folded : List GitChangeEntry) (item : FoldedStatus) : List GitChangeEntry :=
  let path := gitPath item.path
  alterEntry path (foldStatus path (item.oldPath.map gitPath) item.status) folded

/-- `listed`, with the line counts of a `Differ`, which may fail to open. -/
def listed (differ : Except String (GitChangeEntry → Option GitDiffStat))
    (items : List FoldedStatus) : Except String GitChanges :=
  let folded := items.foldl foldItem []
  let truncated := decide (maxGitChanges < folded.length)
  let entries := folded.take maxGitChanges
  if truncated then .ok { entries, truncated }
  else do
    let stat ← differ
    .ok { entries := entries.map fun entry => { entry with stat := stat entry }, truncated }

/-! ## Names in a listing -/

theorem mem_alterEntry {path : RelativePathBuf}
    {change : Option GitChangeEntry → Option GitChangeEntry} {folded : List GitChangeEntry}
    {entry : GitChangeEntry} (contained : entry ∈ alterEntry path change folded) :
    entry ∈ folded ∨ change none = some entry ∨ ∃ old ∈ folded, change (some old) = some entry := by
  induction folded with
  | nil =>
      simp only [alterEntry, Option.mem_toList] at contained
      exact Or.inr (Or.inl contained)
  | cons head rest ih =>
      simp only [alterEntry] at contained
      split at contained
      · rcases List.mem_append.mp contained with fresh | old
        · exact Or.inr (Or.inl (Option.mem_toList.mp fresh))
        · exact Or.inl old
      · rcases List.mem_append.mp contained with changed | old
        · exact Or.inr (Or.inr ⟨head, by simp, Option.mem_toList.mp changed⟩)
        · exact Or.inl (List.mem_cons_of_mem _ old)
      · rcases List.mem_cons.mp contained with rfl | later
        · exact Or.inl (by simp)
        · rcases ih later with old | fresh | ⟨old, oldMem, changed⟩
          · exact Or.inl (List.mem_cons_of_mem _ old)
          · exact Or.inr (Or.inl fresh)
          · exact Or.inr (Or.inr ⟨old, List.mem_cons_of_mem _ oldMem, changed⟩)

/-- Every path of an entry is the text of a name that git listed. -/
def GitChangeEntry.Named (names : List (List UInt8)) (entry : GitChangeEntry) : Prop :=
  (∃ name ∈ names, entry.path = gitPath name) ∧
    ∀ old, entry.oldPath = some old → ∃ name ∈ names, old = gitPath name

def FoldedStatus.names (item : FoldedStatus) : List (List UInt8) :=
  item.path :: item.oldPath.toList

theorem foldStatus_named {names : List (List UInt8)} {item : FoldedStatus}
    (itemNames : item.names ⊆ names) {before : Option GitChangeEntry} {entry : GitChangeEntry}
    (beforeNamed : ∀ old, before = some old → old.Named names)
    (folded : foldStatus (gitPath item.path) (item.oldPath.map gitPath) item.status before =
      some entry) : entry.Named names := by
  have pathNamed : ∃ name ∈ names, gitPath item.path = gitPath name :=
    ⟨item.path, itemNames (by simp [FoldedStatus.names]), rfl⟩
  have oldNamed : ∀ old, item.oldPath.map gitPath = some old → ∃ name ∈ names, old = gitPath name := by
    intro old renamed
    rcases Option.map_eq_some_iff.mp renamed with ⟨name, found, rfl⟩
    exact ⟨name, itemNames (by simp [FoldedStatus.names, found]), rfl⟩
  cases before with
  | none =>
      rcases Option.some.inj folded with rfl
      exact ⟨pathNamed, oldNamed⟩
  | some current =>
      have currentNamed := beforeNamed current rfl
      simp only [foldStatus] at folded
      split at folded
      · cases folded
      · cases folded
      split_ifs at folded
      · rcases Option.some.inj folded with rfl
        refine ⟨currentNamed.1, fun old renamed => ?_⟩
        rcases Option.or_eq_some_iff.mp renamed with fresh | ⟨-, kept⟩
        · exact oldNamed old fresh
        · exact currentNamed.2 old kept
      · rcases Option.some.inj folded with rfl
        exact currentNamed

theorem foldl_foldItem_named {names : List (List UInt8)} {items : List FoldedStatus}
    {folded : List GitChangeEntry} (itemNames : ∀ item ∈ items, item.names ⊆ names)
    (named : ∀ entry ∈ folded, entry.Named names) :
    ∀ entry ∈ items.foldl foldItem folded, entry.Named names := by
  induction items generalizing folded with
  | nil => exact named
  | cons item items ih =>
      apply ih fun other contained => itemNames other (by simp [contained])
      intro entry contained
      have ownNames := itemNames item (by simp)
      rcases mem_alterEntry contained with old | fresh | ⟨old, oldMem, changed⟩
      · exact named entry old
      · exact foldStatus_named ownNames (by simp) fresh
      · apply foldStatus_named ownNames _ changed
        rintro other same
        rcases Option.some.inj same with rfl
        exact named old oldMem

end Condr
