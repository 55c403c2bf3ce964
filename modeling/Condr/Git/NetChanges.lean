import Condr.Foundation.SortedMap
import Condr.Git.Changes
import Mathlib.Data.List.Forall2
import Mathlib.Data.List.Nodup

/-!
# The net change of a path

Git compares the tree with the index and the index with the working tree. A path may be
listed by both, and the listing folds its items into one entry, which should say how the
working tree differs from the tree.
-/

namespace Condr

/-! ## Status items -/

inductive DirEntryStatus
  | pruned
  | tracked
  | ignored
  | untracked
deriving DecidableEq

inductive DirEntryKind
  | untrackable
  | repository
  | directory
  | symlink
  | file
deriving DecidableEq

inductive EntryChange
  | removed
  | type
  | modification
  | submoduleModification
deriving DecidableEq

inductive EntryStatus
  | conflict
  | change (change : EntryChange)
  | needsUpdate
  | intentToAdd
deriving DecidableEq

/-- How the index differs from the tree. -/
inductive IndexChange
  | addition (location : List UInt8)
  | deletion (location : List UInt8)
  | modification (location : List UInt8)
  | rewrite (sourceLocation location : List UInt8)

inductive RewriteSource
  | rewriteFromIndex (sourceRelaPath : List UInt8)
  | copyFromDirectoryEntry (relaPath : List UInt8)

/-- How the working tree differs from the index. -/
inductive WorktreeItem
  | modification (relaPath : List UInt8) (status : EntryStatus)
  | directoryContents (relaPath : List UInt8) (status : DirEntryStatus)
      (diskKind : Option DirEntryKind)
  | rewrite (source : RewriteSource) (relaPath : List UInt8)

inductive StatusItem
  | treeIndex (change : IndexChange)
  | indexWorktree (item : WorktreeItem)

def RewriteSource.path : RewriteSource → List UInt8
  | rewriteFromIndex sourceRelaPath => sourceRelaPath
  | copyFromDirectoryEntry relaPath => relaPath

def foldStatusItem : StatusItem → Option FoldedStatus
  | .treeIndex (.addition location) => some ⟨location, none, .added⟩
  | .treeIndex (.deletion location) => some ⟨location, none, .deleted⟩
  | .treeIndex (.modification location) => some ⟨location, none, .modified⟩
  | .treeIndex (.rewrite sourceLocation location) =>
      some ⟨location, some sourceLocation, .renamed⟩
  | .indexWorktree (.modification relaPath status) =>
      match status with
      | .conflict => some ⟨relaPath, none, .conflicted⟩
      | .change .removed => some ⟨relaPath, none, .deleted⟩
      | .change _ => some ⟨relaPath, none, .modified⟩
      | .intentToAdd => some ⟨relaPath, none, .added⟩
      | .needsUpdate => none
  | .indexWorktree (.directoryContents relaPath status diskKind) =>
      if status ≠ .untracked ∨ ¬ (diskKind = some .file ∨ diskKind = some .symlink) then none
      else some ⟨relaPath, none, .untracked⟩
  | .indexWorktree (.rewrite source relaPath) => some ⟨relaPath, some source.path, .renamed⟩

/-! ## The order of paths -/

def componentKey : Component → List ℕ
  | .curDir => [0]
  | .parentDir => [1]
  | .normal name => 2 :: name.map Char.toNat

theorem compareLex_eq (left right : List Char) :
    compareComponents.compareLex left right =
      compare (left.map Char.toNat) (right.map Char.toNat) := by
  induction left generalizing right with
  | nil => cases right <;> rfl
  | cons first left induction =>
      cases right with
      | nil => rfl
      | cons second right =>
          rw [compareComponents.compareLex, induction, List.map_cons, List.map_cons,
            List.compare_cons_cons]

theorem compareComponents_eq (left right : Component) :
    compareComponents left right = compare (componentKey left) (componentKey right) := by
  cases left with
  | curDir => cases right <;> rfl
  | parentDir => cases right <;> rfl
  | normal left =>
      cases right with
      | curDir | parentDir => rfl
      | normal right =>
          rw [compareComponents, compareLex_eq, componentKey, componentKey,
            List.compare_cons_cons]
          rfl

theorem comparePaths_eq (left right : RelativePathBuf) :
    comparePaths left right =
      compare (left.components.map componentKey) (right.components.map componentKey) := by
  have components : ∀ lefts rights : List Component, comparePaths.go lefts rights =
      compare (lefts.map componentKey) (rights.map componentKey) := by
    intro lefts
    induction lefts with
    | nil => intro rights; cases rights <;> rfl
    | cons first lefts induction =>
        intro rights
        cases rights with
        | nil => rfl
        | cons second rights =>
            rw [comparePaths.go, induction, compareComponents_eq, List.map_cons, List.map_cons,
              List.compare_cons_cons]
  exact components _ _

instance : Std.TransCmp comparePaths where
  eq_swap := by
    intro left right
    rw [comparePaths_eq, comparePaths_eq]
    exact Std.OrientedOrd.eq_swap
  isLE_trans := by
    intro first second third
    rw [comparePaths_eq, comparePaths_eq, comparePaths_eq]
    exact Std.TransOrd.isLE_trans

theorem comparePaths_self (path : RelativePathBuf) : comparePaths path path = .eq :=
  Std.ReflCmp.compare_self

/-! ## The folded map -/

/-- The entry of a path. -/
def findEntry (path : RelativePathBuf) (entries : List GitChangeEntry) : Option GitChangeEntry :=
  SortedMap.find comparePaths GitChangeEntry.path path entries

def SortedEntries (entries : List GitChangeEntry) : Prop :=
  SortedMap.Sorted comparePaths GitChangeEntry.path entries

theorem alterEntry_eq (path : RelativePathBuf)
    (change : Option GitChangeEntry → Option GitChangeEntry) (entries : List GitChangeEntry) :
    alterEntry path change entries =
      SortedMap.alter comparePaths GitChangeEntry.path path change entries := by
  induction entries with
  | nil => rfl
  | cons entry rest induction =>
      unfold alterEntry SortedMap.alter
      cases comparePaths path entry.path with
      | lt => rfl
      | eq => rfl
      | gt => exact congrArg (entry :: ·) induction

theorem keeps_foldStatus (path : RelativePathBuf) (oldPath : Option RelativePathBuf)
    (status : GitChangeStatus) :
    SortedMap.Keeps comparePaths GitChangeEntry.path path (foldStatus path oldPath status) := by
  intro old new atPath folded
  cases old with
  | none =>
      rw [← Option.some.inj folded]
      exact comparePaths_self path
  | some entry =>
      have same := atPath entry rfl
      simp only [foldStatus] at folded
      split at folded
      · cases folded
      · cases folded
      · split_ifs at folded
        · rw [← Option.some.inj folded]
          exact same
        · rw [← Option.some.inj folded]
          exact same

theorem sorted_foldItem {folded : List GitChangeEntry} (sorted : SortedEntries folded)
    (item : FoldedStatus) : SortedEntries (foldItem folded item) := by
  unfold foldItem
  rw [alterEntry_eq]
  exact SortedMap.sorted_alter (keeps_foldStatus _ _ _) sorted

theorem sorted_foldl {items : List FoldedStatus} {folded : List GitChangeEntry}
    (sorted : SortedEntries folded) : SortedEntries (items.foldl foldItem folded) := by
  induction items generalizing folded with
  | nil => exact sorted
  | cons item items induction => exact induction (sorted_foldItem sorted item)

/-- An item changes the entry of its own path. -/
theorem findEntry_foldItem {folded : List GitChangeEntry} (sorted : SortedEntries folded)
    (item : FoldedStatus) (path : RelativePathBuf) :
    findEntry path (foldItem folded item) =
      if comparePaths path (gitPath item.path) = .eq then
        foldStatus (gitPath item.path) (item.oldPath.map gitPath) item.status
          (findEntry (gitPath item.path) folded)
      else findEntry path folded := by
  unfold foldItem
  rw [alterEntry_eq]
  exact SortedMap.find_alter (keeps_foldStatus _ _ _) sorted

/-! ## What a listing is about -/

/-- A tree, an index and a working tree. No two names in them read as one path. -/
structure Repository (Content : Type*) where
  tree : List UInt8 → Option Content
  index : List UInt8 → Option Content
  worktree : List UInt8 → Option Content
  distinct : ∀ first second,
    (tree first ≠ none ∨ index first ≠ none ∨ worktree first ≠ none) →
    (tree second ≠ none ∨ index second ≠ none ∨ worktree second ≠ none) →
    comparePaths (gitPath first) (gitPath second) = .eq → first = second

namespace Repository

variable {Content : Type*} (repository : Repository Content)

def Present (name : List UInt8) : Prop :=
  repository.tree name ≠ none ∨ repository.index name ≠ none ∨ repository.worktree name ≠ none

/-- The item of a name whose tree and index differ. -/
inductive TreeItem : List UInt8 → StatusItem → Prop
  | addition {name : List UInt8} {new : Content} (treeLacks : repository.tree name = none)
      (indexHas : repository.index name = some new) :
      TreeItem name (.treeIndex (.addition name))
  | deletion {name : List UInt8} {old : Content} (treeHas : repository.tree name = some old)
      (indexLacks : repository.index name = none) :
      TreeItem name (.treeIndex (.deletion name))
  | modification {name : List UInt8} {old new : Content}
      (treeHas : repository.tree name = some old) (indexHas : repository.index name = some new)
      (differ : old ≠ new) :
      TreeItem name (.treeIndex (.modification name))

/-- The item of a name whose index and working tree differ. -/
inductive IndexItem : List UInt8 → StatusItem → Prop
  | modification {name : List UInt8} {old new : Content} {change : EntryChange}
      (indexHas : repository.index name = some old)
      (worktreeHas : repository.worktree name = some new) (differ : old ≠ new)
      (present : change ≠ .removed) :
      IndexItem name (.indexWorktree (.modification name (.change change)))
  | removal {name : List UInt8} {old : Content} (indexHas : repository.index name = some old)
      (worktreeLacks : repository.worktree name = none) :
      IndexItem name (.indexWorktree (.modification name (.change .removed)))
  | untracked {name : List UInt8} {new : Content} {kind : DirEntryKind}
      (indexLacks : repository.index name = none)
      (worktreeHas : repository.worktree name = some new)
      (kept : kind = .file ∨ kind = .symlink) :
      IndexItem name (.indexWorktree (.directoryContents name .untracked (some kind)))

/-- The items are those of all names that have one, once each and in any order. -/
def Lists (gives : List UInt8 → StatusItem → Prop) (items : List StatusItem) : Prop :=
  ∃ names : List (List UInt8), names.Nodup ∧ List.Forall₂ gives names items ∧
    ∀ name item, gives name item → name ∈ names

/-- The status says how the working tree differs from the tree. -/
def Net (name : List UInt8) (status : Option GitChangeStatus) : Prop :=
  match repository.tree name, repository.worktree name with
  | none, none => status = none
  | none, some _ => status = some .added ∨ status = some .untracked
  | some _, none => status = some .deleted
  | some old, some new => (old = new → status = none) ∧ (old ≠ new → status = some .modified)

/-- The index hides what became of the name: it no longer has it though both sides do, or has
other content than both while they have the same. -/
def Hidden (name : List UInt8) : Prop :=
  ∃ old new, repository.tree name = some old ∧ repository.worktree name = some new ∧
    (repository.index name = none ∨
      old = new ∧ ∃ staged, repository.index name = some staged ∧ staged ≠ old)

/-- The listing has an entry for the name. -/
def Noted (name : List UInt8) : Prop :=
  repository.tree name ≠ repository.worktree name ∨ repository.Hidden name

end Repository

namespace GitChanges

/-- The status that a listing has for a name. -/
def statusOf (changes : GitChanges) (name : List UInt8) : Option GitChangeStatus :=
  (findEntry (gitPath name) changes.entries).map GitChangeEntry.status

/-- The listing was not cut before the name. -/
def Reaches (changes : GitChanges) (name : List UInt8) : Prop :=
  changes.truncated = false ∨
    ∃ entry ∈ changes.entries, (comparePaths (gitPath name) entry.path).isLE = true

end GitChanges

/-! ## Items of one side -/

section Sides

variable {Content : Type*} {repository : Repository Content}

/-- Each name of a side has at most one item, and that tells of nothing else. -/
structure Side (repository : Repository Content) (gives : List UInt8 → StatusItem → Prop)
    (expected : List UInt8 → Option GitChangeStatus) : Prop where
  folds : ∀ {name item}, gives name item →
    ∃ status, expected name = some status ∧ foldStatusItem item = some ⟨name, none, status⟩
  some : ∀ {name status}, expected name = some status → ∃ item, gives name item
  present : ∀ {name item}, gives name item → repository.Present name

open Classical in
/-- What the comparison of tree and index says of a name. -/
noncomputable def treeStatus (repository : Repository Content) (name : List UInt8) :
    Option GitChangeStatus :=
  match repository.tree name, repository.index name with
  | none, none => none
  | none, some _ => some .added
  | some _, none => some .deleted
  | some old, some new => if old = new then none else some .modified

open Classical in
/-- What the comparison of index and working tree says of it. -/
noncomputable def indexStatus (repository : Repository Content) (name : List UInt8) :
    Option GitChangeStatus :=
  match repository.index name, repository.worktree name with
  | none, none => none
  | none, some _ => some .untracked
  | some _, none => some .deleted
  | some old, some new => if old = new then none else some .modified

theorem side_tree (repository : Repository Content) :
    Side repository repository.TreeItem (treeStatus repository) where
  folds := by
    intro name item gives
    cases gives with
    | addition treeLacks indexHas => exact ⟨_, by simp [treeStatus, treeLacks, indexHas], rfl⟩
    | deletion treeHas indexLacks => exact ⟨_, by simp [treeStatus, treeHas, indexLacks], rfl⟩
    | modification treeHas indexHas differ =>
        exact ⟨_, by simp [treeStatus, treeHas, indexHas, differ], rfl⟩
  some := by
    intro name status expected
    unfold treeStatus at expected
    cases tree : repository.tree name with
    | none =>
        cases index : repository.index name with
        | none => simp [tree, index] at expected
        | some new => exact ⟨_, .addition tree index⟩
    | some old =>
        cases index : repository.index name with
        | none => exact ⟨_, .deletion tree index⟩
        | some new =>
            refine ⟨_, .modification tree index ?_⟩
            rintro rfl
            simp [tree, index] at expected
  present := by
    intro name item gives
    cases gives with
    | addition treeLacks indexHas => exact .inr (.inl (by simp [indexHas]))
    | deletion treeHas indexLacks => exact .inl (by simp [treeHas])
    | modification treeHas indexHas differ => exact .inl (by simp [treeHas])

theorem side_index (repository : Repository Content) :
    Side repository repository.IndexItem (indexStatus repository) where
  folds := by
    intro name item gives
    cases gives with
    | @modification _ _ change indexHas worktreeHas differ present =>
        refine ⟨.modified, by simp [indexStatus, indexHas, worktreeHas, differ], ?_⟩
        cases change with
        | removed => exact absurd rfl present
        | type | modification | submoduleModification => rfl
    | removal indexHas worktreeLacks =>
        exact ⟨_, by simp [indexStatus, indexHas, worktreeLacks], rfl⟩
    | untracked indexLacks worktreeHas kept =>
        refine ⟨.untracked, by simp [indexStatus, indexLacks, worktreeHas], ?_⟩
        rcases kept with rfl | rfl <;> rfl
  some := by
    intro name status expected
    unfold indexStatus at expected
    cases index : repository.index name with
    | none =>
        cases worktree : repository.worktree name with
        | none => simp [index, worktree] at expected
        | some new => exact ⟨_, .untracked index worktree (.inl rfl)⟩
    | some old =>
        cases worktree : repository.worktree name with
        | none => exact ⟨_, .removal index worktree⟩
        | some new =>
            refine ⟨_, @Repository.IndexItem.modification _ repository name _ _ .modification index
              worktree ?_ nofun⟩
            rintro rfl
            simp [index, worktree] at expected
  present := by
    intro name item gives
    cases gives with
    | modification indexHas _ _ _ => exact .inr (.inl (by simp [indexHas]))
    | removal indexHas _ => exact .inr (.inl (by simp [indexHas]))
    | untracked _ worktreeHas _ => exact .inr (.inr (by simp [worktreeHas]))

/-- What a side does to the entry of a name. -/
noncomputable def applied (name : List UInt8) (status : Option GitChangeStatus)
    (entry : Option GitChangeEntry) : Option GitChangeEntry :=
  match status with
  | none => entry
  | some status => foldStatus (gitPath name) none status entry

/-- The items of a side change the entry of each name once. -/
theorem findEntry_side {gives : List UInt8 → StatusItem → Prop}
    {expected : List UInt8 → Option GitChangeStatus} (side : Side repository gives expected)
    {items : List StatusItem} (lists : Repository.Lists gives items)
    {folded : List GitChangeEntry} (sorted : SortedEntries folded) {name : List UInt8}
    (present : repository.Present name) :
    findEntry (gitPath name) ((items.filterMap foldStatusItem).foldl foldItem folded) =
      applied name (expected name) (findEntry (gitPath name) folded) := by
  rcases lists with ⟨names, nodup, pairs, complete⟩
  have once : findEntry (gitPath name) ((items.filterMap foldStatusItem).foldl foldItem folded) =
      if name ∈ names then applied name (expected name) (findEntry (gitPath name) folded)
      else findEntry (gitPath name) folded := by
    clear complete
    induction pairs generalizing folded with
    | nil => rfl
    | @cons other item names items given pairs induction =>
        rcases side.folds given with ⟨status, isExpected, folds⟩
        rw [List.nodup_cons] at nodup
        rw [List.filterMap_cons, folds]
        dsimp only
        rw [List.foldl_cons, induction (sorted_foldItem sorted _) nodup.2,
          findEntry_foldItem sorted]
        by_cases same : name = other
        · subst same
          rw [if_neg nodup.1, if_pos (comparePaths_self _), if_pos List.mem_cons_self,
            isExpected]
          rfl
        · have apart : comparePaths (gitPath name) (gitPath other) ≠ .eq :=
            fun eq => same (repository.distinct name other present (side.present given) eq)
          rw [if_neg apart]
          simp [same]
  rw [once]
  split_ifs with contained
  · rfl
  · cases isExpected : expected name with
    | none => rfl
    | some status =>
        rcases side.some isExpected with ⟨item, given⟩
        exact absurd (complete name item given) contained

/-! ## The entry of a name -/

/-- The status that two items of one path fold into. -/
def combined : Option GitChangeStatus → Option GitChangeStatus → Option GitChangeStatus
  | none, later => later
  | some first, none => some first
  | some .added, some .deleted | some .deleted, some .added => none
  | some first, some later => if statusRank first < statusRank later then some later else some first

theorem status_applied (name : List UInt8) (first later : Option GitChangeStatus) :
    (applied name later (applied name first none)).map GitChangeEntry.status =
      combined first later := by
  cases first with
  | none => cases later <;> rfl
  | some first =>
      cases later with
      | none => rfl
      | some later => cases first <;> cases later <;> rfl

theorem net_combined_iff (repository : Repository Content) (name : List UInt8) :
    repository.Net name (combined (treeStatus repository name) (indexStatus repository name)) ↔
      ¬ repository.Hidden name := by
  unfold Repository.Net Repository.Hidden
  cases tree : repository.tree name with
  | none =>
      cases index : repository.index name with
      | none =>
          cases worktree : repository.worktree name <;>
            simp [treeStatus, indexStatus, tree, index, worktree, combined]
      | some staged =>
          cases worktree : repository.worktree name with
          | none => simp [treeStatus, indexStatus, tree, index, worktree, combined]
          | some new =>
              by_cases kept : staged = new <;>
                simp [treeStatus, indexStatus, tree, index, worktree, combined, kept, statusRank]
  | some old =>
      cases index : repository.index name with
      | none =>
          cases worktree : repository.worktree name with
          | none => simp [treeStatus, indexStatus, tree, index, worktree, combined]
          | some new =>
              by_cases same : old = new <;>
                simp [treeStatus, indexStatus, tree, index, worktree, combined, same, statusRank]
      | some staged =>
          by_cases same : old = staged
          · subst same
            cases worktree : repository.worktree name with
            | none => simp [treeStatus, indexStatus, tree, index, worktree, combined]
            | some new =>
                by_cases kept : old = new <;>
                  simp [treeStatus, indexStatus, tree, index, worktree, combined, kept]
          · have first : treeStatus repository name = some .modified := by
              simp [treeStatus, tree, index, same]
            cases worktree : repository.worktree name with
            | none => simp [first, indexStatus, index, worktree, combined, statusRank]
            | some new =>
                have shown : combined (some .modified) (indexStatus repository name) =
                    some .modified := by
                  by_cases kept : staged = new <;>
                    simp [indexStatus, index, worktree, combined, kept]
                simp only [first, shown, reduceCtorEq, implies_true, and_true]
                constructor
                · rintro differ ⟨_, _, isOld, isNew, lost | ⟨eq, -⟩⟩
                  · exact lost
                  · exact differ ((Option.some.inj isOld).trans (eq.trans (Option.some.inj isNew).symm))
                · intro visible eq
                  exact visible ⟨old, new, rfl, rfl, .inr ⟨eq, staged, rfl, Ne.symm same⟩⟩

theorem noted_iff (repository : Repository Content) (name : List UInt8) :
    repository.Noted name ↔
      combined (treeStatus repository name) (indexStatus repository name) ≠ none := by
  have net := net_combined_iff repository name
  unfold Repository.Noted
  by_cases hidden : repository.Hidden name
  · refine iff_of_true (.inr hidden) ?_
    rcases hidden with ⟨old, new, tree, worktree, lost | ⟨same, staged, index, differ⟩⟩
    · simp [treeStatus, indexStatus, tree, worktree, lost, combined, statusRank]
    · have restored : staged ≠ new := by rwa [← same]
      simp [treeStatus, indexStatus, tree, worktree, index, combined, statusRank, differ.symm,
        restored]
  · rw [or_iff_left hidden]
    have right := net.mpr hidden
    unfold Repository.Net at right
    cases tree : repository.tree name with
    | none =>
        cases worktree : repository.worktree name with
        | none => simpa [tree, worktree] using right
        | some new =>
            simp only [tree, worktree] at right
            rcases right with added | untracked
            · simp [added]
            · simp [untracked]
    | some old =>
        cases worktree : repository.worktree name with
        | none =>
            simp only [tree, worktree] at right
            simp [right]
        | some new =>
            simp only [tree, worktree] at right
            by_cases same : old = new
            · simp [same, right.1 same]
            · simp [same, right.2 same]

end Sides

/-! ## The listing -/

theorem findEntry_map_stat (path : RelativePathBuf) (stat : GitChangeEntry → Option GitDiffStat)
    (entries : List GitChangeEntry) :
    findEntry path (entries.map fun entry => { entry with stat := stat entry }) =
      (findEntry path entries).map fun entry => { entry with stat := stat entry } :=
  List.find?_map

theorem sorted_map_stat {entries : List GitChangeEntry} (sorted : SortedEntries entries)
    (stat : GitChangeEntry → Option GitDiffStat) :
    SortedEntries (entries.map fun entry => { entry with stat := stat entry }) :=
  List.pairwise_map.mpr sorted

/-- What a cut reaches is found as in the whole. -/
theorem findEntry_take {entries : List GitChangeEntry} (sorted : SortedEntries entries)
    {path : RelativePathBuf} {count : ℕ} {last : GitChangeEntry}
    (kept : last ∈ entries.take count) (reaches : (comparePaths path last.path).isLE = true) :
    findEntry path (entries.take count) = findEntry path entries := by
  have split := List.take_append_drop count entries
  have apart := sorted
  unfold SortedEntries SortedMap.Sorted at apart
  rw [← split, List.pairwise_append] at apart
  have behind : findEntry path (entries.drop count) = none := by
    refine SortedMap.find_eq_none fun entry contained => ?_
    have less := apart.2.2 last kept entry contained
    rw [Std.TransCmp.lt_of_isLE_of_lt reaches less]
    nofun
  unfold findEntry SortedMap.find at behind ⊢
  conv_rhs => rw [← split]
  rw [List.find?_append, behind, Option.or_none]

section Listing

variable {Content : Type*} {repository : Repository Content} {treeItems indexItems : List StatusItem}

theorem findEntry_listed (tree : Repository.Lists repository.TreeItem treeItems)
    (index : Repository.Lists repository.IndexItem indexItems) {name : List UInt8}
    (present : repository.Present name) :
    findEntry (gitPath name)
        (((treeItems ++ indexItems).filterMap foldStatusItem).foldl foldItem []) =
      applied name (indexStatus repository name) (applied name (treeStatus repository name) none) := by
  have empty : SortedEntries [] := SortedMap.sorted_nil
  rw [List.filterMap_append, List.foldl_append,
    findEntry_side (side_index repository) index (sorted_foldl empty) present,
    findEntry_side (side_tree repository) tree empty present]
  rfl

theorem gives_of_mem {gives : List UInt8 → StatusItem → Prop} {items : List StatusItem}
    (lists : Repository.Lists gives items) {item : StatusItem} (contained : item ∈ items) :
    ∃ name, gives name item := by
  rcases lists with ⟨names, -, pairs, -⟩
  induction pairs with
  | nil => cases contained
  | @cons name first _ _ given _ induction =>
      rcases List.mem_cons.mp contained with rfl | later
      · exact ⟨name, given⟩
      · exact induction later

/-- Every entry is that of a name the repository has. -/
theorem entry_present (tree : Repository.Lists repository.TreeItem treeItems)
    (index : Repository.Lists repository.IndexItem indexItems) {entry : GitChangeEntry}
    (contained : entry ∈ ((treeItems ++ indexItems).filterMap foldStatusItem).foldl foldItem []) :
    ∃ name, repository.Present name ∧ entry.path = gitPath name := by
  have named := @foldl_foldItem_named
    (((treeItems ++ indexItems).filterMap foldStatusItem).flatMap FoldedStatus.names)
    ((treeItems ++ indexItems).filterMap foldStatusItem) []
    (fun item contained name inItem => List.mem_flatMap.mpr ⟨item, contained, inItem⟩) (by simp)
  rcases (named entry contained).1 with ⟨name, listed, path⟩
  refine ⟨name, ?_, path⟩
  rcases List.mem_flatMap.mp listed with ⟨folded, inFolded, inNames⟩
  rcases List.mem_filterMap.mp inFolded with ⟨item, inItems, folds⟩
  have ofSide : ∀ {gives : List UInt8 → StatusItem → Prop}
      {expected : List UInt8 → Option GitChangeStatus} {items : List StatusItem},
      Side repository gives expected → Repository.Lists gives items → item ∈ items →
        repository.Present name := by
    intro gives expected items side lists inSide
    rcases gives_of_mem lists inSide with ⟨other, given⟩
    rcases side.folds given with ⟨status, -, expectedFold⟩
    rw [folds, Option.some_inj] at expectedFold
    subst expectedFold
    simp only [FoldedStatus.names, Option.toList_none, List.mem_singleton] at inNames
    rw [inNames]
    exact side.present given
  rcases List.mem_append.mp inItems with inTree | inIndex
  · exact ofSide (side_tree repository) tree inTree
  · exact ofSide (side_index repository) index inIndex

theorem find_isSome_iff (tree : Repository.Lists repository.TreeItem treeItems)
    (index : Repository.Lists repository.IndexItem indexItems) {name : List UInt8}
    (present : repository.Present name) :
    findEntry (gitPath name)
        (((treeItems ++ indexItems).filterMap foldStatusItem).foldl foldItem []) ≠ none ↔
      repository.Noted name := by
  rw [noted_iff, findEntry_listed tree index present, ← status_applied name]
  cases applied name (indexStatus repository name) (applied name (treeStatus repository name) none)
    <;> simp

theorem present_of_noted {name : List UInt8} (noted : repository.Noted name) :
    repository.Present name := by
  rcases noted with differ | ⟨old, new, tree, -⟩
  · by_contra absent
    simp only [Repository.Present, not_or, ne_eq, not_not] at absent
    rw [absent.1, absent.2.2] at differ
    exact differ rfl
  · exact .inl (by simp [tree])

/-- As many entries as names that are noted. -/
theorem length_listed (tree : Repository.Lists repository.TreeItem treeItems)
    (index : Repository.Lists repository.IndexItem indexItems) {noted : List (List UInt8)}
    (nodup : noted.Nodup) (exact : ∀ name, name ∈ noted ↔ repository.Noted name) :
    (((treeItems ++ indexItems).filterMap foldStatusItem).foldl foldItem []).length =
      noted.length := by
  have sorted : SortedEntries
      (((treeItems ++ indexItems).filterMap foldStatusItem).foldl foldItem []) :=
    sorted_foldl SortedMap.sorted_nil
  have entriesNodup : ((((treeItems ++ indexItems).filterMap foldStatusItem).foldl foldItem []).map
      GitChangeEntry.path).Nodup := by
    rw [List.Nodup, List.pairwise_map]
    refine sorted.imp ?_
    intro first second less same
    rw [same, comparePaths_self] at less
    cases less
  have pathsNodup : (noted.map gitPath).Nodup := by
    refine nodup.map_on ?_
    intro first inNoted second alsoNoted same
    refine repository.distinct first second (present_of_noted ((exact first).mp inNoted))
      (present_of_noted ((exact second).mp alsoNoted)) ?_
    rw [same]
    exact comparePaths_self _
  have perm := (List.perm_ext_iff_of_nodup entriesNodup pathsNodup).mpr ?_
  · have length := perm.length_eq
    rwa [List.length_map, List.length_map] at length
  intro path
  rw [List.mem_map, List.mem_map]
  constructor
  · rintro ⟨entry, contained, rfl⟩
    rcases entry_present tree index contained with ⟨name, present, path⟩
    refine ⟨name, (exact name).mpr ((find_isSome_iff tree index present).mp ?_), path.symm⟩
    have found := SortedMap.find_of_mem sorted contained
      (show comparePaths (gitPath name) entry.path = .eq by
        rw [path]
        exact comparePaths_self _)
    unfold findEntry
    rw [found]
    nofun
  · rintro ⟨name, inNoted, rfl⟩
    have isNoted := (exact name).mp inNoted
    have present := present_of_noted isNoted
    rcases Option.ne_none_iff_exists'.mp ((find_isSome_iff tree index present).mpr isNoted) with
      ⟨entry, found⟩
    rcases SortedMap.find_eq_some found with ⟨contained, same⟩
    rcases entry_present tree index contained with ⟨other, otherPresent, path⟩
    rw [path] at same
    obtain rfl := repository.distinct name other present otherPresent same
    exact ⟨entry, contained, path⟩

/-- The listing says of exactly the names that the index does not hide how the working tree
differs from the tree. -/
theorem listed_net_iff (tree : Repository.Lists repository.TreeItem treeItems)
    (index : Repository.Lists repository.IndexItem indexItems)
    (stat : GitChangeEntry → Option GitDiffStat) :
    ∃ changes, listed (.ok stat) ((treeItems ++ indexItems).filterMap foldStatusItem) =
        .ok changes ∧
      SortedEntries changes.entries ∧
      (∀ entry ∈ changes.entries,
        ∃ name, repository.Present name ∧ entry.path = gitPath name) ∧
      (∀ noted : List (List UInt8), noted.Nodup →
        (∀ name, name ∈ noted ↔ repository.Noted name) →
          changes.truncated = decide (maxGitChanges < noted.length) ∧
            changes.entries.length = min maxGitChanges noted.length) ∧
      ∀ name, repository.Present name → changes.Reaches name →
        (repository.Net name (changes.statusOf name) ↔ ¬ repository.Hidden name) := by
  have sorted : SortedEntries
      (((treeItems ++ indexItems).filterMap foldStatusItem).foldl foldItem []) :=
    sorted_foldl SortedMap.sorted_nil
  have sortedTake : SortedEntries ((((treeItems ++ indexItems).filterMap foldStatusItem).foldl
      foldItem []).take maxGitChanges) :=
    sorted.sublist (List.take_sublist _ _)
  have presentTake : ∀ entry ∈ (((treeItems ++ indexItems).filterMap foldStatusItem).foldl
      foldItem []).take maxGitChanges,
      ∃ name, repository.Present name ∧ entry.path = gitPath name :=
    fun entry contained => entry_present tree index (List.mem_of_mem_take contained)
  have status : ∀ name, repository.Present name →
      (repository.Net name ((findEntry (gitPath name)
        (((treeItems ++ indexItems).filterMap foldStatusItem).foldl foldItem [])).map
          GitChangeEntry.status) ↔ ¬ repository.Hidden name) := by
    intro name present
    rw [findEntry_listed tree index present, status_applied]
    exact net_combined_iff repository name
  unfold listed
  by_cases many : maxGitChanges <
      (((treeItems ++ indexItems).filterMap foldStatusItem).foldl foldItem []).length
  · simp only [many, decide_true, if_true]
    refine ⟨_, rfl, sortedTake, presentTake, ?_, ?_⟩
    · intro noted nodup exact
      rw [← length_listed tree index nodup exact, List.length_take, decide_eq_true many]
      exact ⟨rfl, rfl⟩
    · rintro name present (whole | ⟨last, kept, reaches⟩)
      · cases whole
      · rw [GitChanges.statusOf, findEntry_take sorted kept reaches]
        exact status name present
  · have whole : (((treeItems ++ indexItems).filterMap foldStatusItem).foldl foldItem []).take
        maxGitChanges = ((treeItems ++ indexItems).filterMap foldStatusItem).foldl foldItem [] :=
      List.take_of_length_le (by omega)
    simp only [many, decide_false, Bool.false_eq_true, if_false, whole]
    refine ⟨_, rfl, sorted_map_stat sorted stat, ?_, ?_, ?_⟩
    · intro entry contained
      rcases List.mem_map.mp contained with ⟨old, inOld, rfl⟩
      rcases entry_present tree index inOld with ⟨name, present, path⟩
      exact ⟨name, present, path⟩
    · intro noted nodup exact
      rw [← length_listed tree index nodup exact, List.length_map, decide_eq_false many]
      exact ⟨rfl, by omega⟩
    · intro name present _
      rw [GitChanges.statusOf, findEntry_map_stat, Option.map_map]
      exact status name present

end Listing

/-- One file, with what each of the three has of it. -/
def Repository.single (name : List UInt8) (tree index worktree : Option ℕ) : Repository ℕ where
  tree := fun other => if other = name then tree else none
  index := fun other => if other = name then index else none
  worktree := fun other => if other = name then worktree else none
  distinct := by
    intro first second firstPresent secondPresent _
    by_cases isFirst : first = name
    · by_cases isSecond : second = name
      · rw [isFirst, isSecond]
      · simp [isSecond] at secondPresent
    · simp [isFirst] at firstPresent

theorem Repository.lists_single {name : List UInt8} {tree index worktree : Option ℕ}
    {gives : List UInt8 → StatusItem → Prop} {expected : List UInt8 → Option GitChangeStatus}
    (side : Side (Repository.single name tree index worktree) gives expected) {item : StatusItem}
    (given : gives name item) : Repository.Lists gives [item] := by
  refine ⟨[name], List.nodup_singleton name, .cons given .nil, ?_⟩
  intro other otherItem otherGiven
  have present := side.present otherGiven
  by_contra differs
  rw [List.mem_singleton] at differs
  simp [Repository.Present, Repository.single, differs] at present

/-- A staged change whose file is gone. -/
theorem listed_net_iff_gone :
    ∃ changes, listed (.ok fun _ => none)
        (([.treeIndex (.modification [97])] ++
          [.indexWorktree (.modification [97] (.change .removed))] : List StatusItem).filterMap
            foldStatusItem) = .ok changes ∧
      SortedEntries changes.entries ∧
      (∀ entry ∈ changes.entries, ∃ name,
        (Repository.single [97] (some 1) (some 2) none).Present name ∧
          entry.path = gitPath name) ∧
      (∀ noted : List (List UInt8), noted.Nodup →
        (∀ name, name ∈ noted ↔ (Repository.single [97] (some 1) (some 2) none).Noted name) →
          changes.truncated = decide (maxGitChanges < noted.length) ∧
            changes.entries.length = min maxGitChanges noted.length) ∧
      ∀ name, (Repository.single [97] (some 1) (some 2) none).Present name →
        changes.Reaches name →
          ((Repository.single [97] (some 1) (some 2) none).Net name (changes.statusOf name) ↔
            ¬ (Repository.single [97] (some 1) (some 2) none).Hidden name) :=
  listed_net_iff (Repository.lists_single (side_tree _) (.modification rfl rfl (by decide)))
    (Repository.lists_single (side_index _) (.removal rfl rfl)) _

/-- A file that was removed from the index and kept on disk has not changed, and is listed as
deleted. -/
theorem kept_file_deleted :
    ¬ ∀ (repository : Repository ℕ) (treeItems indexItems : List StatusItem) (changes : GitChanges),
      Repository.Lists repository.TreeItem treeItems →
      Repository.Lists repository.IndexItem indexItems →
      listed (.ok fun _ => none) ((treeItems ++ indexItems).filterMap foldStatusItem) =
        .ok changes →
      ∀ name, repository.Present name → changes.Reaches name →
        repository.Net name (changes.statusOf name) := by
  intro claim
  have net := claim (Repository.single [97] (some 1) none (some 1)) [.treeIndex (.deletion [97])]
    [.indexWorktree (.directoryContents [97] .untracked (some .file))]
    ⟨[⟨gitPath [97], none, .deleted, none⟩], false⟩
    (Repository.lists_single (side_tree _) (.deletion rfl rfl))
    (Repository.lists_single (side_index _) (.untracked rfl rfl (.inl rfl))) (by decide) [97]
    (.inl (by decide)) (.inl rfl)
  have shown : GitChanges.statusOf ⟨[⟨gitPath [97], none, .deleted, none⟩], false⟩ [97] =
      some .deleted := by decide
  rw [shown] at net
  cases net.1 rfl

end Condr
