import Condr.Git.NetChanges
import Mathlib.Data.List.Sort

/-!
# The tree of changed files

The changed files as a directory tree, the way the Changes view and the History draw them: a
directory that holds nothing but one directory folds into it, files come after directories, and
both sort by name.
-/

namespace Condr.ChangeTree

/-- Text is ordered by its bytes, which for UTF-8 is the order of the characters. -/
def compareNames (left right : String) : Ordering :=
  compareComponents.compareLex left.toList right.toList

/-- `Component::as_str`. -/
def asStr : Component → String
  | .curDir => "."
  | .parentDir => ".."
  | .normal name => String.ofList name

inductive Builder where
  | mk (directories : List (String × Builder)) (files : List (String × GitChangeEntry))

namespace Builder

def directories : Builder → List (String × Builder)
  | mk directories _ => directories

def files : Builder → List (String × GitChangeEntry)
  | mk _ files => files

def empty : Builder := mk [] []

def insert : Builder → List String → GitChangeEntry → Builder
  | builder, [], _ => builder
  | mk directories files, [name], entry => mk directories (files ++ [(name, entry)])
  | mk directories files, directory :: rest, entry =>
      mk
        (SortedMap.alter compareNames Prod.fst directory
          (fun old => some (directory, ((old.map Prod.snd).getD empty).insert rest entry))
          directories)
        files

end Builder

inductive ChangeNode where
  /-- The label is the folded segments joined with `/`. -/
  | directory (label : String) (path : RelativePathBuf) (children : List ChangeNode)
  | file (name : String) (entry : GitChangeEntry)

def fileNodes (files : List (String × GitChangeEntry)) : List ChangeNode :=
  (files.mergeSort fun left right => (compareNames left.1 right.1).isLE).map fun file =>
    .file file.1 file.2

mutual

/-- The rows of the directories of a builder. -/
def finishDirectories : List (String × Builder) → RelativePathBuf → List ChangeNode
  | [], _ => []
  | (name, child) :: rest, parent =>
      finishChain child name (parent.join ⟨name⟩) :: finishDirectories rest parent

/-- A chain of lone directories is one row. -/
def finishChain : Builder → String → RelativePathBuf → ChangeNode
  | .mk [(nextName, next)] [], label, path =>
      finishChain next (label ++ "/" ++ nextName) (path.join ⟨nextName⟩)
  | .mk directories files, label, path =>
      .directory label path (finishDirectories directories path ++ fileNodes files)

end

def finish (builder : Builder) (parent : RelativePathBuf) : List ChangeNode :=
  finishDirectories builder.directories parent ++ fileNodes builder.files

def changeTree (entries : List GitChangeEntry) : List ChangeNode :=
  finish
    (entries.foldl
      (fun root entry => root.insert (entry.path.components.map asStr) entry) Builder.empty)
    ⟨""⟩

/-! ## Rows -/

inductive TreeRow where
  | directory (label : String) (path : RelativePathBuf) (depth : ℕ) (folded : Bool)
  | file (name : String) (entry : GitChangeEntry) (depth : ℕ)

mutual

def walk (folded : RelativePathBuf → Bool) : List ChangeNode → ℕ → List TreeRow
  | [], _ => []
  | node :: rest, depth => walkNode folded node depth ++ walk folded rest depth

def walkNode (folded : RelativePathBuf → Bool) : ChangeNode → ℕ → List TreeRow
  | .directory label path children, depth =>
      .directory label path depth (folded path) ::
        if folded path then [] else walk folded children (depth + 1)
  | .file name entry, depth => [.file name entry depth]

end

def treeRows (entries : List GitChangeEntry) (folded : RelativePathBuf → Bool) : List TreeRow :=
  walk folded (changeTree entries) 0

/-! ## Names -/

theorem compareNames_eq (left right : String) :
    compareNames left right =
      compare (left.toList.map Char.toNat) (right.toList.map Char.toNat) :=
  compareLex_eq left.toList right.toList

instance : Std.TransCmp compareNames where
  eq_swap := by
    intro left right
    rw [compareNames_eq, compareNames_eq]
    exact Std.OrientedOrd.eq_swap
  isLE_trans := by
    intro first second third
    rw [compareNames_eq, compareNames_eq, compareNames_eq]
    exact Std.TransOrd.isLE_trans

theorem toNat_injective : Function.Injective Char.toNat :=
  fun _ _ same => Char.ext (UInt32.toNat_inj.mp same)

theorem eq_of_compareNames {left right : String} (same : compareNames left right = .eq) :
    left = right := by
  rw [compareNames_eq] at same
  have lists := Std.LawfulEqOrd.eq_of_compare same
  exact String.toList_inj.mp (List.map_injective_iff.mpr toNat_injective lists)

/-- The components of a text. -/
def parts (text : String) : List Component := (RelativePathBuf.mk text).components

/-- A text that is one component of a path. -/
def Name (name : String) : Prop := parts name = [.normal name.toList]

theorem plain_of_mem_splitOnPPrepend {text acc segment : List Char} (plain : '/' ∉ acc)
    (contained : segment ∈ text.splitOnPPrepend (· == '/') acc) : '/' ∉ segment := by
  induction text generalizing acc with
  | nil =>
      rw [List.splitOnPPrepend_nil] at contained
      rw [List.mem_singleton.mp contained, List.mem_reverse]
      exact plain
  | cons first rest induction =>
      rw [List.splitOnPPrepend_cons_eq_if] at contained
      split_ifs at contained with separator
      · rcases List.mem_cons.mp contained with rfl | later
        · rw [List.mem_reverse]
          exact plain
        · exact induction List.not_mem_nil later
      · apply induction _ contained
        rw [List.mem_cons, not_or]
        refine ⟨?_, plain⟩
        rintro rfl
        exact separator rfl

theorem mem_segments {text segment : List Char} (contained : segment ∈ segments text) :
    '/' ∉ segment ∧ segment ≠ [] := by
  rcases List.mem_filter.mp contained with ⟨split, some⟩
  refine ⟨plain_of_mem_splitOnPPrepend List.not_mem_nil split, ?_⟩
  rintro rfl
  cases some

/-- A normal component of a path is a name. -/
theorem name_of_component {path : RelativePathBuf} {component : Component}
    (contained : component ∈ path.components) (normal : component.isNormal = true) :
    Name (asStr component) ∧ component = .normal (asStr component).toList := by
  rcases List.mem_map.mp contained with ⟨segment, inPath, rfl⟩
  rcases mem_segments inPath with ⟨plain, some⟩
  have whole : Component.ofSegment segment = .normal segment := by
    unfold Component.ofSegment at normal ⊢
    split_ifs at normal ⊢
    · cases normal
    · cases normal
    · rfl
  refine ⟨?_, ?_⟩
  · rw [whole, asStr, Name, parts, RelativePathBuf.components, String.toList_ofList,
      segments_of_not_mem plain some, List.map_singleton, whole]
  · rw [whole, asStr, String.toList_ofList]

theorem parts_folded {label name : String} (isName : Name name) :
    parts (label ++ "/" ++ name) = parts label ++ [.normal name.toList] := by
  rw [← show parts name = [.normal name.toList] from isName]
  simp only [parts, RelativePathBuf.components, String.toList_append, ← List.map_append]
  rw [List.append_assoc, ← segments_append_separator]
  rfl

theorem components_join_name {path : RelativePathBuf} {name : String} (isName : Name name) :
    (path.join ⟨name⟩).components = path.components ++ [.normal name.toList] := by
  rw [RelativePathBuf.components_join]
  exact congrArg _ isName

/-! ## What a builder holds -/

mutual

def Builder.entries : Builder → List GitChangeEntry
  | .mk directories files => directoryEntries directories ++ files.map Prod.snd

def directoryEntries : List (String × Builder) → List GitChangeEntry
  | [] => []
  | (_, child) :: rest => child.entries ++ directoryEntries rest

end

theorem directoryEntries_eq (directories : List (String × Builder)) :
    directoryEntries directories = directories.flatMap fun directory => directory.2.entries := by
  induction directories with
  | nil => rfl
  | cons directory rest induction => rw [directoryEntries, induction, List.flatMap_cons]

/-- A builder for the files under a path: each is where its own path says, and no directory is
empty. -/
inductive Placed : List Component → Builder → Prop
  | mk {place : List Component} {directories : List (String × Builder)}
      {files : List (String × GitChangeEntry)}
      (sorted : SortedMap.Sorted compareNames Prod.fst directories)
      (names : ∀ directory ∈ directories, Name directory.1)
      (filled : ∀ directory ∈ directories, directory.2.entries ≠ [])
      (children : ∀ directory ∈ directories,
        Placed (place ++ [.normal directory.1.toList]) directory.2)
      (fileNames : ∀ file ∈ files, Name file.1)
      (filePaths : ∀ file ∈ files,
        file.2.path.components = place ++ [.normal file.1.toList]) :
      Placed place (.mk directories files)

theorem placed_empty (place : List Component) : Placed place Builder.empty :=
  .mk SortedMap.sorted_nil nofun nofun nofun nofun nofun

def normals (names : List String) : List Component := names.map fun name => .normal name.toList

/-- What `insert` does to the directory of a name. -/
def enter (directory : String) (rest : List String) (entry : GitChangeEntry)
    (old : Option (String × Builder)) : Option (String × Builder) :=
  some (directory, ((old.map Prod.snd).getD Builder.empty).insert rest entry)

theorem keeps_enter (directory : String) (rest : List String) (entry : GitChangeEntry) :
    SortedMap.Keeps compareNames Prod.fst directory (enter directory rest entry) := by
  intro old new _ entered
  rw [← Option.some.inj entered]
  exact Std.ReflCmp.compare_self

theorem insert_directory (directories : List (String × Builder))
    (files : List (String × GitChangeEntry)) (directory next : String) (rest : List String)
    (entry : GitChangeEntry) :
    (Builder.mk directories files).insert (directory :: next :: rest) entry =
      .mk (SortedMap.alter compareNames Prod.fst directory (enter directory (next :: rest) entry)
        directories) files := rfl

/-- An entry is added to those that a builder holds. -/
theorem entries_insert {names : List String} (some : names ≠ []) (builder : Builder)
    (entry : GitChangeEntry) :
    (builder.insert names entry).entries.Perm (entry :: builder.entries) := by
  induction names generalizing builder with
  | nil => exact absurd rfl some
  | cons name rest induction =>
      rcases builder with ⟨directories, files⟩
      cases rest with
      | nil =>
          rw [Builder.insert, Builder.entries, Builder.entries, List.map_append,
            ← List.append_assoc]
          exact List.perm_append_singleton entry _
      | cons next rest =>
          rw [insert_directory, Builder.entries, Builder.entries, directoryEntries_eq,
            directoryEntries_eq, ← List.cons_append]
          refine List.Perm.append_right _ ?_
          change List.Perm _ ([entry] ++ _)
          apply SortedMap.flatMap_alter
          intro old
          rw [enter, Option.toList_some, List.flatMap_singleton]
          cases old with
          | none => exact induction (List.cons_ne_nil next rest) Builder.empty
          | some old => simpa using induction (List.cons_ne_nil next rest) old.2

theorem placed_insert {place : List Component} {builder : Builder} {names : List String}
    {entry : GitChangeEntry} (placed : Placed place builder) (areNames : ∀ name ∈ names, Name name)
    (here : entry.path.components = place ++ normals names) :
    Placed place (builder.insert names entry) := by
  induction names generalizing place builder with
  | nil =>
      cases builder
      exact placed
  | cons name rest induction =>
      rcases builder with ⟨directories, files⟩
      rcases placed with ⟨sorted, names, filled, children, fileNames, filePaths⟩
      rcases List.forall_mem_cons.mp areNames with ⟨isName, others⟩
      cases rest with
      | nil =>
          refine .mk sorted names filled children ?_ ?_
          · intro file contained
            rcases List.mem_append.mp contained with old | new
            · exact fileNames file old
            · rw [List.mem_singleton.mp new]
              exact isName
          · intro file contained
            rcases List.mem_append.mp contained with old | new
            · exact filePaths file old
            · rw [List.mem_singleton.mp new]
              exact here
      | cons next rest =>
          rw [insert_directory]
          have keeps := keeps_enter name (next :: rest) entry
          refine .mk (SortedMap.sorted_alter keeps sorted) ?_ ?_ ?_ fileNames filePaths
          · intro directory contained
            rcases SortedMap.mem_alter_cases keeps sorted contained with old | new
            · exact names directory old
            · rw [← Option.some.inj new]
              exact isName
          · intro directory contained
            rcases SortedMap.mem_alter_cases keeps sorted contained with old | new
            · exact filled directory old
            · rw [← Option.some.inj new]
              intro nothing
              have more := entries_insert (List.cons_ne_nil next rest)
                (((SortedMap.find compareNames Prod.fst name directories).map Prod.snd).getD
                  Builder.empty) entry
              rw [show _ = [] from nothing] at more
              exact absurd more.symm.eq_nil (List.cons_ne_nil _ _)
          · intro directory contained
            rcases SortedMap.mem_alter_cases keeps sorted contained with old | new
            · exact children directory old
            · rw [← Option.some.inj new]
              apply induction _ others
              · rw [here, List.append_assoc]
                rfl
              · cases found : SortedMap.find compareNames Prod.fst name directories with
                | none => exact placed_empty _
                | some old =>
                    rcases SortedMap.find_eq_some found with ⟨inside, same⟩
                    rw [eq_of_compareNames same]
                    exact children old inside

end Condr.ChangeTree
