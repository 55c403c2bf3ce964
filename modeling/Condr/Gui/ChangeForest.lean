import Condr.Gui.ChangeTree

/-!
# The shape of the tree of changed files

Every node is where its path says, siblings are sorted by their first path segments with the
directories before the files, and no directory holds nothing but a directory.
-/

namespace Condr.ChangeTree

/-! ## Nodes -/

namespace ChangeNode

def isDirectory : ChangeNode → Bool
  | directory .. => true
  | file .. => false

/-- The label of a directory, or the name of a file. -/
def label : ChangeNode → String
  | directory label _ _ => label
  | file name _ => name

/-- The first path segment of the label. -/
def first (node : ChangeNode) : Component := (parts node.label).headD .curDir

end ChangeNode

/-- Directories come before files, and each kind is in order. -/
def Before (left right : ChangeNode) : Prop :=
  (right.isDirectory = true → left.isDirectory = true) ∧
    (left.isDirectory = right.isDirectory → compareComponents left.first right.first = .lt)

/-- The nodes under a path, as the tree shows them. -/
inductive Forest : List Component → List ChangeNode → Prop
  | nil {place : List Component} : Forest place []
  | directory {place : List Component} {label : String} {path : RelativePathBuf}
      {children rest : List ChangeNode} (labeled : parts label ≠ [])
      (here : path.components = place ++ parts label) (filled : children ≠ [])
      (branches : ∀ label path inner, children ≠ [.directory label path inner])
      (inside : Forest path.components children)
      (before : ∀ node ∈ rest, Before (.directory label path children) node)
      (others : Forest place rest) : Forest place (.directory label path children :: rest)
  | file {place : List Component} {name : String} {entry : GitChangeEntry}
      {rest : List ChangeNode} (named : ∃ component, parts name = [component])
      (here : entry.path.components = place ++ parts name)
      (before : ∀ node ∈ rest, Before (.file name entry) node)
      (others : Forest place rest) : Forest place (.file name entry :: rest)

/-- What a forest says of one node. -/
def Rooted (place : List Component) : ChangeNode → Prop
  | .directory label path children =>
      parts label ≠ [] ∧ path.components = place ++ parts label ∧ children ≠ [] ∧
        (∀ label path inner, children ≠ [.directory label path inner]) ∧
        Forest path.components children
  | .file name entry =>
      (∃ component, parts name = [component]) ∧ entry.path.components = place ++ parts name

theorem forest_of {place : List Component} {nodes : List ChangeNode}
    (rooted : ∀ node ∈ nodes, Rooted place node) (ordered : nodes.Pairwise Before) :
    Forest place nodes := by
  induction nodes with
  | nil => exact .nil
  | cons node rest induction =>
      rcases List.forall_mem_cons.mp rooted with ⟨here, others⟩
      rcases List.pairwise_cons.mp ordered with ⟨before, orderedRest⟩
      cases node with
      | directory label path children =>
          rcases here with ⟨labeled, placed, filled, branches, inside⟩
          exact .directory labeled placed filled branches inside before
            (induction others orderedRest)
      | file name entry => exact .file here.1 here.2 before (induction others orderedRest)

/-! ## The nodes of a builder -/

theorem first_name {name : String} (isName : Name name) :
    (parts name).headD .curDir = .normal name.toList := by
  rw [show parts name = [.normal name.toList] from isName]
  rfl

theorem finishDirectories_eq (directories : List (String × Builder)) (parent : RelativePathBuf) :
    finishDirectories directories parent = directories.map fun directory =>
      finishChain directory.2 directory.1 (parent.join ⟨directory.1⟩) := by
  induction directories with
  | nil => rfl
  | cons directory rest induction =>
      rw [finishDirectories, induction, List.map_cons]

theorem mem_fileNodes {files : List (String × GitChangeEntry)} {node : ChangeNode}
    (contained : node ∈ fileNodes files) : ∃ file ∈ files, node = .file file.1 file.2 := by
  rcases List.mem_map.mp contained with ⟨file, sorted, same⟩
  exact ⟨file, List.mem_mergeSort.mp sorted, same.symm⟩

/-- Files of different names are strictly sorted. -/
theorem fileNodes_ordered {files : List (String × GitChangeEntry)}
    (names : ∀ file ∈ files, Name file.1) (distinct : (files.map Prod.fst).Nodup) :
    (fileNodes files).Pairwise Before := by
  have sorted : (files.mergeSort fun left right => (compareNames left.1 right.1).isLE).Pairwise
      fun left right => (compareNames left.1 right.1).isLE = true := by
    apply List.pairwise_mergeSort
    · intro first second third
      exact Std.TransCmp.isLE_trans
    · intro left right
      rw [@Std.OrientedCmp.eq_swap _ compareNames _ left.1 right.1]
      cases compareNames right.1 left.1 <;> rfl
  have permuted := List.mergeSort_perm files fun left right => (compareNames left.1 right.1).isLE
  have apart := List.pairwise_map.mp ((permuted.map Prod.fst).nodup_iff.mpr distinct)
  unfold fileNodes
  apply List.pairwise_map.mpr
  apply (sorted.and apart).imp_of_mem
  intro left right leftInside rightInside both
  refine ⟨nofun, fun _ => ?_⟩
  have leftName := names left (permuted.mem_iff.mp leftInside)
  have rightName := names right (permuted.mem_iff.mp rightInside)
  rw [ChangeNode.first, ChangeNode.first, ChangeNode.label, ChangeNode.label,
    first_name leftName, first_name rightName]
  change compareNames left.1 right.1 = .lt
  cases order : compareNames left.1 right.1 with
  | lt => rfl
  | eq => exact absurd (eq_of_compareNames order) both.2
  | gt =>
      have less := both.1
      rw [order] at less
      cases less

/-- A chain of lone directories ends in a node for its last one. -/
def ChainOf (base : List Component) (label : String) (node : ChangeNode) : Prop :=
  Rooted base node ∧ node.isDirectory = true ∧ node.first = (parts label).headD .curDir

theorem distinct_child {directories : List (String × Builder)}
    {files : List (String × GitChangeEntry)} {directory : String × Builder}
    (distinct : ((Builder.mk directories files).entries.map fun entry =>
      entry.path.components).Nodup) (inside : directory ∈ directories) :
    (directory.2.entries.map fun entry => entry.path.components).Nodup := by
  refine distinct.sublist (List.Sublist.map _ ?_)
  rw [Builder.entries, directoryEntries_eq]
  apply List.Sublist.trans _ (List.sublist_append_left _ _)
  exact List.sublist_flatten_of_mem (List.mem_map_of_mem inside)

theorem distinct_files {place : List Component} {directories : List (String × Builder)}
    {files : List (String × GitChangeEntry)}
    (filePaths : ∀ file ∈ files, file.2.path.components = place ++ [.normal file.1.toList])
    (distinct : ((Builder.mk directories files).entries.map fun entry =>
      entry.path.components).Nodup) : (files.map Prod.fst).Nodup := by
  have inFiles := distinct.sublist
    (List.Sublist.map _ (List.sublist_append_right (directoryEntries directories) _))
  rw [List.map_map] at inFiles
  have named : files.map ((fun entry => entry.path.components) ∘ Prod.snd) =
      (files.map Prod.fst).map fun name => place ++ [.normal name.toList] := by
    rw [List.map_map]
    exact List.map_congr_left filePaths
  rw [named] at inFiles
  exact inFiles.of_map

theorem length_finish (directories : List (String × Builder))
    (files : List (String × GitChangeEntry)) (parent : RelativePathBuf) :
    (finish (.mk directories files) parent).length = directories.length + files.length := by
  unfold finish
  rw [finishDirectories_eq, fileNodes, List.length_append, List.length_map, List.length_map,
    List.length_mergeSort]
  rfl

/-- What is no lone directory is not shown as one. -/
theorem finish_ne_lone {directories : List (String × Builder)}
    {files : List (String × GitChangeEntry)}
    (several : ∀ name child, directories = [(name, child)] → files = [] → False)
    (parent : RelativePathBuf) (label : String) (path : RelativePathBuf)
    (inner : List ChangeNode) :
    finish (.mk directories files) parent ≠ [.directory label path inner] := by
  intro lone
  have length := length_finish directories files parent
  rw [lone, List.length_singleton] at length
  cases files with
  | nil =>
      rcases List.length_eq_one_iff.mp (show directories.length = 1 by simpa using length.symm)
        with ⟨⟨name, child⟩, only⟩
      exact several name child only rfl
  | cons file rest =>
      have inside : ChangeNode.file file.1 file.2 ∈
          finish (.mk directories (file :: rest)) parent := by
        apply List.mem_append_right
        apply List.mem_map.mpr
        exact ⟨file, List.mem_mergeSort.mpr List.mem_cons_self, rfl⟩
      rw [lone] at inside
      cases List.mem_singleton.mp inside

theorem finish_ne_nil {directories : List (String × Builder)}
    {files : List (String × GitChangeEntry)} (some : (Builder.mk directories files).entries ≠ [])
    (parent : RelativePathBuf) : finish (.mk directories files) parent ≠ [] := by
  intro nothing
  have length := length_finish directories files parent
  rw [nothing, List.length_nil] at length
  rcases List.length_eq_zero_iff.mp (show directories.length = 0 by omega) with rfl
  rcases List.length_eq_zero_iff.mp (show files.length = 0 by omega) with rfl
  exact some rfl

/-- The directories of a builder, each a chain, come before its files. -/
theorem forest_finish {place : List Component} {directories : List (String × Builder)}
    {files : List (String × GitChangeEntry)} {parent : RelativePathBuf}
    (sorted : SortedMap.Sorted compareNames Prod.fst directories)
    (names : ∀ directory ∈ directories, Name directory.1)
    (chains : ∀ directory ∈ directories, ChainOf place directory.1
      (finishChain directory.2 directory.1 (parent.join ⟨directory.1⟩)))
    (fileNames : ∀ file ∈ files, Name file.1)
    (filePaths : ∀ file ∈ files, file.2.path.components = place ++ [.normal file.1.toList])
    (distinct : (files.map Prod.fst).Nodup) :
    Forest place (finish (.mk directories files) parent) := by
  change Forest place (finishDirectories directories parent ++ fileNodes files)
  rw [finishDirectories_eq]
  apply forest_of
  · intro node contained
    rcases List.mem_append.mp contained with inDirectories | inFiles
    · rcases List.mem_map.mp inDirectories with ⟨directory, inside, rfl⟩
      exact (chains directory inside).1
    · rcases mem_fileNodes inFiles with ⟨⟨name, entry⟩, inside, rfl⟩
      have isName : parts name = [.normal name.toList] := fileNames _ inside
      refine ⟨⟨_, isName⟩, ?_⟩
      rw [isName]
      exact filePaths _ inside
  · apply List.pairwise_append.mpr
    refine ⟨?_, fileNodes_ordered fileNames distinct, ?_⟩
    · apply List.pairwise_map.mpr
      apply sorted.imp_of_mem
      intro left right leftInside rightInside less
      refine ⟨fun _ => (chains left leftInside).2.1, fun _ => ?_⟩
      rw [(chains left leftInside).2.2, (chains right rightInside).2.2,
        first_name (names left leftInside), first_name (names right rightInside)]
      exact less
    · intro left inLeft right inRight
      rcases List.mem_map.mp inLeft with ⟨directory, inside, rfl⟩
      rcases mem_fileNodes inRight with ⟨file, -, rfl⟩
      refine ⟨nofun, ?_⟩
      intro same
      rw [(chains directory inside).2.1] at same
      cases same

theorem placed_finish {place : List Component} {builder : Builder} (placed : Placed place builder)
    (distinct : (builder.entries.map fun entry => entry.path.components).Nodup) :
    (∀ parent : RelativePathBuf, parent.components = place →
      Forest place (finish builder parent)) ∧
    ∀ (label : String) (path : RelativePathBuf) (base : List Component), path.components = place →
      place = base ++ parts label → parts label ≠ [] → builder.entries ≠ [] →
        ChainOf base label (finishChain builder label path) := by
  induction placed with
  | @mk place directories files sorted names filled children fileNames filePaths induction =>
      have whole : ∀ parent : RelativePathBuf, parent.components = place →
          Forest place (finish (.mk directories files) parent) := by
        intro parent here
        apply forest_finish sorted names _ fileNames filePaths (distinct_files filePaths distinct)
        intro directory inside
        have isName : parts directory.1 = [.normal directory.1.toList] := names directory inside
        apply (induction directory inside (distinct_child distinct inside)).2
        · rw [components_join_name (names directory inside), here]
        · rw [isName]
        · rw [isName]
          exact List.cons_ne_nil _ _
        · exact filled directory inside
      refine ⟨whole, ?_⟩
      intro label path base here split labeled some
      by_cases lone : ∃ name child, directories = [(name, child)] ∧ files = []
      · rcases lone with ⟨name, child, rfl, rfl⟩
        have isName := names _ (List.mem_singleton_self _)
        have longer : parts (label ++ "/" ++ name) = parts label ++ [.normal name.toList] :=
          parts_folded isName
        have chain : ChainOf base (label ++ "/" ++ name)
            (finishChain child (label ++ "/" ++ name) (path.join ⟨name⟩)) := by
          apply (induction _ (List.mem_singleton_self _)
            (distinct_child distinct (List.mem_singleton_self _))).2
          · rw [components_join_name isName, here]
          · rw [longer, ← List.append_assoc, ← split]
          · rw [longer]
            exact List.append_ne_nil_of_left_ne_nil labeled _
          · exact filled _ (List.mem_singleton_self _)
        rw [finishChain]
        refine ⟨chain.1, chain.2.1, chain.2.2.trans ?_⟩
        rw [longer]
        cases parted : parts label with
        | nil => exact absurd parted labeled
        | cons head tail => rfl
      · have several : ∀ name child, directories = [(name, child)] → files = [] → False :=
          fun name child only nothing => lone ⟨name, child, only, nothing⟩
        rw [finishChain.eq_2 label path directories files several]
        refine ⟨⟨labeled, here.trans split, ?_, ?_, ?_⟩, rfl, rfl⟩
        · exact finish_ne_nil some path
        · exact finish_ne_lone several path
        · rw [here]
          exact whole path here

theorem placed_foldl {entries : List GitChangeEntry} {root : Builder} (placed : Placed [] root)
    (normal : ∀ entry ∈ entries, entry.path.components ≠ [] ∧
      ∀ component ∈ entry.path.components, component.isNormal = true) :
    Placed [] (entries.foldl
      (fun root entry => root.insert (entry.path.components.map asStr) entry) root) ∧
    (entries.foldl
      (fun root entry => root.insert (entry.path.components.map asStr) entry) root).entries.Perm
        (entries ++ root.entries) := by
  induction entries generalizing root with
  | nil => exact ⟨placed, List.Perm.refl _⟩
  | cons entry rest induction =>
      rcases List.forall_mem_cons.mp normal with ⟨⟨some, here⟩, others⟩
      have names : ∀ name ∈ entry.path.components.map asStr, Name name := by
        intro name contained
        rcases List.mem_map.mp contained with ⟨component, inside, rfl⟩
        exact (name_of_component inside (here component inside)).1
      have same : entry.path.components = normals (entry.path.components.map asStr) := by
        unfold normals
        rw [List.map_map]
        conv_lhs => rw [← List.map_id entry.path.components]
        apply List.map_congr_left
        intro component inside
        exact (name_of_component inside (here component inside)).2
      rcases induction (placed_insert placed names same) others with ⟨placedAll, permuted⟩
      refine ⟨placedAll, permuted.trans ?_⟩
      have named : entry.path.components.map asStr ≠ [] := by simpa using some
      have added := entries_insert named root entry
      exact (added.append_left rest).trans List.perm_middle

end Condr.ChangeTree
