import Condr.Gui.ChangeForest

/-!
# The rows of the tree of changed files

Every file is shown once, under the directories of its path; directories are distinct, hold a
file, and none holds nothing but a directory. Folding a directory hides what it holds.
-/

namespace Condr.ChangeTree

/-! ## Rows -/

namespace TreeRow

def isDirectory : TreeRow → Bool
  | directory .. => true
  | file .. => false

def label : TreeRow → String
  | directory label _ _ _ => label
  | file name _ _ => name

def path : TreeRow → RelativePathBuf
  | directory _ path _ _ => path
  | file _ entry _ => entry.path

def depth : TreeRow → ℕ
  | directory _ _ depth _ => depth
  | file _ _ depth => depth

def entry : TreeRow → Option GitChangeEntry
  | directory .. => none
  | file _ entry _ => some entry

/-- The first path segment of the label. -/
def first (row : TreeRow) : Component := (parts row.label).headD .curDir

end TreeRow

/-- No directory is folded. -/
def unfolded : RelativePathBuf → Bool := fun _ => false

/-- The nearest of the rows before one, if any, that is a directory of smaller depth. -/
def holder (before : List TreeRow) (depth : ℕ) : Option TreeRow :=
  before.reverse.find? fun row => row.isDirectory && row.depth < depth

/-- Each row after some others, with its holder. -/
def withHolders (before : List TreeRow) : List TreeRow → List (Option TreeRow × TreeRow)
  | [] => []
  | row :: rest => (holder before row.depth, row) :: withHolders (before ++ [row]) rest

/-- The path that a holder gives the rows it holds. -/
def holderPath : Option TreeRow → RelativePathBuf
  | none => ⟨""⟩
  | some row => row.path

theorem walk_directory (folded : RelativePathBuf → Bool) (label : String) (path : RelativePathBuf)
    (children rest : List ChangeNode) (depth : ℕ) :
    walk folded (.directory label path children :: rest) depth =
      .directory label path depth (folded path) ::
        ((if folded path then [] else walk folded children (depth + 1)) ++
          walk folded rest depth) := rfl

theorem walk_file (folded : RelativePathBuf → Bool) (name : String) (entry : GitChangeEntry)
    (rest : List ChangeNode) (depth : ℕ) :
    walk folded (.file name entry :: rest) depth =
      .file name entry depth :: walk folded rest depth := rfl

variable {place : List Component} {nodes : List ChangeNode}

/-- A row is at or below the depth of its forest. -/
theorem le_depth (forest : Forest place nodes) {depth : ℕ} {row : TreeRow}
    (contained : row ∈ walk unfolded nodes depth) : depth ≤ row.depth := by
  induction forest generalizing depth with
  | nil => cases contained
  | directory labeled here filled branches inside before others inner outer =>
      rw [walk_directory] at contained
      rcases List.mem_cons.mp contained with rfl | more
      · exact Nat.le_refl depth
      · rcases List.mem_append.mp more with held | later
        · exact Nat.le_of_succ_le (inner held)
        · exact outer later
  | file named here before others outer =>
      rw [walk_file] at contained
      rcases List.mem_cons.mp contained with rfl | later
      · exact Nat.le_refl depth
      · exact outer later

/-- The row is that of a node or below it. -/
structure Under (place : List Component) (node : ChangeNode) (row : TreeRow) : Prop where
  below : ∃ more, row.path.components = place ++ node.first :: more
  directory : row.isDirectory = true → node.isDirectory = true
  file : node.isDirectory = false → row.path.components = place ++ [node.first]

theorem cons_first {label : String} (labeled : parts label ≠ []) :
    ∃ more, parts label = (parts label).headD .curDir :: more := by
  cases parted : parts label with
  | nil => exact absurd parted labeled
  | cons head tail => exact ⟨tail, rfl⟩

theorem under_directory {label : String} {path : RelativePathBuf} {children : List ChangeNode}
    (labeled : parts label ≠ []) (here : path.components = place ++ parts label) {row : TreeRow}
    (inside : path.components <+: row.path.components) :
    Under place (.directory label path children) row := by
  rcases cons_first labeled with ⟨more, split⟩
  rcases inside with ⟨last, whole⟩
  refine ⟨⟨more ++ last, ?_⟩, fun _ => rfl, nofun⟩
  rw [← whole, here, split, List.append_assoc]
  rfl

theorem under_file {name : String} {entry : GitChangeEntry} {depth : ℕ}
    (named : ∃ component, parts name = [component])
    (here : entry.path.components = place ++ parts name) :
    Under place (.file name entry) (.file name entry depth) := by
  rcases named with ⟨component, single⟩
  have first : (ChangeNode.file name entry).first = component := by
    change (parts name).headD .curDir = component
    rw [single]
    rfl
  have whole : entry.path.components = place ++ [component] := by rw [here, single]
  refine ⟨⟨[], ?_⟩, nofun, fun _ => ?_⟩
  · rw [first]
    exact whole
  · rw [first]
    exact whole

/-- Every row is at or below a node of its forest. -/
theorem under_of_mem (forest : Forest place nodes) {depth : ℕ} {row : TreeRow}
    (contained : row ∈ walk unfolded nodes depth) : ∃ node ∈ nodes, Under place node row := by
  induction forest generalizing depth with
  | nil => cases contained
  | directory labeled here filled branches inside before others inner outer =>
      rw [walk_directory] at contained
      rcases List.mem_cons.mp contained with rfl | later
      · exact ⟨_, List.mem_cons_self, under_directory labeled here (List.prefix_refl _)⟩
      · rcases List.mem_append.mp later with held | later
        · rcases inner held with ⟨node, -, ⟨⟨last, below⟩, -, -⟩⟩
          exact ⟨_, List.mem_cons_self, under_directory labeled here ⟨_, below.symm⟩⟩
        · rcases outer later with ⟨node, contained, under⟩
          exact ⟨node, List.mem_cons_of_mem _ contained, under⟩
  | file named here before others outer =>
      rw [walk_file] at contained
      rcases List.mem_cons.mp contained with rfl | later
      · exact ⟨_, List.mem_cons_self, under_file named here⟩
      · rcases outer later with ⟨node, contained, under⟩
        exact ⟨node, List.mem_cons_of_mem _ contained, under⟩

/-- A row of a forest is strictly below the forest's path. -/
theorem below_of_mem (forest : Forest place nodes) {depth : ℕ} {row : TreeRow}
    (contained : row ∈ walk unfolded nodes depth) :
    ∃ component more, row.path.components = place ++ component :: more := by
  rcases under_of_mem forest contained with ⟨node, -, under⟩
  rcases under.below with ⟨more, below⟩
  exact ⟨node.first, more, below⟩

/-- The one path is properly within the other. -/
def Inside (outer inner : RelativePathBuf) : Prop :=
  outer.components <+: inner.components ∧ outer.components ≠ inner.components

instance (outer inner : RelativePathBuf) : Decidable (Inside outer inner) :=
  inferInstanceAs (Decidable (_ ∧ _))

theorem first_eq_of_within {left right : ChangeNode} {outer inner : TreeRow}
    (underLeft : Under place left outer) (underRight : Under place right inner)
    (within : outer.path.components <+: inner.path.components) : left.first = right.first := by
  rcases underLeft.below with ⟨leftMore, leftPath⟩
  rcases underRight.below with ⟨rightMore, rightPath⟩
  rw [leftPath, rightPath, List.prefix_append_right_inj] at within
  exact (List.cons_prefix_cons.mp within).1

theorem compareComponents_self (component : Component) :
    compareComponents component component = .eq := by
  rw [compareComponents_eq]
  exact Std.ReflCmp.compare_self

theorem first_ne_of_before {left right : ChangeNode} (before : Before left right)
    (leftDirectory : left.isDirectory = true) (rightDirectory : right.isDirectory = true) :
    left.first ≠ right.first := by
  intro same
  have less := before.2 (leftDirectory.trans rightDirectory.symm)
  rw [same, compareComponents_self] at less
  cases less

/-- What is in a directory is not in a later sibling, nor the other way. -/
theorem apart_of_before {node : ChangeNode} {rest : List ChangeNode} {depth : ℕ}
    {row directory : TreeRow} (others : Forest place rest)
    (before : ∀ later ∈ rest, Before node later) (nodeDirectory : node.isDirectory = true)
    (under : Under place node row) (contained : directory ∈ walk unfolded rest depth)
    (isDirectory : directory.isDirectory = true) :
    ¬directory.path.components <+: row.path.components ∧
      ¬row.path.components <+: directory.path.components := by
  rcases under_of_mem others contained with ⟨later, inRest, underLater⟩
  have differ := first_ne_of_before (before later inRest) nodeDirectory
    (underLater.directory isDirectory)
  refine ⟨?_, ?_⟩
  · intro within
    exact differ (first_eq_of_within underLater under within).symm
  · intro within
    exact differ (first_eq_of_within under underLater within)

/-- A row below a path is not at it. -/
theorem ne_of_below {row : TreeRow} {component : Component} {more : List Component}
    (below : row.path.components = place ++ component :: more) :
    ¬row.path.components <+: place := by
  intro within
  have length := within.length_le
  rw [below, List.length_append, List.length_cons] at length
  omega

/-- Directories have different paths. -/
theorem distinct_directories (forest : Forest place nodes) (depth : ℕ) :
    (walk unfolded nodes depth).Pairwise fun left right =>
      left.isDirectory = true → right.isDirectory = true →
        left.path.components ≠ right.path.components := by
  induction forest generalizing depth with
  | nil => exact List.Pairwise.nil
  | @directory place label path children rest labeled here filled branches inside before others
      inner outer =>
      have apart : ∀ left right : TreeRow, path.components <+: left.path.components →
          right ∈ walk unfolded rest depth → right.isDirectory = true →
            left.path.components ≠ right.path.components := by
        intro left right within contained directory same
        have under := @under_directory place label path children labeled here left within
        exact (apart_of_before others before rfl under contained directory).1
          (same ▸ List.prefix_refl _)
      rw [walk_directory]
      apply List.pairwise_cons.mpr
      refine ⟨?_, List.pairwise_append.mpr ⟨inner (depth + 1), outer depth, ?_⟩⟩
      · intro right contained _ rightDirectory
        rcases List.mem_append.mp contained with held | later
        · rcases below_of_mem inside held with ⟨component, more, below⟩
          intro same
          exact ne_of_below below (same ▸ List.prefix_refl _)
        · exact apart _ right (List.prefix_refl _) later rightDirectory
      · intro left held right later _ rightDirectory
        rcases below_of_mem inside held with ⟨component, more, below⟩
        exact apart left right ⟨_, below.symm⟩ later rightDirectory
  | file named here before others outer =>
      rw [walk_file]
      exact List.pairwise_cons.mpr ⟨fun _ _ => nofun, outer depth⟩

theorem exists_file (forest : Forest place nodes) (some : nodes ≠ []) (depth : ℕ) :
    ∃ row ∈ walk unfolded nodes depth, row.isDirectory = false := by
  induction forest generalizing depth with
  | nil => exact absurd rfl some
  | directory labeled here filled branches inside before others inner outer =>
      rcases inner filled (depth + 1) with ⟨row, contained, file⟩
      refine ⟨row, ?_, file⟩
      rw [walk_directory]
      exact List.mem_cons_of_mem _ (List.mem_append_left _ contained)
  | file named here before others outer => exact ⟨_, List.mem_cons_self, rfl⟩

/-- Every directory holds a file. -/
theorem holds_file (forest : Forest place nodes) {depth : ℕ} {directory : TreeRow}
    (contained : directory ∈ walk unfolded nodes depth)
    (isDirectory : directory.isDirectory = true) :
    ∃ row ∈ walk unfolded nodes depth, row.isDirectory = false ∧
      Inside directory.path row.path := by
  induction forest generalizing depth with
  | nil => cases contained
  | directory labeled here filled branches inside before others inner outer =>
      rw [walk_directory] at contained ⊢
      rcases List.mem_cons.mp contained with rfl | later
      · rcases exists_file inside filled (depth + 1) with ⟨row, held, file⟩
        rcases below_of_mem inside held with ⟨component, more, below⟩
        refine ⟨row, List.mem_cons_of_mem _ (List.mem_append_left _ held), file,
          ⟨_, below.symm⟩, ?_⟩
        intro same
        exact ne_of_below below (same ▸ List.prefix_refl _)
      · rcases List.mem_append.mp later with held | later
        · rcases inner held with ⟨row, held, holds⟩
          exact ⟨row, List.mem_cons_of_mem _ (List.mem_append_left _ held), holds⟩
        · rcases outer later with ⟨row, later, holds⟩
          exact ⟨row, List.mem_cons_of_mem _ (List.mem_append_right _ later), holds⟩
  | file named here before others outer =>
      rw [walk_file] at contained ⊢
      rcases List.mem_cons.mp contained with rfl | later
      · cases isDirectory
      · rcases outer later with ⟨row, later, holds⟩
        exact ⟨row, List.mem_cons_of_mem _ later, holds⟩

/-! ## Folding -/

/-- A row as it is shown where some directories are folded. -/
def mark (folded : RelativePathBuf → Bool) : TreeRow → TreeRow
  | .directory label path depth _ => .directory label path depth (folded path)
  | .file name entry depth => .file name entry depth

/-- Some folded directory among the rows properly holds the row. -/
def Hidden (rows : List TreeRow) (folded : RelativePathBuf → Bool) (row : TreeRow) : Prop :=
  ∃ directory ∈ rows, directory.isDirectory = true ∧ folded directory.path = true ∧
    Inside directory.path row.path

instance (rows : List TreeRow) (folded : RelativePathBuf → Bool) (row : TreeRow) :
    Decidable (Hidden rows folded row) := by
  unfold Hidden
  infer_instance

/-- What the folded directories among some rows hide of a forest is in its own directories. -/
structure Covers (rows : List TreeRow) (folded : RelativePathBuf → Bool)
    (shown : List TreeRow) : Prop where
  contains : ∀ row ∈ shown, row ∈ rows
  own : ∀ directory ∈ rows, directory.isDirectory = true → folded directory.path = true →
    ∀ row ∈ shown, Inside directory.path row.path → directory ∈ shown

/-- Nothing below a node holds a row of one segment. -/
theorem not_inside_single {node : ChangeNode} {outer inner : TreeRow} {component : Component}
    (under : Under place node outer) (single : inner.path.components = place ++ [component]) :
    ¬Inside outer.path inner.path := by
  rintro ⟨within, differ⟩
  rcases under.below with ⟨more, below⟩
  apply differ
  apply within.eq_of_length_le
  rw [below, single, List.length_append, List.length_append, List.length_cons, List.length_cons,
    List.length_nil]
  omega

/-- Nothing in a directory holds what is in a later sibling. -/
theorem not_inside_later {node later : ChangeNode} {outer inner : TreeRow}
    (before : Before node later) (directory : node.isDirectory = true)
    (under : Under place node outer) (underLater : Under place later inner) :
    ¬Inside outer.path inner.path := by
  cases kind : later.isDirectory with
  | false => exact not_inside_single under (underLater.file kind)
  | true =>
      intro within
      exact first_ne_of_before before directory kind (first_eq_of_within under underLater within.1)

section Directory

variable {label : String} {path : RelativePathBuf} {children rest : List ChangeNode} {depth : ℕ}
  {rows : List TreeRow} {folded : RelativePathBuf → Bool}

/-- What hides a row at or in a directory is the directory or in it. -/
theorem Covers.own_directory (labeled : parts label ≠ [])
    (here : path.components = place ++ parts label)
    (before : ∀ node ∈ rest, Before (.directory label path children) node)
    (others : Forest place rest)
    (covers : Covers rows folded (walk unfolded (.directory label path children :: rest) depth))
    {row directory : TreeRow}
    (contained : row ∈ walk unfolded (.directory label path children :: rest) depth)
    (atOrIn : path.components <+: row.path.components) (inRows : directory ∈ rows)
    (isDirectory : directory.isDirectory = true) (isFolded : folded directory.path = true)
    (within : Inside directory.path row.path) :
    directory = .directory label path depth false ∨
      directory ∈ walk unfolded children (depth + 1) := by
  have own := covers.own directory inRows isDirectory isFolded row contained within
  rw [walk_directory] at own
  rcases List.mem_cons.mp own with same | more
  · exact .inl same
  · rcases List.mem_append.mp more with held | later
    · exact .inr held
    · have under := @under_directory place label path children labeled here row atOrIn
      exact absurd within.1 (apart_of_before others before rfl under later isDirectory).1

theorem Covers.inner (labeled : parts label ≠ [])
    (here : path.components = place ++ parts label) (inside : Forest path.components children)
    (before : ∀ node ∈ rest, Before (.directory label path children) node)
    (others : Forest place rest)
    (covers : Covers rows folded (walk unfolded (.directory label path children :: rest) depth))
    (isOpen : folded path = false) :
    Covers rows folded (walk unfolded children (depth + 1)) := by
  have held : ∀ row ∈ walk unfolded children (depth + 1),
      row ∈ walk unfolded (.directory label path children :: rest) depth := by
    intro row contained
    rw [walk_directory]
    exact List.mem_cons_of_mem _ (List.mem_append_left _ contained)
  refine ⟨fun row contained => covers.contains row (held row contained), ?_⟩
  intro directory inRows isDirectory isFolded row contained within
  rcases below_of_mem inside contained with ⟨component, more, below⟩
  rcases covers.own_directory labeled here before others (held row contained) ⟨_, below.symm⟩
    inRows isDirectory isFolded within with rfl | own
  · change folded path = true at isFolded
    rw [isFolded] at isOpen
    cases isOpen
  · exact own

theorem Covers.later (labeled : parts label ≠ [])
    (here : path.components = place ++ parts label) (inside : Forest path.components children)
    (before : ∀ node ∈ rest, Before (.directory label path children) node)
    (others : Forest place rest)
    (covers : Covers rows folded (walk unfolded (.directory label path children :: rest) depth)) :
    Covers rows folded (walk unfolded rest depth) := by
  have held : ∀ row ∈ walk unfolded rest depth,
      row ∈ walk unfolded (.directory label path children :: rest) depth := by
    intro row contained
    rw [walk_directory]
    exact List.mem_cons_of_mem _ (List.mem_append_right _ contained)
  refine ⟨fun row contained => covers.contains row (held row contained), ?_⟩
  intro directory inRows isDirectory isFolded row contained within
  have own := covers.own directory inRows isDirectory isFolded row (held row contained) within
  rcases under_of_mem others contained with ⟨node, inRest, underLater⟩
  have apart : path.components <+: directory.path.components → False := by
    intro atOrIn
    have under := @under_directory place label path children labeled here directory atOrIn
    exact not_inside_later (before node inRest) rfl under underLater within
  rw [walk_directory] at own
  rcases List.mem_cons.mp own with rfl | more
  · exact absurd (List.prefix_refl _) apart
  · rcases List.mem_append.mp more with inChildren | later
    · rcases below_of_mem inside inChildren with ⟨component, last, below⟩
      exact absurd ⟨_, below.symm⟩ apart
    · exact later

end Directory

/-- Folding hides what the folded directories hold, and nothing else. -/
theorem walk_folded {rows : List TreeRow} {folded : RelativePathBuf → Bool}
    (forest : Forest place nodes) {depth : ℕ}
    (covers : Covers rows folded (walk unfolded nodes depth)) :
    walk folded nodes depth =
      ((walk unfolded nodes depth).filter fun row => ¬Hidden rows folded row).map
        (mark folded) := by
  induction forest generalizing depth with
  | nil => rfl
  | @directory place label path children rest labeled here filled branches inside before others
      inner outer =>
      have later := outer (covers.later labeled here inside before others)
      have shown : ¬Hidden rows folded (.directory label path depth (unfolded path)) := by
        rintro ⟨directory, inRows, isDirectory, isFolded, within⟩
        rcases covers.own_directory labeled here before others List.mem_cons_self
          (List.prefix_refl _) inRows isDirectory isFolded within with rfl | held
        · exact within.2 rfl
        · rcases below_of_mem inside held with ⟨component, more, below⟩
          exact ne_of_below below within.1
      rw [walk_directory, walk_directory, List.filter_cons_of_pos (by simpa using shown),
        List.map_cons, List.filter_append, List.map_append, ← later]
      congr 2
      cases isFolded : folded path with
      | false =>
          rw [if_neg Bool.false_ne_true]
          exact inner (covers.inner labeled here inside before others isFolded)
      | true =>
          have hidden : (walk unfolded children (depth + 1)).filter
              (fun row => ¬Hidden rows folded row) = [] := by
            apply List.filter_eq_nil_iff.mpr
            intro row contained
            rcases below_of_mem inside contained with ⟨component, more, below⟩
            have hides : Hidden rows folded row := by
              refine ⟨.directory label path depth false, ?_, rfl, isFolded, ⟨_, below.symm⟩, ?_⟩
              · exact covers.contains _ List.mem_cons_self
              · intro same
                exact ne_of_below below (same ▸ List.prefix_refl _)
            simpa using hides
          rw [if_pos rfl]
          change [] = ((walk unfolded children (depth + 1)).filter _).map _
          rw [hidden]
          rfl
  | @file place name entry rest named here before others outer =>
      have under := @under_file place name entry depth named here
      have single := under.file rfl
      have shown : ¬Hidden rows folded (.file name entry depth) := by
        rintro ⟨directory, inRows, isDirectory, isFolded, within⟩
        have own := covers.own directory inRows isDirectory isFolded _ List.mem_cons_self within
        rcases List.mem_cons.mp own with rfl | later
        · cases isDirectory
        · rcases under_of_mem others later with ⟨node, -, underLater⟩
          exact not_inside_single underLater single within
      rw [walk_file, walk_file, List.filter_cons_of_pos (by simpa using shown), List.map_cons,
        outer]
      · rfl
      · refine ⟨fun row contained => covers.contains row (List.mem_cons_of_mem _ contained), ?_⟩
        intro directory inRows isDirectory isFolded row contained within
        have own := covers.own directory inRows isDirectory isFolded row
          (List.mem_cons_of_mem _ contained) within
        rcases List.mem_cons.mp own with rfl | later
        · cases isDirectory
        · exact later

/-! ## Files -/

theorem walk_append (folded : RelativePathBuf → Bool) (left right : List ChangeNode)
    (depth : ℕ) :
    walk folded (left ++ right) depth = walk folded left depth ++ walk folded right depth := by
  induction left with
  | nil => rfl
  | cons node rest induction =>
      rw [List.cons_append, walk, walk, induction, List.append_assoc]

theorem entries_fileNodes (files : List (String × GitChangeEntry)) (depth : ℕ) :
    ((walk unfolded (fileNodes files) depth).filterMap TreeRow.entry).Perm
      (files.map Prod.snd) := by
  have shown : ∀ list : List (String × GitChangeEntry),
      (walk unfolded (list.map fun file => .file file.1 file.2) depth).filterMap TreeRow.entry =
        list.map Prod.snd := by
    intro list
    induction list with
    | nil => rfl
    | cons file rest induction =>
        rw [List.map_cons, walk_file, List.map_cons, ← induction]
        rfl
  unfold fileNodes
  rw [shown]
  exact (List.mergeSort_perm _ _).map _

theorem entries_walk_append (left right : List ChangeNode) (depth : ℕ) :
    (walk unfolded (left ++ right) depth).filterMap TreeRow.entry =
      (walk unfolded left depth).filterMap TreeRow.entry ++
        (walk unfolded right depth).filterMap TreeRow.entry := by
  rw [walk_append, List.filterMap_append]

/-- The rows of directories have the files that the builder holds. -/
theorem entries_finishDirectories (directories : List (String × Builder))
    (parent : RelativePathBuf) : ∀ depth : ℕ,
    ((walk unfolded (finishDirectories directories parent) depth).filterMap TreeRow.entry).Perm
      (directoryEntries directories) := by
  refine finishDirectories.induct
    (fun directories parent => ∀ depth : ℕ,
      ((walk unfolded (finishDirectories directories parent) depth).filterMap
        TreeRow.entry).Perm (directoryEntries directories))
    (fun builder label path => ∀ depth : ℕ,
      ((walkNode unfolded (finishChain builder label path) depth).filterMap
        TreeRow.entry).Perm builder.entries) ?_ ?_ ?_ ?_ directories parent
  · intro name child label path induction depth
    rw [finishChain]
    simpa [Builder.entries, directoryEntries] using induction depth
  · intro directories files label path several induction depth
    rw [finishChain.eq_2 label path directories files several]
    have inner := (induction (depth + 1)).append (entries_fileNodes files (depth + 1))
    rw [← entries_walk_append] at inner
    exact inner
  · intro parent depth
    exact List.Perm.refl _
  · intro name child rest parent induction others depth
    rw [finishDirectories, walk, List.filterMap_append, directoryEntries]
    exact (induction depth).append (others depth)

theorem entries_finish (builder : Builder) (parent : RelativePathBuf) (depth : ℕ) :
    ((walk unfolded (finish builder parent) depth).filterMap TreeRow.entry).Perm
      builder.entries := by
  rcases builder with ⟨directories, files⟩
  unfold finish
  rw [entries_walk_append]
  exact (entries_finishDirectories directories parent depth).append (entries_fileNodes files depth)

/-! ## Holders -/

def ChangeNode.row (depth : ℕ) : ChangeNode → TreeRow
  | .directory label path _ => .directory label path depth false
  | .file name entry => .file name entry depth

/-- The rows of nodes, each with its holder. -/
def held (holder : Option TreeRow) : List ChangeNode → ℕ → List (Option TreeRow × TreeRow)
  | [], _ => []
  | .directory label path children :: rest, depth =>
      (holder, .directory label path depth false) ::
        (held (some (.directory label path depth false)) children (depth + 1) ++
          held holder rest depth)
  | .file name entry :: rest, depth => (holder, .file name entry depth) :: held holder rest depth

theorem holder_append {before rows : List TreeRow} {depth : ℕ}
    (below : ∀ row ∈ rows, depth ≤ row.depth) :
    holder (before ++ rows) depth = holder before depth := by
  have nothing : rows.reverse.find? (fun row => row.isDirectory && row.depth < depth) = none := by
    apply List.find?_eq_none.mpr
    intro row contained
    have deep := below row (List.mem_reverse.mp contained)
    simp only [Bool.and_eq_true, decide_eq_true_eq, not_and, not_lt]
    exact fun _ => deep
  unfold holder
  rw [List.reverse_append, List.find?_append, nothing, Option.none_or]

/-- The holders that the rows have are those that the tree gives them. -/
theorem withHolders_walk (forest : Forest place nodes) {before more : List TreeRow} {depth : ℕ}
    {above : Option TreeRow} (holds : holder before depth = above) :
    withHolders before (walk unfolded nodes depth ++ more) =
      held above nodes depth ++ withHolders (before ++ walk unfolded nodes depth) more := by
  induction forest generalizing before more depth above with
  | nil =>
      rw [walk, List.append_nil, held]
      rfl
  | @directory place label path children rest labeled here filled branches inside earlier others
      inner outer =>
      have own : holder (before ++ [.directory label path depth false]) (depth + 1) =
          some (.directory label path depth false) := by
        unfold holder
        rw [List.reverse_append]
        apply List.find?_cons_of_pos
        simp [TreeRow.isDirectory, TreeRow.depth]
      have still : holder (before ++ [.directory label path depth false] ++
          walk unfolded children (depth + 1)) depth = above := by
        rw [List.append_assoc, holder_append, holds]
        intro row contained
        rcases List.mem_cons.mp contained with rfl | deeper
        · exact Nat.le_refl depth
        · exact Nat.le_of_succ_le (le_depth inside deeper)
      have whole : walk unfolded (.directory label path children :: rest) depth =
          .directory label path depth false ::
            (walk unfolded children (depth + 1) ++ walk unfolded rest depth) := rfl
      rw [whole, List.cons_append, withHolders, List.append_assoc, inner own, outer still, held,
        List.cons_append, List.append_assoc]
      congr 1
      · rw [← holds]
        rfl
      · simp [List.append_assoc]
  | @file place name entry rest named here earlier others outer =>
      have still : holder (before ++ [.file name entry depth]) depth = above := by
        rw [holder_append, holds]
        intro row contained
        rw [List.mem_singleton.mp contained]
        exact Nat.le_refl depth
      rw [walk_file, List.cons_append, withHolders, outer still, held, List.cons_append]
      congr 1
      · rw [← holds]
        rfl
      · simp [List.append_assoc]

/-- A row is held by what is above its forest, and is that of a node, or by a directory of the
forest. -/
theorem held_cases (forest : Forest place nodes) {above : Option TreeRow} {depth : ℕ}
    {entry : Option TreeRow × TreeRow} (contained : entry ∈ held above nodes depth) :
    (entry.1 = above ∧ ∃ node ∈ nodes, entry.2 = node.row depth) ∨
      ∃ directory ∈ walk unfolded nodes depth, directory.isDirectory = true ∧
        entry.1 = some directory := by
  induction forest generalizing above depth with
  | nil =>
      rw [held] at contained
      cases contained
  | directory labeled here filled branches inside before others inner outer =>
      rw [held] at contained
      rw [walk_directory]
      rcases List.mem_cons.mp contained with rfl | more
      · exact .inl ⟨rfl, _, List.mem_cons_self, rfl⟩
      · rcases List.mem_append.mp more with within | later
        · right
          rcases inner within with ⟨own, -⟩ | ⟨directory, held, isDirectory, same⟩
          · exact ⟨_, List.mem_cons_self, rfl, own⟩
          · exact ⟨directory, List.mem_cons_of_mem _ (List.mem_append_left _ held), isDirectory,
              same⟩
        · rcases outer later with ⟨same, node, inRest, isRow⟩ | ⟨directory, held, others⟩
          · exact .inl ⟨same, node, List.mem_cons_of_mem _ inRest, isRow⟩
          · exact .inr ⟨directory, List.mem_cons_of_mem _ (List.mem_append_right _ held), others⟩
  | file named here before others outer =>
      rw [held] at contained
      rw [walk_file]
      rcases List.mem_cons.mp contained with rfl | later
      · exact .inl ⟨rfl, _, List.mem_cons_self, rfl⟩
      · rcases outer later with ⟨same, node, inRest, isRow⟩ | ⟨directory, held, others⟩
        · exact .inl ⟨same, node, List.mem_cons_of_mem _ inRest, isRow⟩
        · exact .inr ⟨directory, List.mem_cons_of_mem _ held, others⟩

/-- What is above a forest holds the rows of its nodes. -/
theorem mem_held {above : Option TreeRow} {depth : ℕ} {node : ChangeNode}
    (contained : node ∈ nodes) : (above, node.row depth) ∈ held above nodes depth := by
  induction nodes with
  | nil => cases contained
  | cons first rest induction =>
      cases first with
      | directory label path children =>
          rw [held]
          rcases List.mem_cons.mp contained with rfl | later
          · exact List.mem_cons_self
          · exact List.mem_cons_of_mem _ (List.mem_append_right _ (induction later))
      | file name entry =>
          rw [held]
          rcases List.mem_cons.mp contained with rfl | later
          · exact List.mem_cons_self
          · exact List.mem_cons_of_mem _ (induction later)

/-- Every row is at its holder's path joined with its label. -/
theorem path_of_held (forest : Forest place nodes) {above : Option TreeRow} {depth : ℕ}
    (here : (holderPath above).components = place) {entry : Option TreeRow × TreeRow}
    (contained : entry ∈ held above nodes depth) :
    ((holderPath entry.1).join ⟨entry.2.label⟩).components = entry.2.path.components := by
  induction forest generalizing above depth with
  | nil =>
      rw [held] at contained
      cases contained
  | @directory place label path children rest labeled located filled branches inside before others
      inner outer =>
      rw [held] at contained
      have own : (holderPath (some (.directory label path depth false))).components =
          path.components := rfl
      rcases List.mem_cons.mp contained with rfl | more
      · rw [RelativePathBuf.components_join, here]
        exact located.symm
      · rcases List.mem_append.mp more with within | later
        · exact inner own within
        · exact outer here later
  | file named located before others outer =>
      rw [held] at contained
      rcases List.mem_cons.mp contained with rfl | later
      · rw [RelativePathBuf.components_join, here]
        exact located.symm
      · exact outer here later

/-- Siblings: directories come before files, and each kind is in order. -/
def TreeRow.Before (left right : TreeRow) : Prop :=
  (right.isDirectory = true → left.isDirectory = true) ∧
    (left.isDirectory = right.isDirectory → compareComponents left.first right.first = .lt)

theorem before_row {left right : ChangeNode} (before : Before left right) (depth : ℕ) :
    (left.row depth).Before (right.row depth) := by
  cases left <;> cases right <;> exact before

/-- A directory within a forest is not what is above it. -/
theorem ne_above (forest : Forest place nodes) {above : Option TreeRow} {depth : ℕ}
    (here : (holderPath above).components = place) {directory : TreeRow}
    (contained : directory ∈ walk unfolded nodes depth) : above ≠ some directory := by
  rintro rfl
  rcases below_of_mem forest contained with ⟨component, more, below⟩
  exact ne_of_below below (here ▸ List.prefix_refl _)

theorem siblings_ordered (forest : Forest place nodes) {above : Option TreeRow} {depth : ℕ}
    (here : (holderPath above).components = place) :
    (held above nodes depth).Pairwise fun left right =>
      left.1 = right.1 → left.2.Before right.2 := by
  induction forest generalizing above depth with
  | nil =>
      rw [held]
      exact List.Pairwise.nil
  | @directory place label path children rest labeled located filled branches inside before others
      inner outer =>
      rw [held]
      have whole : walk unfolded (.directory label path children :: rest) depth =
          .directory label path depth false ::
            (walk unfolded children (depth + 1) ++ walk unfolded rest depth) := rfl
      have forest : Forest place (.directory label path children :: rest) :=
        .directory labeled located filled branches inside before others
      -- what holds a row in the directory is the directory or within it
      have within : ∀ entry ∈ held (some (.directory label path depth false)) children (depth + 1),
          ∃ directory ∈ walk unfolded (.directory label path children :: rest) depth,
            path.components <+: directory.path.components ∧ entry.1 = some directory := by
        intro entry contained
        rw [whole]
        rcases held_cases inside contained with ⟨own, -⟩ | ⟨directory, held, -, same⟩
        · exact ⟨_, List.mem_cons_self, List.prefix_refl _, own⟩
        · rcases below_of_mem inside held with ⟨component, more, below⟩
          exact ⟨directory, List.mem_cons_of_mem _ (List.mem_append_left _ held),
            ⟨_, below.symm⟩, same⟩
      apply List.pairwise_cons.mpr
      refine ⟨?_, List.pairwise_append.mpr ⟨inner rfl, outer here, ?_⟩⟩
      · intro entry contained same
        rcases List.mem_append.mp contained with own | later
        · rcases within entry own with ⟨directory, inForest, -, holds⟩
          exact absurd (same.trans holds) (ne_above forest here inForest)
        · rcases held_cases others later with ⟨-, node, inRest, isRow⟩ | ⟨directory, held, -, holds⟩
          · rw [isRow]
            exact before_row (before node inRest) depth
          · exact absurd (same.trans holds) (ne_above others here held)
      · intro left inLeft right inRight same
        rcases within left inLeft with ⟨directory, inForest, atOrIn, holds⟩
        rcases held_cases others inRight with ⟨own, -⟩ | ⟨other, held, isDirectory, holdsOther⟩
        · exact absurd (own.symm.trans (same.symm.trans holds)) (ne_above forest here inForest)
        · have equal : directory = other :=
            Option.some.inj (holds.symm.trans (same.trans holdsOther))
          have under := @under_directory place label path children labeled located directory atOrIn
          exact absurd (equal ▸ List.prefix_refl _)
            (apart_of_before others before rfl under held isDirectory).1
  | @file place name entry rest named located before others outer =>
      rw [held]
      apply List.pairwise_cons.mpr
      refine ⟨?_, outer here⟩
      intro right contained same
      rcases held_cases others contained with ⟨-, node, inRest, isRow⟩ | ⟨directory, held, -, holds⟩
      · rw [isRow]
        exact before_row (before node inRest) depth
      · exact absurd (same.trans holds) (ne_above others here held)

theorem ordered_of_forest (forest : Forest place nodes) : nodes.Pairwise Before := by
  induction forest with
  | nil => exact List.Pairwise.nil
  | directory labeled here filled branches inside before others inner outer =>
      exact List.pairwise_cons.mpr ⟨before, outer⟩
  | file named here before others outer => exact List.pairwise_cons.mpr ⟨before, outer⟩

theorem row_ne_of_before {left right : ChangeNode} (before : Before left right) (depth : ℕ) :
    left.row depth ≠ right.row depth := by
  intro same
  have less := (before_row before depth).2 (congrArg TreeRow.isDirectory same)
  rw [same, compareComponents_self] at less
  cases less

/-- A directory among the nodes is not the only one. -/
theorem other_node (forest : Forest place nodes)
    (branches : ∀ label path inner, nodes ≠ [.directory label path inner]) {node : ChangeNode}
    (contained : node ∈ nodes) (isDirectory : node.isDirectory = true) (depth : ℕ) :
    ∃ other ∈ nodes, other.row depth ≠ node.row depth := by
  have ordered := ordered_of_forest forest
  match nodes with
  | [] => cases contained
  | [only] =>
      rcases List.mem_singleton.mp contained with rfl
      cases node with
      | directory label path children => exact absurd rfl (branches label path children)
      | file => cases isDirectory
  | first :: second :: rest =>
      have before := (List.pairwise_cons.mp ordered).1
      rcases List.mem_cons.mp contained with rfl | later
      · refine ⟨second, List.mem_cons_of_mem _ List.mem_cons_self, ?_⟩
        exact (row_ne_of_before (before second List.mem_cons_self) depth).symm
      · exact ⟨first, List.mem_cons_self, row_ne_of_before (before node later) depth⟩

/-- A directory in a directory has a sibling. -/
theorem sibling_of_held (forest : Forest place nodes) {above : Option TreeRow} {depth : ℕ}
    {entry : Option TreeRow × TreeRow} (contained : entry ∈ held above nodes depth)
    (isDirectory : entry.2.isDirectory = true) :
    entry.1 = above ∨ ∃ other ∈ held above nodes depth, other.1 = entry.1 ∧ other.2 ≠ entry.2 := by
  induction forest generalizing above depth with
  | nil =>
      rw [held] at contained
      cases contained
  | @directory place label path children rest labeled located filled branches inside before others
      inner outer =>
      rw [held] at contained ⊢
      rcases List.mem_cons.mp contained with rfl | more
      · exact .inl rfl
      · rcases List.mem_append.mp more with within | later
        · right
          have lift : ∀ other ∈ held (some (.directory label path depth false)) children
              (depth + 1), other ∈ (above, TreeRow.directory label path depth false) ::
                (held (some (.directory label path depth false)) children (depth + 1) ++
                  held above rest depth) :=
            fun other own => List.mem_cons_of_mem _ (List.mem_append_left _ own)
          rcases inner within with own | ⟨other, held, same, differs⟩
          · -- a child of the directory: it has two nodes at least
            rcases held_cases inside within with ⟨-, node, inChildren, isRow⟩ | ⟨directory, held, -,
              holds⟩
            · have nodeDirectory : node.isDirectory = true := by
                rw [isRow] at isDirectory
                cases node <;> exact isDirectory
              rcases other_node inside branches inChildren nodeDirectory (depth + 1) with
                ⟨other, inside, differs⟩
              rw [isRow, own]
              exact ⟨_, lift _ (mem_held inside), rfl, differs⟩
            · have path : (holderPath (some (.directory label path depth false))).components =
                  path.components := rfl
              exact absurd (own.symm.trans holds) (ne_above inside path held)
          · exact ⟨other, lift other held, same, differs⟩
        · rcases outer later with own | ⟨other, held, siblings⟩
          · exact .inl own
          · exact .inr ⟨other, List.mem_cons_of_mem _ (List.mem_append_right _ held), siblings⟩
  | file named located before others outer =>
      rw [held] at contained ⊢
      rcases List.mem_cons.mp contained with rfl | later
      · exact .inl rfl
      · rcases outer later with own | ⟨other, held, siblings⟩
        · exact .inl own
        · exact .inr ⟨other, List.mem_cons_of_mem _ held, siblings⟩

/-! ## Every list of changes -/

theorem forest_changeTree {entries : List GitChangeEntry}
    (distinct : (entries.map fun entry => entry.path.components).Nodup)
    (normal : ∀ entry ∈ entries, entry.path.components ≠ [] ∧
      ∀ component ∈ entry.path.components, component.isNormal = true) :
    Forest [] (changeTree entries) ∧
      ((treeRows entries unfolded).filterMap TreeRow.entry).Perm entries := by
  rcases placed_foldl (placed_empty []) normal with ⟨placed, permuted⟩
  rw [show Builder.empty.entries = [] from rfl, List.append_nil] at permuted
  refine ⟨(placed_finish placed ?_).1 _ rfl, (entries_finish _ _ 0).trans permuted⟩
  exact (permuted.map _).nodup_iff.mpr distinct

/-- The tree shows every file once: each row is under the nearest earlier directory of smaller
depth, directories are distinct and hold a file, none holds just a directory, siblings are in
order, and a folded directory hides what it properly holds and nothing else. -/
theorem tree_rows_show (entries : List GitChangeEntry)
    (distinct : (entries.map fun entry => entry.path.components).Nodup)
    (normal : ∀ entry ∈ entries, entry.path.components ≠ [] ∧
      ∀ component ∈ entry.path.components, component.isNormal = true) :
    let rows := treeRows entries unfolded
    (rows.filterMap TreeRow.entry).Perm entries ∧
    (∀ entry ∈ withHolders [] rows,
      ((holderPath entry.1).join ⟨entry.2.label⟩).components = entry.2.path.components) ∧
    ((rows.filter TreeRow.isDirectory).map fun row => row.path.components).Nodup ∧
    (∀ directory ∈ rows, directory.isDirectory = true →
      ∃ row ∈ rows, row.isDirectory = false ∧ Inside directory.path row.path) ∧
    (∀ entry ∈ withHolders [] rows, entry.1 ≠ none → entry.2.isDirectory = true →
      ∃ other ∈ withHolders [] rows, other.1 = entry.1 ∧ other.2 ≠ entry.2) ∧
    ((withHolders [] rows).Pairwise fun left right =>
      left.1 = right.1 → left.2.Before right.2) ∧
    ∀ folded, treeRows entries folded =
      (rows.filter fun row => ¬Hidden rows folded row).map (mark folded) := by
  rcases forest_changeTree distinct normal with ⟨forest, permuted⟩
  have holders : withHolders [] (treeRows entries unfolded) =
      held none (changeTree entries) 0 := by
    have whole := @withHolders_walk [] _ forest [] [] 0 none rfl
    rw [List.append_nil] at whole
    exact whole.trans (List.append_nil _)
  dsimp only
  rw [holders]
  refine ⟨permuted, ?_, ?_, ?_, ?_, ?_, ?_⟩
  · intro entry contained
    exact path_of_held forest rfl contained
  · apply List.pairwise_map.mpr
    apply List.pairwise_filter.mpr
    apply (distinct_directories forest 0).imp
    intro left right differ leftDirectory rightDirectory
    exact differ leftDirectory rightDirectory
  · intro directory contained isDirectory
    exact holds_file forest contained isDirectory
  · intro entry contained some isDirectory
    rcases sibling_of_held forest contained isDirectory with above | sibling
    · exact absurd above some
    · exact sibling
  · exact siblings_ordered forest rfl
  · intro folded
    exact walk_folded forest ⟨fun _ contained => contained, fun _ inRows _ _ _ _ _ => inRows⟩

/-- A file in a folded chain beside a file of the chain's first name. -/
theorem tree_rows_show_chain :
    let entries : List GitChangeEntry :=
      ["a/b/c.rs", "a", "z"].map fun path => ⟨⟨path⟩, none, .modified, none⟩
    ((treeRows entries unfolded).filterMap TreeRow.entry).Perm entries := by
  intro entries
  refine (tree_rows_show entries ?_ ?_).1
  · decide +kernel
  · decide +kernel

end Condr.ChangeTree
