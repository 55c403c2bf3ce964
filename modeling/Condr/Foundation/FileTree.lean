import Condr.Foundation.Entries
import Mathlib.Data.List.Infix

/-!
# A file tree with several writers

The entries of a file tree by place, the names on the way there from the root, each with
the writer that made it. Making a directory is exclusive, and a directory goes only when
nothing is in it. A tree is closed when every entry but the root lies in a directory; then
nothing is below what is absent.
-/

namespace FileTree

universe u v w

inductive Kind (Text : Type w) where
  | directory
  | leaf (text : Text)
deriving DecidableEq

/-- An entry, and the writer that made it since the start. -/
structure Entry (Writer : Type v) (Text : Type w) where
  creator : Option Writer
  kind : Kind Text
deriving DecidableEq

abbrev Tree (Name : Type u) (Writer : Type v) (Text : Type w) :=
  List (List Name × Entry Writer Text)

/-- One call of the system that changes a tree. -/
inductive Operation (Name : Type u) (Text : Type w) where
  | createDirectory (place : List Name)
  | write (place : List Name) (text : Text)
  | remove (place : List Name)
deriving DecidableEq

variable {Name : Type u} {Writer : Type v} {Text : Type w} [DecidableEq Name]

/-- The entry at a place. -/
def find (place : List Name) (tree : Tree Name Writer Text) : Option (Entry Writer Text) :=
  Entries.get place tree

def isDirectory (place : List Name) (tree : Tree Name Writer Text) : Bool :=
  match find place tree with
  | some ⟨_, .directory⟩ => true
  | _ => false

/-- Nothing is strictly below a place. -/
def bare (place : List Name) (tree : Tree Name Writer Text) : Bool :=
  tree.all fun entry => !(place.isPrefixOf entry.1) || entry.1 == place

def Operation.place : Operation Name Text → List Name
  | .createDirectory place => place
  | .write place _ => place
  | .remove place => place

def perform (writer : Writer) (tree : Tree Name Writer Text) :
    Operation Name Text → Option (Tree Name Writer Text)
  | .createDirectory place =>
      if find place tree = none ∧ isDirectory place.dropLast tree then
        some (Entries.set place ⟨some writer, .directory⟩ tree)
      else none
  | .write place text =>
      match find place tree with
      | none =>
          if isDirectory place.dropLast tree then
            some (Entries.set place ⟨some writer, .leaf text⟩ tree)
          else none
      | some ⟨_, .directory⟩ => none
      | some ⟨creator, .leaf _⟩ => some (Entries.set place ⟨creator, .leaf text⟩ tree)
  | .remove place =>
      if find place tree ≠ none ∧ bare place tree then some (Entries.erase place tree) else none

/-- Every entry but the root lies in a directory. -/
def Closed (tree : Tree Name Writer Text) : Prop :=
  ∀ place name, find (place ++ [name]) tree ≠ none → isDirectory place tree = true

/-! ## Looking up -/

theorem isDirectory_iff {place : List Name} {tree : Tree Name Writer Text} :
    isDirectory place tree = true ↔ ∃ creator, find place tree = some ⟨creator, .directory⟩ := by
  unfold isDirectory
  rcases find place tree with _ | ⟨creator, _ | text⟩ <;> simp

theorem find_ne_none_of_isDirectory {place : List Name} {tree : Tree Name Writer Text}
    (directory : isDirectory place tree = true) : find place tree ≠ none := by
  rcases isDirectory_iff.mp directory with ⟨creator, found⟩
  simp [found]

theorem find_eq_none_of_bare {place other : List Name} {tree : Tree Name Writer Text}
    (nothing : bare place tree = true) (below : place <+: other) (apart : other ≠ place) :
    find other tree = none := by
  rw [find, Entries.get_eq_none]
  intro contained
  rcases List.mem_map.mp contained with ⟨entry, inTree, rfl⟩
  have outside := List.all_eq_true.mp nothing entry inTree
  rw [List.isPrefixOf_iff_prefix.mpr below] at outside
  exact apart (by simpa using outside)

/-- Above an entry there are directories. -/
theorem Closed.above {tree : Tree Name Writer Text} (closed : Closed tree)
    {place above : List Name} (present : find place tree ≠ none) (before : above <+: place)
    (apart : above ≠ place) : isDirectory above tree = true := by
  induction place using List.reverseRecOn with
  | nil => exact absurd (List.prefix_nil.mp before) apart
  | append_singleton front last ih =>
      have directory := closed front last present
      rcases List.prefix_concat_iff.mp before with whole | within
      · exact absurd whole apart
      · by_cases same : above = front
        · rwa [same]
        · exact ih (find_ne_none_of_isDirectory directory) within same

theorem Closed.present_above {tree : Tree Name Writer Text} (closed : Closed tree)
    {place above : List Name} (present : find place tree ≠ none) (before : above <+: place) :
    find above tree ≠ none := by
  by_cases same : above = place
  · rwa [same]
  · exact find_ne_none_of_isDirectory (closed.above present before same)

/-- Nothing is at or below a place without entry. -/
theorem Closed.absent_below {tree : Tree Name Writer Text} (closed : Closed tree)
    {place below : List Name} (absent : find place tree = none) (after : place <+: below) :
    find below tree = none := by
  by_contra present
  exact closed.present_above present after absent

/-- A tree is closed when the place before each of its entries is a directory. -/
theorem closed_of_all {tree : Tree Name Writer Text}
    (all : tree.all (fun entry => entry.1.isEmpty || isDirectory entry.1.dropLast tree) = true) :
    Closed tree := by
  intro place name present
  rcases Option.ne_none_iff_exists'.mp present with ⟨entry, found⟩
  have within := List.all_eq_true.mp all _ (Entries.mem_of_get found)
  simpa using within

/-! ## What an operation does -/

/-- An operation changes one place: it makes an entry where there was none, in a directory;
it gives a leaf another text; or it removes an entry with nothing below. -/
inductive Effect (writer : Writer) (tree next : Tree Name Writer Text)
    (operation : Operation Name Text) : Prop where
  | created {kind : Kind Text} (absent : find operation.place tree = none)
      (within : isDirectory operation.place.dropLast tree = true)
      (made : find operation.place next = some ⟨some writer, kind⟩)
  | rewritten {creator : Option Writer} {old text : Text}
      (before : find operation.place tree = some ⟨creator, .leaf old⟩)
      (after : find operation.place next = some ⟨creator, .leaf text⟩)
  | removed (removing : operation = .remove operation.place)
      (present : find operation.place tree ≠ none)
      (nothing : bare operation.place tree = true) (gone : find operation.place next = none)

variable {writer : Writer} {tree next : Tree Name Writer Text} {operation : Operation Name Text}

theorem find_set (place other : List Name) (entry : Entry Writer Text)
    (tree : Tree Name Writer Text) :
    find other (Entries.set place entry tree) =
      if place = other then some entry else find other tree := Entries.get_set _ _ _ _

theorem find_erase (place other : List Name) (tree : Tree Name Writer Text) :
    find other (Entries.erase place tree) = if place = other then none else find other tree :=
  Entries.get_erase _ _ _

/-- The other places keep their entries. -/
theorem find_perform_of_ne (performs : perform writer tree operation = some next)
    {place : List Name} (apart : place ≠ operation.place) : find place next = find place tree := by
  cases operation with
  | createDirectory target =>
      have elsewhere : target ≠ place := Ne.symm apart
      simp only [perform] at performs
      split_ifs at performs
      cases performs
      rw [find_set, if_neg elsewhere]
  | write target text =>
      have elsewhere : target ≠ place := Ne.symm apart
      simp only [perform] at performs
      split at performs
      · split_ifs at performs
        cases performs
        rw [find_set, if_neg elsewhere]
      · cases performs
      · cases performs
        rw [find_set, if_neg elsewhere]
  | remove target =>
      have elsewhere : target ≠ place := Ne.symm apart
      simp only [perform] at performs
      split_ifs at performs
      cases performs
      rw [find_erase, if_neg elsewhere]

theorem perform_effect (performs : perform writer tree operation = some next) :
    Effect writer tree next operation := by
  cases operation with
  | createDirectory place =>
      simp only [perform] at performs
      split_ifs at performs with possible
      cases performs
      exact .created possible.1 possible.2 (by rw [Operation.place, find_set, if_pos rfl])
  | write place text =>
      simp only [perform] at performs
      split at performs
      · next absent =>
          split_ifs at performs with possible
          cases performs
          exact .created absent possible (by rw [Operation.place, find_set, if_pos rfl])
      · cases performs
      · next creator old before =>
          cases performs
          exact .rewritten before (by rw [Operation.place, find_set, if_pos rfl])
  | remove place =>
      simp only [perform] at performs
      split_ifs at performs with possible
      cases performs
      exact .removed rfl possible.1 possible.2 (by rw [Operation.place, find_erase, if_pos rfl])

/-- An entry that stays keeps its creator and, where it is a directory, all of it. -/
theorem creator_perform (performs : perform writer tree operation = some next)
    {place : List Name} {entry later : Entry Writer Text} (before : find place tree = some entry)
    (after : find place next = some later) :
    later.creator = entry.creator ∧ (entry.kind = .directory → later = entry) := by
  by_cases here : place = operation.place
  · subst here
    rcases perform_effect performs with ⟨absent, -, -⟩ | ⟨old, new⟩ | ⟨-, -, -, gone⟩
    · rw [absent] at before
      cases before
    · rw [old] at before
      rw [new] at after
      cases before
      cases after
      exact ⟨rfl, nofun⟩
    · rw [gone] at after
      cases after
  · rw [find_perform_of_ne performs here, before] at after
    cases after
    exact ⟨rfl, fun _ => rfl⟩

/-- A new entry is the writer's, at the operation's place. -/
theorem created_perform (performs : perform writer tree operation = some next)
    {place : List Name} {entry : Entry Writer Text} (before : find place tree = none)
    (after : find place next = some entry) :
    place = operation.place ∧ entry.creator = some writer ∧
      isDirectory place.dropLast tree = true := by
  by_cases here : place = operation.place
  · refine ⟨here, ?_⟩
    subst here
    rcases perform_effect performs with ⟨-, within, made⟩ | ⟨old, -⟩ | ⟨-, present, -, -⟩
    · rw [made] at after
      cases after
      exact ⟨rfl, within⟩
    · rw [before] at old
      cases old
    · exact absurd before present
  · rw [find_perform_of_ne performs here, before] at after
    cases after

/-- What goes is what the operation removes, and nothing was below. -/
theorem removed_perform (performs : perform writer tree operation = some next)
    {place : List Name} (before : find place tree ≠ none) (after : find place next = none) :
    operation = .remove place ∧ bare place tree = true := by
  by_cases here : place = operation.place
  · subst here
    rcases perform_effect performs with ⟨absent, -, -⟩ | ⟨-, new⟩ | ⟨removing, -, nothing, -⟩
    · exact absurd absent before
    · rw [after] at new
      cases new
    · exact ⟨removing, nothing⟩
  · rw [find_perform_of_ne performs here] at after
    exact absurd after before

/-- A directory stays unless it is removed. -/
theorem directory_perform (performs : perform writer tree operation = some next)
    {place : List Name} {creator : Option Writer}
    (before : find place tree = some ⟨creator, .directory⟩) (kept : operation ≠ .remove place) :
    find place next = some ⟨creator, .directory⟩ := by
  rcases after : find place next with _ | later
  · exact absurd (removed_perform performs (by simp [before]) after).1 kept
  · rw [(creator_perform performs before after).2 rfl]

theorem createDirectory_made {place : List Name}
    (performs : perform writer tree (.createDirectory place) = some next) :
    find place tree = none ∧ find place next = some ⟨some writer, .directory⟩ := by
  simp only [perform] at performs
  split_ifs at performs with possible
  cases performs
  exact ⟨possible.1, by rw [find_set, if_pos rfl]⟩

theorem remove_removes {place : List Name}
    (performs : perform writer tree (.remove place) = some next) :
    find place tree ≠ none ∧ find place next = none := by
  simp only [perform] at performs
  split_ifs at performs with possible
  cases performs
  exact ⟨possible.1, by rw [find_erase, if_pos rfl]⟩

/-- A write leaves its text, in an entry that was there or in the writer's own. -/
theorem write_made {place : List Name} {text : Text}
    (performs : perform writer tree (.write place text) = some next) :
    (find place tree = none ∧ find place next = some ⟨some writer, .leaf text⟩) ∨
      ∃ entry, find place tree = some entry ∧
        find place next = some ⟨entry.creator, .leaf text⟩ := by
  simp only [perform] at performs
  split at performs
  · next absent =>
      split_ifs at performs
      cases performs
      exact Or.inl ⟨absent, by rw [find_set, if_pos rfl]⟩
  · cases performs
  · next creator old before =>
      cases performs
      exact Or.inr ⟨_, before, by rw [find_set, if_pos rfl]⟩

theorem closed_perform (performs : perform writer tree operation = some next)
    (closed : Closed tree) : Closed next := by
  intro place name present
  -- the directory was there, and it has not been removed
  have directory : isDirectory place tree = true := by
    by_cases before : find (place ++ [name]) tree = none
    · rcases Option.ne_none_iff_exists'.mp present with ⟨entry, after⟩
      have := (created_perform performs before after).2.2
      rwa [List.dropLast_concat] at this
    · exact closed place name before
  rcases isDirectory_iff.mp directory with ⟨creator, found⟩
  rcases stays : find place next with _ | later
  · have nothing := (removed_perform performs (by simp [found]) stays).2
    have gone := find_eq_none_of_bare nothing (List.prefix_append place [name]) (by simp)
    rcases Option.ne_none_iff_exists'.mp present with ⟨entry, after⟩
    have here := (created_perform performs gone after).1
    have removing := (removed_perform performs (by simp [found]) stays).1
    rw [removing] at here
    exact absurd here (by simp [Operation.place])
  · rw [(creator_perform performs found stays).2 rfl] at stays
    exact isDirectory_iff.mpr ⟨creator, stays⟩

end FileTree
