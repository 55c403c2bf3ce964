import Mathlib.Data.List.Basic
import Mathlib.Tactic.Common

/-!
# Paths and text

The text operations the Session uses: native paths, whose text may not be UTF-8,
and the `/`-separated relative paths of viewer Tabs, which are read component by
component.
-/

namespace Condr

/-- A native path: UTF-8 text, or other bytes with the text that is displayed for them. -/
inductive PathBuf where
  | utf8 (text : String)
  | other (bytes : List UInt8) (display : String)
deriving DecidableEq

namespace PathBuf

def toStr : PathBuf → Option String
  | utf8 text => some text
  | other _ _ => none

/-- `to_string_lossy` and `display`. -/
def toStringLossy : PathBuf → String
  | utf8 text => text
  | other _ display => display

/-- `as_os_str().is_empty()`. -/
def isEmpty : PathBuf → Bool
  | utf8 text => text.isEmpty
  | other bytes _ => bytes.isEmpty

end PathBuf

/-- The nonempty segments of a `/`-separated text. -/
def segments (text : List Char) : List (List Char) :=
  (text.splitOn '/').filter fun segment => !segment.isEmpty

@[simp]
theorem segments_nil : segments [] = [] := rfl

theorem segments_append_separator (front rest : List Char) :
    segments (front ++ '/' :: rest) = segments front ++ segments rest := by
  simp [segments, List.splitOn_append_cons_self]

@[simp]
theorem segments_separator (rest : List Char) : segments ('/' :: rest) = segments rest := by
  simpa using segments_append_separator [] rest

theorem segments_dropWhile_separator (text : List Char) :
    segments (text.dropWhile (· == '/')) = segments text := by
  induction text with
  | nil => rfl
  | cons head rest ih =>
      by_cases separator : head = '/'
      · subst separator
        simpa using ih
      · simp [separator]

theorem segments_of_not_mem {text : List Char} (plain : '/' ∉ text) (nonempty : text ≠ []) :
    segments text = [text] := by
  simp [segments, List.splitOn_eq_singleton plain, nonempty]

/-- `workspace_name`: the last name of the path, the path itself, or a fixed word. -/
def workspaceName (rootDirectory : PathBuf) : String :=
  let fileName :=
    match ((segments rootDirectory.toStringLossy.toList).filter (· ≠ ['.'])).getLast? with
    | none => none
    | some name => if name = ['.', '.'] then none else some (String.ofList name)
  match fileName.filter fun name => !name.isEmpty with
  | some name => name
  | none =>
      if rootDirectory.toStringLossy.isEmpty then "Workspace" else rootDirectory.toStringLossy

theorem workspaceName_ne_empty (rootDirectory : PathBuf) : workspaceName rootDirectory ≠ "" := by
  simp only [workspaceName]
  split
  · next name found =>
      have := (Option.filter_eq_some_iff.mp found).2
      simpa using this
  · split
    · decide
    · next display => simpa using display

/-- Unicode `White_Space`, which `str::trim` removes. -/
def isWhiteSpace (char : Char) : Bool :=
  let code := char.toNat
  (9 ≤ code && code ≤ 13) || code = 32 || code = 0x85 || code = 0xa0 || code = 0x1680 ||
    (0x2000 ≤ code && code ≤ 0x200a) || code = 0x2028 || code = 0x2029 || code = 0x202f ||
    code = 0x205f || code = 0x3000

/-- `str::trim`. -/
def trim (text : String) : String :=
  String.ofList (((text.toList.dropWhile isWhiteSpace).reverse.dropWhile isWhiteSpace).reverse)

/-! ## Relative paths -/

/-- A `/`-separated path, kept as it was written. -/
structure RelativePathBuf where
  inner : String
deriving DecidableEq

inductive Component where
  | curDir
  | parentDir
  | normal (name : List Char)
deriving DecidableEq

namespace Component

def ofSegment (segment : List Char) : Component :=
  if segment = ['.'] then curDir else if segment = ['.', '.'] then parentDir else normal segment

def isNormal : Component → Bool
  | normal _ => true
  | _ => false

end Component

/-- One step of `Components::next` on the text that is left. -/
def nextComponent (source : List Char) : Option (Component × List Char) :=
  let source := source.dropWhile (· == '/')
  match source.takeWhile (· != '/') with
  | [] => none
  | name => some (Component.ofSegment name, (source.dropWhile (· != '/')).dropWhile (· == '/'))

/-- The text left after the components of a prefix, when the path starts with them. -/
def stripComponents : List Char → List Component → Option (List Char)
  | source, [] => some source
  | source, expected :: rest =>
      match nextComponent source with
      | none => none
      | some (found, source) => if found = expected then stripComponents source rest else none

namespace RelativePathBuf

def components (path : RelativePathBuf) : List Component :=
  (segments path.inner.toList).map Component.ofSegment

/-- `strip_prefix`: what is left of the path's text. -/
def stripPrefix (path base : RelativePathBuf) : Option RelativePathBuf :=
  (stripComponents path.inner.toList base.components).map fun rest => ⟨String.ofList rest⟩

/-- The text of a path without the separator it may start with. -/
def withoutSeparator : List Char → List Char
  | '/' :: rest => rest
  | text => text

/-- `join`: appends a path, which the separator of its start does not make absolute. -/
def join (path other : RelativePathBuf) : RelativePathBuf :=
  let front := path.inner.toList
  let front := if !front.isEmpty && front.getLast? != some '/' then front ++ ['/'] else front
  ⟨String.ofList (front ++ withoutSeparator other.inner.toList)⟩

end RelativePathBuf

/-- A viewer Tab names its file relative to the Workspace root: `valid_diff_path`. -/
def validDiffPath (path : RelativePathBuf) : Bool :=
  !path.inner.isEmpty && path.components.all Component.isNormal

/-! ## What a rename does to a path -/

theorem segments_takeWhile_dropWhile (text : List Char) :
    segments text =
      segments (text.takeWhile (· != '/')) ++ segments (text.dropWhile (· != '/')) := by
  have whole := @List.takeWhile_append_dropWhile _ (· != '/') text
  rcases tail : text.dropWhile (· != '/') with _ | ⟨next, others⟩
  · rw [tail, List.append_nil] at whole
    simp [whole]
  · have atSeparator : next = '/' := by
      have := @List.head_dropWhile_not _ (· != '/') text (by simp [tail])
      simpa [tail] using this
    subst atSeparator
    rw [tail] at whole
    conv_lhs => rw [← whole]
    rw [segments_append_separator, segments_separator]

theorem segments_nextComponent {source rest : List Char} {found : Component}
    (next : nextComponent source = some (found, rest)) :
    (segments source).map Component.ofSegment =
      found :: (segments rest).map Component.ofSegment := by
  simp only [nextComponent] at next
  split at next
  · contradiction
  · next name taken =>
      simp only [Option.some.injEq, Prod.mk.injEq] at next
      rcases next with ⟨rfl, rfl⟩
      have plain : '/' ∉ (source.dropWhile (· == '/')).takeWhile (· != '/') := by
        intro contained
        exact absurd (List.all_eq_true.mp List.all_takeWhile _ contained) (by simp)
      rw [← segments_dropWhile_separator source, segments_takeWhile_dropWhile,
        segments_of_not_mem plain taken, segments_dropWhile_separator]
      simp

theorem stripComponents_components {source rest : List Char} {expected : List Component}
    (stripped : stripComponents source expected = some rest) :
    (segments source).map Component.ofSegment =
      expected ++ (segments rest).map Component.ofSegment := by
  induction expected generalizing source with
  | nil =>
      rcases Option.some.inj stripped with rfl
      rfl
  | cons head tail ih =>
      simp only [stripComponents] at stripped
      split at stripped
      · contradiction
      · next found after next =>
          split_ifs at stripped with same
          rw [segments_nextComponent next, ih stripped, same, List.cons_append]

@[simp]
theorem RelativePathBuf.segments_withoutSeparator (text : List Char) :
    segments (withoutSeparator text) = segments text := by
  unfold withoutSeparator
  split <;> simp

theorem RelativePathBuf.components_join (path other : RelativePathBuf) :
    (path.join other).components = path.components ++ other.components := by
  simp only [join, components, String.toList_ofList, ← List.map_append]
  congr 1
  rcases ending : path.inner.toList.getLast? with _ | last
  · have nothing : path.inner.toList = [] := List.getLast?_eq_none_iff.mp ending
    simp [nothing]
  · rcases List.getLast?_eq_some_iff.mp ending with ⟨front, whole⟩
    by_cases separator : last = '/'
    · subst separator
      simp [whole, segments_append_separator]
    · have joined : (front ++ [last] ++ ['/']) ++ withoutSeparator other.inner.toList =
          (front ++ [last]) ++ '/' :: withoutSeparator other.inner.toList := by simp
      simp only [whole]
      rw [if_pos (by simp [separator]), joined, segments_append_separator, segments_withoutSeparator]

/-- A viewer that follows a rename to a valid path keeps naming a valid path. -/
theorem validDiffPath_join {target path base rest : RelativePathBuf}
    (targetValid : validDiffPath target = true) (pathValid : validDiffPath path = true)
    (stripped : path.stripPrefix base = some rest) :
    validDiffPath (target.join rest) = true := by
  simp only [validDiffPath, Bool.and_eq_true, Bool.not_eq_true', List.all_eq_true] at *
  rcases Option.map_eq_some_iff.mp stripped with ⟨left, leftEq, rfl⟩
  have whole := stripComponents_components leftEq
  refine ⟨?_, ?_⟩
  · -- the target's text is not empty, and the joined text starts with it
    have nonempty : target.inner.toList ≠ [] := by
      intro nothing
      simp [String.toList_eq_nil_iff.mp nothing] at targetValid
    simp only [RelativePathBuf.join]
    rw [String.isEmpty_eq_false_iff, ne_eq, ← String.toList_eq_nil_iff, String.toList_ofList]
    split <;> simp [nonempty]
  · rw [RelativePathBuf.components_join]
    intro component contained
    rcases List.mem_append.mp contained with inTarget | inRest
    · exact targetValid.2 component inTarget
    · refine pathValid.2 component ?_
      simp only [RelativePathBuf.components, String.toList_ofList] at whole inRest ⊢
      rw [whole]
      exact List.mem_append_right _ inRest

end Condr
