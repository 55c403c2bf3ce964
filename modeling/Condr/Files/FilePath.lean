import Condr.Foundation.Utf8
import Condr.Session.Path

/-!
# Native paths by their components

The paths of a Unix machine, read component by component as `Path::components` reads
them. How often a separator is repeated is not kept, and a `.` is kept only where it
starts a relative path.
-/

namespace Condr

/-- A name in a path: UTF-8 text, or other bytes. -/
inductive OsName where
  | utf8 (text : String)
  | other (bytes : List UInt8)
deriving DecidableEq

namespace OsName

def toStr : OsName → Option String
  | utf8 text => some text
  | other _ => none

def toStringLossy : OsName → String
  | utf8 text => text
  | other bytes => Utf8.fromUtf8Lossy bytes

/-- What a directory can hold: a name without separator, and neither of the special ones. -/
def Ordinary : OsName → Prop
  | utf8 text => text ≠ "" ∧ '/' ∉ text.toList ∧ text ≠ "." ∧ text ≠ ".."
  | other bytes => bytes ≠ [] ∧ 47 ∉ bytes

instance : DecidablePred Ordinary
  | utf8 _ => inferInstanceAs (Decidable (_ ∧ _ ∧ _ ∧ _))
  | other _ => inferInstanceAs (Decidable (_ ∧ _))

end OsName

/-- The name of an entry of a directory. -/
structure FileName where
  name : OsName
  ordinary : name.Ordinary
deriving DecidableEq

inductive FilePart where
  | curDir
  | parentDir
  | normal (name : FileName)
deriving DecidableEq

structure FilePath where
  absolute : Bool
  parts : List FilePart
deriving DecidableEq

namespace FilePart

/-- A nonempty segment of a path's text. -/
def ofSegment (segment : List Char) : FilePart :=
  if ordinary : (OsName.utf8 (String.ofList segment)).Ordinary then normal ⟨_, ordinary⟩
  else if segment = ['.', '.'] then parentDir
  else curDir

def toStringLossy : FilePart → List Char
  | curDir => ['.']
  | parentDir => ['.', '.']
  | normal name => name.name.toStringLossy.toList

end FilePart

namespace FilePath

/-- `Path::new`, of text. -/
def ofText (text : List Char) : FilePath :=
  let parts := (segments text).map FilePart.ofSegment
  if text.head? = some '/' then ⟨true, parts.filter (· ≠ .curDir)⟩
  else ⟨false, parts.take 1 ++ (parts.drop 1).filter (· ≠ .curDir)⟩

def toStringLossy (path : FilePath) : List Char :=
  (if path.absolute then ['/'] else []) ++
    ['/'].intercalate (path.parts.map FilePart.toStringLossy)

def join (path other : FilePath) : FilePath :=
  if other.absolute || (!path.absolute && path.parts.isEmpty) then other
  else ⟨path.absolute, path.parts ++ other.parts.filter (· ≠ .curDir)⟩

def fileName (path : FilePath) : Option FileName :=
  match path.parts.getLast? with
  | some (.normal name) => some name
  | _ => none

def parent (path : FilePath) : Option FilePath :=
  if path.parts = [] then none else some ⟨path.absolute, path.parts.dropLast⟩

/-- `strip_prefix`, of a relative path with one component. -/
def stripPart (path : FilePath) (part : FilePart) : Option FilePath :=
  if path.absolute then none
  else
    match path.parts with
    | [] => none
    | first :: rest => if first = part then some ⟨false, rest⟩ else none

/-- The path of an entry of a directory. -/
def child (path : FilePath) (name : FileName) : FilePath :=
  ⟨path.absolute, path.parts ++ [.normal name]⟩

/-! ## Where a path leads -/

/-- One component, with links resolved. -/
def follow (place : List FileName) : FilePart → List FileName
  | .curDir => place
  | .parentDir => place.dropLast
  | .normal name => place ++ [name]

/-- The place a path leads to from the working directory, as the names on the way there from
the root. -/
def resolve (cwd : List FileName) (path : FilePath) : List FileName :=
  path.parts.foldl follow (if path.absolute then [] else cwd)

theorem resolve_child (cwd : List FileName) (path : FilePath) (name : FileName) :
    (path.child name).resolve cwd = path.resolve cwd ++ [name] := by
  rw [resolve, child, List.foldl_append]
  rfl

@[simp]
theorem parent_child (path : FilePath) (name : FileName) :
    (path.child name).parent = some path := by
  simp [parent, child]

/-! ## Text that is one component -/

/-- The text of an ordinary name. -/
def Plain (text : List Char) : Prop := (OsName.utf8 (String.ofList text)).Ordinary

instance : DecidablePred Plain := fun _ => inferInstanceAs (Decidable (OsName.Ordinary _))

theorem plain_iff {text : List Char} :
    Plain text ↔ text ≠ [] ∧ '/' ∉ text ∧ text ≠ ['.'] ∧ text ≠ ['.', '.'] := by
  have special : ∀ word : List Char, String.ofList text = String.ofList word ↔ text = word := by
    intro word
    rw [← String.toList_inj, String.toList_ofList, String.toList_ofList]
  simp only [Plain, OsName.Ordinary, String.toList_ofList, ne_eq]
  rw [← special [], ← special ['.'], ← special ['.', '.']]

/-- More than dots at its end keeps a name ordinary. -/
theorem Plain.append {front back : List Char} (plain : Plain front) (whole : '/' ∉ back)
    (more : ∃ character ∈ back, character ≠ '.') : Plain (front ++ back) := by
  have named := plain_iff.mp plain
  rcases more with ⟨character, contained, undotted⟩
  have distinct : ∀ dots : List Char, (∀ dot ∈ dots, dot = '.') → front ++ back ≠ dots := by
    intro dots all same
    exact undotted (all character (same ▸ List.mem_append_right _ contained))
  rw [plain_iff]
  refine ⟨?_, ?_, distinct _ (by simp), distinct _ (by simp)⟩
  · simp [named.1]
  · simp [named.2.1, whole]

/-- The name a plain text is. -/
def nameOf (text : List Char) (plain : Plain text) : FileName := ⟨_, plain⟩

@[simp]
theorem nameOf_text {text : List Char} (plain : Plain text) :
    (nameOf text plain).name = .utf8 (String.ofList text) := rfl

theorem ofSegment_plain {text : List Char} (plain : Plain text) :
    FilePart.ofSegment text = .normal (nameOf text plain) := dif_pos plain

/-- The text of an ordinary name is a path with one component. -/
theorem ofText_plain {text : List Char} (plain : Plain text) :
    ofText text = ⟨false, [.normal (nameOf text plain)]⟩ := by
  rcases plain_iff.mp plain with ⟨nonempty, whole, -⟩
  have relative : text.head? ≠ some '/' := by
    intro separator
    exact whole (List.mem_of_head? separator)
  simp [ofText, relative, segments_of_not_mem whole nonempty, ofSegment_plain plain]

/-- Joining the text of an ordinary name enters a directory. -/
theorem join_ofText_plain {text : List Char} (plain : Plain text) (path : FilePath) :
    path.join (ofText text) = path.child (nameOf text plain) := by
  rcases path with ⟨absolute, parts⟩
  rw [ofText_plain plain, join]
  split_ifs with nowhere
  · simp only [Bool.false_or, Bool.and_eq_true, Bool.not_eq_true', List.isEmpty_iff] at nowhere
    simp [child, nowhere.1, nowhere.2]
  · simp [child]

/-! ## Text that reads back -/

/-- Its text is the text of one component again. -/
def Legible : FilePart → Prop
  | .curDir => False
  | .parentDir => True
  | .normal name => name.name.toStr ≠ none

theorem ofSegment_toStringLossy {part : FilePart} (legible : Legible part) :
    FilePart.ofSegment part.toStringLossy = part := by
  cases part with
  | curDir => exact absurd legible id
  | parentDir => decide
  | normal name =>
      rcases name with ⟨text | bytes, ordinary⟩
      · simp only [FilePart.toStringLossy, OsName.toStringLossy, FilePart.ofSegment,
          String.ofList_toList]
        rw [dif_pos ordinary]
      · exact absurd rfl legible

theorem toStringLossy_segment {part : FilePart} (legible : Legible part) :
    part.toStringLossy ≠ [] ∧ '/' ∉ part.toStringLossy := by
  cases part with
  | curDir => exact absurd legible id
  | parentDir => decide
  | normal name =>
      rcases name with ⟨text | bytes, ordinary⟩
      · refine ⟨?_, ordinary.2.1⟩
        intro nothing
        exact ordinary.1 (String.toList_eq_nil_iff.mp nothing)
      · exact absurd rfl legible

theorem segments_intercalate {texts : List (List Char)}
    (plain : ∀ text ∈ texts, text ≠ [] ∧ '/' ∉ text) :
    segments (['/'].intercalate texts) = texts := by
  induction texts with
  | nil => rfl
  | cons text rest ih =>
      have whole := plain text (by simp)
      have later := ih fun other contained => plain other (by simp [contained])
      cases rest with
      | nil => simpa using segments_of_not_mem whole.2 whole.1
      | cons next others =>
          have split : ['/'].intercalate (text :: next :: others) =
              text ++ '/' :: ['/'].intercalate (next :: others) := by simp [List.intercalate]
          rw [split, segments_append_separator, later, segments_of_not_mem whole.2 whole.1]
          rfl

/-- An absolute path is read back from its text. -/
theorem ofText_toStringLossy {path : FilePath} (absolute : path.absolute = true)
    (legible : ∀ part ∈ path.parts, Legible part) : ofText path.toStringLossy = path := by
  have texts : ∀ text ∈ path.parts.map FilePart.toStringLossy, text ≠ [] ∧ '/' ∉ text := by
    intro text contained
    rcases List.mem_map.mp contained with ⟨part, inPath, rfl⟩
    exact toStringLossy_segment (legible part inPath)
  have parts : (path.parts.map FilePart.toStringLossy).map FilePart.ofSegment = path.parts := by
    rw [List.map_map]
    conv_rhs => rw [← List.map_id path.parts]
    apply List.map_congr_left
    intro part inPath
    exact ofSegment_toStringLossy (legible part inPath)
  have proper : path.parts.filter (· ≠ .curDir) = path.parts := by
    rw [List.filter_eq_self]
    intro part inPath
    have := legible part inPath
    cases part <;> simp_all [Legible]
  have start : path.toStringLossy =
      '/' :: ['/'].intercalate (path.parts.map FilePart.toStringLossy) := by
    simp [toStringLossy, absolute]
  rw [ofText, start, segments_separator, segments_intercalate texts, parts]
  simp only [List.head?_cons, if_true, proper]
  rw [← absolute]

end FilePath

end Condr
