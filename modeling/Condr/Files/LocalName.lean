import Condr.Session.Path
import Mathlib.Data.List.DropRight

/-!
# Local names

The name a save dialog suggests for a file of another machine: what this machine
cannot hold is repaired. The rules are Windows' own or the others'.
-/

namespace Condr

/-- The device names of `valid_windows_name`. -/
def reservedWindowsNames : List String :=
  ["CON", "PRN", "AUX", "NUL", "COM1", "COM2", "COM3", "COM4", "COM5", "COM6", "COM7", "COM8",
    "COM9", "LPT1", "LPT2", "LPT3", "LPT4", "LPT5", "LPT6", "LPT7", "LPT8", "LPT9"]

/-- The part before the first dot, its end trimmed. -/
def windowsStem (name : List Char) : List Char :=
  (name.takeWhile (· != '.')).rdropWhile isWhiteSpace

/-- `str::eq_ignore_ascii_case`; `Char.toLower` changes ASCII letters only. -/
def eqIgnoreAsciiCase (left right : List Char) : Bool :=
  left.map Char.toLower == right.map Char.toLower

/-- Windows strips these from the end of a name. -/
def isDotOrSpace (char : Char) : Bool := char == '.' || char == ' '

def endsWithDotOrSpace (name : List Char) : Bool := name.getLast?.any isDotOrSpace

def windowsForbidden : List Char := [':', '<', '>', '"', '|', '?', '*']

def isBelowSpace (char : Char) : Bool := char.toNat < 32

def validWindowsName (name : List Char) : Bool :=
  !(name.any fun char => windowsForbidden.contains char) &&
    !name.any isBelowSpace &&
    !endsWithDotOrSpace name &&
    !(reservedWindowsNames.any fun reserved =>
      eqIgnoreAsciiCase (windowsStem name) reserved.toList)

/-- Whether this machine can hold `name` as an ordinary file. -/
def validLocalName (windows : Bool) (name : List Char) : Bool :=
  !name.isEmpty && name != ['.'] && name != ['.', '.'] &&
    !(name.contains '/' || name.contains '\x00') &&
    (!windows || (!name.contains '\\' && validWindowsName name))

/-- The characters `local_name` replaces. -/
def replacedCharacters : List Char :=
  [':', '<', '>', '"', '|', '?', '*', '/', '\\', '\x00']

def replaceCharacter (char : Char) : Char :=
  if replacedCharacters.contains char then '_' else char

def trimmedName (name : List Char) : List Char :=
  (name.map replaceCharacter).rdropWhile isDotOrSpace

/-- `name` with what this machine cannot hold replaced by `_`, for a save dialog's
suggestion. -/
def localName (windows : Bool) (name : List Char) : List Char :=
  if validLocalName windows name then name
  else if validLocalName windows (trimmedName name) then trimmedName name
  else '_' :: trimmedName name

/-! ## What the repair leaves -/

theorem replaceCharacter_not_replaced (char : Char) :
    replaceCharacter char ∉ replacedCharacters := by
  unfold replaceCharacter
  split
  · decide
  · next kept => simpa using kept

theorem not_mem_replaced_of_mem_trimmedName {name : List Char} {char : Char}
    (mem : char ∈ trimmedName name) : char ∉ replacedCharacters := by
  have kept : trimmedName name <+: name.map replaceCharacter := List.rdropWhile_prefix _ _
  rcases List.mem_map.mp (kept.subset mem) with ⟨original, _, rfl⟩
  exact replaceCharacter_not_replaced original

theorem trimmedName_last (name : List Char) :
    endsWithDotOrSpace (trimmedName name) = false := by
  unfold endsWithDotOrSpace
  by_cases empty : trimmedName name = []
  · simp [empty]
  · have last := List.rdropWhile_last_not isDotOrSpace (name.map replaceCharacter) empty
    rw [List.getLast?_eq_getLast_of_ne_nil empty]
    exact Bool.eq_false_iff.mpr last

/-- A control character other than NUL is kept, and NUL is replaced. -/
theorem replaceCharacter_isBelowSpace (char : Char) :
    isBelowSpace (replaceCharacter char) = true ↔
      isBelowSpace char = true ∧ char ≠ '\x00' := by
  unfold replaceCharacter
  split
  · next replaced =>
      have : isBelowSpace '_' = false := by decide
      simp only [this, Bool.false_eq_true, false_iff, not_and, not_not]
      intro control
      have cases := List.contains_iff_mem.mp replaced
      simp only [replacedCharacters, List.mem_cons, List.not_mem_nil, or_false] at cases
      rcases cases with rfl | rfl | rfl | rfl | rfl | rfl | rfl | rfl | rfl | rfl
      all_goals first | rfl | exact absurd control (by decide)
  · next kept =>
      have : char ≠ '\x00' := by
        intro zero
        exact kept (by simp [zero, replacedCharacters])
      simp [this]

/-- A name has a control character left after the repair exactly when it had one other than
NUL. -/
theorem trimmedName_any_isBelowSpace (name : List Char) :
    (trimmedName name).any isBelowSpace = true ↔
      ∃ char ∈ name, isBelowSpace char = true ∧ char ≠ '\x00' := by
  have trimmed : ∀ text : List Char,
      (text.rdropWhile isDotOrSpace).any isBelowSpace = text.any isBelowSpace := by
    intro text
    have dropped : (text.rtakeWhile isDotOrSpace).any isBelowSpace = false := by
      rw [List.any_eq_false]
      intro char mem control
      have blank := List.mem_rtakeWhile_imp mem
      simp only [isDotOrSpace, Bool.or_eq_true, beq_iff_eq] at blank
      rcases blank with rfl | rfl
      all_goals exact absurd control (by decide)
    calc (text.rdropWhile isDotOrSpace).any isBelowSpace
        = (text.rdropWhile isDotOrSpace ++ text.rtakeWhile isDotOrSpace).any isBelowSpace := by
          rw [List.any_append, dropped, Bool.or_false]
      _ = text.any isBelowSpace := by rw [List.rdropWhile_append_rtakeWhile]
  rw [trimmedName, trimmed, List.any_eq_true]
  constructor
  · rintro ⟨char, mem, control⟩
    rcases List.mem_map.mp mem with ⟨original, originalMem, rfl⟩
    exact ⟨original, originalMem, (replaceCharacter_isBelowSpace original).mp control⟩
  · rintro ⟨char, mem, control⟩
    exact ⟨replaceCharacter char, List.mem_map_of_mem mem,
      (replaceCharacter_isBelowSpace char).mpr control⟩

/-! ## Valid names -/

theorem validLocalName_iff (windows : Bool) (name : List Char) :
    validLocalName windows name = true ↔
      name ≠ [] ∧ name ≠ ['.'] ∧ name ≠ ['.', '.'] ∧ '/' ∉ name ∧ '\x00' ∉ name ∧
        (windows = true → '\\' ∉ name ∧ validWindowsName name = true) := by
  cases windows <;> simp [validLocalName, and_assoc]

theorem validWindowsName_iff (name : List Char) :
    validWindowsName name = true ↔
      (∀ char ∈ name, char ∉ windowsForbidden) ∧ name.any isBelowSpace = false ∧
        endsWithDotOrSpace name = false ∧
        ∀ reserved ∈ reservedWindowsNames,
          eqIgnoreAsciiCase (windowsStem name) reserved.toList = false := by
  simp [validWindowsName, and_assoc]

/-- A name that starts with `_` is no device name. -/
theorem underscore_not_reserved (name : List Char) :
    ∀ reserved ∈ reservedWindowsNames,
      eqIgnoreAsciiCase (windowsStem ('_' :: name)) reserved.toList = false := by
  have stem : ∃ rest, windowsStem ('_' :: name) = '_' :: rest := by
    have blank : isWhiteSpace '_' = false := by decide
    unfold windowsStem
    have split : (('_' :: name).takeWhile (· != '.')).rdropWhile isWhiteSpace ++ _ = _ :=
      List.rdropWhile_append_rtakeWhile
    cases dropped : (('_' :: name).takeWhile (· != '.')).rdropWhile isWhiteSpace with
    | nil =>
        have first := List.rdropWhile_eq_nil_iff.mp dropped '_' (by simp)
        rw [blank] at first
        exact absurd first (by decide)
    | cons head rest =>
        rw [dropped] at split
        simp only [List.cons_append] at split
        have same : head = '_' := by
          simpa using congrArg List.head? split
        exact ⟨rest, by rw [same]⟩
  intro reserved mem
  rcases stem with ⟨rest, equal⟩
  rw [equal]
  have heads : ∀ reserved ∈ reservedWindowsNames,
      (reserved.toList.map Char.toLower).head? ≠ some '_' := by decide
  unfold eqIgnoreAsciiCase
  rw [beq_eq_false_iff_ne]
  intro same
  apply heads reserved mem
  rw [← same]
  rfl

theorem endsWithDotOrSpace_cons_trimmed (name : List Char) :
    endsWithDotOrSpace ('_' :: trimmedName name) = false := by
  by_cases empty : trimmedName name = []
  · rw [empty]
    decide
  · have last := trimmedName_last name
    unfold endsWithDotOrSpace at last ⊢
    rwa [List.getLast?_cons_of_ne_nil empty]

/-- The last repair is valid unless a control character is left in it. -/
theorem validLocalName_underscore (windows : Bool) (name : List Char) :
    validLocalName windows ('_' :: trimmedName name) = true ↔
      (windows = true → (trimmedName name).any isBelowSpace = false) := by
  have plain : ∀ char ∈ '_' :: trimmedName name, char ∉ replacedCharacters := by
    intro char mem
    rcases List.mem_cons.mp mem with rfl | mem
    · decide
    · exact not_mem_replaced_of_mem_trimmedName mem
  have free : ∀ char ∈ replacedCharacters, char ∉ '_' :: trimmedName name :=
    fun char replaced mem => plain char mem replaced
  rw [validLocalName_iff]
  constructor
  · intro valid windowsRules
    have control := ((validWindowsName_iff _).mp (valid.2.2.2.2.2 windowsRules).2).2.1
    simpa [show isBelowSpace '_' = false by decide] using control
  · intro clean
    refine ⟨by simp, by simp, by simp, free '/' (by decide), free '\x00' (by decide), ?_⟩
    intro windowsRules
    refine ⟨free '\\' (by decide), (validWindowsName_iff _).mpr ⟨?_, ?_, ?_, ?_⟩⟩
    · intro char mem forbidden
      apply plain char mem
      have subset : windowsForbidden ⊆ replacedCharacters := by
        simp [windowsForbidden, replacedCharacters]
      exact subset forbidden
    · simpa [show isBelowSpace '_' = false by decide] using clean windowsRules
    · exact endsWithDotOrSpace_cons_trimmed name
    · exact underscore_not_reserved _

/-! ## The suggestion -/

/-- The suggested name is one this machine can hold, unless Windows' rules meet a control
character that is not repaired. -/
theorem validLocalName_localName_iff (windows : Bool) (name : List Char) :
    validLocalName windows (localName windows name) = true ↔
      (windows = true → ∀ char ∈ name, isBelowSpace char = true → char = '\x00') := by
  have controls : (trimmedName name).any isBelowSpace = false ↔
      ∀ char ∈ name, isBelowSpace char = true → char = '\x00' := by
    rw [← Bool.not_eq_true, trimmedName_any_isBelowSpace]
    push Not
    rfl
  unfold localName
  split
  · next valid =>
      refine iff_of_true valid ?_
      intro windowsRules char mem control
      have windowsName := (((validLocalName_iff _ _).mp valid).2.2.2.2.2 windowsRules).2
      have clean := ((validWindowsName_iff _).mp windowsName).2.1
      exact absurd control (List.any_eq_false.mp clean char mem)
  · split
    · next valid =>
        refine iff_of_true valid ?_
        intro windowsRules
        have windowsName := (((validLocalName_iff _ _).mp valid).2.2.2.2.2 windowsRules).2
        exact controls.mp ((validWindowsName_iff _).mp windowsName).2.1
    · rw [validLocalName_underscore, controls]

theorem localName_of_valid {windows : Bool} {name : List Char}
    (valid : validLocalName windows name = true) : localName windows name = name := by
  rw [localName, if_pos valid]

/-- The suggestion is valid, is the name itself for the valid names alone and is stable
exactly when Windows' rules meet no control character other than NUL. -/
theorem suggested_name_holds_iff (windows : Bool) (name : List Char) :
    (validLocalName windows (localName windows name) = true ∧
        (localName windows name = name ↔ validLocalName windows name = true) ∧
        localName windows (localName windows name) = localName windows name) ↔
      (windows = true → ∀ char ∈ name, isBelowSpace char = true → char = '\x00') := by
  rw [← validLocalName_localName_iff]
  constructor
  · intro holds
    exact holds.1
  · intro valid
    refine ⟨valid, ⟨?_, localName_of_valid⟩, localName_of_valid valid⟩
    intro same
    rwa [same] at valid

/-- Windows holds no tab in a name, and the suggestion keeps it. -/
theorem tab_suggestion_invalid :
    ¬ (validLocalName true (localName true "a\tb".toList) = true ∧
        (localName true "a\tb".toList = "a\tb".toList ↔
          validLocalName true "a\tb".toList = true) ∧
        localName true (localName true "a\tb".toList) = localName true "a\tb".toList) := by
  decide

example : localName true "aux .txt".toList = "_aux .txt".toList := by decide

end Condr
