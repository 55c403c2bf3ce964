import Condr.Session.Path
import Mathlib.Data.Int.Notation

/-!
# From wire values to domain values

The helpers every decoder uses. A wire value is rejected as wrong on any protocol,
or as one that a newer protocol sent.
-/

namespace Condr

inductive WireError where
  | malformed (reason : String)
  | unknown
deriving DecidableEq

abbrev WireResult (α : Type) := Except WireError α

def malformed {α : Type} (reason : String) : WireResult α :=
  .error (.malformed reason)

/-- A message field every message of its kind has always carried. -/
def required {α : Type} (value : Option α) (field : String) : WireResult α :=
  match value with
  | none => malformed (field ++ " is missing")
  | some value => .ok value

/-- A oneof: unset is indistinguishable from a member added later. -/
def member {α : Type} (value : Option α) : WireResult α :=
  match value with
  | none => .error .unknown
  | some value => .ok value

/-- An enum without a fallback, read through the values that are defined. -/
def enumValue {α : Type} (raw : ℤ) (field : String) (defined : ℤ → Option α) : WireResult α :=
  if raw = 0 then malformed (field ++ " is unspecified")
  else match defined raw with
  | none => .error .unknown
  | some value => .ok value

/-- An enum whose unknown values decode to a fallback. -/
def enumOr {α : Type} (raw : ℤ) (field : String) (fallback : α) (defined : ℤ → Option α) :
    WireResult α :=
  match enumValue raw field defined with
  | .error .unknown => .ok fallback
  | other => other

def pathText (path : PathBuf) : Except String String :=
  match path.toStr with
  | none => .error ("path " ++ path.toStringLossy ++ " is not valid UTF-8")
  | some text => .ok text

def optionalPathText : Option PathBuf → Except String (Option String)
  | none => .ok none
  | some path => (pathText path).map some

/-- What `relative_path` lets through: no separator first, and no backslash. -/
def isRelativeText (text : String) : Bool :=
  text.toList.head? != some '/' && !text.toList.contains '\\'

def relativePath (text : String) : WireResult RelativePathBuf :=
  if !isRelativeText text then malformed (text.quote ++ " is not a relative path")
  else .ok ⟨text⟩

/-- `map(..).transpose()`. -/
def transposeMap {α β ε : Type} (convert : α → Except ε β) : Option α → Except ε (Option β)
  | none => .ok none
  | some value => (convert value).map some

/-- Rejects `count` items of `what` above `limit`. -/
def bounded (count limit : ℕ) (what : String) : WireResult Unit :=
  if limit < count then
    malformed (toString count ++ " " ++ what ++ " exceed the limit of " ++ toString limit)
  else .ok ()

theorem pathText_eq_ok {path : PathBuf} {text : String} :
    pathText path = .ok text ↔ path = .utf8 text := by
  cases path <;> simp [pathText, PathBuf.toStr]

theorem optionalPathText_eq_ok {path : Option PathBuf} {text : Option String} :
    optionalPathText path = .ok text ↔ path = text.map .utf8 := by
  rcases path with _ | path
  · cases text <;> simp [optionalPathText]
  · simp only [optionalPathText]
    rcases outcome : pathText path with error | found
    · simp only [Except.map, reduceCtorEq, false_iff]
      rintro same
      rcases text with _ | text
      · simp at same
      · rcases Option.some.inj same with rfl
        simp [pathText, PathBuf.toStr] at outcome
    · rcases pathText_eq_ok.mp outcome with rfl
      cases text <;> simp [Except.map]

theorem bounded_eq_ok {count limit : ℕ} {what : String} {done : Unit} :
    bounded count limit what = .ok done ↔ count ≤ limit := by
  unfold bounded
  split_ifs with above
  · simpa [malformed] using above
  · simpa using above

theorem relativePath_eq_ok {text : String} {path : RelativePathBuf} :
    relativePath text = .ok path ↔ isRelativeText text = true ∧ path = ⟨text⟩ := by
  unfold relativePath
  by_cases relative : isRelativeText text = true
  · simp [relative, eq_comm]
  · simp [relative, malformed]

/-- A decoder that takes back the values with a property, and returns no other value, does so
for optional values. -/
theorem transposeMap_map_eq_ok_iff {α β ε : Type} {encode : α → β} {decode : β → Except ε α}
    {property : α → Prop}
    (spec : ∀ value other, decode (encode value) = .ok other ↔ property value ∧ other = value)
    {value other : Option α} :
    transposeMap decode (value.map encode) = .ok other ↔
      (∀ given, value = some given → property given) ∧ other = value := by
  rcases value with _ | given
  · simp [transposeMap, eq_comm]
  · have same := spec given
    rcases outcome : decode (encode given) with error | converted <;> rw [outcome] at same
    · have refused : ¬property given := fun holds => by simpa using (same given).mpr ⟨holds, rfl⟩
      simp [transposeMap, outcome, Except.map, refused]
    · rcases (same converted).mp rfl with ⟨holds, rfl⟩
      simp [transposeMap, outcome, Except.map, holds, @eq_comm _ other]

end Condr
