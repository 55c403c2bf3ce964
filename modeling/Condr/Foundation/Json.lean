import Condr.Foundation.Entries
import Mathlib.Data.Nat.Notation
import Mathlib.Algebra.GroupWithZero.Nat

/-!
# JSON values

A document as the parser gives it: an object keeps its fields in the order they were written or
added, and two objects are the same when they have the same fields, in any order. The size of a
value counts every value within it, which no spelling of the document changes.
-/

/-- A number is a whole one, or the bits of a finite binary64. -/
inductive JsonNumber where
  | int (value : Int)
  | float (bits : BitVec 64)
deriving DecidableEq

inductive Json where
  | null
  | bool (value : Bool)
  | number (value : JsonNumber)
  | string (value : String)
  | array (items : List Json)
  | object (fields : List (String × Json))

abbrev JsonMap := List (String × Json)

/-- The two zeros are the same number. -/
def JsonNumber.same : JsonNumber → JsonNumber → Bool
  | .int value, .int other => value = other
  | .float bits, .float other => bits = other || (bits <<< 1 = 0 && other <<< 1 = 0)
  | _, _ => false

namespace Json

/-! ## Reading a value -/

def asArray : Json → Option (List Json)
  | .array items => some items
  | _ => none

def asObject : Json → Option JsonMap
  | .object fields => some fields
  | _ => none

def asStr : Json → Option String
  | .string value => some value
  | _ => none

/-- What a field of an object holds. -/
def get (key : String) : Json → Option Json
  | .object fields => Entries.get key fields
  | _ => none

/-- The items of a field that holds an array. -/
def arrayField (key : String) (value : Json) : Option (List Json) := (value.get key).bind asArray

/-! ## Comparing values -/

mutual

def same : Json → Json → Bool
  | null, null => true
  | bool value, bool other => value == other
  | number value, number other => value.same other
  | string value, string other => value == other
  | array items, array others => sameItems items others
  | object fields, object others =>
      fields.length == others.length && sameFields fields others
  | _, _ => false

def sameItems : List Json → List Json → Bool
  | [], [] => true
  | item :: items, other :: others => item.same other && sameItems items others
  | _, _ => false

def sameFields : List (String × Json) → List (String × Json) → Bool
  | [], _ => true
  | (key, value) :: fields, others =>
      (match Entries.get key others with
      | some other => value.same other
      | none => false) && sameFields fields others

end

/-! ## The size of a value -/

mutual

def size : Json → ℕ
  | null => 1
  | bool _ => 1
  | number _ => 1
  | string _ => 1
  | array items => 1 + sizeItems items
  | object fields => 1 + sizeFields fields

def sizeItems : List Json → ℕ
  | [] => 0
  | item :: items => item.size + sizeItems items

def sizeFields : List (String × Json) → ℕ
  | [] => 0
  | (_, value) :: fields => value.size + sizeFields fields

end

theorem size_pos (value : Json) : 0 < value.size := by
  cases value <;> simp only [size] <;> omega

theorem sizeItems_eq (items : List Json) : sizeItems items = (items.map size).sum := by
  induction items with
  | nil => rfl
  | cons item items ih => rw [sizeItems, ih, List.map_cons, List.sum_cons]

theorem sizeFields_eq (fields : JsonMap) : sizeFields fields = (fields.map (·.2.size)).sum := by
  induction fields with
  | nil => rfl
  | cons field fields ih =>
      rcases field with ⟨key, value⟩
      rw [sizeFields, ih, List.map_cons, List.sum_cons]

/-- What is set takes the room of what was there. -/
theorem sizeFields_set {key : String} {old : Json} {fields : JsonMap}
    (found : Entries.get key fields = some old) (value : Json) :
    sizeFields (Entries.set key value fields) + old.size = sizeFields fields + value.size := by
  induction fields with
  | nil => cases found
  | cons field rest ih =>
      rcases field with ⟨first, here⟩
      rw [Entries.get] at found
      rw [Entries.set]
      split_ifs at found ⊢ with same
      · cases found
        rw [sizeFields, sizeFields]
        omega
      · rw [sizeFields, sizeFields]
        have step := ih found
        omega

theorem sizeFields_swapRemove {key : String} {old : Json} {fields : JsonMap}
    (found : Entries.get key fields = some old) :
    sizeFields (Entries.swapRemove key fields) + old.size = sizeFields fields := by
  induction fields with
  | nil => cases found
  | cons field rest ih =>
      rcases field with ⟨first, here⟩
      rw [Entries.get] at found
      rw [Entries.swapRemove]
      split_ifs at found ⊢ with same
      · cases found
        rcases List.eq_nil_or_concat rest with rfl | ⟨front, last, rfl⟩
        · simp [sizeFields]
        · simp only [List.concat_eq_append, List.getLast?_concat, List.dropLast_concat,
            sizeFields_eq, List.map_cons, List.map_append, List.sum_cons, List.sum_append,
            List.map_nil, List.sum_nil]
          omega
      · rw [sizeFields, sizeFields]
        have step := ih found
        omega

end Json
