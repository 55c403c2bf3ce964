import Mathlib.Data.List.Basic
import Mathlib.Tactic.Common

/-!
# Maps as lists of entries

A map with keys in order, as the list of its entries. Looking up a key after each of the changes
says what the change is.
-/

namespace Entries

universe u v

variable {Key : Type u} {Value : Type v} [DecidableEq Key]

def get (key : Key) : List (Key × Value) → Option Value
  | [] => none
  | (other, value) :: rest => if other = key then some value else get key rest

/-- The entry takes the place of the one with its key, or comes before the first later key. -/
def insert (before : Key → Key → Bool) (key : Key) (value : Value) :
    List (Key × Value) → List (Key × Value)
  | [] => [(key, value)]
  | (other, old) :: rest =>
      if other = key then (key, value) :: rest
      else if before key other then (key, value) :: (other, old) :: rest
      else (other, old) :: insert before key value rest

def erase (key : Key) (entries : List (Key × Value)) : List (Key × Value) :=
  entries.filter fun entry => entry.1 ≠ key

/-- Changes the value of one key. -/
def adjust (key : Key) (change : Value → Value) (entries : List (Key × Value)) :
    List (Key × Value) :=
  entries.map fun entry => if entry.1 = key then (entry.1, change entry.2) else entry

def mapValues (change : Value → Value) (entries : List (Key × Value)) : List (Key × Value) :=
  entries.map fun entry => (entry.1, change entry.2)

@[simp]
theorem get_nil (key : Key) : get key ([] : List (Key × Value)) = none := rfl

theorem get_cons (key other : Key) (value : Value) (rest : List (Key × Value)) :
    get key ((other, value) :: rest) = if other = key then some value else get key rest := rfl

theorem get_insert (before : Key → Key → Bool) (key other : Key) (value : Value)
    (entries : List (Key × Value)) :
    get other (insert before key value entries) =
      if key = other then some value else get other entries := by
  induction entries with
  | nil => rfl
  | cons entry rest ih =>
      rcases entry with ⟨first, old⟩
      simp only [insert]
      by_cases same : first = key
      · subst same
        simp only [if_true, get_cons]
        split_ifs <;> rfl
      · rw [if_neg same]
        by_cases earlier : before key first = true
        · rw [if_pos earlier, get_cons]
        · rw [if_neg earlier, get_cons, ih, get_cons]
          by_cases here : first = other
          · subst here
            rw [if_pos rfl, if_pos rfl, if_neg (Ne.symm same)]
          · rw [if_neg here, if_neg here]

theorem get_erase (key other : Key) (entries : List (Key × Value)) :
    get other (erase key entries) = if key = other then none else get other entries := by
  induction entries with
  | nil => simp [erase]
  | cons entry rest ih =>
      rcases entry with ⟨first, old⟩
      by_cases same : first = key
      · subst same
        have gone : erase first ((first, old) :: rest) = erase first rest := by simp [erase]
        rw [gone, ih, get_cons]
        split_ifs <;> rfl
      · have stays : erase key ((first, old) :: rest) = (first, old) :: erase key rest := by
          simp [erase, same]
        rw [stays, get_cons, ih, get_cons]
        by_cases here : first = other
        · subst here
          rw [if_pos rfl, if_pos rfl, if_neg (Ne.symm same)]
        · rw [if_neg here, if_neg here]

theorem get_adjust (key other : Key) (change : Value → Value) (entries : List (Key × Value)) :
    get other (adjust key change entries) =
      if key = other then (get other entries).map change else get other entries := by
  induction entries with
  | nil => simp [adjust]
  | cons entry rest ih =>
      rcases entry with ⟨first, old⟩
      have step : adjust key change ((first, old) :: rest) =
          (if first = key then (first, change old) else (first, old)) :: adjust key change rest :=
        rfl
      rw [step]
      by_cases same : first = key
      · subst same
        rw [if_pos rfl, get_cons, ih, get_cons]
        split_ifs <;> rfl
      · rw [if_neg same, get_cons, ih, get_cons]
        by_cases here : first = other
        · subst here
          rw [if_pos rfl, if_pos rfl, if_neg (Ne.symm same)]
        · rw [if_neg here, if_neg here]

theorem get_mapValues (change : Value → Value) (key : Key) (entries : List (Key × Value)) :
    get key (mapValues change entries) = (get key entries).map change := by
  induction entries with
  | nil => rfl
  | cons entry rest ih =>
      rcases entry with ⟨first, old⟩
      have step : mapValues change ((first, old) :: rest) =
          (first, change old) :: mapValues change rest := rfl
      rw [step, get_cons, get_cons, ih]
      split_ifs <;> rfl

/-! ## Maps in the order of insertion -/

/-- The entry takes the place of the one with its key, or comes last. -/
def set (key : Key) (value : Value) : List (Key × Value) → List (Key × Value)
  | [] => [(key, value)]
  | (other, old) :: rest =>
      if other = key then (key, value) :: rest else (other, old) :: set key value rest

theorem set_cons (key other : Key) (value old : Value) (rest : List (Key × Value)) :
    set key value ((other, old) :: rest) =
      if other = key then (key, value) :: rest else (other, old) :: set key value rest := rfl

/-- The entry comes last, unless its key is there. -/
def orInsert (key : Key) (value : Value) (entries : List (Key × Value)) : List (Key × Value) :=
  match get key entries with
  | none => entries ++ [(key, value)]
  | some _ => entries

/-- Removes an entry, whose place the last one takes. -/
def swapRemove (key : Key) : List (Key × Value) → List (Key × Value)
  | [] => []
  | (other, old) :: rest =>
      if other = key then
        match rest.getLast? with
        | none => []
        | some last => last :: rest.dropLast
      else (other, old) :: swapRemove key rest

theorem get_eq_none {key : Key} {entries : List (Key × Value)} :
    get key entries = none ↔ key ∉ entries.map Prod.fst := by
  induction entries with
  | nil => simp
  | cons entry rest ih =>
      rcases entry with ⟨first, old⟩
      rw [get_cons]
      by_cases same : first = key
      · simp [same]
      · rw [if_neg same, ih]
        simp [Ne.symm same]

theorem mem_of_get {key : Key} {value : Value} {entries : List (Key × Value)}
    (found : get key entries = some value) : (key, value) ∈ entries := by
  induction entries with
  | nil => cases found
  | cons entry rest ih =>
      rcases entry with ⟨first, old⟩
      rw [get_cons] at found
      split_ifs at found with same
      · cases found
        simp [same]
      · exact List.mem_cons_of_mem _ (ih found)

theorem get_of_mem {key : Key} {value : Value} {entries : List (Key × Value)}
    (nodup : (entries.map Prod.fst).Nodup) (contained : (key, value) ∈ entries) :
    get key entries = some value := by
  induction entries with
  | nil => cases contained
  | cons entry rest ih =>
      rw [List.map_cons, List.nodup_cons] at nodup
      rcases List.mem_cons.mp contained with rfl | later
      · rw [get_cons, if_pos rfl]
      · rcases entry with ⟨first, old⟩
        rw [get_cons, if_neg, ih nodup.2 later]
        rintro rfl
        exact nodup.1 (List.mem_map.mpr ⟨_, later, rfl⟩)

theorem get_append (key : Key) (front back : List (Key × Value)) :
    get key (front ++ back) = (get key front).or (get key back) := by
  induction front with
  | nil => rfl
  | cons entry rest ih =>
      rcases entry with ⟨first, old⟩
      rw [List.cons_append, get_cons, get_cons, ih]
      split_ifs <;> rfl

theorem get_set (key other : Key) (value : Value) (entries : List (Key × Value)) :
    get other (set key value entries) = if key = other then some value else get other entries := by
  induction entries with
  | nil => rfl
  | cons entry rest ih =>
      rcases entry with ⟨first, old⟩
      rw [set_cons]
      by_cases same : first = key
      · subst same
        rw [if_pos rfl, get_cons, get_cons]
        split_ifs <;> rfl
      · rw [if_neg same, get_cons, get_cons, ih]
        by_cases here : first = other
        · subst here
          rw [if_pos rfl, if_pos rfl, if_neg (Ne.symm same)]
        · rw [if_neg here, if_neg here]

theorem set_eq_self {key : Key} {value : Value} {entries : List (Key × Value)}
    (found : get key entries = some value) : set key value entries = entries := by
  induction entries with
  | nil => cases found
  | cons entry rest ih =>
      rcases entry with ⟨first, old⟩
      rw [get_cons] at found
      rw [set_cons]
      split_ifs at found ⊢ with same
      · rw [same, Option.some.inj found]
      · rw [ih found]

theorem set_set (key : Key) (value later : Value) (entries : List (Key × Value)) :
    set key later (set key value entries) = set key later entries := by
  induction entries with
  | nil => simp [set]
  | cons entry rest ih =>
      rcases entry with ⟨first, old⟩
      rw [set_cons, set_cons]
      by_cases same : first = key
      · rw [if_pos same, if_pos same, set_cons, if_pos rfl]
      · rw [if_neg same, if_neg same, set_cons, if_neg same, ih]

theorem set_append {key : Key} {value : Value} {entries : List (Key × Value)}
    (present : get key entries ≠ none) (more : List (Key × Value)) :
    set key value (entries ++ more) = set key value entries ++ more := by
  induction entries with
  | nil => exact absurd rfl present
  | cons entry rest ih =>
      rcases entry with ⟨first, old⟩
      rw [List.cons_append, set_cons, set_cons]
      by_cases same : first = key
      · rw [if_pos same, if_pos same, List.cons_append]
      · rw [get_cons, if_neg same] at present
        rw [if_neg same, if_neg same, ih present, List.cons_append]

/-- Setting a key that is there keeps the keys. -/
theorem map_fst_set {key : Key} {value : Value} {entries : List (Key × Value)}
    (present : get key entries ≠ none) :
    (set key value entries).map Prod.fst = entries.map Prod.fst := by
  induction entries with
  | nil => exact absurd rfl present
  | cons entry rest ih =>
      rcases entry with ⟨first, old⟩
      rw [set_cons]
      by_cases same : first = key
      · simp [same]
      · rw [get_cons, if_neg same] at present
        rw [if_neg same, List.map_cons, List.map_cons, ih present]

theorem set_of_absent {key : Key} {value : Value} {entries : List (Key × Value)}
    (absent : get key entries = none) : set key value entries = entries ++ [(key, value)] := by
  induction entries with
  | nil => rfl
  | cons entry rest ih =>
      rcases entry with ⟨first, old⟩
      rw [get_cons] at absent
      split_ifs at absent with same
      rw [set_cons, if_neg same, ih absent, List.cons_append]

theorem nodup_concat {key : Key} {value : Value} {entries : List (Key × Value)}
    (nodup : (entries.map Prod.fst).Nodup) (absent : get key entries = none) :
    ((entries ++ [(key, value)]).map Prod.fst).Nodup := by
  rw [List.map_append, List.map_singleton, List.nodup_append]
  refine ⟨nodup, by simp, fun first contained second last => ?_⟩
  rw [List.mem_singleton.mp last]
  rintro rfl
  exact get_eq_none.mp absent contained

theorem nodup_set {key : Key} {value : Value} {entries : List (Key × Value)}
    (nodup : (entries.map Prod.fst).Nodup) : ((set key value entries).map Prod.fst).Nodup := by
  by_cases present : get key entries = none
  · rw [set_of_absent present]
    exact nodup_concat nodup present
  · rwa [map_fst_set present]

theorem get_orInsert (key other : Key) (value : Value) (entries : List (Key × Value)) :
    get other (orInsert key value entries) =
      if key = other then some ((get key entries).getD value) else get other entries := by
  unfold orInsert
  cases found : get key entries with
  | none =>
      rw [get_append]
      by_cases same : key = other
      · subst same
        simp [found, get_cons]
      · simp [get_cons, same]
  | some old =>
      by_cases same : key = other
      · subst same
        simp [found]
      · simp [same]

theorem orInsert_of_present {key : Key} {value : Value} {entries : List (Key × Value)}
    (present : get key entries ≠ none) : orInsert key value entries = entries := by
  unfold orInsert
  cases found : get key entries with
  | none => exact absurd found present
  | some old => rfl

theorem present_orInsert (key : Key) (value : Value) (entries : List (Key × Value)) :
    get key (orInsert key value entries) ≠ none := by
  rw [get_orInsert, if_pos rfl]
  simp

/-- Inserting a key first does not show in what is set for it. -/
theorem set_orInsert_self (key : Key) (value default : Value) (entries : List (Key × Value)) :
    set key value (orInsert key default entries) = set key value entries := by
  unfold orInsert
  cases found : get key entries with
  | none => rw [← set_of_absent found, set_set]
  | some old => rfl

/-- A key that is there can be set before or after another is inserted. -/
theorem set_orInsert {key other : Key} {value default : Value} {entries : List (Key × Value)}
    (present : get key entries ≠ none) :
    set key value (orInsert other default entries) =
      orInsert other default (set key value entries) := by
  unfold orInsert
  rw [get_set]
  by_cases same : key = other
  · subst same
    rw [if_pos rfl]
    cases found : get key entries with
    | none => exact absurd found present
    | some old => rfl
  · rw [if_neg same]
    cases get other entries with
    | none => exact set_append present _
    | some old => rfl

theorem mapValues_set (change : Value → Value) (key : Key) (value : Value)
    (entries : List (Key × Value)) :
    mapValues change (set key value entries) = set key (change value) (mapValues change entries) := by
  induction entries with
  | nil => rfl
  | cons entry rest ih =>
      rcases entry with ⟨first, old⟩
      have step : ∀ tail : List (Key × Value), mapValues change ((first, old) :: tail) =
          (first, change old) :: mapValues change tail := fun _ => rfl
      rw [set_cons, step, set_cons]
      split_ifs
      · rfl
      · rw [step, ih]

omit [DecidableEq Key] in
theorem map_fst_mapValues (change : Value → Value) (entries : List (Key × Value)) :
    (mapValues change entries).map Prod.fst = entries.map Prod.fst := by
  simp [mapValues, Function.comp_def]

theorem erase_set (key : Key) (value : Value) (entries : List (Key × Value)) :
    erase key (set key value entries) = erase key entries := by
  induction entries with
  | nil => simp [set, erase]
  | cons entry rest ih =>
      rcases entry with ⟨first, old⟩
      rw [set_cons]
      by_cases same : first = key
      · simp [erase, same]
      · rw [if_neg same]
        simpa [erase, same] using ih

theorem get_filter {entries : List (Key × Value)} (nodup : (entries.map Prod.fst).Nodup)
    {keeps : Value → Bool} (key : Key) :
    get key (entries.filter fun entry => keeps entry.2) = (get key entries).filter keeps := by
  induction entries with
  | nil => rfl
  | cons entry rest ih =>
      rcases entry with ⟨first, old⟩
      rw [List.map_cons, List.nodup_cons] at nodup
      rw [List.filter_cons, get_cons]
      by_cases same : first = key
      · subst same
        rw [if_pos rfl]
        by_cases kept : keeps old = true
        · simp [kept, get_cons, Option.filter]
        · have absent : get first rest = none := get_eq_none.mpr nodup.1
          rw [if_neg kept, ih nodup.2, absent]
          simp [kept, Option.filter]
      · rw [if_neg same]
        split_ifs
        · rw [get_cons, if_neg same, ih nodup.2]
        · exact ih nodup.2

theorem get_swapRemove {key : Key} {entries : List (Key × Value)}
    (nodup : (entries.map Prod.fst).Nodup) (other : Key) :
    get other (swapRemove key entries) = if key = other then none else get other entries := by
  induction entries with
  | nil => simp [swapRemove]
  | cons entry rest ih =>
      rcases entry with ⟨first, old⟩
      rw [List.map_cons, List.nodup_cons] at nodup
      rw [swapRemove]
      by_cases same : first = key
      · subst same
        rw [if_pos rfl, get_cons]
        have moved : get other (match rest.getLast? with
            | none => []
            | some last => last :: rest.dropLast) = get other rest := by
          rcases List.eq_nil_or_concat rest with rfl | ⟨front, last, rfl⟩
          · rfl
          · rw [List.concat_eq_append] at nodup ⊢
            rcases last with ⟨lastKey, value⟩
            simp only [List.getLast?_concat, List.dropLast_concat]
            rw [get_cons, get_append, get_cons]
            by_cases here : lastKey = other
            · subst here
              have absent : get lastKey front = none := by
                rw [get_eq_none]
                have apart := nodup.2
                rw [List.map_append, List.nodup_append] at apart
                exact fun contained => apart.2.2 lastKey contained lastKey (by simp) rfl
              rw [if_pos rfl, if_pos rfl, absent, Option.none_or]
            · rw [if_neg here, if_neg here, get_nil, Option.or_none]
        rw [moved]
        by_cases here : first = other
        · subst here
          rw [if_pos rfl]
          exact get_eq_none.mpr nodup.1
        · rw [if_neg here, if_neg here]
      · rw [if_neg same, get_cons, get_cons, ih nodup.2]
        by_cases here : first = other
        · subst here
          rw [if_pos rfl, if_pos rfl, if_neg (Ne.symm same)]
        · rw [if_neg here, if_neg here]

end Entries
