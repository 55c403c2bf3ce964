import Mathlib.Data.List.Basic
import Mathlib.Data.List.Pairwise
import Mathlib.Order.Compare
import Mathlib.Tactic.Common

/-!
# Ordered maps as sorted lists

A `BTreeMap` as the list of its entries in the order of their keys. The comparison may take
different keys for the same; a map has one entry for all of them.
-/

namespace SortedMap

variable {κ α : Type*} (cmp : κ → κ → Ordering) (key : α → κ)

def Sorted (entries : List α) : Prop :=
  entries.Pairwise fun left right => cmp (key left) (key right) = .lt

/-- `BTreeMap::get`. -/
def find (place : κ) (entries : List α) : Option α :=
  entries.find? fun entry => cmp place (key entry) == .eq

/-- `BTreeMap::entry`: changes, adds or removes the entry of a key. -/
def alter (place : κ) (change : Option α → Option α) : List α → List α
  | [] => (change none).toList
  | entry :: rest =>
      match cmp place (key entry) with
      | .lt => (change none).toList ++ entry :: rest
      | .eq => (change (some entry)).toList ++ rest
      | .gt => entry :: alter place change rest

/-- The change leaves the entry at its key. -/
def Keeps (place : κ) (change : Option α → Option α) : Prop :=
  ∀ old new, (∀ entry, old = some entry → cmp place (key entry) = .eq) → change old = some new →
    cmp place (key new) = .eq

variable {cmp key}

@[simp] theorem sorted_nil : Sorted cmp key [] := List.Pairwise.nil

@[simp] theorem find_nil (place : κ) : find cmp key place [] = none := rfl

theorem find_cons_eq {place : κ} {entry : α} (same : cmp place (key entry) = .eq)
    (rest : List α) : find cmp key place (entry :: rest) = some entry := by
  simp [find, same]

theorem find_cons_ne {place : κ} {entry : α} (differs : cmp place (key entry) ≠ .eq)
    (rest : List α) : find cmp key place (entry :: rest) = find cmp key place rest := by
  simp [find, differs]

theorem find_eq_none {place : κ} {entries : List α}
    (differ : ∀ entry ∈ entries, cmp place (key entry) ≠ .eq) :
    find cmp key place entries = none := by
  simpa [find] using differ

theorem find_eq_some {place : κ} {entries : List α} {entry : α}
    (found : find cmp key place entries = some entry) :
    entry ∈ entries ∧ cmp place (key entry) = .eq :=
  ⟨List.mem_of_find?_eq_some found, by simpa using List.find?_some found⟩

theorem mem_alter {place : κ} {change : Option α → Option α}
    (keeps : Keeps cmp key place change) {entries : List α} {entry : α}
    (contained : entry ∈ alter cmp key place change entries) :
    entry ∈ entries ∨ cmp place (key entry) = .eq := by
  induction entries with
  | nil => exact .inr (keeps none entry (by simp) (Option.mem_toList.mp contained))
  | cons first rest induction =>
      unfold alter at contained
      cases found : cmp place (key first) with
      | lt =>
          simp only [found] at contained
          rcases List.mem_append.mp contained with new | old
          · exact .inr (keeps none entry (by simp) (Option.mem_toList.mp new))
          · exact .inl old
      | eq =>
          simp only [found] at contained
          rcases List.mem_append.mp contained with new | old
          · exact .inr (keeps (some first) entry (by simpa using found) (Option.mem_toList.mp new))
          · exact .inl (List.mem_cons_of_mem _ old)
      | gt =>
          simp only [found] at contained
          rcases List.mem_cons.mp contained with rfl | later
          · exact .inl List.mem_cons_self
          · exact (induction later).imp_left (List.mem_cons_of_mem _)

/-- What a change adds to what the entries hold, the map holds afterwards. -/
theorem flatMap_alter {β : Type*} {place : κ} {change : Option α → Option α} {holds : α → List β}
    {new : List β}
    (adds : ∀ old : Option α, ((change old).toList.flatMap holds).Perm
      (new ++ old.toList.flatMap holds)) (entries : List α) :
    ((alter cmp key place change entries).flatMap holds).Perm (new ++ entries.flatMap holds) := by
  induction entries with
  | nil => exact adds none
  | cons entry rest induction =>
      unfold alter
      cases cmp place (key entry) with
      | lt =>
          rw [List.flatMap_append]
          simpa using (adds none).append_right ((entry :: rest).flatMap holds)
      | eq =>
          rw [List.flatMap_append, List.flatMap_cons, ← List.append_assoc]
          refine List.Perm.append_right _ ?_
          simpa using adds (some entry)
      | gt =>
          rw [List.flatMap_cons, List.flatMap_cons]
          exact (induction.append_left _).trans (List.perm_append_comm_assoc _ _ _)

variable [Std.TransCmp cmp]

/-- Every entry is found under its key. -/
theorem find_of_mem {entries : List α} (sorted : Sorted cmp key entries) {entry : α}
    (contained : entry ∈ entries) {place : κ} (same : cmp place (key entry) = .eq) :
    find cmp key place entries = some entry := by
  induction entries with
  | nil => cases contained
  | cons first rest induction =>
      rcases List.pairwise_cons.mp sorted with ⟨less, sortedRest⟩
      rcases List.mem_cons.mp contained with rfl | later
      · exact find_cons_eq same rest
      · rw [find_cons_ne _ rest, induction sortedRest later]
        intro sameFirst
        have := Std.TransCmp.lt_of_eq_of_lt sameFirst (less entry later)
        rw [this] at same
        cases same

/-- What is added or changed is found under its key only. -/
theorem find_toList_append {place other : κ} {new : Option α} {rest : List α}
    (at' : ∀ entry, new = some entry → cmp place (key entry) = .eq) :
    find cmp key other (new.toList ++ rest) =
      if cmp other place = .eq then new.or (find cmp key other rest)
      else find cmp key other rest := by
  cases new with
  | none => simp
  | some entry =>
      rw [Option.toList_some, List.singleton_append, Option.some_or]
      have same : cmp other (key entry) = cmp other place :=
        (Std.TransCmp.congr_right (at' entry rfl)).symm
      split_ifs with here
      · exact find_cons_eq (same.trans here) rest
      · exact find_cons_ne (fun eq => here (same.symm.trans eq)) rest

theorem find_alter {place other : κ} {change : Option α → Option α}
    (keeps : Keeps cmp key place change) {entries : List α} (sorted : Sorted cmp key entries) :
    find cmp key other (alter cmp key place change entries) =
      if cmp other place = .eq then change (find cmp key place entries)
      else find cmp key other entries := by
  induction entries with
  | nil =>
      rw [alter, ← List.append_nil (change none).toList,
        find_toList_append fun entry => keeps none entry (by simp)]
      simp
  | cons entry rest induction =>
      rcases List.pairwise_cons.mp sorted with ⟨less, sortedRest⟩
      unfold alter
      cases found : cmp place (key entry) with
      | lt =>
          have behind : ∀ equal : κ, cmp equal place = .eq →
              find cmp key equal (entry :: rest) = none := by
            intro equal same
            refine find_eq_none fun later contained => ?_
            have before : cmp place (key later) = .lt := by
              rcases List.mem_cons.mp contained with rfl | inRest
              · exact found
              · exact Std.TransCmp.lt_trans found (less later inRest)
            rw [Std.TransCmp.lt_of_eq_of_lt same before]
            nofun
          dsimp only
          rw [find_toList_append fun new => keeps none new (by simp),
            behind place Std.ReflCmp.compare_self]
          split_ifs with same
          · rw [behind other same, Option.or_none]
          · rfl
      | eq =>
          dsimp only
          rw [find_toList_append fun new => keeps (some entry) new (by simpa using found),
            find_cons_eq found]
          split_ifs with same
          · have gone : find cmp key other rest = none := by
              refine find_eq_none fun later contained => ?_
              have before := Std.TransCmp.lt_of_eq_of_lt (Std.TransCmp.eq_trans same found)
                (less later contained)
              rw [before]
              nofun
            rw [gone, Option.or_none]
          · rw [find_cons_ne]
            exact fun eq => same (Std.TransCmp.eq_trans eq (Std.OrientedCmp.eq_symm found))
      | gt =>
          dsimp only
          have apart : cmp place (key entry) ≠ .eq := by
            rw [found]
            nofun
          rw [find_cons_ne apart]
          by_cases here : cmp other (key entry) = .eq
          · rw [find_cons_eq here, find_cons_eq here, if_neg]
            intro same
            exact apart (Std.TransCmp.eq_trans (Std.OrientedCmp.eq_symm same) here)
          · rw [find_cons_ne here, find_cons_ne here, induction sortedRest]

theorem sorted_alter {place : κ} {change : Option α → Option α}
    (keeps : Keeps cmp key place change) {entries : List α} (sorted : Sorted cmp key entries) :
    Sorted cmp key (alter cmp key place change entries) := by
  have prepend : ∀ (new : Option α) (rest : List α),
      (∀ entry, new = some entry → cmp place (key entry) = .eq) →
      (∀ entry ∈ rest, cmp place (key entry) = .lt) → Sorted cmp key rest →
      Sorted cmp key (new.toList ++ rest) := by
    intro new rest at' less sortedRest
    cases new with
    | none => exact sortedRest
    | some entry =>
        refine List.pairwise_cons.mpr ⟨fun later contained => ?_, sortedRest⟩
        exact Std.TransCmp.lt_of_eq_of_lt (Std.OrientedCmp.eq_symm (at' entry rfl))
          (less later contained)
  induction entries with
  | nil =>
      rw [alter, ← List.append_nil (change none).toList]
      exact prepend _ _ (fun entry => keeps none entry (by simp)) (by simp) sorted_nil
  | cons entry rest induction =>
      rcases List.pairwise_cons.mp sorted with ⟨less, sortedRest⟩
      unfold alter
      cases found : cmp place (key entry) with
      | lt =>
          refine prepend _ _ (fun new => keeps none new (by simp)) ?_ sorted
          intro later contained
          rcases List.mem_cons.mp contained with rfl | inRest
          · exact found
          · exact Std.TransCmp.lt_trans found (less later inRest)
      | eq =>
          refine prepend _ _ (fun new => keeps (some entry) new (by simpa using found)) ?_ sortedRest
          intro later contained
          exact Std.TransCmp.lt_of_eq_of_lt found (less later contained)
      | gt =>
          refine List.pairwise_cons.mpr ⟨fun later contained => ?_, induction sortedRest⟩
          rcases mem_alter keeps contained with old | here
          · exact less later old
          · exact Std.TransCmp.lt_of_lt_of_eq (Std.OrientedCmp.lt_of_gt found) here

/-- An entry of a changed map is an old one or what the change made. -/
theorem mem_alter_cases {place : κ} {change : Option α → Option α}
    (keeps : Keeps cmp key place change) {entries : List α} (sorted : Sorted cmp key entries)
    {entry : α} (contained : entry ∈ alter cmp key place change entries) :
    entry ∈ entries ∨ change (find cmp key place entries) = some entry := by
  rcases mem_alter keeps contained with old | here
  · exact .inl old
  · right
    have found := find_of_mem (sorted_alter keeps sorted) contained here
    rwa [find_alter keeps sorted, if_pos Std.ReflCmp.compare_self] at found

end SortedMap
