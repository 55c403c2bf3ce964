import Mathlib.Algebra.BigOperators.Group.Finset.Basic
import Mathlib.Algebra.Order.BigOperators.Group.Finset
import Mathlib.Data.Finset.Card
import Mathlib.Data.List.ReduceOption

/-!
# Keys kept within a budget

A budget limits what every key costs, what the distinct keys cost together, and how many
there are. A pass over optional keys keeps each key that the budget has room for beside
those already kept, and clears the others. What a pass kept, a second pass keeps whole.
-/

namespace Budget

universe u

/-- What keys cost, and how much of it there may be. -/
structure Limits (Key : Type u) where
  cost : Key → ℕ
  each : ℕ
  total : ℕ
  count : ℕ

variable {Key : Type u} [DecidableEq Key] (limits : Limits Key)

/-- A set of keys the limits allow. -/
def Within (kept : Finset Key) : Prop :=
  (∀ key ∈ kept, limits.cost key ≤ limits.each) ∧ ∑ key ∈ kept, limits.cost key ≤ limits.total ∧
    kept.card ≤ limits.count

instance (kept : Finset Key) : Decidable (Within limits kept) :=
  inferInstanceAs (Decidable (_ ∧ _ ∧ _))

/-- The distinct keys among optional ones. -/
def keys (slots : List (Option Key)) : Finset Key := slots.reduceOption.toFinset

/-- One pass: every key beside which the kept ones are still within the limits stays. -/
def settle : Finset Key → List (Option Key) → List (Option Key)
  | _, [] => []
  | kept, none :: slots => none :: settle kept slots
  | kept, some key :: slots =>
      if Within limits (insert key kept) then some key :: settle (insert key kept) slots
      else none :: settle kept slots

variable {limits} {kept large : Finset Key} {key : Key} {slots : List (Option Key)}

/-! ## Distinct keys -/

@[simp] theorem keys_nil : keys ([] : List (Option Key)) = ∅ := rfl

@[simp] theorem keys_cons_none : keys (none :: slots) = keys slots := rfl

@[simp] theorem keys_cons_some : keys (some key :: slots) = insert key (keys slots) := by
  simp [keys]

@[simp] theorem mem_keys : key ∈ keys slots ↔ some key ∈ slots := by
  simp [keys, List.reduceOption_mem_iff]

/-! ## Sets within the limits -/

omit [DecidableEq Key] in
theorem Within.mono (within : Within limits large) (subset : kept ⊆ large) :
    Within limits kept := by
  rcases within with ⟨each, total, count⟩
  refine ⟨?_, ?_, ?_⟩
  · intro key member
    exact each key (subset member)
  · exact (Finset.sum_le_sum_of_subset subset).trans total
  · exact (Finset.card_le_card subset).trans count

omit [DecidableEq Key] in
theorem within_empty : Within limits ∅ := by
  simp [Within]

/-- What the limits ask of one more key. -/
theorem within_insert_iff (within : Within limits kept) (absent : key ∉ kept) :
    Within limits (insert key kept) ↔
      limits.cost key ≤ limits.each ∧ ∑ other ∈ kept, limits.cost other + limits.cost key ≤
        limits.total ∧ kept.card < limits.count := by
  rcases within with ⟨each, -, -⟩
  simp only [Within, Finset.forall_mem_insert, Finset.sum_insert absent,
    Finset.card_insert_of_notMem absent, Nat.add_comm (limits.cost key), Nat.succ_le_iff]
  constructor
  · rintro ⟨⟨small, -⟩, total, count⟩
    exact ⟨small, total, count⟩
  · rintro ⟨small, total, count⟩
    exact ⟨⟨small, each⟩, total, count⟩

theorem within_insert_of_mem (within : Within limits kept) (member : key ∈ kept) :
    Within limits (insert key kept) := by
  rwa [Finset.insert_eq_of_mem member]

/-! ## Passes -/

@[simp] theorem settle_nil : settle limits kept [] = [] := rfl

@[simp] theorem settle_cons_none :
    settle limits kept (none :: slots) = none :: settle limits kept slots := rfl

theorem settle_cons_of_within (within : Within limits (insert key kept)) :
    settle limits kept (some key :: slots) = some key :: settle limits (insert key kept) slots :=
  if_pos within

theorem settle_cons_of_not_within (without : ¬Within limits (insert key kept)) :
    settle limits kept (some key :: slots) = none :: settle limits kept slots :=
  if_neg without

@[simp] theorem length_settle : (settle limits kept slots).length = slots.length := by
  induction slots generalizing kept with
  | nil => rfl
  | cons slot slots induction =>
      cases slot with
      | none => simp [induction]
      | some key =>
          by_cases within : Within limits (insert key kept)
          · simp [settle_cons_of_within within, induction]
          · simp [settle_cons_of_not_within within, induction]

/-- What is kept after a pass is within the limits. -/
theorem within_settle (within : Within limits kept) :
    Within limits (kept ∪ keys (settle limits kept slots)) := by
  induction slots generalizing kept with
  | nil => simpa using within
  | cons slot slots induction =>
      cases slot with
      | none => simpa using induction within
      | some key =>
          by_cases room : Within limits (insert key kept)
          · rw [settle_cons_of_within room, keys_cons_some, Finset.union_insert,
              ← Finset.insert_union]
            exact induction room
          · rw [settle_cons_of_not_within room, keys_cons_none]
            exact induction within

/-- A pass clears nothing where all keys fit. -/
theorem settle_of_within (within : Within limits (kept ∪ keys slots)) :
    settle limits kept slots = slots := by
  induction slots generalizing kept with
  | nil => rfl
  | cons slot slots induction =>
      cases slot with
      | none =>
          rw [settle_cons_none, induction (by simpa using within)]
      | some key =>
          rw [keys_cons_some, Finset.union_insert, ← Finset.insert_union] at within
          have room : Within limits (insert key kept) := within.mono Finset.subset_union_left
          rw [settle_cons_of_within room, induction within]

end Budget
