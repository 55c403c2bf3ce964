import Mathlib.Data.List.Basic
import Mathlib.Tactic.Common

/-!
# Logs with numbers

The entries of a log are numbered from one. What comes after some of them is told from the numbers
alone, also where only the end of the log is kept.
-/

namespace NumberedLog

universe u

variable {Entry : Type u}

/-- The entries after the first `count`, with their numbers. -/
def after (log : List Entry) (count : ℕ) : List (ℕ × Entry) :=
  ((log.drop count).zipIdx (count + 1)).map Prod.swap

theorem length_after (log : List Entry) (count : ℕ) :
    (after log count).length = log.length - count := by
  rw [after, List.length_map, List.length_zipIdx, List.length_drop]

theorem after_of_le {log : List Entry} {count : ℕ} (all : log.length ≤ count) :
    after log count = [] := by
  rw [after, List.drop_of_length_le all]
  rfl

theorem after_cons {log : List Entry} {count : ℕ} {entry : Entry}
    (found : log[count]? = some entry) :
    after log count = (count + 1, entry) :: after log (count + 1) := by
  rcases List.getElem?_eq_some_iff.mp found with ⟨bound, rfl⟩
  rw [after, List.drop_eq_getElem_cons bound, List.zipIdx_cons, List.map_cons]
  rfl

theorem after_concat {log : List Entry} {count : ℕ} (bound : count ≤ log.length) (entry : Entry) :
    after (log ++ [entry]) count = after log count ++ [(log.length + 1, entry)] := by
  rw [after, after, List.drop_append_of_le_length bound, List.zipIdx_append, List.map_append,
    List.length_drop]
  have number : count + 1 + (log.length - count) = log.length + 1 := by omega
  rw [number]
  rfl

theorem drop_after (log : List Entry) (count more : ℕ) :
    (after log count).drop more = after log (count + more) := by
  induction more generalizing count with
  | zero => rfl
  | succ more induction =>
      cases found : log[count]? with
      | none =>
          have all := List.getElem?_eq_none_iff.mp found
          rw [after_of_le all, after_of_le (by omega), List.drop_nil]
      | some entry =>
          rw [after_cons found, List.drop_succ_cons, induction]
          congr 1
          omega

/-- The number and the entry belong together. -/
theorem getElem?_of_mem_after {log : List Entry} {count number : ℕ} {entry : Entry}
    (listed : (number, entry) ∈ after log count) :
    count < number ∧ number ≤ log.length ∧ log[number - 1]? = some entry := by
  rcases List.mem_map.mp listed with ⟨⟨found, index⟩, contained, same⟩
  cases same
  rcases List.mem_zipIdx contained with ⟨low, high, is_entry⟩
  rw [List.length_drop] at high
  refine ⟨by omega, by omega, ?_⟩
  rw [is_entry, List.getElem_drop, ← List.getElem?_eq_getElem]
  congr 1
  omega

/-- The numbers say what comes after. -/
theorem filter_after (log : List Entry) (count more : ℕ) :
    (after log count).filter (fun entry => count + more < entry.1) = after log (count + more) := by
  induction more generalizing count with
  | zero =>
      apply List.filter_eq_self.mpr
      rintro ⟨number, entry⟩ listed
      exact decide_eq_true (getElem?_of_mem_after listed).1
  | succ more induction =>
      cases found : log[count]? with
      | none =>
          have all := List.getElem?_eq_none_iff.mp found
          rw [after_of_le all, after_of_le (by omega), List.filter_nil]
      | some entry =>
          have later := induction (count + 1)
          have number : count + 1 + more = count + (more + 1) := by omega
          rw [number] at later
          rw [after_cons found, List.filter_cons_of_neg (by simp), later]

theorem head?_after (log : List Entry) (count : ℕ) :
    (after log count).head? = log[count]?.map fun entry => (count + 1, entry) := by
  cases found : log[count]? with
  | none =>
      rw [after_of_le (List.getElem?_eq_none_iff.mp found)]
      rfl
  | some entry =>
      rw [after_cons found]
      rfl

end NumberedLog
