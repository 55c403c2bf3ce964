import Mathlib.Data.List.Basic
import Mathlib.Tactic.Common

/-!
# Lists in pieces of a size

A list is cut into pieces of one size, the last of which may be shorter. The pieces are
numbered, so that a reader who takes them in order has the list's front before each.
-/

namespace Chunks

variable {α : Type*}

/-- The length divided by the size, rounded up. -/
def count (size : ℕ) (list : List α) : ℕ := (list.length + (size - 1)) / size

def chunk (size : ℕ) (list : List α) (index : ℕ) : List α := (list.drop (index * size)).take size

def chunks (size : ℕ) (list : List α) : List (List α) :=
  (List.range (count size list)).map (chunk size list)

variable {size : ℕ} {list : List α} {index : ℕ}

theorem lt_count_iff (positive : 0 < size) : index < count size list ↔ index * size < list.length := by
  rw [count, Nat.lt_div_iff_mul_lt positive]
  omega

theorem count_eq_zero (positive : 0 < size) : count size list = 0 ↔ list = [] := by
  have first := @lt_count_iff _ size list 0 positive
  rw [Nat.zero_mul, List.length_pos_iff] at first
  constructor
  · intro none
    by_contra some
    have := first.mpr some
    omega
  · intro empty
    by_contra some
    exact first.mp (by omega) empty

theorem length_chunk_le : (chunk size list index).length ≤ size :=
  List.length_take_le _ _

theorem chunk_ne_nil (positive : 0 < size) (inside : index < count size list) :
    chunk size list index ≠ [] := by
  have before := (lt_count_iff positive).mp inside
  apply List.length_pos_iff.mp
  simp only [chunk, List.length_take, List.length_drop]
  omega

/-- A piece comes right behind the front that the pieces before it make. -/
theorem take_append_chunk :
    list.take (index * size) ++ chunk size list index = list.take ((index + 1) * size) := by
  rw [chunk, Nat.succ_mul, List.take_add]

theorem flatten_front (pieces : ℕ) :
    ((List.range pieces).map (chunk size list)).flatten = list.take (pieces * size) := by
  induction pieces with
  | zero => simp
  | succ pieces induction =>
      rw [List.range_succ, List.map_append, List.flatten_append, induction, List.map_singleton,
        List.flatten_singleton, take_append_chunk]

theorem take_count (positive : 0 < size) : list.take (count size list * size) = list := by
  apply List.take_of_length_le
  by_contra short
  have := (@lt_count_iff _ size list (count size list) positive).mpr (by omega)
  omega

theorem flatten_chunks (positive : 0 < size) : (chunks size list).flatten = list := by
  rw [chunks, flatten_front, take_count positive]

theorem count_le_length (positive : 0 < size) : count size list ≤ list.length := by
  by_contra more
  have inside := (lt_count_iff positive).mp (Nat.lt_of_not_le more)
  have := Nat.le_mul_of_pos_right list.length positive
  omega

theorem zipIdx_chunks : (chunks size list).zipIdx =
    (List.range (count size list)).map fun index => (chunk size list index, index) := by
  apply List.ext_getElem
  · simp [chunks]
  · intro place _ _
    simp [chunks]

end Chunks
