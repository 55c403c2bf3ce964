import Mathlib.Data.List.Basic
import Mathlib.Data.List.Induction
import Mathlib.Tactic.Common

/-!
# Writes at places

A sequence of writes, each a value at a place, where the last write at a place counts. An
ordered map collects the writes; a store sees the same of the collected writes as of the
sequence, and so does a second map.
-/

namespace Overlay

variable {α σ : Type*}

/-- A write to an ordered map. -/
def insert : List (ℕ × α) → ℕ → α → List (ℕ × α)
  | [], place, value => [(place, value)]
  | (other, held) :: rest, place, value =>
      if place < other then (place, value) :: (other, held) :: rest
      else if place = other then (place, value) :: rest
      else (other, held) :: insert rest place value

/-- The places grow. -/
def Ordered (writes : List (ℕ × α)) : Prop :=
  writes.Pairwise fun write other => write.1 < other.1

def writeAll (write : σ → ℕ → α → σ) (store : σ) (writes : List (ℕ × α)) : σ :=
  writes.foldl (fun store entry => write store entry.1 entry.2) store

def collect (writes : List (ℕ × α)) : List (ℕ × α) := writeAll insert [] writes

/-- The writes of values from a place on. -/
def places (start : ℕ) (values : List α) : List (ℕ × α) :=
  (values.zipIdx start).map Prod.swap

/-- The order of writes matters only at one place, and there the last one counts. -/
structure Store (write : σ → ℕ → α → σ) : Prop where
  commutes : ∀ store {place other : ℕ}, place ≠ other → ∀ value held,
    write (write store place value) other held = write (write store other held) place value
  overwrites : ∀ store place value held,
    write (write store place value) place held = write store place held

variable {write : σ → ℕ → α → σ} {store : σ} {writes more : List (ℕ × α)} {place : ℕ} {value : α}

@[simp] theorem writeAll_nil : writeAll write store [] = store := rfl

@[simp] theorem writeAll_cons {entry : ℕ × α} :
    writeAll write store (entry :: writes) = writeAll write (write store entry.1 entry.2) writes :=
  rfl

theorem writeAll_append :
    writeAll write store (writes ++ more) = writeAll write (writeAll write store writes) more :=
  List.foldl_append

theorem collect_append : collect (writes ++ more) = writeAll insert (collect writes) more :=
  writeAll_append

/-! ## Ordered maps -/

theorem mem_insert {entry : ℕ × α} (member : entry ∈ insert writes place value) :
    entry = (place, value) ∨ entry ∈ writes := by
  induction writes with
  | nil => simpa [insert] using member
  | cons head rest induction =>
      rcases head with ⟨other, held⟩
      rw [insert] at member
      split_ifs at member
      · simpa using member
      · rcases List.mem_cons.mp member with same | later
        · exact Or.inl same
        · exact Or.inr (List.mem_cons_of_mem _ later)
      · rcases List.mem_cons.mp member with same | later
        · exact Or.inr (same ▸ List.mem_cons_self)
        · rcases induction later with same | earlier
          · exact Or.inl same
          · exact Or.inr (List.mem_cons_of_mem _ earlier)

theorem ordered_insert (ordered : Ordered writes) : Ordered (insert writes place value) := by
  induction writes with
  | nil => exact List.pairwise_singleton _ _
  | cons head rest induction =>
      rcases head with ⟨other, held⟩
      rcases List.pairwise_cons.mp ordered with ⟨first, later⟩
      rw [insert]
      split_ifs with before same
      · apply List.Pairwise.cons _ ordered
        intro entry member
        rcases List.mem_cons.mp member with rfl | behind
        · exact before
        · exact Nat.lt_trans before (first entry behind)
      · subst same
        exact List.Pairwise.cons first later
      · apply List.Pairwise.cons _ (induction later)
        intro entry member
        rcases mem_insert member with rfl | behind
        · simp only
          omega
        · exact first entry behind

theorem mem_collect {entry : ℕ × α} (member : entry ∈ collect writes) : entry ∈ writes := by
  induction writes using List.reverseRecOn with
  | nil => exact member
  | append_singleton writes last induction =>
      rw [collect_append] at member
      rcases mem_insert member with same | earlier
      · exact List.mem_append_right _ (List.mem_singleton.mpr same)
      · exact List.mem_append_left _ (induction earlier)

theorem ordered_collect : Ordered (collect writes) := by
  induction writes using List.reverseRecOn with
  | nil => exact List.Pairwise.nil
  | append_singleton writes last induction =>
      rw [collect_append]
      exact ordered_insert induction

theorem insert_store : Store (insert : List (ℕ × α) → ℕ → α → List (ℕ × α)) where
  commutes := by
    intro writes place other apart value held
    induction writes with
    | nil =>
        simp only [insert]
        split_ifs <;> first | rfl | omega
    | cons head rest induction =>
        rcases head with ⟨middle, kept⟩
        simp only [insert]
        split_ifs <;> simp only [insert] <;> split_ifs <;> first | rfl | omega | rw [induction]
  overwrites := by
    intro writes place value held
    induction writes with
    | nil => simp [insert]
    | cons head rest induction =>
        rcases head with ⟨middle, kept⟩
        simp only [insert]
        split_ifs <;> simp only [insert] <;> split_ifs <;> first | rfl | omega | rw [induction]

/-! ## Stores -/

namespace Store

variable (lawful : Store write)
include lawful

/-- A write at a place that no later write has may come last. -/
theorem writeAll_write (apart : ∀ entry ∈ writes, place ≠ entry.1) :
    writeAll write (write store place value) writes =
      write (writeAll write store writes) place value := by
  induction writes generalizing store with
  | nil => rfl
  | cons head rest induction =>
      rw [writeAll_cons, writeAll_cons, lawful.commutes store (apart head List.mem_cons_self)]
      exact induction fun entry member => apart entry (List.mem_cons_of_mem _ member)

theorem writeAll_insert (ordered : Ordered writes) :
    writeAll write store (insert writes place value) =
      write (writeAll write store writes) place value := by
  induction writes generalizing store with
  | nil => rfl
  | cons head rest induction =>
      rcases head with ⟨other, held⟩
      rcases List.pairwise_cons.mp ordered with ⟨first, later⟩
      rw [insert]
      split_ifs with before same
      · rw [writeAll_cons]
        apply lawful.writeAll_write
        intro entry member
        rcases List.mem_cons.mp member with rfl | behind
        · exact Nat.ne_of_lt before
        · exact Nat.ne_of_lt (Nat.lt_trans before (first entry behind))
      · subst same
        have last : ∀ entry ∈ rest, place ≠ entry.1 :=
          fun entry member => Nat.ne_of_lt (first entry member)
        rw [writeAll_cons, writeAll_cons, lawful.writeAll_write last, lawful.writeAll_write last,
          lawful.overwrites]
      · rw [writeAll_cons, writeAll_cons]
        exact induction later

/-- A store sees the same of the collected writes. -/
theorem writeAll_collect : writeAll write store (collect writes) = writeAll write store writes := by
  induction writes using List.reverseRecOn with
  | nil => rfl
  | append_singleton writes last induction =>
      rw [collect_append, writeAll_append, writeAll_cons, writeAll_nil,
        lawful.writeAll_insert ordered_collect, induction]
      rfl

end Store

theorem collect_collect_append : collect (collect writes ++ more) = collect (writes ++ more) := by
  rw [collect_append, collect_append]
  exact congrArg (writeAll insert · more) (Store.writeAll_collect insert_store)

theorem collect_append_collect : collect (writes ++ collect more) = collect (writes ++ more) := by
  rw [collect_append, collect_append, Store.writeAll_collect insert_store]

/-! ## Lists as stores -/

theorem set_store : Store (List.set : List α → ℕ → α → List α) where
  commutes := fun _ _ _ apart value held => List.set_comm value held apart
  overwrites := fun _ _ value _ => List.set_set value

@[simp] theorem length_writeAll_set {list : List α} :
    (writeAll List.set list writes).length = list.length := by
  induction writes generalizing list with
  | nil => rfl
  | cons head rest induction => rw [writeAll_cons, induction, List.length_set]

/-- Values written from a place on stand in for those that were there. -/
theorem writeAll_places {list values : List α} {start : ℕ}
    (inside : start + values.length ≤ list.length) :
    writeAll List.set list (places start values) =
      list.take start ++ values ++ list.drop (start + values.length) := by
  induction values generalizing list start with
  | nil => simp [places]
  | cons value values induction =>
      rw [List.length_cons] at inside
      have later := @induction (list.set start value) (start + 1) (by simpa using by omega)
      have cut : (list.set start value).take (start + 1) = list.take start ++ [value] := by
        rw [List.take_add_one, List.take_set_of_le (Nat.le_refl _)]
        simp [show start < list.length by omega]
      rw [places, List.zipIdx_cons, List.map_cons, writeAll_cons]
      refine later.trans ?_
      rw [cut, List.drop_set_of_lt (by omega), List.length_cons, List.append_assoc,
        List.append_assoc, List.append_assoc, show start + 1 + values.length =
          start + (values.length + 1) by omega]
      rfl

end Overlay
