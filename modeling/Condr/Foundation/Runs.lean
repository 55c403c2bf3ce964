import Mathlib.Data.List.Infix

/-!
# Runs of a machine

A machine takes one state to the next at every label. Its runs fold over lists of labels;
what the steps of a run put out is collected along it, and a condition can be asked of every
step. A property that a condition on each step decides is decided over whole runs, and a
queue that every step serves in order is served in order by the run.
-/

namespace Runs

universe u v w

variable {State : Type u} {Label : Type v} {Out : Type w} {step : State → Label → State}
  {state : State} {labels : List Label}

/-- The state after a run. -/
def run (step : State → Label → State) (state : State) (labels : List Label) : State :=
  labels.foldl step state

/-- Every step of the run meets a condition on it and the state before it. -/
def Each (step : State → Label → State) (condition : State → Label → Prop) :
    State → List Label → Prop
  | _, [] => True
  | state, label :: rest => condition state label ∧ Each step condition (step state label) rest

/-- What the steps of a run put out, in order. -/
def collect (step : State → Label → State) (out : State → Label → List Out) :
    State → List Label → List Out
  | _, [] => []
  | state, label :: rest => out state label ++ collect step out (step state label) rest

@[simp] theorem run_nil : run step state [] = state := rfl

@[simp] theorem run_cons (label : Label) :
    run step state (label :: labels) = run step (step state label) labels := rfl

/-- Under an invariant of the steps that meet it, a condition may imply another one. -/
theorem Each.imp {condition implied : State → Label → Prop} {property : State → Prop}
    (keeps : ∀ state label, property state → condition state label → property (step state label))
    (implies : ∀ state label, property state → condition state label → implied state label)
    (holds : property state) (meets : Each step condition state labels) :
    Each step implied state labels := by
  induction labels generalizing state with
  | nil => trivial
  | cons label rest induction =>
      exact ⟨implies state label holds meets.1,
        induction (keeps state label holds meets.1) meets.2⟩

theorem each_of_forall {condition : State → Label → Prop}
    (always : ∀ state label, condition state label) : Each step condition state labels := by
  induction labels generalizing state with
  | nil => trivial
  | cons label rest induction => exact ⟨always state label, induction⟩

/-- An invariant of all steps holds after every run. -/
theorem run_invariant {property : State → Prop}
    (keeps : ∀ state label, property state → property (step state label))
    (holds : property state) (labels : List Label) : property (run step state labels) := by
  induction labels generalizing state with
  | nil => exact holds
  | cons label rest induction => exact induction (keeps state label holds)

/-- Where the steps that meet a condition keep an invariant, and no other step from it shows
what the invariant shows, every state of a run shows it exactly when every step meets the
condition. -/
theorem forall_prefix_iff_each {condition : State → Label → Prop} {property shown : State → Prop}
    (shows : ∀ state, property state → shown state)
    (keeps : ∀ state label, property state → condition state label → property (step state label))
    (needs : ∀ state label, property state → shown (step state label) → condition state label)
    (holds : property state) :
    (∀ taken, taken <+: labels → shown (run step state taken)) ↔
      Each step condition state labels := by
  induction labels generalizing state with
  | nil => simpa [Each, run] using shows state holds
  | cons label rest induction =>
      constructor
      · intro all
        have first : shown (step state label) :=
          all [label] (List.cons_prefix_cons.mpr ⟨rfl, List.nil_prefix⟩)
        have meets := needs state label holds first
        refine ⟨meets, (induction (keeps state label holds meets)).mp ?_⟩
        intro taken isPrefix
        exact all (label :: taken) (List.cons_prefix_cons.mpr ⟨rfl, isPrefix⟩)
      · rintro ⟨meets, later⟩ taken isPrefix
        cases taken with
        | nil => exact shows state holds
        | cons head tail =>
            rcases List.cons_prefix_cons.mp isPrefix with ⟨rfl, tailPrefix⟩
            exact (induction (keeps state head holds meets)).mpr later tail tailPrefix

/-- A queue served in order by every step is served in order by the run: what was taken and
what still waits are what waited before and what was put in. -/
theorem collect_fifo {condition : State → Label → Prop} {property : State → Prop}
    {queue : State → List Out} {taken put : State → Label → List Out}
    (keeps : ∀ state label, property state → property (step state label))
    (serves : ∀ state label, property state → condition state label →
      taken state label ++ queue (step state label) = queue state ++ put state label)
    (holds : property state) (meets : Each step condition state labels) :
    collect step taken state labels ++ queue (run step state labels) =
      queue state ++ collect step put state labels := by
  induction labels generalizing state with
  | nil => simp [collect]
  | cons label rest induction =>
      simp only [collect, run_cons, List.append_assoc]
      rw [induction (keeps state label holds) meets.2, ← List.append_assoc,
        serves state label holds meets.1, List.append_assoc]

open List in
/-- A queue that also drops entries still hands out entries in order, each at most once. -/
theorem collect_sublist {condition : State → Label → Prop} {property : State → Prop}
    {queue : State → List Out} {taken put : State → Label → List Out}
    (keeps : ∀ state label, property state → property (step state label))
    (serves : ∀ state label, property state → condition state label →
      (taken state label ++ queue (step state label)).Sublist (queue state ++ put state label))
    (holds : property state) (meets : Each step condition state labels) :
    (collect step taken state labels ++ queue (run step state labels)).Sublist
      (queue state ++ collect step put state labels) := by
  induction labels generalizing state with
  | nil => simp [collect]
  | cons label rest induction =>
      simp only [collect, run_cons, List.append_assoc]
      have later := induction (keeps state label holds) meets.2
      have first := serves state label holds meets.1
      calc taken state label ++ (collect step taken (step state label) rest ++
              queue (run step (step state label) rest))
          <+ taken state label ++ (queue (step state label) ++
              collect step put (step state label) rest) := later.append_left _
        _ = taken state label ++ queue (step state label) ++
              collect step put (step state label) rest := (List.append_assoc ..).symm
        _ <+ queue state ++ put state label ++ collect step put (step state label) rest :=
              first.append_right _
        _ = queue state ++ (put state label ++ collect step put (step state label) rest) :=
              List.append_assoc ..

theorem collect_eq_nil {out : State → Label → List Out} {condition : State → Label → Prop}
    {property : State → Prop}
    (keeps : ∀ state label, property state → condition state label → property (step state label))
    (silent : ∀ state label, property state → condition state label → out state label = [])
    (holds : property state) (meets : Each step condition state labels) :
    collect step out state labels = [] := by
  induction labels generalizing state with
  | nil => rfl
  | cons label rest induction =>
      rw [collect, silent state label holds meets.1,
        induction (keeps state label holds meets.1) meets.2, List.append_nil]

end Runs
