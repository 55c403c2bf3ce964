import Mathlib.Logic.Relation

/-!
# Labelled transition systems

A system is given by its initial states and its labelled steps. Safety arguments
about it are inductions on reachability, packaged once here: an invariant holds
initially, is kept by every step, and therefore holds of every reachable state.
A system can also be restricted to the steps a guard admits, which states
properties of the runs whose every step meets a condition.
-/

namespace Transition

universe u v w

/-- A labelled transition system. -/
structure System (State : Type u) (Label : Type v) where
  /-- Where a run may start. -/
  initial : State → Prop
  /-- The steps a run may take. -/
  step : State → Label → State → Prop

namespace System

variable {State : Type u} {Label : Type v}

/-- The states the runs of a system visit. -/
inductive Reachable (system : System State Label) : State → Prop where
  | start {state : State} (starts : system.initial state) : Reachable system state
  | next {state next : State} {label : Label} (reached : Reachable system state)
      (steps : system.step state label next) : Reachable system next

/-- A property that holds initially and is kept by every step is an invariant. -/
theorem Reachable.invariant {system : System State Label} (property : State → Prop)
    (holdsInitially : ∀ state, system.initial state → property state)
    (keeps : ∀ state label next, property state → system.step state label next → property next)
    {state : State} (reached : system.Reachable state) : property state := by
  induction reached with
  | start starts => exact holdsInitially _ starts
  | next _ steps holds => exact keeps _ _ _ holds steps

/-- The state after a list of labels that each lead to at most one state. -/
def runLabels (perform : State → Label → Option State) (state : State) (labels : List Label) :
    Option State :=
  labels.foldlM perform state

theorem Reachable.of_runLabels {system : System State Label}
    {perform : State → Label → Option State}
    (performs : ∀ state label next, perform state label = some next →
      system.step state label next)
    {labels : List Label} {state last : State} (reached : system.Reachable state)
    (runs : runLabels perform state labels = some last) : system.Reachable last := by
  induction labels generalizing state with
  | nil =>
      cases runs
      exact reached
  | cons label rest induction =>
      rcases Option.bind_eq_some_iff.mp runs with ⟨next, performed, later⟩
      exact induction (reached.next (performs state label next performed)) later

end System

/-- Steps that keep a property and take a rank down come to an end. -/
theorem acc_of_rank {State : Type u} {Rank : Type w} {steps : State → State → Prop}
    {less : Rank → Rank → Prop} (descends : WellFounded less) (rank : State → Rank)
    (property : State → Prop)
    (falls : ∀ state next, property state → steps state next →
      property next ∧ less (rank next) (rank state))
    {state : State} (holds : property state) : Acc (fun next state => steps state next) state := by
  generalize is_rank : rank state = height
  induction descends.apply height generalizing state with
  | intro height _ induction =>
      constructor
      intro next step
      rcases falls state next holds step with ⟨kept, lower⟩
      rw [is_rank] at lower
      exact induction (rank next) lower kept rfl

/-- Steps that come to an end have a last state. -/
theorem exists_last_of_acc {State : Type u} {steps : State → State → Prop} {state : State}
    (ends : Acc (fun next state => steps state next) state) :
    ∃ last, Relation.ReflTransGen steps state last ∧ ∀ next, ¬steps last next := by
  induction ends with
  | intro state _ induction =>
      by_cases stuck : ∃ next, steps state next
      · rcases stuck with ⟨next, step⟩
        rcases induction next step with ⟨last, later, settled⟩
        exact ⟨last, later.head step, settled⟩
      · exact ⟨state, .refl, not_exists.mp stuck⟩

end Transition
