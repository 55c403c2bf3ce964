import Mathlib.Data.List.Basic
import Mathlib.Data.List.Count
import Mathlib.Data.List.Infix
import Mathlib.Tactic.Common

/-!
# One slot for what is open

A machine opens and closes things of several kinds and remembers in one slot which one is
open. Its trace is balanced, each kind being opened and closed in turn, exactly as long as
nothing is opened while the slot is taken: what the slot forgets is never closed.
-/

namespace Slot

universe u

variable {κ : Type u}

/-- What the trace shows. -/
inductive Mark (κ : Type u) where
  | opened (key : κ)
  | closed (key : κ)
  | within (key : κ)
  | other
deriving DecidableEq

/-- What the machine is told; a move or another input may leave no mark. -/
inductive Input (κ : Type u) where
  | opens (key : κ)
  | closes (key : κ)
  | moves (key : κ) (shown : Bool)
  | passes (shown : Bool)

structure State (κ : Type u) where
  slot : Option κ
  trace : List (Mark κ)

def State.initial : State κ := ⟨none, []⟩

variable [DecidableEq κ]

def step (state : State κ) : Input κ → State κ
  | .opens key => ⟨some key, state.trace ++ [.opened key]⟩
  | .closes key => if state.slot = some key then ⟨none, state.trace ++ [.closed key]⟩ else state
  | .moves key shown =>
      if state.slot = some key ∧ shown then ⟨state.slot, state.trace ++ [.within key]⟩ else state
  | .passes shown => if shown then ⟨state.slot, state.trace ++ [.other]⟩ else state

/-- Closes what the slot has. -/
def finish (state : State κ) : State κ :=
  match state.slot with
  | none => state
  | some key => ⟨none, state.trace ++ [.closed key]⟩

def run (inputs : List (Input κ)) : State κ := inputs.foldl step .initial

/-- Each kind is opened and closed in turn, ends closed, and has marks within only while it is
open. -/
structure Balanced (trace : List (Mark κ)) : Prop where
  turns : ∀ key front, front <+: trace →
    front.count (.closed key) ≤ front.count (.opened key) ∧
      front.count (.opened key) ≤ front.count (.closed key) + 1
  settled : ∀ key, trace.count (.opened key) = trace.count (.closed key)
  inside : ∀ key front, front ++ [.within key] <+: trace →
    front.count (.closed key) < front.count (.opened key)

/-- Something is opened before what was opened is closed. -/
def Overlap (inputs : List (Input κ)) : Prop :=
  ∃ front key middle other back,
    inputs = front ++ .opens key :: (middle ++ .opens other :: back) ∧ .closes key ∉ middle

/-! ## Counting -/

/-- One for the kind in the slot. -/
def held (state : State κ) (key : κ) : ℕ := if state.slot = some key then 1 else 0

/-- What is open is what the slot has. -/
structure Sound (state : State κ) : Prop where
  counts : ∀ key, state.trace.count (.opened key) =
    state.trace.count (.closed key) + held state key
  turns : ∀ key front, front <+: state.trace →
    front.count (.closed key) ≤ front.count (.opened key) ∧
      front.count (.opened key) ≤ front.count (.closed key) + 1
  inside : ∀ key front, front ++ [.within key] <+: state.trace →
    front.count (.closed key) < front.count (.opened key)

/-- A kind was opened that the slot has forgotten. -/
def Lost (state : State κ) : Prop :=
  ∃ key, state.trace.count (.closed key) + held state key < state.trace.count (.opened key)

theorem held_le (state : State κ) (key : κ) : held state key ≤ 1 := by
  unfold held
  split_ifs <;> omega

theorem sound_initial : Sound (State.initial : State κ) where
  counts key := rfl
  turns key front first := by
    rw [List.prefix_nil.mp first]
    simp
  inside key front first := by
    have := List.prefix_nil.mp first
    simp at this

/-- A mark that keeps the counts with the slot keeps the rest. -/
theorem Sound.concat {state : State κ} (sound : Sound state) {slot : Option κ} {mark : Mark κ}
    (counts : ∀ key, (state.trace ++ [mark]).count (.opened key) =
      (state.trace ++ [mark]).count (.closed key) + held ⟨slot, state.trace ++ [mark]⟩ key)
    (inside : ∀ key, mark = .within key → state.slot = some key) :
    Sound ⟨slot, state.trace ++ [mark]⟩ where
  counts := counts
  turns key front first := by
    rcases List.prefix_concat_iff.mp first with rfl | first
    · have := counts key
      have := held_le ⟨slot, state.trace ++ [mark]⟩ key
      omega
    · exact sound.turns key front first
  inside key front first := by
    rcases List.prefix_concat_iff.mp first with whole | first
    · rcases List.append_inj' whole rfl with ⟨rfl, last⟩
      have taken := inside key (List.cons.inj last).1.symm
      have := sound.counts key
      rw [held, if_pos taken] at this
      omega
    · exact sound.inside key front first

theorem Sound.opens {state : State κ} (sound : Sound state) (free : state.slot = none) (key : κ) :
    Sound (step state (.opens key)) := by
  refine sound.concat (fun other => ?_) (fun other absurd => by cases absurd)
  have before := sound.counts other
  rw [held, free] at before
  by_cases same : key = other
  · subst same
    simp [held] at before ⊢
    omega
  · simp [held, same] at before ⊢
    omega

theorem Sound.closes {state : State κ} (sound : Sound state) {key : κ}
    (taken : state.slot = some key) : Sound ⟨none, state.trace ++ [.closed key]⟩ := by
  refine sound.concat (fun other => ?_) (fun other absurd => by cases absurd)
  have before := sound.counts other
  rw [held, taken] at before
  by_cases same : key = other
  · subst same
    simp [held] at before ⊢
    omega
  · simp [held, same] at before ⊢
    omega

theorem Sound.marks {state : State κ} (sound : Sound state) {mark : Mark κ}
    (opened : ∀ key, mark ≠ .opened key) (closed : ∀ key, mark ≠ .closed key)
    (inside : ∀ key, mark = .within key → state.slot = some key) :
    Sound ⟨state.slot, state.trace ++ [mark]⟩ := by
  refine sound.concat (fun other => ?_) inside
  have before := sound.counts other
  simp only [List.count_append, List.count_singleton, beq_iff_eq, opened other, closed other,
    if_false, Nat.add_zero]
  exact before

theorem Sound.step {state : State κ} (sound : Sound state) {input : Input κ}
    (free : ∀ key, input = .opens key → state.slot = none) : Sound (step state input) := by
  cases input with
  | opens key => exact sound.opens (free key rfl) key
  | closes key =>
      simp only [Slot.step]
      split_ifs with taken
      · exact sound.closes taken
      · exact sound
  | moves key shown =>
      simp only [Slot.step]
      split_ifs with taken
      · refine sound.marks (by simp) (by simp) fun other same => ?_
        rw [← Mark.within.inj same]
        exact taken.1
      · exact sound
  | passes shown =>
      simp only [Slot.step]
      split_ifs
      · exact sound.marks (by simp) (by simp) (by simp)
      · exact sound

/-- What is finished has nothing open. -/
theorem Sound.balanced {state : State κ} (sound : Sound state) : Balanced (finish state).trace := by
  have balanced : ∀ state : State κ, Sound state → state.slot = none → Balanced state.trace := by
    intro state sound free
    refine ⟨sound.turns, fun key => ?_, sound.inside⟩
    have := sound.counts key
    rw [held, free] at this
    simpa using this
  unfold finish
  split
  next free => exact balanced state sound free
  next key taken => exact balanced _ (sound.closes taken) rfl

/-! ## What is lost -/

/-- No step makes up for what the slot has forgotten. -/
theorem step_excess (state : State κ) (input : Input κ) (key : κ) :
    state.trace.count (.opened key) +
        ((step state input).trace.count (.closed key) + held (step state input) key) ≤
      (step state input).trace.count (.opened key) +
        (state.trace.count (.closed key) + held state key) := by
  cases input with
  | opens other =>
      by_cases same : other = key
      · simp [step, held, same]
        omega
      · simp [step, held, same]
  | closes other =>
      simp only [step]
      split_ifs with taken
      · by_cases same : other = key
        · simp [held, taken, same]
        · simp [held, taken, same]
      · omega
  | moves other shown =>
      simp only [step]
      split_ifs
      · simp [held]
      · omega
  | passes shown =>
      simp only [step]
      split_ifs
      · simp [held]
      · omega

/-- What is opened while the slot is taken makes it forget. -/
theorem opens_excess {state : State κ} {key : κ} (taken : state.slot = some key) (other : κ) :
    state.trace.count (.opened key) +
        ((step state (.opens other)).trace.count (.closed key) +
          held (step state (.opens other)) key) + 1 ≤
      (step state (.opens other)).trace.count (.opened key) +
        (state.trace.count (.closed key) + held state key) := by
  by_cases same : other = key
  · simp only [step, held, taken, same]
    grind
  · simp only [step, held, taken]
    grind

/-- Nothing is closed that was not opened. -/
def Covered (state : State κ) : Prop :=
  ∀ key, state.trace.count (.closed key) + held state key ≤ state.trace.count (.opened key)

theorem Covered.step {state : State κ} (covered : Covered state) (input : Input κ) :
    Covered (step state input) := by
  intro key
  have := covered key
  have := step_excess state input key
  omega

theorem Lost.step {state : State κ} (lost : Lost state) (input : Input κ) :
    Lost (step state input) := by
  rcases lost with ⟨key, less⟩
  have := step_excess state input key
  exact ⟨key, by omega⟩

theorem Covered.foldl {state : State κ} (covered : Covered state) (inputs : List (Input κ)) :
    Covered (inputs.foldl Slot.step state) := by
  induction inputs generalizing state with
  | nil => exact covered
  | cons input inputs induction => exact induction (covered.step input)

theorem Lost.foldl {state : State κ} (lost : Lost state) (inputs : List (Input κ)) :
    Lost (inputs.foldl Slot.step state) := by
  induction inputs generalizing state with
  | nil => exact lost
  | cons input inputs induction => exact induction (lost.step input)

theorem Covered.opens {state : State κ} (covered : Covered state) {key : κ}
    (taken : state.slot = some key) (other : κ) : Lost (Slot.step state (.opens other)) := by
  have := covered key
  have := opens_excess taken other
  exact ⟨key, by omega⟩

theorem Lost.not_balanced {state : State κ} (lost : Lost state) :
    ¬Balanced (finish state).trace := by
  rcases lost with ⟨key, less⟩
  intro balanced
  have settled := balanced.settled key
  unfold finish at settled
  split at settled
  · omega
  next other taken =>
    simp only [held, taken, Option.some_inj] at less
    by_cases same : other = key
    · simp [same] at settled less
      omega
    · simp [same] at settled less
      omega

/-! ## Runs -/

theorem run_concat (inputs : List (Input κ)) (input : Input κ) :
    run (inputs ++ [input]) = step (run inputs) input := by
  simp [run]

/-- What the slot has was opened and not closed since. -/
theorem opened_of_slot {inputs : List (Input κ)} {key : κ} (taken : (run inputs).slot = some key) :
    ∃ front middle, inputs = front ++ .opens key :: middle ∧ .closes key ∉ middle := by
  induction inputs using List.reverseRecOn with
  | nil => cases taken
  | append_singleton inputs input induction =>
      have before : ∀ (still : (run inputs).slot = some key) (stays : input ≠ .closes key),
          ∃ front middle, inputs ++ [input] = front ++ .opens key :: middle ∧
            .closes key ∉ middle := by
        intro still stays
        rcases induction still with ⟨front, middle, rfl, absent⟩
        exact ⟨front, middle ++ [input], by simp, by simp [absent, stays.symm]⟩
      rw [run_concat] at taken
      cases input with
      | opens other =>
          cases taken
          exact ⟨inputs, [], rfl, by simp⟩
      | closes other =>
          simp only [step] at taken
          split_ifs at taken with was
          refine before taken fun same => was ?_
          rw [Input.closes.inj same]
          exact taken
      | moves other shown =>
          simp only [step] at taken
          split_ifs at taken <;> exact before taken (by simp)
      | passes shown =>
          simp only [step] at taken
          split_ifs at taken <;> exact before taken (by simp)

omit [DecidableEq κ] in
theorem Overlap.concat {inputs : List (Input κ)} (overlap : Overlap inputs) (input : Input κ) :
    Overlap (inputs ++ [input]) := by
  rcases overlap with ⟨front, key, middle, other, back, rfl, absent⟩
  exact ⟨front, key, middle, other, back ++ [input], by simp, absent⟩

theorem sound_run {inputs : List (Input κ)} (apart : ¬Overlap inputs) : Sound (run inputs) := by
  induction inputs using List.reverseRecOn with
  | nil => exact sound_initial
  | append_singleton inputs input induction =>
      rw [run_concat]
      refine (induction fun overlap => apart (overlap.concat input)).step ?_
      rintro other rfl
      by_contra taken
      rcases Option.ne_none_iff_exists'.mp taken with ⟨key, taken⟩
      rcases opened_of_slot taken with ⟨front, middle, rfl, absent⟩
      exact apart ⟨front, key, middle, other, [], by simp, absent⟩

/-- Until it is closed a kind stays in the slot, or is lost. -/
theorem taken_or_lost {state : State κ} {key : κ} {inputs : List (Input κ)}
    (covered : Covered state) (taken : state.slot = some key) (absent : .closes key ∉ inputs) :
    (inputs.foldl step state).slot = some key ∨ Lost (inputs.foldl step state) := by
  induction inputs generalizing state with
  | nil => exact .inl taken
  | cons input inputs induction =>
      rw [List.mem_cons, not_or] at absent
      rw [List.foldl_cons]
      cases input with
      | opens other => exact .inr ((covered.opens taken other).foldl inputs)
      | closes other =>
          refine induction (covered.step _) ?_ absent.2
          have differs : key ≠ other := fun same => absent.1 (by rw [same])
          simp only [step]
          rw [if_neg (by rw [taken]; simpa using differs), taken]
      | moves other shown =>
          refine induction (covered.step _) ?_ absent.2
          simp only [step]
          split_ifs <;> exact taken
      | passes shown =>
          refine induction (covered.step _) ?_ absent.2
          simp only [step]
          split_ifs <;> exact taken

theorem Overlap.lost {inputs : List (Input κ)} (overlap : Overlap inputs) : Lost (run inputs) := by
  rcases overlap with ⟨front, key, middle, other, back, rfl, absent⟩
  have initial : Covered (State.initial : State κ) := fun key => Nat.le_refl _
  have covered : Covered (step (run front) (.opens key)) := (initial.foldl front).step _
  rw [run, List.foldl_append, List.foldl_cons, List.foldl_append, List.foldl_cons]
  apply Lost.foldl
  rcases taken_or_lost covered rfl absent with taken | lost
  · exact (covered.foldl middle).opens taken other
  · exact lost.step _

/-- The trace is balanced exactly where nothing is opened while the slot is taken. -/
theorem balanced_iff (inputs : List (Input κ)) :
    Balanced (finish (run inputs)).trace ↔ ¬Overlap inputs := by
  constructor
  · intro balanced overlap
    exact overlap.lost.not_balanced balanced
  · intro apart
    exact (sound_run apart).balanced

end Slot
