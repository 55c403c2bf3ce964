import Condr.Terminal.View
import Mathlib.Data.List.Induction
import Mathlib.Data.List.Pairwise

/-!
# A cursor that settles

While a program repaints, the position that is reported stays where the cursor was until a new one
has held for a while, and a cursor that keeps moving is taken after a longer one. Both are measured
from the first observation away from the settled position.
-/

namespace Condr

/-- In nanoseconds, as all times here. -/
def cursorPositionSettle : ℕ := 20 * 1000000

def cursorPositionMaxHold : ℕ := 100 * 1000000

structure CursorSettle where
  settled : Option TerminalCursor
  candidate : Option TerminalCursor
  pendingSince : Option ℕ
deriving DecidableEq

namespace CursorSettle

def visible (cursor : TerminalCursor) : Bool := cursor.shape ≠ .hidden

def samePosition (left right : TerminalCursor) : Bool :=
  left.row = right.row && left.column = right.column

def reset (settled : Option TerminalCursor) : CursorSettle := ⟨settled, none, none⟩

def observe (settle : CursorSettle) (current : Option TerminalCursor) (now : ℕ) : CursorSettle :=
  match current with
  | none => reset none
  | some current =>
      if !visible current then reset (some current)
      else match settle.settled with
      | none => reset (some current)
      | some settled =>
          if samePosition settled current && visible settled then reset (some current)
          else match settle.candidate with
          | none => { settle with candidate := some current, pendingSince := some now }
          | some candidate =>
              let held := now - settle.pendingSince.getD now
              if cursorPositionMaxHold ≤ held ||
                  (samePosition candidate current && cursorPositionSettle ≤ held) then
                reset (some current)
              else { settle with candidate := some current }

/-- `position` says where, `current` how it looks. -/
def merge (position current : TerminalCursor) : TerminalCursor where
  row := position.row
  column := position.column
  shape := if visible position then current.shape else .hidden
  blinking := current.blinking

def reported (settle : CursorSettle) (current : Option TerminalCursor) (now : ℕ) :
    Option TerminalCursor :=
  match current with
  | none => none
  | some current =>
      match settle.candidate with
      | none => some current
      | some candidate =>
          if cursorPositionSettle ≤ now - settle.pendingSince.getD now then
            some (merge candidate current)
          else some (match settle.settled with
            | some settled => merge settled current
            | none => { candidate with shape := .hidden })

/-! ## Runs -/

structure Observation where
  cursor : Option TerminalCursor
  time : ℕ
deriving DecidableEq

def run (observations : List Observation) : CursorSettle :=
  observations.foldl (fun settle seen => settle.observe seen.cursor seen.time) (reset none)

/-- The cursor of the last observation. -/
def lastCursor (observations : List Observation) : Option TerminalCursor :=
  observations.getLast?.bind Observation.cursor

def Ordered (observations : List Observation) : Prop :=
  observations.Pairwise fun first second => first.time ≤ second.time

/-- What is read now. -/
def read (observations : List Observation) (now : ℕ) : Option TerminalCursor :=
  (run observations).reported (lastCursor observations) now

/-! ## What a read should show -/

/-- A visible position that is not the settled one. -/
def Moved (settle : CursorSettle) (shown : TerminalCursor) : Prop :=
  visible shown ∧ ∀ settled, settle.settled = some settled →
    ¬ (visible settled ∧ samePosition settled shown)

/-- Every observation of late saw the cursor there. -/
def Held (observations : List Observation) (shown : TerminalCursor) (now : ℕ) : Prop :=
  ∀ seen ∈ observations, now - seen.time < cursorPositionSettle →
    ∃ cursor, seen.cursor = some cursor ∧ visible cursor ∧ samePosition cursor shown

/-- The cursor has been unsettled for as long as it may. -/
def Overdue (settle : CursorSettle) (now : ℕ) : Prop :=
  ∃ since, settle.pendingSince = some since ∧ cursorPositionMaxHold ≤ now - since

def Trusted (observations : List Observation) (now : ℕ) : Prop :=
  ∀ shown, read observations now = some shown → Moved (run observations) shown →
    Held observations shown now ∨ Overdue (run observations) now

/-- The cursor was at two positions of late, in a stretch that is neither young nor overdue. -/
def Restless (observations : List Observation) (now : ℕ) : Prop :=
  ∃ since, (run observations).pendingSince = some since ∧ cursorPositionSettle ≤ now - since ∧
    now - since < cursorPositionMaxHold ∧
    ∃ first ∈ observations, ∃ second ∈ observations,
      now - first.time < cursorPositionSettle ∧ now - second.time < cursorPositionSettle ∧
      ∃ here there, first.cursor = some here ∧ second.cursor = some there ∧
        ¬ samePosition here there

/-! ## The state along a run -/

/-- An unsettled stretch: what was seen since it began. -/
structure Stretch (observations : List Observation) (settle : CursorSettle)
    (candidate : TerminalCursor) : Prop where
  last : lastCursor observations = some candidate
  shown : visible candidate = true
  settled : ∃ settled, settle.settled = some settled ∧
    (samePosition settled candidate && visible settled) = false
  began : ∃ since, settle.pendingSince = some since ∧ ∀ seen ∈ observations,
    since < seen.time → ∃ cursor, seen.cursor = some cursor ∧ visible cursor

/-- What the state keeps of a run. -/
structure Keeps (observations : List Observation) (settle : CursorSettle) : Prop where
  idle : settle.candidate = none →
    settle.pendingSince = none ∧ settle.settled = lastCursor observations
  pending : ∀ candidate, settle.candidate = some candidate →
    Stretch observations settle candidate

theorem run_concat (observations : List Observation) (seen : Observation) :
    run (observations ++ [seen]) = (run observations).observe seen.cursor seen.time := by
  rw [run, List.foldl_append]
  rfl

theorem lastCursor_concat (observations : List Observation) (seen : Observation) :
    lastCursor (observations ++ [seen]) = seen.cursor := by
  simp [lastCursor]

theorem keeps_reset {observations : List Observation} {settled : Option TerminalCursor}
    (last : lastCursor observations = settled) : Keeps observations (reset settled) :=
  ⟨fun _ => ⟨rfl, last.symm⟩, nofun⟩

theorem keeps_observe {observations : List Observation} {settle : CursorSettle}
    (keeps : Keeps observations settle) {seen : Observation}
    (latest : ∀ earlier ∈ observations, earlier.time ≤ seen.time) :
    Keeps (observations ++ [seen]) (settle.observe seen.cursor seen.time) := by
  have last := lastCursor_concat observations seen
  unfold observe
  cases found : seen.cursor with
  | none => exact keeps_reset (last.trans found)
  | some current =>
      rw [found] at last
      dsimp only
      split_ifs with hidden
      · exact keeps_reset last
      · have shown : visible current = true := by simpa using hidden
        cases settled : settle.settled with
        | none => exact keeps_reset last
        | some position =>
            dsimp only
            split_ifs with same
            · exact keeps_reset last
            · have away := Bool.eq_false_iff.mpr same
              cases candidate : settle.candidate with
              | none =>
                  -- The stretch begins with this observation.
                  refine ⟨nofun, ?_⟩
                  rintro _ ⟨⟩
                  refine ⟨last, shown, ⟨position, rfl, away⟩, seen.time, rfl, ?_⟩
                  intro other contained later
                  rcases List.mem_append.mp contained with before | here
                  · exact absurd (latest other before) (Nat.not_le.mpr later)
                  · rw [List.mem_singleton.mp here] at later
                    exact absurd later (Nat.lt_irrefl _)
              | some old =>
                  dsimp only
                  split_ifs with accepted
                  · exact keeps_reset last
                  · refine ⟨nofun, ?_⟩
                    rintro _ ⟨⟩
                    rcases (keeps.pending old candidate).began with ⟨since, pending, after⟩
                    refine ⟨last, shown, ⟨position, rfl, away⟩, since, pending, ?_⟩
                    intro other contained later
                    rcases List.mem_append.mp contained with before | here
                    · exact after other before later
                    · rw [List.mem_singleton.mp here]
                      exact ⟨current, found, shown⟩

theorem keeps_run {observations : List Observation} (ordered : Ordered observations) :
    Keeps observations (run observations) := by
  induction observations using List.reverseRecOn with
  | nil => exact keeps_reset rfl
  | append_singleton observations seen ih =>
      rw [Ordered, List.pairwise_append] at ordered
      rw [run_concat]
      exact keeps_observe (ih ordered.1) fun earlier before =>
        ordered.2.2 earlier before seen (List.mem_singleton_self seen)

/-! ## Reads -/

section Reads

variable {observations : List Observation} {now : ℕ}

theorem merge_self {cursor : TerminalCursor} (shown : visible cursor = true) :
    merge cursor cursor = cursor := by
  rw [merge, if_pos shown]

theorem samePosition_refl (cursor : TerminalCursor) : samePosition cursor cursor = true := by
  simp [samePosition]

theorem samePosition_symm (left right : TerminalCursor) :
    samePosition left right = samePosition right left := by
  simp [samePosition, eq_comm]

theorem read_of_idle (idle : (run observations).candidate = none) :
    read observations now = lastCursor observations := by
  unfold read reported
  rw [idle]
  cases lastCursor observations <;> rfl

/-- In a stretch a read shows the candidate when it has been long enough, and else the settled
position. -/
theorem read_of_stretch {candidate : TerminalCursor}
    (found : (run observations).candidate = some candidate)
    (stretch : Stretch observations (run observations) candidate) {since : ℕ}
    (pending : (run observations).pendingSince = some since) :
    read observations now = some (if cursorPositionSettle ≤ now - since then candidate
      else merge (((run observations).settled).getD candidate) candidate) := by
  rcases stretch.settled with ⟨settled, position, -⟩
  unfold read reported
  rw [stretch.last, found, pending, position]
  dsimp only [Option.getD_some]
  split_ifs
  · rw [merge_self stretch.shown]
  · rfl

theorem time_le_of_last (ordered : Ordered observations) {candidate : TerminalCursor}
    (last : lastCursor observations = some candidate) :
    ∃ final ∈ observations, final.cursor = some candidate ∧
      ∀ seen ∈ observations, seen.time ≤ final.time := by
  rcases Option.bind_eq_some_iff.mp last with ⟨final, found, same⟩
  rcases List.getLast?_eq_some_iff.mp found with ⟨front, rfl⟩
  refine ⟨final, by simp, same, ?_⟩
  intro seen contained
  rw [Ordered, List.pairwise_append] at ordered
  rcases List.mem_append.mp contained with before | here
  · exact ordered.2.2 seen before final (List.mem_singleton_self final)
  · exact Nat.le_of_eq (congrArg Observation.time (List.mem_singleton.mp here))

/-- A read that shows a moved cursor is one of an unsettled stretch, and shows its candidate. -/
theorem stretch_of_moved (keeps : Keeps observations (run observations)) {shown : TerminalCursor}
    (reads : read observations now = some shown) (moved : Moved (run observations) shown) :
    ∃ since, (run observations).candidate = some shown ∧
      (run observations).pendingSince = some since ∧ cursorPositionSettle ≤ now - since := by
  cases found : (run observations).candidate with
  | none =>
      rw [read_of_idle found] at reads
      have settled := (keeps.idle found).2.trans reads
      exact absurd ⟨moved.1, samePosition_refl shown⟩ (moved.2 shown settled)
  | some candidate =>
      have stretch := keeps.pending candidate found
      rcases stretch.began with ⟨since, pending, -⟩
      rw [read_of_stretch found stretch pending] at reads
      split_ifs at reads with held
      · cases reads
        exact ⟨since, rfl, pending, held⟩
      · rcases stretch.settled with ⟨settled, position, -⟩
        rw [position, Option.getD_some] at reads
        cases reads
        exfalso
        rcases moved with ⟨isShown, away⟩
        apply away settled position
        have settledShown : visible settled = true := by
          by_contra hidden
          simp only [merge, if_neg hidden] at isShown
          cases isShown
        exact ⟨settledShown, by simp [samePosition, merge]⟩

theorem moved_candidate {candidate : TerminalCursor}
    (stretch : Stretch observations (run observations) candidate) :
    Moved (run observations) candidate := by
  rcases stretch.settled with ⟨settled, position, away⟩
  refine ⟨stretch.shown, ?_⟩
  intro other isSettled both
  rw [position] at isSettled
  cases isSettled
  rw [samePosition_symm, both.1, Bool.and_true, samePosition_symm, both.2] at away
  cases away

/-- A read shows only what it should, unless the cursor was restless. -/
theorem trusted_iff (ordered : Ordered observations) :
    Trusted observations now ↔ ¬ Restless observations now := by
  have keeps := keeps_run ordered
  constructor
  · rintro trusted ⟨since, pending, held, early, first, firstIn, second, secondIn, firstLate,
      secondLate, here, there, firstAt, secondAt, apart⟩
    cases found : (run observations).candidate with
    | none =>
        rw [(keeps.idle found).1] at pending
        cases pending
    | some candidate =>
        have stretch := keeps.pending candidate found
        have reads : read observations now = some candidate := by
          rw [read_of_stretch found stretch pending, if_pos held]
        rcases trusted candidate reads (moved_candidate stretch) with steady | ⟨start, same, overdue⟩
        · rcases steady first firstIn firstLate with ⟨cursor, isHere, -, atFirst⟩
          rcases steady second secondIn secondLate with ⟨other, isThere, -, atSecond⟩
          rw [firstAt] at isHere
          rw [secondAt] at isThere
          cases isHere
          cases isThere
          apply apart
          simp only [samePosition, Bool.and_eq_true, decide_eq_true_eq] at atFirst atSecond ⊢
          exact ⟨atFirst.1.trans atSecond.1.symm, atFirst.2.trans atSecond.2.symm⟩
        · rw [pending] at same
          cases same
          exact absurd overdue (Nat.not_le.mpr early)
  · intro calm shown reads moved
    rcases stretch_of_moved keeps reads moved with ⟨since, found, pending, held⟩
    have stretch := keeps.pending shown found
    by_cases overdue : cursorPositionMaxHold ≤ now - since
    · exact .inr ⟨since, pending, overdue⟩
    · left
      intro seen contained late
      rcases stretch.began with ⟨start, same, after⟩
      rw [pending] at same
      cases same
      rcases after seen contained (by omega) with ⟨cursor, isAt, isShown⟩
      refine ⟨cursor, isAt, isShown, ?_⟩
      by_contra apart
      rcases time_le_of_last ordered stretch.last with ⟨final, finalIn, finalAt, latest⟩
      have finalLate := latest seen contained
      exact calm ⟨since, pending, held, Nat.not_le.mp overdue, seen, contained, final, finalIn, late,
        by omega, cursor, shown, isAt, finalAt, apart⟩

/-- A cursor that is hidden or gone is reported so at once. -/
theorem read_of_hidden (ordered : Ordered observations)
    (hidden : ∀ cursor, lastCursor observations = some cursor → visible cursor = false) :
    read observations now = lastCursor observations := by
  have keeps := keeps_run ordered
  cases found : (run observations).candidate with
  | none => exact read_of_idle found
  | some candidate =>
      have stretch := keeps.pending candidate found
      have absurdity := hidden candidate stretch.last
      rw [stretch.shown] at absurdity
      cases absurdity

/-- The position waits to be revealed. -/
def Revealing (settle : CursorSettle) (now : ℕ) : Prop :=
  ∃ since settled, settle.pendingSince = some since ∧ now - since < cursorPositionSettle ∧
    settle.settled = some settled ∧ visible settled = false

theorem looks_of_read (ordered : Ordered observations) {shown : TerminalCursor}
    (reads : read observations now = some shown) :
    ∃ current, lastCursor observations = some current ∧ shown.blinking = current.blinking ∧
      (shown.shape = current.shape ∨ Revealing (run observations) now ∧ shown.shape = .hidden) := by
  have keeps := keeps_run ordered
  cases found : (run observations).candidate with
  | none =>
      rw [read_of_idle found] at reads
      exact ⟨shown, reads, rfl, .inl rfl⟩
  | some candidate =>
      have stretch := keeps.pending candidate found
      rcases stretch.began with ⟨since, pending, -⟩
      refine ⟨candidate, stretch.last, ?_⟩
      rw [read_of_stretch found stretch pending] at reads
      split_ifs at reads with held
      · cases reads
        exact ⟨rfl, .inl rfl⟩
      · rcases stretch.settled with ⟨settled, position, -⟩
        rw [position, Option.getD_some] at reads
        cases reads
        refine ⟨rfl, ?_⟩
        cases isShown : visible settled with
        | true =>
            left
            rw [merge, if_pos isShown]
        | false =>
            right
            refine ⟨⟨since, settled, pending, Nat.not_le.mp held, position, isShown⟩, ?_⟩
            rw [merge, if_neg (by simp [isShown])]

/-- Reads of any run: a moved position is shown too early just when the cursor was restless; a
hidden or absent cursor is reported at once, and what is shown looks as the cursor does unless its
position waits to be revealed. -/
theorem cursor_settling_iff (ordered : Ordered observations) :
    (Trusted observations now ↔ ¬ Restless observations now) ∧
      ((∀ cursor, lastCursor observations = some cursor → visible cursor = false) →
        read observations now = lastCursor observations) ∧
      ∀ shown, read observations now = some shown →
        ∃ current, lastCursor observations = some current ∧ shown.blinking = current.blinking ∧
          (shown.shape = current.shape ∨
            Revealing (run observations) now ∧ shown.shape = .hidden) :=
  ⟨trusted_iff ordered, read_of_hidden ordered, fun _ reads => looks_of_read ordered reads⟩

end Reads

/-- A cursor that moves and moves again. -/
def wandering : List Observation :=
  [⟨some ⟨0, 1, .block, false⟩, 0⟩, ⟨some ⟨0, 2, .block, false⟩, 10000000⟩,
    ⟨some ⟨0, 4, .block, false⟩, 20000000⟩, ⟨some ⟨0, 3, .block, false⟩, 25000000⟩]

theorem ordered_wandering : Ordered wandering := by
  simp [Ordered, wandering]

theorem cursor_settling_wandering :
    Trusted wandering 30000000 ↔ ¬ Restless wandering 30000000 :=
  (cursor_settling_iff ordered_wandering).1

/-- It is shown where it has been for a quarter of the time it should hold. -/
theorem wandering_shown : ¬ Trusted wandering 30000000 := by
  intro trusted
  have shown := trusted ⟨0, 3, .block, false⟩ (by decide) ⟨by decide, fun settled isSettled => by
    have position : (run wandering).settled = some ⟨0, 1, .block, false⟩ := by decide
    rw [position] at isSettled
    cases isSettled
    decide⟩
  rcases shown with held | ⟨since, pending, overdue⟩
  · rcases held ⟨some ⟨0, 4, .block, false⟩, 20000000⟩ (by simp [wandering]) (by decide) with
      ⟨cursor, found, -, same⟩
    cases found
    revert same
    decide
  · have start : (run wandering).pendingSince = some 10000000 := by decide
    rw [start] at pending
    cases pending
    revert overdue
    decide

end CursorSettle

end Condr
