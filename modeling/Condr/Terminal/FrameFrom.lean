import Condr.Foundation.Lists
import Condr.Terminal.View

/-!
# The frame between two views

What a terminal sends to bring a view up to date: the whole view, or the runs of cells that
differ. A frame that is sent leads to the current view, and where none is, nothing but the
revision differs.
-/

namespace Condr

variable {Link : Type} [DecidableEq Link]

/-- The inner loop of `frame_from`: the cells from here on, as long as they differ. -/
def changedCells : (previous current : List (TerminalCell Link)) → List (TerminalCell Link)
  | old :: previous, new :: current =>
      if old = new then [] else new :: changedCells previous current
  | _, _ => []

theorem length_changedCells_le (previous current : List (TerminalCell Link)) :
    (changedCells previous current).length ≤ current.length := by
  induction previous generalizing current with
  | nil => simp [changedCells]
  | cons old previous induction =>
      cases current with
      | nil => simp [changedCells]
      | cons new current =>
          rw [changedCells]
          split_ifs
          · simp
          · have shorter := induction current
            simpa using shorter

/-- The outer loop of `frame_from`: the runs of cells that differ, each with the index of its
first cell. -/
def changedRuns (index : ℕ) :
    (previous current : List (TerminalCell Link)) → List (ℕ × List (TerminalCell Link))
  | old :: previous, new :: current =>
      if old = new then changedRuns (index + 1) previous current
      else
        (index, new :: changedCells previous current) ::
          changedRuns (index + 1 + (changedCells previous current).length)
            (previous.drop (changedCells previous current).length)
            (current.drop (changedCells previous current).length)
  | _, _ => []
termination_by _ current => current.length

/-- A run whose start fits; `none` is the `expect` of `frame_from`. -/
def TerminalCellRun.starting (start : ℕ) (cells : List (TerminalCell Link)) :
    Option (TerminalCellRun Link) :=
  if start < 2 ^ 32 then some { start := UInt32.ofNat start, cells } else none

/-- `frame_from`: the frame, if there is one to send. The outer `none` is its `expect`. -/
def TerminalView.frameFrom (previous : Option (TerminalView Link)) (current : TerminalView Link) :
    Option (Option (TerminalViewFrame Link)) :=
  match previous with
  | none => some (some (.full current))
  | some previous =>
      if previous.size ≠ current.size ∨ previous.cells.length ≠ current.cells.length ∨
          current.revision ≤ previous.revision then some (some (.full current))
      else
        let changed := changedRuns 0 previous.cells current.cells
        match changed.mapM fun run => TerminalCellRun.starting run.1 run.2 with
        | none => none
        | some runs =>
            let count := (changed.map fun run => run.2.length).sum
            let metadataChanged := previous.displayOffset ≠ current.displayOffset ∨
              previous.mouseTracking ≠ current.mouseTracking ∨
              previous.cursor ≠ current.cursor ∨ previous.selection ≠ current.selection
            if count = 0 ∧ ¬metadataChanged then some none
            else if current.cells.length / 2 < count then some (some (.full current))
            else
              some (some (.delta {
                baseRevision := previous.revision
                revision := current.revision
                displayOffset := current.displayOffset
                mouseTracking := current.mouseTracking
                cursor := current.cursor
                selection := current.selection
                runs }))

/-! ## Runs of changed cells -/

omit [DecidableEq Link] in
theorem starting_eq_some {start : ℕ} {cells : List (TerminalCell Link)}
    {run : TerminalCellRun Link} (starts : TerminalCellRun.starting start cells = some run) :
    run.start.toNat = start ∧ run.cells = cells := by
  rw [TerminalCellRun.starting] at starts
  split_ifs at starts with fits
  cases starts
  refine ⟨?_, rfl⟩
  rw [UInt32.toNat_ofNat']
  exact Nat.mod_eq_of_lt fits

theorem changedCells_append (previous current : List (TerminalCell Link)) :
    changedCells previous current ++ current.drop (changedCells previous current).length =
      current := by
  induction previous generalizing current with
  | nil => simp [changedCells]
  | cons old previous induction =>
      cases current with
      | nil => simp [changedCells]
      | cons new current =>
          rw [changedCells]
          split_ifs
          · simp
          · simpa using induction current

/-- The runs as they are sent. -/
def sentRuns (index : ℕ) (previous current : List (TerminalCell Link)) :
    Option (List (TerminalCellRun Link)) :=
  (changedRuns index previous current).mapM fun run => TerminalCellRun.starting run.1 run.2

theorem sentRuns_same {index : ℕ} (cell : TerminalCell Link)
    (previous current : List (TerminalCell Link)) :
    sentRuns index (cell :: previous) (cell :: current) =
      sentRuns (index + 1) previous current := by
  rw [sentRuns, changedRuns, if_pos rfl]
  rfl

theorem sentRuns_apart {index : ℕ} {old new : TerminalCell Link}
    {previous current : List (TerminalCell Link)} {runs : List (TerminalCellRun Link)}
    (apart : old ≠ new) (sent : sentRuns index (old :: previous) (new :: current) = some runs) :
    ∃ run rest, runs = run :: rest ∧ run.start.toNat = index ∧
      run.cells = new :: changedCells previous current ∧
      sentRuns (index + 1 + (changedCells previous current).length)
        (previous.drop (changedCells previous current).length)
        (current.drop (changedCells previous current).length) = some rest := by
  rw [sentRuns, changedRuns, if_neg apart] at sent
  simp only [List.mapM_cons, Option.bind_eq_bind, Option.bind_eq_some_iff] at sent
  rcases sent with ⟨run, starts, rest, others, isRuns⟩
  cases isRuns
  rcases starting_eq_some starts with ⟨start, cells⟩
  exact ⟨run, rest, rfl, start, cells, others⟩

omit [DecidableEq Link] in
/-- A run written at the end of the cells before it. -/
theorem apply_behind {run : TerminalCellRun Link} {front previous : List (TerminalCell Link)}
    (start : run.start.toNat = front.length) :
    run.apply (front ++ previous) = front ++ run.cells ++ previous.drop run.cells.length := by
  rw [TerminalCellRun.apply, TerminalCellRun.stop, start, List.take_left, List.drop_append]
  simp

/-- Writing the runs behind cells that are up to date already makes the rest so. -/
theorem foldl_sentRuns {index : ℕ} {front previous current : List (TerminalCell Link)}
    {runs : List (TerminalCellRun Link)} (behind : front.length = index)
    (same : previous.length = current.length) (sent : sentRuns index previous current = some runs) :
    runs.foldl (fun cells run => run.apply cells) (front ++ previous) = front ++ current := by
  fun_induction changedRuns index previous current generalizing front runs with
  | case1 index previous cell current induction =>
      rw [sentRuns_same] at sent
      have length : (front ++ [cell]).length = index + 1 := by simp [behind]
      have later := induction length (by simpa using same) sent
      simpa using later
  | case2 index old previous new current apart induction =>
      rcases sentRuns_apart apart sent with ⟨run, rest, rfl, start, cells, others⟩
      have tail : changedCells previous current ++
          current.drop (changedCells previous current).length = current :=
        changedCells_append previous current
      have length : (front ++ run.cells).length =
          index + 1 + (changedCells previous current).length := by
        rw [List.length_append, cells, List.length_cons]
        omega
      have sameRest : previous.length = current.length := by simpa using same
      have later := induction length (by simp [sameRest]) others
      rw [List.foldl_cons, apply_behind (start.trans behind.symm), cells, List.length_cons,
        List.drop_succ_cons, ← cells, later, cells]
      simp [tail]
  | case3 index previous current ends =>
      cases previous with
      | nil =>
          cases current with
          | nil =>
              rw [sentRuns, changedRuns] at sent
              · cases sent
                rfl
              · exact ends
          | cons new current => simp at same
      | cons old previous =>
          cases current with
          | nil => simp at same
          | cons new current => exact absurd rfl (ends old previous new current rfl)

theorem validateRuns_sentRuns {index count previousEnd : ℕ}
    {previous current : List (TerminalCell Link)} {runs : List (TerminalCellRun Link)}
    (inside : index + current.length ≤ count) (behind : previousEnd ≤ index)
    (sent : sentRuns index previous current = some runs) :
    validateRuns count previousEnd runs = .ok () := by
  fun_induction changedRuns index previous current generalizing previousEnd runs with
  | case1 index previous cell current induction =>
      rw [sentRuns_same] at sent
      have room : index + 1 + current.length ≤ count := by
        rw [List.length_cons] at inside
        omega
      exact induction room (by omega) sent
  | case2 index old previous new current apart induction =>
      rcases sentRuns_apart apart sent with ⟨run, rest, rfl, start, cells, others⟩
      have shorter := length_changedCells_le previous current
      have stop : run.stop = index + 1 + (changedCells previous current).length := by
        rw [TerminalCellRun.stop, start, cells, List.length_cons]
        omega
      rw [List.length_cons] at inside
      have filled : run.cells.isEmpty = false := by rw [cells]; rfl
      rw [validateRuns, if_neg (by omega), filled, Bool.false_or, if_neg (by simp; omega)]
      refine induction ?_ stop.le others
      rw [List.length_drop]
      omega
  | case3 index previous current ends =>
      rw [sentRuns, changedRuns] at sent
      · cases sent
        rfl
      · exact ends

/-- Without runs every cell is the same. -/
theorem eq_of_changedRuns {index : ℕ} {previous current : List (TerminalCell Link)}
    (same : previous.length = current.length)
    (none : ((changedRuns index previous current).map fun run => run.2.length).sum = 0) :
    previous = current := by
  fun_induction changedRuns index previous current with
  | case1 index previous cell current induction =>
      rw [induction (by simpa using same) none]
  | case2 index old previous new current apart induction =>
      simp at none
  | case3 index previous current ends =>
      cases previous with
      | nil => exact (List.length_eq_zero_iff.mp same.symm).symm
      | cons old previous =>
          cases current with
          | nil => simp at same
          | cons new current => exact absurd rfl (ends old previous new current rfl)

theorem start_lt_of_changedRuns {index : ℕ} {previous current : List (TerminalCell Link)}
    {run : ℕ × List (TerminalCell Link)} (listed : run ∈ changedRuns index previous current) :
    run.1 < index + current.length := by
  fun_induction changedRuns index previous current with
  | case1 index previous cell current induction =>
      have later := induction listed
      rw [List.length_cons]
      omega
  | case2 index old previous new current apart induction =>
      rw [List.length_cons]
      rcases List.mem_cons.mp listed with rfl | rest
      · exact Nat.lt_add_of_pos_right (Nat.succ_pos _)
      · have later := induction rest
        have shorter := length_changedCells_le previous current
        rw [List.length_drop] at later
        omega
  | case3 index previous current ends => cases listed

/-! ## Frames -/

namespace TerminalView

variable {previous current : TerminalView Link}

def SameMetadata (previous current : TerminalView Link) : Prop :=
  previous.displayOffset = current.displayOffset ∧
    previous.mouseTracking = current.mouseTracking ∧
    previous.cursor = current.cursor ∧ previous.selection = current.selection

/-- The delta that `frame_from` builds from the runs. -/
def deltaFrom (previous current : TerminalView Link) (runs : List (TerminalCellRun Link)) :
    TerminalViewDelta Link where
  baseRevision := previous.revision
  revision := current.revision
  displayOffset := current.displayOffset
  mouseTracking := current.mouseTracking
  cursor := current.cursor
  selection := current.selection
  runs

/-- A later view with as many cells, and the runs of those that differ. -/
structure Follows (previous current : TerminalView Link) (runs : List (TerminalCellRun Link)) :
    Prop where
  size : previous.size = current.size
  count : previous.cells.length = current.cells.length
  later : previous.revision < current.revision
  sent : sentRuns 0 previous.cells current.cells = some runs

/-- What `frame_from` answers: the whole view, nothing, or a delta. -/
theorem frameFrom_cases {frame : Option (TerminalViewFrame Link)}
    (answers : frameFrom (some previous) current = some frame) :
    frame = some (.full current) ∨
      ∃ runs, previous.Follows current runs ∧
        ((frame = none ∧ previous.cells = current.cells ∧ previous.SameMetadata current) ∨
          frame = some (.delta (previous.deltaFrom current runs))) := by
  simp only [frameFrom] at answers
  by_cases whole : previous.size ≠ current.size ∨
      previous.cells.length ≠ current.cells.length ∨ current.revision ≤ previous.revision
  · rw [if_pos whole] at answers
    cases answers
    exact .inl rfl
  rw [if_neg whole] at answers
  push Not at whole
  rcases whole with ⟨size, count, later⟩
  split at answers
  · cases answers
  next runs sent =>
  have follows : previous.Follows current runs := ⟨size, count, later, sent⟩
  split_ifs at answers with unchanged many
  · cases answers
    refine .inr ⟨runs, follows, .inl ⟨rfl, eq_of_changedRuns count unchanged.1, ?_⟩⟩
    simpa [SameMetadata] using unchanged.2
  · cases answers
    exact .inl rfl
  · cases answers
    exact .inr ⟨runs, follows, .inr rfl⟩

variable {runs : List (TerminalCellRun Link)}

theorem Follows.validateDelta (follows : previous.Follows current runs) :
    previous.validateDelta (previous.deltaFrom current runs) = .ok () := by
  have newer : ¬current.revision ≤ previous.revision := Nat.not_le.mpr follows.later
  rw [TerminalView.validateDelta, deltaFrom, if_neg newer, if_neg (not_not.mpr rfl),
    follows.count]
  exact validateRuns_sentRuns (by simp) (Nat.le_refl 0) follows.sent

theorem Follows.applyValidatedDelta (follows : previous.Follows current runs) :
    previous.applyValidatedDelta (previous.deltaFrom current runs) = current := by
  have cells : runs.foldl (fun cells run => run.apply cells) previous.cells = current.cells :=
    @foldl_sentRuns _ _ 0 [] _ _ _ rfl follows.count follows.sent
  rw [TerminalView.applyValidatedDelta, deltaFrom, cells, follows.size]

/-- Where the cells are few enough to be numbered, there is an answer. -/
theorem frameFrom_isSome (previous : Option (TerminalView Link))
    (few : current.cells.length ≤ 2 ^ 32) : (frameFrom previous current).isSome = true := by
  cases previous with
  | none => rfl
  | some previous =>
      have starts : ((changedRuns 0 previous.cells current.cells).mapM fun run =>
          TerminalCellRun.starting run.1 run.2).isSome = true := by
        apply Lists.mapM_isSome
        intro run listed
        have start := start_lt_of_changedRuns listed
        rw [TerminalCellRun.starting, if_pos (by omega)]
        rfl
      rcases Option.isSome_iff_exists.mp starts with ⟨runs, sent⟩
      simp only [frameFrom, sent]
      split_ifs <;> rfl

end TerminalView

/-- A frame between two views leads from the first to the second, and as a delta it is valid;
where there is none, nothing but the revision differs. There is an answer for every view whose
cells can be numbered. -/
theorem frame_from_leads (previous current : TerminalView Link) :
    (∀ frame, TerminalView.frameFrom (some previous) current = some (some frame) →
      previous.applyFrame frame = .ok current ∧
        ∀ update, frame = .delta update → previous.validateDelta update = .ok ()) ∧
      (TerminalView.frameFrom (some previous) current = some none →
        current = { previous with revision := current.revision }) ∧
      (current.cells.length ≤ 2 ^ 32 →
        (TerminalView.frameFrom (some previous) current).isSome = true) := by
  refine ⟨?_, ?_, ?_⟩
  · intro frame answers
    rcases TerminalView.frameFrom_cases answers with whole | ⟨runs, follows, none | part⟩
    · cases whole
      exact ⟨rfl, nofun⟩
    · cases none.1
    · cases part
      have valid := follows.validateDelta
      refine ⟨?_, ?_⟩
      · simp only [TerminalView.applyFrame, TerminalView.validateFrame, valid,
          follows.applyValidatedDelta]
      · rintro update ⟨⟩
        exact valid
  · intro answers
    rcases TerminalView.frameFrom_cases answers with whole | ⟨runs, follows, none | part⟩
    · cases whole
    · rcases none with ⟨-, cells, offset, mouse, cursor, selection⟩
      ext1
      · rfl
      · exact follows.size.symm
      · exact offset.symm
      · exact mouse.symm
      · exact cells.symm
      · exact cursor.symm
      · exact selection.symm
    · cases part
  · exact TerminalView.frameFrom_isSome (some previous)

/-- A view of one row. -/
def rowView (revision : ℕ) (texts : List String) : TerminalView String where
  revision
  size := ⟨1, UInt16.ofNat texts.length, 8, 16⟩
  displayOffset := 0
  mouseTracking := .none
  cells := texts.map fun text => ⟨text, .default, .default, .default, 0, none⟩
  cursor := none
  selection := none

/-- One of four cells differs, and is sent. -/
theorem frame_from_leads_example :
    ∃ update, (rowView 1 ["l", "s", "-", "a"]).applyFrame (.delta update) =
      .ok (rowView 2 ["l", "s", "-", "l"]) ∧ update.runs.map (·.start) = [3] := by
  have answers : TerminalView.frameFrom (some (rowView 1 ["l", "s", "-", "a"]))
      (rowView 2 ["l", "s", "-", "l"]) = some (some (.delta (TerminalView.deltaFrom
        (rowView 1 ["l", "s", "-", "a"]) (rowView 2 ["l", "s", "-", "l"])
        [⟨3, [⟨"l", .default, .default, .default, 0, none⟩]⟩]))) := by
    simp [TerminalView.frameFrom, rowView, changedRuns, changedCells, TerminalCellRun.starting,
      TerminalView.deltaFrom]
  exact ⟨_, ((frame_from_leads _ _).1 _ answers).1, rfl⟩

end Condr
