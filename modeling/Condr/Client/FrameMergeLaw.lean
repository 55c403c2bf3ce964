import Condr.Client.FrameMerge

/-!
# Merging is applying twice

Before links are limited, a merged frame does to a view what its two frames do one after the
other, it is as valid as they are, and merging three frames does not depend on which two are
merged first.
-/

namespace Condr

open Overlay (writeAll collect Ordered)

variable {Link : Type} {view first second third : TerminalView Link}
  {previous next last : TerminalViewDelta Link} {frame other more : TerminalViewFrame Link}

/-! ## Frames that apply -/

theorem validateDelta_eq_ok :
    view.validateDelta next = .ok () ↔
      next.baseRevision < next.revision ∧ view.revision = next.baseRevision ∧
        validateRuns view.cells.length 0 next.runs = .ok () := by
  rw [TerminalView.validateDelta]
  split_ifs with stale apart
  · simp only [false_iff]
    rintro ⟨newer, -⟩
    omega
  · simp only [false_iff]
    rintro ⟨-, same, -⟩
    exact apart same
  · exact ⟨fun valid => ⟨by omega, not_not.mp apart, valid⟩, fun all => all.2.2⟩

theorem applyFrame_delta_eq_ok :
    view.applyFrame (.delta next) = .ok second ↔
      view.validateDelta next = .ok () ∧ second = view.applyValidatedDelta next := by
  simp only [TerminalView.applyFrame, TerminalView.validateFrame]
  cases outcome : view.validateDelta next with
  | error error => simp
  | ok done => simp [eq_comm]

theorem checkTerminalDeltaMerge_eq_ok :
    checkTerminalDeltaMerge previous next = .ok () ↔
      previous.revision = next.baseRevision ∧
        ∀ run ∈ previous.runs ++ next.runs, run.cells ≠ [] ∧ run.stop < 2 ^ 32 := by
  have bad : ((previous.runs ++ next.runs).any fun run =>
      run.cells.isEmpty || decide (2 ^ 32 ≤ run.stop)) = true ↔
        ¬∀ run ∈ previous.runs ++ next.runs, run.cells ≠ [] ∧ run.stop < 2 ^ 32 := by
    rw [List.any_eq_true]
    push Not
    apply exists_congr
    intro run
    apply and_congr_right
    intro _
    rw [Bool.or_eq_true, List.isEmpty_iff, decide_eq_true_eq]
    exact Decidable.or_iff_not_imp_left
  rw [checkTerminalDeltaMerge]
  split_ifs with apart wrong
  · simp only [false_iff]
    rintro ⟨same, -⟩
    exact apart same
  · simp only [false_iff]
    rintro ⟨-, good⟩
    exact bad.mp wrong good
  · exact ⟨fun _ => ⟨not_not.mp apart, not_not.mp (bad.not.mp wrong)⟩, fun _ => rfl⟩

/-! ## Two deltas -/

/-- The cells that a delta writes. -/
def TerminalViewDelta.writes (delta : TerminalViewDelta Link) : List (ℕ × TerminalCell Link) :=
  delta.runs.flatMap TerminalCellRun.entries

/-- Two deltas in one, whose cells are those of both. -/
def mergedDelta (previous next : TerminalViewDelta Link) : TerminalViewDelta Link where
  baseRevision := previous.baseRevision
  revision := next.revision
  displayOffset := next.displayOffset
  mouseTracking := next.mouseTracking
  cursor := next.cursor
  selection := next.selection
  runs := (collect (previous.writes ++ next.writes)).foldl pushCell []

theorem mergeTerminalDeltas_of_check (accepts : checkTerminalDeltaMerge previous next = .ok ()) :
    mergeTerminalDeltas previous next = .ok (mergedDelta previous next) := by
  rw [mergeTerminalDeltas, accepts, Lists.ok_bind, List.flatMap_append]
  rfl

/-- Every run's end is within 32 bits. -/
def TerminalViewDelta.Small (delta : TerminalViewDelta Link) : Prop :=
  ∀ run ∈ delta.runs, run.stop < 2 ^ 32

theorem small_of_check (accepts : checkTerminalDeltaMerge previous next = .ok ()) :
    previous.Small ∧ next.Small := by
  rcases checkTerminalDeltaMerge_eq_ok.mp accepts with ⟨-, good⟩
  exact ⟨fun run member => (good run (List.mem_append_left _ member)).2,
    fun run member => (good run (List.mem_append_right _ member)).2⟩

theorem TerminalViewDelta.Small.write_lt (small : next.Small) {entry : ℕ × TerminalCell Link}
    (member : entry ∈ next.writes) : entry.1 < 2 ^ 32 - 1 := by
  rcases List.mem_flatMap.mp member with ⟨run, listed, inside⟩
  have := small run listed
  have := entry_lt_stop inside
  omega

theorem merged_write_lt (smallPrevious : previous.Small) (smallNext : next.Small)
    {entry : ℕ × TerminalCell Link} (member : entry ∈ collect (previous.writes ++ next.writes)) :
    entry.1 < 2 ^ 32 - 1 := by
  rcases List.mem_append.mp (Overlay.mem_collect member) with earlier | later
  · exact smallPrevious.write_lt earlier
  · exact smallNext.write_lt later

theorem writes_mergedDelta (smallPrevious : previous.Small) (smallNext : next.Small) :
    (mergedDelta previous next).writes = collect (previous.writes ++ next.writes) := by
  rw [TerminalViewDelta.writes, mergedDelta, entries_foldl_pushCell]
  · rfl
  · intro entry member
    have := merged_write_lt smallPrevious smallNext member
    omega

/-- The merged runs are in order and within what held both deltas' cells. -/
theorem validateRuns_mergedDelta {count : ℕ} (smallPrevious : previous.Small)
    (smallNext : next.Small)
    (inside : ∀ entry ∈ previous.writes ++ next.writes, entry.1 < count) :
    validateRuns count 0 (mergedDelta previous next).runs = .ok () := by
  apply validateRuns_foldl_pushCell rfl Overlay.ordered_collect
  intro entry member
  have := merged_write_lt smallPrevious smallNext member
  refine ⟨Nat.zero_le _, inside entry (Overlay.mem_collect member), by omega⟩

theorem small_mergedDelta (smallPrevious : previous.Small) (smallNext : next.Small) :
    (mergedDelta previous next).Small ∧
      ∀ run ∈ (mergedDelta previous next).runs, run.cells ≠ [] := by
  have valid := @validateRuns_mergedDelta _ _ _ (2 ^ 32 - 1) smallPrevious smallNext (by
    intro entry member
    rcases List.mem_append.mp member with earlier | later
    · exact smallPrevious.write_lt earlier
    · exact smallNext.write_lt later)
  constructor
  · intro run member
    have := (stop_le_of_validateRuns valid member).1
    omega
  · intro run member
    exact (stop_le_of_validateRuns valid member).2

theorem write_lt_of_validateRuns {count : ℕ} (valid : validateRuns count 0 next.runs = .ok ())
    {entry : ℕ × TerminalCell Link} (member : entry ∈ next.writes) : entry.1 < count := by
  rcases List.mem_flatMap.mp member with ⟨run, listed, inside⟩
  have := (stop_le_of_validateRuns valid listed).1
  have := entry_lt_stop inside
  omega

theorem cells_applyValidatedDelta (valid : validateRuns view.cells.length 0 next.runs = .ok ()) :
    (view.applyValidatedDelta next).cells = writeAll List.set view.cells next.writes :=
  foldl_apply_eq_writeAll fun _ member => (stop_le_of_validateRuns valid member).1

/-- The merged delta does at once what two deltas do one after the other. -/
theorem applyValidatedDelta_mergedDelta (valid : view.validateDelta previous = .ok ())
    (later : (view.applyValidatedDelta previous).validateDelta next = .ok ())
    (accepts : checkTerminalDeltaMerge previous next = .ok ()) :
    view.validateDelta (mergedDelta previous next) = .ok () ∧
      view.applyValidatedDelta (mergedDelta previous next) =
        (view.applyValidatedDelta previous).applyValidatedDelta next := by
  rcases small_of_check accepts with ⟨smallPrevious, smallNext⟩
  rcases checkTerminalDeltaMerge_eq_ok.mp accepts with ⟨joined, -⟩
  rcases validateDelta_eq_ok.mp valid with ⟨newer, base, runs⟩
  rcases validateDelta_eq_ok.mp later with ⟨newest, -, laterRuns⟩
  have length : (view.applyValidatedDelta previous).cells.length = view.cells.length := by
    rw [cells_applyValidatedDelta runs, Overlay.length_writeAll_set]
  have cells := cells_applyValidatedDelta laterRuns
  rw [cells_applyValidatedDelta runs] at cells
  rw [length] at laterRuns
  have merged := validateRuns_mergedDelta smallPrevious smallNext (by
    intro entry member
    rcases List.mem_append.mp member with earlier | behind
    · exact write_lt_of_validateRuns runs earlier
    · exact write_lt_of_validateRuns laterRuns behind)
  have increases : (mergedDelta previous next).baseRevision <
      (mergedDelta previous next).revision := by
    show previous.baseRevision < next.revision
    omega
  refine ⟨validateDelta_eq_ok.mpr ⟨increases, base, merged⟩, ?_⟩
  have same : (view.applyValidatedDelta (mergedDelta previous next)).cells =
      ((view.applyValidatedDelta previous).applyValidatedDelta next).cells := by
    rw [cells_applyValidatedDelta merged, writes_mergedDelta smallPrevious smallNext,
      Overlay.set_store.writeAll_collect, Overlay.writeAll_append, cells]
  exact TerminalView.ext rfl rfl rfl rfl same rfl rfl

/-- Three deltas are the same in either order of merging. -/
theorem mergedDelta_assoc (smallPrevious : previous.Small) (smallNext : next.Small)
    (smallLast : last.Small) :
    mergedDelta (mergedDelta previous next) last = mergedDelta previous (mergedDelta next last) := by
  have same : collect ((mergedDelta previous next).writes ++ last.writes) =
      collect (previous.writes ++ (mergedDelta next last).writes) := by
    rw [writes_mergedDelta smallPrevious smallNext, writes_mergedDelta smallNext smallLast,
      Overlay.collect_collect_append, Overlay.collect_append_collect, List.append_assoc]
  have runs : (mergedDelta (mergedDelta previous next) last).runs =
      (mergedDelta previous (mergedDelta next last)).runs :=
    congrArg (List.foldl pushCell []) same
  exact congrArg (TerminalViewDelta.mk _ _ _ _ _ _) runs

/-! ## Two frames -/

/-- Where the check accepts frames that apply one after the other, they merge, and the merged
frame brings a view to where they bring it. -/
theorem composeTerminalFrames_law (applies : view.applyFrame frame = .ok first)
    (later : first.applyFrame other = .ok second)
    (accepts : checkTerminalFrameMerge frame other = .ok ()) :
    ∃ merged, composeTerminalFrames frame other = .ok merged ∧
      view.applyFrame merged = .ok second := by
  cases other with
  | full whole =>
      refine ⟨.full whole, ?_, later⟩
      cases frame <;> rfl
  | delta update =>
      cases frame with
      | full whole =>
          cases Except.ok.inj applies
          refine ⟨.full second, ?_, rfl⟩
          rw [composeTerminalFrames, later]
      | delta base =>
          rcases applyFrame_delta_eq_ok.mp applies with ⟨valid, rfl⟩
          rcases applyFrame_delta_eq_ok.mp later with ⟨laterValid, rfl⟩
          rcases applyValidatedDelta_mergedDelta valid laterValid accepts with ⟨merged, same⟩
          refine ⟨.delta (mergedDelta base update), ?_, ?_⟩
          · rw [composeTerminalFrames, mergeTerminalDeltas_of_check accepts]
            rfl
          · exact applyFrame_delta_eq_ok.mpr ⟨merged, same.symm⟩

/-- A check that rejects leaves nothing to merge. -/
theorem composeTerminalFrames_of_error (rejects : checkTerminalFrameMerge frame other = .error ()) :
    composeTerminalFrames frame other = .error () := by
  cases other with
  | full whole => cases frame <;> cases rejects
  | delta update =>
      cases frame with
      | full whole =>
          rw [checkTerminalFrameMerge] at rejects
          simp only [composeTerminalFrames, TerminalView.applyFrame, TerminalView.validateFrame]
          cases outcome : whole.validateDelta update with
          | error error => rfl
          | ok done =>
              rw [outcome] at rejects
              cases rejects
      | delta base =>
          rw [checkTerminalFrameMerge] at rejects
          rw [composeTerminalFrames, mergeTerminalDeltas, rejects]
          rfl

/-- A check that accepts, whatever it is asked of, leaves a merged frame. -/
theorem composeTerminalFrames_of_ok (accepts : checkTerminalFrameMerge frame other = .ok ()) :
    ∃ merged, composeTerminalFrames frame other = .ok merged := by
  cases other with
  | full whole => exact ⟨.full whole, by cases frame <;> rfl⟩
  | delta update =>
      cases frame with
      | full whole =>
          rw [checkTerminalFrameMerge] at accepts
          cases outcome : whole.validateDelta update with
          | error error =>
              rw [outcome] at accepts
              cases accepts
          | ok done =>
              refine ⟨.full (whole.applyValidatedDelta update), ?_⟩
              rw [composeTerminalFrames, applyFrame_delta_eq_ok.mpr ⟨outcome, rfl⟩]
      | delta base =>
          refine ⟨.delta (mergedDelta base update), ?_⟩
          rw [composeTerminalFrames, mergeTerminalDeltas_of_check accepts]
          rfl

/-! ## Three frames -/

theorem checkTerminalFrameMerge_full {whole : TerminalView Link} :
    checkTerminalFrameMerge frame (.full whole) = .ok () := by
  cases frame <;> rfl

theorem composeTerminalFrames_full {whole : TerminalView Link} :
    composeTerminalFrames frame (.full whole) = .ok (.full whole) := by
  cases frame <;> rfl

theorem checkTerminalFrameMerge_whole_delta {whole : TerminalView Link} :
    checkTerminalFrameMerge (.full whole) (.delta next) = .ok () ↔
      whole.validateDelta next = .ok () := by
  rw [checkTerminalFrameMerge]
  cases whole.validateDelta next <;> simp [Except.mapError]

theorem composeTerminalFrames_whole_delta {whole : TerminalView Link}
    (applies : whole.applyFrame (.delta next) = .ok second) :
    composeTerminalFrames (.full whole) (.delta next) = .ok (.full second) := by
  rw [composeTerminalFrames, applies]

theorem composeTerminalFrames_deltas (accepts : checkTerminalDeltaMerge previous next = .ok ()) :
    composeTerminalFrames (.delta previous) (.delta next) =
      .ok (.delta (mergedDelta previous next)) := by
  rw [composeTerminalFrames, mergeTerminalDeltas_of_check accepts]
  rfl

/-- What two deltas are merged into may be merged with a third on either side. -/
theorem checkTerminalDeltaMerge_mergedDelta
    (accepts : checkTerminalDeltaMerge previous next = .ok ())
    (later : checkTerminalDeltaMerge next last = .ok ()) :
    checkTerminalDeltaMerge (mergedDelta previous next) last = .ok () ∧
      checkTerminalDeltaMerge previous (mergedDelta next last) = .ok () := by
  rcases checkTerminalDeltaMerge_eq_ok.mp accepts with ⟨joined, good⟩
  rcases checkTerminalDeltaMerge_eq_ok.mp later with ⟨laterJoined, laterGood⟩
  rcases small_mergedDelta (small_of_check accepts).1 (small_of_check accepts).2
    with ⟨small, some⟩
  rcases small_mergedDelta (small_of_check later).1 (small_of_check later).2
    with ⟨laterSmall, laterSome⟩
  constructor
  · refine checkTerminalDeltaMerge_eq_ok.mpr ⟨laterJoined, ?_⟩
    intro run member
    rcases List.mem_append.mp member with merged | behind
    · exact ⟨some run merged, small run merged⟩
    · exact laterGood run (List.mem_append_right _ behind)
  · refine checkTerminalDeltaMerge_eq_ok.mpr ⟨joined, ?_⟩
    intro run member
    rcases List.mem_append.mp member with before | merged
    · exact good run (List.mem_append_left _ before)
    · exact ⟨laterSome run merged, laterSmall run merged⟩

/-- Frames that apply one after the other, and that are accepted pairwise, are accepted and
merged into the same frame in either order. -/
theorem composeTerminalFrames_assoc (applies : view.applyFrame frame = .ok first)
    (later : first.applyFrame other = .ok second) (latest : second.applyFrame more = .ok third)
    (accepts : checkTerminalFrameMerge frame other = .ok ())
    (laterAccepts : checkTerminalFrameMerge other more = .ok ()) :
    ∃ front back whole, composeTerminalFrames frame other = .ok front ∧
      composeTerminalFrames other more = .ok back ∧
      checkTerminalFrameMerge front more = .ok () ∧
      checkTerminalFrameMerge frame back = .ok () ∧
      composeTerminalFrames front more = .ok whole ∧
      composeTerminalFrames frame back = .ok whole := by
  rcases composeTerminalFrames_of_ok accepts with ⟨front, composes⟩
  cases more with
  | full last =>
      exact ⟨front, .full last, .full last, composes, composeTerminalFrames_full,
        checkTerminalFrameMerge_full, checkTerminalFrameMerge_full, composeTerminalFrames_full,
        composeTerminalFrames_full⟩
  | delta last =>
      have lastValid := (applyFrame_delta_eq_ok.mp latest).1
      cases other with
      | full middle =>
          cases Except.ok.inj later
          exact ⟨.full second, .full third, .full third, composeTerminalFrames_full,
            composeTerminalFrames_whole_delta latest,
            checkTerminalFrameMerge_whole_delta.mpr lastValid, checkTerminalFrameMerge_full,
            composeTerminalFrames_whole_delta latest, composeTerminalFrames_full⟩
      | delta middle =>
          have merges := composeTerminalFrames_deltas laterAccepts
          cases frame with
          | full whole =>
              cases Except.ok.inj applies
              rcases composeTerminalFrames_law later latest laterAccepts with
                ⟨merged, same, mergedApplies⟩
              cases Except.ok.inj (merges.symm.trans same)
              refine ⟨.full second, _, .full third, composeTerminalFrames_whole_delta later, merges,
                checkTerminalFrameMerge_whole_delta.mpr lastValid, ?_,
                composeTerminalFrames_whole_delta latest,
                composeTerminalFrames_whole_delta mergedApplies⟩
              exact checkTerminalFrameMerge_whole_delta.mpr
                (applyFrame_delta_eq_ok.mp mergedApplies).1
          | delta base =>
              rcases checkTerminalDeltaMerge_mergedDelta accepts laterAccepts with
                ⟨frontAccepts, backAccepts⟩
              have same := mergedDelta_assoc (small_of_check accepts).1 (small_of_check accepts).2
                (small_of_check laterAccepts).2
              refine ⟨_, _, _, composeTerminalFrames_deltas accepts, merges, frontAccepts,
                backAccepts, composeTerminalFrames_deltas frontAccepts, ?_⟩
              rw [same]
              exact composeTerminalFrames_deltas backAccepts

end Condr
