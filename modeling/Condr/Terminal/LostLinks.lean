import Condr.Terminal.HyperlinkFeed

/-!
# Views that lost links

Every limit takes links out of cells and changes nothing else. A view, or a frame, that lost
links is applied to, or applies, as before, and what comes of it lost links at most.
-/

namespace Condr

open Budget

/-- The cell is as the other, but may miss its link. -/
def TerminalCell.LosesLink (thin full : TerminalCell String) : Prop :=
  thin = full ∨ thin = { full with hyperlink := none }

abbrev LosesLinks (thin full : List (TerminalCell String)) : Prop :=
  List.Forall₂ TerminalCell.LosesLink thin full

structure TerminalView.LosesLinks (thin full : TerminalView String) : Prop where
  rest : thin = { full with cells := thin.cells }
  cells : Condr.LosesLinks thin.cells full.cells

def TerminalCellRun.LosesLinks (thin full : TerminalCellRun String) : Prop :=
  thin.start = full.start ∧ Condr.LosesLinks thin.cells full.cells

structure TerminalViewDelta.LosesLinks (thin full : TerminalViewDelta String) : Prop where
  rest : thin = { full with runs := thin.runs }
  runs : List.Forall₂ TerminalCellRun.LosesLinks thin.runs full.runs

def TerminalViewFrame.LosesLinks : TerminalViewFrame String → TerminalViewFrame String → Prop
  | .full thin, .full whole => thin.LosesLinks whole
  | .delta thin, .delta update => thin.LosesLinks update
  | _, _ => False

/-! ## Cells -/

theorem TerminalCell.LosesLink.refl (cell : TerminalCell String) : cell.LosesLink cell :=
  Or.inl rfl

theorem TerminalCell.LosesLink.trans {thin middle full : TerminalCell String}
    (first : thin.LosesLink middle) (second : middle.LosesLink full) : thin.LosesLink full := by
  rcases first with rfl | rfl
  · exact second
  · rcases second with rfl | rfl
    · exact Or.inr rfl
    · exact Or.inr rfl

theorem losesLinks_refl (cells : List (TerminalCell String)) : LosesLinks cells cells :=
  List.forall₂_same.mpr fun cell _ => .refl cell

theorem LosesLinks.trans {thin middle full : List (TerminalCell String)}
    (first : LosesLinks thin middle) (second : LosesLinks middle full) : LosesLinks thin full := by
  induction first generalizing full with
  | nil => exact second
  | cons head rest induction =>
      cases second with
      | cons next later => exact List.Forall₂.cons (head.trans next) (induction later)

theorem settleCells_losesLinks (kept : Finset String) (cells : List (TerminalCell String)) :
    LosesLinks (settleCells kept cells) cells := by
  induction cells generalizing kept with
  | nil => exact List.Forall₂.nil
  | cons cell cells induction =>
      cases present : cell.hyperlink with
      | none =>
          rw [settleCells_cons_none present]
          exact List.Forall₂.cons (.refl cell) (induction kept)
      | some uri =>
          by_cases room : Within hyperlinkLimits (insert uri kept)
          · rw [settleCells_cons_of_within present room]
            exact List.Forall₂.cons (.refl cell) (induction _)
          · rw [settleCells_cons_of_not_within present room]
            exact List.Forall₂.cons (Or.inr rfl) (induction kept)

/-! ## Views and frames -/

theorem TerminalView.LosesLinks.refl (view : TerminalView String) : view.LosesLinks view where
  rest := rfl
  cells := losesLinks_refl _

theorem TerminalView.LosesLinks.trans {thin middle full : TerminalView String}
    (first : thin.LosesLinks middle) (second : middle.LosesLinks full) : thin.LosesLinks full where
  rest := by
    rw [first.rest, second.rest]
  cells := Condr.LosesLinks.trans first.cells second.cells

theorem settleView_losesLinks (kept : Finset String) (view : TerminalView String) :
    (settleView kept view).LosesLinks view where
  rest := rfl
  cells := settleCells_losesLinks kept view.cells

theorem refill_losesLinks {runs : List (TerminalCellRun String)}
    {cells : List (TerminalCell String)}
    (loses : LosesLinks cells (runs.flatMap TerminalCellRun.cells)) :
    List.Forall₂ TerminalCellRun.LosesLinks (refill runs cells) runs := by
  induction runs generalizing cells with
  | nil => exact List.Forall₂.nil
  | cons run runs induction =>
      rw [List.flatMap_cons] at loses
      have front := List.forall₂_take run.cells.length loses
      have back := List.forall₂_drop run.cells.length loses
      rw [List.take_left] at front
      rw [List.drop_left] at back
      exact List.Forall₂.cons ⟨rfl, front⟩ (induction back)

theorem settleDelta_losesLinks (kept : Finset String) (delta : TerminalViewDelta String) :
    (settleDelta kept delta).LosesLinks delta where
  rest := rfl
  runs := refill_losesLinks (settleCells_losesLinks kept delta.cells)

theorem TerminalViewFrame.LosesLinks.refl (frame : TerminalViewFrame String) :
    frame.LosesLinks frame := by
  cases frame with
  | full view => exact TerminalView.LosesLinks.refl view
  | delta update =>
      refine ⟨rfl, ?_⟩
      exact List.forall₂_same.mpr fun run _ => ⟨rfl, losesLinks_refl _⟩

theorem settleFrame_losesLinks (kept : Finset String) (frame : TerminalViewFrame String) :
    (settleFrame kept frame).LosesLinks frame := by
  cases frame with
  | full view => exact settleView_losesLinks kept view
  | delta update => exact settleDelta_losesLinks kept update

theorem Holder.settle_losesLinks (view : TerminalView String) (frame : TerminalViewFrame String) :
    (Holder.settle view frame).LosesLinks frame := by
  cases frame with
  | full next => exact settleView_losesLinks ∅ next
  | delta update => exact settleDelta_losesLinks _ update

/-! ## Applying -/

theorem TerminalCellRun.LosesLinks.apply {thin full : TerminalCellRun String}
    (loses : thin.LosesLinks full) {thinCells cells : List (TerminalCell String)}
    (cellsLose : Condr.LosesLinks thinCells cells) :
    Condr.LosesLinks (thin.apply thinCells) (full.apply cells) := by
  rcases loses with ⟨start, held⟩
  have stop : thin.stop = full.stop := by
    rw [stop, stop, start, held.length_eq]
  rw [TerminalCellRun.apply, TerminalCellRun.apply, start, stop]
  apply List.rel_append
  · apply List.rel_append
    · exact List.forall₂_take _ cellsLose
    · exact held
  · exact List.forall₂_drop _ cellsLose

theorem foldl_apply_losesLinks {thin full : List (TerminalCellRun String)}
    (loses : List.Forall₂ TerminalCellRun.LosesLinks thin full)
    {thinCells cells : List (TerminalCell String)} (cellsLose : LosesLinks thinCells cells) :
    LosesLinks (thin.foldl (fun cells run => run.apply cells) thinCells)
      (full.foldl (fun cells run => run.apply cells) cells) := by
  induction loses generalizing thinCells cells with
  | nil => exact cellsLose
  | cons head rest induction => exact induction (head.apply cellsLose)

theorem shape_of_losesLinks {thin full : List (TerminalCellRun String)}
    (loses : List.Forall₂ TerminalCellRun.LosesLinks thin full) : shape thin = shape full := by
  induction loses with
  | nil => rfl
  | cons head rest induction =>
      rw [shape, shape, List.map_cons, List.map_cons, head.1, head.2.length_eq]
      exact congrArg _ induction

/-- A frame that lost links applies to a view that lost links wherever the frame applies, and
leads to a view that lost links at most. -/
theorem TerminalView.LosesLinks.applyFrame {thin full next : TerminalView String}
    (loses : thin.LosesLinks full) {thinFrame frame : TerminalViewFrame String}
    (frameLoses : thinFrame.LosesLinks frame) (applies : full.applyFrame frame = .ok next) :
    ∃ thinNext, thin.applyFrame thinFrame = .ok thinNext ∧ thinNext.LosesLinks next := by
  cases thinFrame with
  | full thinView =>
      cases frame with
      | full view =>
          cases Except.ok.inj applies
          exact ⟨thinView, rfl, frameLoses⟩
      | delta update => exact frameLoses.elim
  | delta thinUpdate =>
      cases frame with
      | full view => exact frameLoses.elim
      | delta update =>
          have base : thinUpdate.baseRevision = update.baseRevision := by rw [frameLoses.rest]
          have revision : thinUpdate.revision = update.revision := by rw [frameLoses.rest]
          have same : thin.revision = full.revision := by rw [loses.rest]
          have validates := validateDelta_congr same loses.cells.length_eq base revision
            (shape_of_losesLinks frameLoses.runs)
          simp only [TerminalView.applyFrame, TerminalView.validateFrame, validates] at applies ⊢
          cases outcome : full.validateDelta update with
          | error error =>
              rw [outcome] at applies
              cases applies
          | ok done =>
              rw [outcome] at applies
              cases Except.ok.inj applies
              refine ⟨_, rfl, ?_, foldl_apply_losesLinks frameLoses.runs loses.cells⟩
              have size : thin.size = full.size := by rw [loses.rest]
              apply TerminalView.ext
              · exact revision
              · exact size
              · show thinUpdate.displayOffset = update.displayOffset
                rw [frameLoses.rest]
              · show thinUpdate.mouseTracking = update.mouseTracking
                rw [frameLoses.rest]
              · rfl
              · show thinUpdate.cursor = update.cursor
                rw [frameLoses.rest]
              · show thinUpdate.selection = update.selection
                rw [frameLoses.rest]

end Condr
