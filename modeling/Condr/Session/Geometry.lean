import Condr.Foundation.Tiling
import Condr.Session.Layout
import Mathlib.Algebra.Order.Field.Rat
import Mathlib.Tactic.Linarith
import Mathlib.Tactic.Ring

/-!
# Where the Panes of a layout are

With exact ratios, every split cuts its area in two. Looked at in a direction, the area of a
layout is cut into those of its Panes, and the score of a Pane depends on where it lies ahead.
-/

namespace Condr

open Tiling

/-- An area of a Tab, looked at in a direction. -/
def boxAlong (direction : PaneDirection) (left top right bottom : ℚ) : Box ℚ :=
  match direction with
  | .left => { start := -right, stop := -left, low := top, high := bottom }
  | .right => { start := left, stop := right, low := top, high := bottom }
  | .up => { start := -bottom, stop := -top, low := left, high := right }
  | .down => { start := top, stop := bottom, low := left, high := right }

def PaneRect.along (direction : PaneDirection) (rect : PaneRect ℚ) : Box ℚ :=
  boxAlong direction rect.left rect.top rect.right rect.bottom

/-- The whole Tab. -/
def tabAlong (direction : PaneDirection) : Box ℚ := boxAlong direction 0 0 1 1

theorem ratioInRange_rat {ratio : ℚ} :
    ratioInRange ratio = true ↔ 1 / 10 ≤ ratio ∧ ratio ≤ 9 / 10 := by
  change (true && (decide ((1 / 10 : ℚ) ≤ ratio) && decide (ratio ≤ (9 / 10 : ℚ)))) = true ↔ _
  simp

namespace PaneLayout

/-- The places of the Panes of a layout in an area, in layout order. -/
def rectsIn (layout : PaneLayout ℚ) (left top right bottom : ℚ) : List (PaneRect ℚ) :=
  collectPaneRects layout left top right bottom []

/-- `pane_rects`. -/
def paneRects (layout : PaneLayout ℚ) : List (PaneRect ℚ) := layout.rectsIn 0 0 1 1

variable {layout first second : PaneLayout ℚ} {left top right bottom ratio : ℚ}

theorem collectPaneRects_eq (layout : PaneLayout ℚ) (left top right bottom : ℚ)
    (rects : List (PaneRect ℚ)) :
    collectPaneRects layout left top right bottom rects =
      rects ++ layout.rectsIn left top right bottom := by
  induction layout generalizing left top right bottom rects with
  | pane id => rfl
  | split direction ratio first second ihFirst ihSecond =>
      have opens : (split direction ratio first second).rectsIn left top right bottom =
          collectPaneRects (split direction ratio first second) left top right bottom [] := rfl
      rw [opens]
      cases direction with
      | horizontal =>
          simp only [collectPaneRects]
          rw [ihSecond, ihFirst, ihSecond _ _ _ _ (collectPaneRects ..), ihFirst,
            List.nil_append, List.append_assoc]
      | vertical =>
          simp only [collectPaneRects]
          rw [ihSecond, ihFirst, ihSecond _ _ _ _ (collectPaneRects ..), ihFirst,
            List.nil_append, List.append_assoc]

theorem rectsIn_horizontal : (split .horizontal ratio first second).rectsIn left top right bottom =
    first.rectsIn left top (left + (right - left) * ratio) bottom ++
      second.rectsIn (left + (right - left) * ratio) top right bottom :=
  collectPaneRects_eq second (left + (right - left) * ratio) top right bottom _

theorem rectsIn_vertical : (split .vertical ratio first second).rectsIn left top right bottom =
    first.rectsIn left top right (top + (bottom - top) * ratio) ++
      second.rectsIn left (top + (bottom - top) * ratio) right bottom :=
  collectPaneRects_eq second left (top + (bottom - top) * ratio) right bottom _

theorem rectsIn_ids : (layout.rectsIn left top right bottom).map (·.id) = layout.leaves := by
  rw [rectsIn, collectPaneRects_ids]
  rfl

/-- A divider lies inside its area. -/
theorem divider_inside {start stop : ℚ} (proper : start < stop)
    (inRange : 1 / 10 ≤ ratio ∧ ratio ≤ 9 / 10) :
    start < start + (stop - start) * ratio ∧ start + (stop - start) * ratio < stop := by
  constructor <;> nlinarith [inRange.1, inRange.2]

theorem cuts_rectsIn (direction : PaneDirection)
    (ratios : ∀ ratio ∈ layout.ratios, ratioInRange ratio = true)
    (wide : left < right) (tall : top < bottom) :
    Cuts (boxAlong direction left top right bottom)
      ((layout.rectsIn left top right bottom).map (PaneRect.along direction)) := by
  induction layout generalizing left top right bottom with
  | pane id => exact .whole _
  | split cut ratio first second ihFirst ihSecond =>
      have inRange := ratioInRange_rat.mp (ratios ratio (by simp))
      have firstRatios : ∀ other ∈ first.ratios, ratioInRange other = true := by
        intro other member
        exact ratios other (by simp [member])
      have secondRatios : ∀ other ∈ second.ratios, ratioInRange other = true := by
        intro other member
        exact ratios other (by simp [member])
      cases cut with
      | horizontal =>
          rcases divider_inside wide inRange with ⟨after, before⟩
          have near := @ihFirst left top _ bottom firstRatios after tall
          have far := @ihSecond _ top right bottom secondRatios before tall
          rw [rectsIn_horizontal, List.map_append]
          cases direction with
          | right => exact Cuts.of_along rfl after before near far (.refl _)
          | left =>
              exact Cuts.of_along rfl (neg_lt_neg before) (neg_lt_neg after) far near
                List.perm_append_comm
          | up => exact Cuts.of_across rfl after before near far (.refl _)
          | down => exact Cuts.of_across rfl after before near far (.refl _)
      | vertical =>
          rcases divider_inside tall inRange with ⟨after, before⟩
          have near := @ihFirst left top right _ firstRatios wide after
          have far := @ihSecond left _ right bottom secondRatios wide before
          rw [rectsIn_vertical, List.map_append]
          cases direction with
          | down => exact Cuts.of_along rfl after before near far (.refl _)
          | up =>
              exact Cuts.of_along rfl (neg_lt_neg before) (neg_lt_neg after) far near
                List.perm_append_comm
          | left => exact Cuts.of_across rfl after before near far (.refl _)
          | right => exact Cuts.of_across rfl after before near far (.refl _)

end PaneLayout

/-! ## Scores -/

/-- How far apart two extents across the direction are. -/
def acrossGap (box other : Box ℚ) : ℚ :=
  if box.high < other.low then other.low - box.high
  else if other.high < box.low then box.low - other.high
  else 0

/-- The way to another box: ten times as much ahead as across, and the offset of the middles. -/
def remoteness (box other : Box ℚ) : ℚ :=
  (other.start - box.stop) * 100 + acrossGap box other * 10 +
    |(box.low + box.high) - (other.low + other.high)|

/-- Ahead, but for the rounding error that the code allows. -/
def Ahead (box other : Box ℚ) : Prop :=
  box.stop - 1 / 8388608 ≤ other.start

instance (box other : Box ℚ) : Decidable (Ahead box other) :=
  inferInstanceAs (Decidable (_ ≤ _))

theorem intervalGap_eq (firstStart firstEnd secondStart secondEnd : ℚ) :
    PaneLayout.intervalGap firstStart firstEnd secondStart secondEnd =
      if firstEnd < secondStart then secondStart - firstEnd
      else if secondEnd < firstStart then firstStart - secondEnd
      else 0 := by
  change (if decide (firstEnd < secondStart) = true then secondStart - firstEnd
    else if decide (secondEnd < firstStart) = true then firstStart - secondEnd else 0) = _
  simp only [decide_eq_true_eq]

/-- The score of a candidate that passes a test. -/
theorem score_eq {box other : Box ℚ} {test : Bool} {primary secondary center : ℚ}
    (ahead : test = true ↔ Ahead box other) (along : primary = other.start - box.stop)
    (across : secondary = acrossGap box other)
    (middles : center = |(box.low + box.high) - (other.low + other.high)|) :
    (if test = true then some (primary, secondary, center) else none).map
        (fun measured => measured.1 * 100 + measured.2.1 * 10 + measured.2.2) =
      if Ahead box other then some (remoteness box other) else none := by
  by_cases passes : test = true
  · rw [if_pos passes, if_pos (ahead.mp passes), along, across, middles]
    rfl
  · rw [if_neg passes, if_neg (fun is => passes (ahead.mpr is))]
    rfl

theorem directionalScore_eq (target candidate : PaneRect ℚ) (direction : PaneDirection) :
    PaneLayout.directionalScore target candidate direction =
      if Ahead (target.along direction) (candidate.along direction) then
        some (remoteness (target.along direction) (candidate.along direction))
      else none := by
  cases direction with
  | right => exact score_eq decide_eq_true_iff rfl (intervalGap_eq ..) rfl
  | down => exact score_eq decide_eq_true_iff rfl (intervalGap_eq ..) rfl
  | left =>
      refine score_eq (decide_eq_true_iff.trans ?_) ?_ (intervalGap_eq ..) rfl
      · change candidate.right ≤ target.left + 1 / 8388608 ↔
          -target.left - 1 / 8388608 ≤ -candidate.right
        constructor <;> intro near <;> linarith
      · change target.left - candidate.right = -candidate.right - -target.left
        ring
  | up =>
      refine score_eq (decide_eq_true_iff.trans ?_) ?_ (intervalGap_eq ..) rfl
      · change candidate.bottom ≤ target.top + 1 / 8388608 ↔
          -target.top - 1 / 8388608 ≤ -candidate.bottom
        constructor <;> intro near <;> linarith
      · change target.top - candidate.bottom = -candidate.bottom - -target.top
        ring

end Condr
