import Condr.Session.Ratio
import Mathlib.Data.List.Basic
import Mathlib.Data.List.Nodup
import Mathlib.Data.List.Perm.Basic
import Mathlib.Logic.Equiv.Basic
import Mathlib.Tactic.Common

/-!
# Pane layouts

A Tab arranges its Panes in a binary tree of splits. This file gives the tree and
the functions that edit it, and says what each edit does to the leaves, the depth
and the ratios of the tree.
-/

namespace Condr

structure PaneId where
  asU64 : ℕ
deriving DecidableEq

inductive SplitDirection where
  | horizontal
  | vertical
deriving DecidableEq

inductive PaneDirection where
  | left
  | right
  | up
  | down
deriving DecidableEq

inductive PaneLayout (R : Type) where
  | pane (id : PaneId)
  | split (direction : SplitDirection) (ratio : R) (first second : PaneLayout R)
deriving DecidableEq

/-- A Pane's place in its Tab, as fractions of the Tab area. -/
structure PaneRect (R : Type) where
  id : PaneId
  left : R
  top : R
  right : R
  bottom : R

namespace PaneLayout

variable {R : Type}

/-- The Panes of a layout, in layout order. -/
@[simp]
def leaves : PaneLayout R → List PaneId
  | pane id => [id]
  | split _ _ first second => first.leaves ++ second.leaves

/-- The number of levels, one for a single Pane. -/
@[simp]
def depth : PaneLayout R → ℕ
  | pane _ => 1
  | split _ _ first second => max first.depth second.depth + 1

/-- The ratios of the splits, each before those of its children. -/
@[simp]
def ratios : PaneLayout R → List R
  | pane _ => []
  | split _ ratio first second => ratio :: (first.ratios ++ second.ratios)

/-- The derived `PartialEq`: ratios compare as numbers. -/
def eq [RatioNumber R] : PaneLayout R → PaneLayout R → Bool
  | pane left, pane right => left = right
  | split leftDirection leftRatio leftFirst leftSecond,
      split rightDirection rightRatio rightFirst rightSecond =>
      leftDirection = rightDirection && RatioNumber.eq leftRatio rightRatio &&
        leftFirst.eq rightFirst && leftSecond.eq rightSecond
  | _, _ => false

/-- Attaches `newPane` beside `target` on the given side of a fresh split. -/
def splitLayout (target newPane : PaneId) (side : PaneDirection) (ratio : R) :
    PaneLayout R → Bool × PaneLayout R
  | pane id =>
      if id = target then
        let direction := match side with
          | .left | .right => SplitDirection.horizontal
          | .up | .down => SplitDirection.vertical
        let (first, second) := match side with
          | .left | .up => (newPane, target)
          | .right | .down => (target, newPane)
        (true, split direction ratio (pane first) (pane second))
      else (false, pane id)
  | split direction splitRatio first second =>
      match splitLayout target newPane side ratio first with
      | (true, first) => (true, split direction splitRatio first second)
      | (false, first) =>
          let (done, second) := splitLayout target newPane side ratio second
          (done, split direction splitRatio first second)

def paneLayoutDepth (target : PaneId) : PaneLayout R → ℕ → Option ℕ
  | pane id, depth => if id = target then some depth else none
  | split _ _ first second, depth =>
      (paneLayoutDepth target first (depth + 1)).orElse fun _ =>
        paneLayoutDepth target second (depth + 1)

def removeFromLayout (target : PaneId) : PaneLayout R → Option (PaneLayout R)
  | pane id => if id = target then none else some (pane id)
  | split direction ratio first second =>
      match removeFromLayout target first, removeFromLayout target second with
      | none, some second => some second
      | some first, none => some first
      | some first, some second => some (split direction ratio first second)
      | none, none => none

def firstPaneId : PaneLayout R → PaneId
  | pane id => id
  | split _ _ first _ => first.firstPaneId

def containsPane (paneId : PaneId) : PaneLayout R → Bool
  | pane id => id = paneId
  | split _ _ first second => first.containsPane paneId || second.containsPane paneId

def swapLayoutPanes (firstId secondId : PaneId) : PaneLayout R → PaneLayout R
  | pane id =>
      if id = firstId then pane secondId
      else if id = secondId then pane firstId
      else pane id
  | split direction ratio first second =>
      split direction ratio (swapLayoutPanes firstId secondId first)
        (swapLayoutPanes firstId secondId second)

def splitCount : PaneLayout R → ℕ
  | pane _ => 0
  | split _ _ first second => 1 + first.splitCount + second.splitCount

section Arithmetic

variable [RatioNumber R]

open RatioNumber

/-- Appends the places of the Panes to `rects`, in layout order. -/
def collectPaneRects :
    PaneLayout R → (left top right bottom : R) → List (PaneRect R) → List (PaneRect R)
  | pane id, left, top, right, bottom, rects => rects ++ [{ id, left, top, right, bottom }]
  | split .horizontal ratio first second, left, top, right, bottom, rects =>
      let middle := left + (right - left) * ratio
      collectPaneRects second middle top right bottom
        (collectPaneRects first left top middle bottom rects)
  | split .vertical ratio first second, left, top, right, bottom, rects =>
      let middle := top + (bottom - top) * ratio
      collectPaneRects second left middle right bottom
        (collectPaneRects first left top right middle rects)

def intervalGap (firstStart firstEnd secondStart secondEnd : R) : R :=
  if lt firstEnd secondStart then secondStart - firstEnd
  else if lt secondEnd firstStart then firstStart - secondEnd
  else literal 0

/-- `f32::EPSILON`. -/
def epsilon : R := literal (1 / 8388608)

def directionalScore (target candidate : PaneRect R) (direction : PaneDirection) : Option R :=
  let horizontalGap := intervalGap target.left target.right candidate.left candidate.right
  let horizontalCenter :=
    RatioNumber.abs ((target.left + target.right) - (candidate.left + candidate.right))
  let verticalGap := intervalGap target.top target.bottom candidate.top candidate.bottom
  let verticalCenter :=
    RatioNumber.abs ((target.top + target.bottom) - (candidate.top + candidate.bottom))
  let measured := match direction with
    | .left =>
        if le candidate.right (target.left + epsilon) then
          some (target.left - candidate.right, verticalGap, verticalCenter)
        else none
    | .right =>
        if le (target.right - epsilon) candidate.left then
          some (candidate.left - target.right, verticalGap, verticalCenter)
        else none
    | .up =>
        if le candidate.bottom (target.top + epsilon) then
          some (target.top - candidate.bottom, horizontalGap, horizontalCenter)
        else none
    | .down =>
        if le (target.bottom - epsilon) candidate.top then
          some (candidate.top - target.bottom, horizontalGap, horizontalCenter)
        else none
  measured.map fun (primary, secondary, center) =>
    primary * literal 100 + secondary * literal 10 + center

/-- `min_by` with `total_cmp`: the first of the least elements. -/
def minByScore : List (PaneId × R) → Option (PaneId × R)
  | [] => none
  | head :: rest =>
      some (rest.foldl (fun least next => if totalLe least.2 next.2 then least else next) head)

def neighborPaneId (layout : PaneLayout R) (target : PaneId) (direction : PaneDirection) :
    Option PaneId := do
  let rects := collectPaneRects layout (literal 0) (literal 0) (literal 1) (literal 1) []
  let targetRect ← rects.find? fun rect => rect.id = target
  let scored := rects.filterMap fun candidate =>
    if candidate.id = targetRect.id then none
    else (directionalScore targetRect candidate direction).map (candidate.id, ·)
  (minByScore scored).map (·.1)

def resizeBetween (target neighbor : PaneId) (amount : R) :
    PaneLayout R → Bool × PaneLayout R
  | pane id => (false, pane id)
  | split direction ratio first second =>
      let targetFirst := first.containsPane target
      let neighborFirst := first.containsPane neighbor
      if targetFirst ≠ neighborFirst then
        let next := validSplitRatio (ratio + if targetFirst then amount else -amount)
        if RatioNumber.eq next ratio then (false, split direction ratio first second)
        else (true, split direction next first second)
      else if targetFirst then
        let (changed, first) := resizeBetween target neighbor amount first
        (changed, split direction ratio first second)
      else
        let (changed, second) := resizeBetween target neighbor amount second
        (changed, split direction ratio first second)

/-- Sets the ratios in the order of `ratios`, and returns those left over; `none` is the panic
of a layout with more splits than there are ratios. -/
def applySplitRatios : PaneLayout R → List R → Option (PaneLayout R × List R)
  | pane id, ratios => some (pane id, ratios)
  | split _ _ _ _, [] => none
  | split direction _ first second, ratio :: ratios => do
      let (first, ratios) ← applySplitRatios first ratios
      let (second, ratios) ← applySplitRatios second ratios
      some (split direction (validSplitRatio ratio) first second, ratios)

end Arithmetic

attribute [local simp] containsPane splitLayout paneLayoutDepth removeFromLayout swapLayoutPanes

/-! ## Leaves -/

theorem leaves_ne_nil (layout : PaneLayout R) : layout.leaves ≠ [] := by
  induction layout with
  | pane id => simp
  | split direction ratio first second ihFirst ihSecond => simp [ihFirst]

theorem firstPaneId_mem_leaves (layout : PaneLayout R) : layout.firstPaneId ∈ layout.leaves := by
  induction layout with
  | pane id => simp [firstPaneId]
  | split direction ratio first second ihFirst ihSecond =>
      simp only [firstPaneId, leaves, List.mem_append]
      exact Or.inl ihFirst

@[simp]
theorem containsPane_iff (paneId : PaneId) (layout : PaneLayout R) :
    layout.containsPane paneId = true ↔ paneId ∈ layout.leaves := by
  induction layout with
  | pane id => simp [eq_comm]
  | split direction ratio first second ihFirst ihSecond =>
      simp [ihFirst, ihSecond]

theorem splitCount_eq_length_ratios (layout : PaneLayout R) :
    layout.splitCount = layout.ratios.length := by
  induction layout with
  | pane id => rfl
  | split direction ratio first second ihFirst ihSecond =>
      simp only [splitCount, ihFirst, ihSecond, ratios, List.length_cons, List.length_append]
      omega

/-! ## Splitting -/

theorem splitLayout_fst (target newPane : PaneId) (side : PaneDirection) (ratio : R)
    (layout : PaneLayout R) :
    (splitLayout target newPane side ratio layout).1 = true ↔ target ∈ layout.leaves := by
  induction layout with
  | pane id =>
      rw [leaves, List.mem_singleton, @eq_comm _ target id]
      by_cases same : id = target <;> simp [same]
  | split direction splitRatio first second ihFirst ihSecond =>
      rcases outcome : splitLayout target newPane side ratio first with ⟨done, first'⟩
      rw [outcome] at ihFirst
      cases done <;> simp_all

theorem splitLayout_of_not_mem {target newPane : PaneId} {side : PaneDirection} {ratio : R}
    {layout : PaneLayout R} (absent : target ∉ layout.leaves) :
    splitLayout target newPane side ratio layout = (false, layout) := by
  induction layout with
  | pane id =>
      have differ : id ≠ target := fun same => absent (by simp [same])
      simp [differ]
  | split direction splitRatio first second ihFirst ihSecond =>
      simp only [leaves, List.mem_append, not_or] at absent
      simp [ihFirst absent.1, ihSecond absent.2]

/-- What a split does: the new Pane joins the leaves. -/
theorem leaves_splitLayout_perm {target : PaneId} (newPane : PaneId) (side : PaneDirection)
    (ratio : R) {layout : PaneLayout R} (present : target ∈ layout.leaves) :
    (splitLayout target newPane side ratio layout).2.leaves.Perm (newPane :: layout.leaves) := by
  induction layout with
  | pane id =>
      have same : id = target := by simpa [eq_comm] using present
      subst same
      cases side
      · simp
      · simpa using List.Perm.swap newPane id []
      · simp
      · simpa using List.Perm.swap newPane id []
  | split direction splitRatio first second ihFirst ihSecond =>
      by_cases inFirst : target ∈ first.leaves
      · rcases outcome : splitLayout target newPane side ratio first with ⟨done, first'⟩
        have succeeded := (splitLayout_fst target newPane side ratio first).mpr inFirst
        rw [outcome] at succeeded
        have grown := ihFirst inFirst
        rw [outcome] at grown
        simp only [splitLayout, outcome]
        subst succeeded
        exact grown.append_right second.leaves
      · have inSecond : target ∈ second.leaves := by
          simpa [inFirst] using present
        simp only [splitLayout, splitLayout_of_not_mem inFirst, leaves]
        exact ((ihSecond inSecond).append_left first.leaves).trans List.perm_middle

theorem ratios_splitLayout (target newPane : PaneId) (side : PaneDirection) (ratio : R)
    (layout : PaneLayout R) (member : R)
    (contained : member ∈ (splitLayout target newPane side ratio layout).2.ratios) :
    member = ratio ∨ member ∈ layout.ratios := by
  induction layout with
  | pane id =>
      by_cases same : id = target <;> simp_all
  | split direction splitRatio first second ihFirst ihSecond =>
      rcases outcome : splitLayout target newPane side ratio first with ⟨done, first'⟩
      rw [outcome] at ihFirst
      cases done
      · simp only [splitLayout, outcome, ratios, List.mem_cons, List.mem_append] at contained ⊢
        rcases contained with rfl | inFirst | inSecond
        · simp
        · rcases ihFirst inFirst with rfl | old
          · simp
          · simp [old]
        · rcases ihSecond inSecond with rfl | old
          · simp
          · simp [old]
      · simp only [splitLayout, outcome, ratios, List.mem_cons, List.mem_append] at contained ⊢
        rcases contained with rfl | inFirst | inSecond
        · simp
        · rcases ihFirst inFirst with rfl | old
          · simp
          · simp [old]
        · simp [inSecond]

theorem paneLayoutDepth_isSome {target : PaneId} {layout : PaneLayout R} {level : ℕ} :
    (paneLayoutDepth target layout level).isSome = true ↔ target ∈ layout.leaves := by
  induction layout generalizing level with
  | pane id =>
      rw [leaves, List.mem_singleton, @eq_comm _ target id]
      by_cases same : id = target <;> simp [same]
  | split direction ratio first second ihFirst ihSecond =>
      rcases outcome : paneLayoutDepth target first (level + 1) with _ | found
      · have absent : target ∉ first.leaves := by
          rw [← @ihFirst (level + 1), outcome]
          simp
        simp [outcome, ihSecond, absent]
      · have present : target ∈ first.leaves := by
          rw [← @ihFirst (level + 1), outcome]
          rfl
        simp [outcome, present]

/-- A split deepens the layout at the Pane it splits only. -/
theorem depth_splitLayout {target : PaneId} (newPane : PaneId) (side : PaneDirection) (ratio : R)
    {layout : PaneLayout R} {level found : ℕ}
    (located : paneLayoutDepth target layout level = some found) :
    (splitLayout target newPane side ratio layout).2.depth + level ≤
      max (layout.depth + level) (found + 2) := by
  induction layout generalizing level with
  | pane id =>
      by_cases same : id = target
      · have here : level = found := by simpa [same] using located
        simp [same]
        omega
      · simp [same] at located
  | split direction splitRatio first second ihFirst ihSecond =>
      rcases inFirst : paneLayoutDepth target first (level + 1) with _ | foundFirst
      · have absent : target ∉ first.leaves := by
          rw [← @paneLayoutDepth_isSome R target first (level + 1), inFirst]
          simp
        have inSecond : paneLayoutDepth target second (level + 1) = some found := by
          simpa [inFirst] using located
        have bound := ihSecond inSecond
        simp only [splitLayout, splitLayout_of_not_mem absent, depth]
        omega
      · have same : foundFirst = found := by
          simpa [inFirst] using located
        subst same
        have present : target ∈ first.leaves := by
          rw [← @paneLayoutDepth_isSome R target first (level + 1), inFirst]
          rfl
        rcases outcome : splitLayout target newPane side ratio first with ⟨done, first'⟩
        have succeeded := (splitLayout_fst target newPane side ratio first).mpr present
        have bound := ihFirst inFirst
        rw [outcome] at succeeded bound
        subst succeeded
        simp only [splitLayout, outcome, depth]
        simp only at bound
        omega

/-! ## Removing -/

theorem removeFromLayout_eq_none {target : PaneId} {layout : PaneLayout R}
    (gone : removeFromLayout target layout = none) : ∀ id ∈ layout.leaves, id = target := by
  induction layout with
  | pane id => by_cases same : id = target <;> simp_all
  | split direction ratio first second ihFirst ihSecond =>
      rcases restFirst : removeFromLayout target first with _ | first' <;>
        rcases restSecond : removeFromLayout target second with _ | second' <;>
        simp_all
      rintro id (inFirst | inSecond)
      · exact ihFirst id inFirst
      · exact ihSecond id inSecond

/-- What a removal does: the target leaves, the other Panes keep their order, and the layout
grows neither deeper nor any new ratio. -/
theorem removeFromLayout_eq_some {target : PaneId} {layout rest : PaneLayout R}
    (remains : removeFromLayout target layout = some rest) :
    rest.leaves = layout.leaves.filter (· ≠ target) ∧ rest.depth ≤ layout.depth ∧
      rest.ratios ⊆ layout.ratios := by
  induction layout generalizing rest with
  | pane id =>
      by_cases same : id = target
      · simp [same] at remains
      · obtain rfl : pane id = rest := by simpa [same] using remains
        simp [same]
  | split direction ratio first second ihFirst ihSecond =>
      rcases restFirst : removeFromLayout target first with _ | first' <;>
        rcases restSecond : removeFromLayout target second with _ | second'
      · simp [restFirst, restSecond] at remains
      · obtain rfl : second' = rest := by
          simpa [restFirst, restSecond] using remains
        rcases ihSecond restSecond with ⟨leavesEq, depthLe, ratiosSub⟩
        have firstGone : first.leaves.filter (· ≠ target) = [] := by
          simpa using removeFromLayout_eq_none restFirst
        refine ⟨?_, ?_, ?_⟩
        · rw [leaves, List.filter_append, firstGone, List.nil_append, leavesEq]
        · simp only [depth]
          omega
        · exact List.Subset.trans ratiosSub (by simp)
      · obtain rfl : first' = rest := by
          simpa [restFirst, restSecond] using remains
        rcases ihFirst restFirst with ⟨leavesEq, depthLe, ratiosSub⟩
        have secondGone : second.leaves.filter (· ≠ target) = [] := by
          simpa using removeFromLayout_eq_none restSecond
        refine ⟨?_, ?_, ?_⟩
        · rw [leaves, List.filter_append, secondGone, List.append_nil, leavesEq]
        · simp only [depth]
          omega
        · exact List.Subset.trans ratiosSub (by simp)
      · obtain rfl : split direction ratio first' second' = rest := by
          simpa [restFirst, restSecond] using remains
        rcases ihFirst restFirst with ⟨leavesFirst, depthFirst, ratiosFirst⟩
        rcases ihSecond restSecond with ⟨leavesSecond, depthSecond, ratiosSecond⟩
        refine ⟨?_, ?_, ?_⟩
        · rw [leaves, leaves, List.filter_append, leavesFirst, leavesSecond]
        · simp only [depth]
          omega
        · intro member contained
          simp only [ratios, List.mem_cons, List.mem_append] at contained ⊢
          rcases contained with rfl | inFirst | inSecond
          · simp
          · simp [ratiosFirst inFirst]
          · simp [ratiosSecond inSecond]

/-! ## Swapping, resizing and setting ratios -/

theorem leaves_swapLayoutPanes (firstId secondId : PaneId) (layout : PaneLayout R) :
    (layout.swapLayoutPanes firstId secondId).leaves =
      layout.leaves.map (Equiv.swap firstId secondId) := by
  induction layout with
  | pane id =>
      simp only [swapLayoutPanes, leaves, List.map_cons, List.map_nil, Equiv.swap_apply_def]
      split_ifs <;> rfl
  | split direction ratio first second ihFirst ihSecond =>
      simp [ihFirst, ihSecond]

theorem depth_swapLayoutPanes (firstId secondId : PaneId) (layout : PaneLayout R) :
    (layout.swapLayoutPanes firstId secondId).depth = layout.depth := by
  induction layout with
  | pane id =>
      simp only [swapLayoutPanes]
      split_ifs <;> rfl
  | split direction ratio first second ihFirst ihSecond =>
      simp [ihFirst, ihSecond]

theorem ratios_swapLayoutPanes (firstId secondId : PaneId) (layout : PaneLayout R) :
    (layout.swapLayoutPanes firstId secondId).ratios = layout.ratios := by
  induction layout with
  | pane id =>
      simp only [swapLayoutPanes]
      split_ifs <;> rfl
  | split direction ratio first second ihFirst ihSecond =>
      simp [ihFirst, ihSecond]

/-- Two Panes of one layout trade places, so the leaves stay the same up to order. -/
theorem leaves_swapLayoutPanes_perm {firstId secondId : PaneId} {layout : PaneLayout R}
    (nodup : layout.leaves.Nodup) (firstMem : firstId ∈ layout.leaves)
    (secondMem : secondId ∈ layout.leaves) :
    (layout.swapLayoutPanes firstId secondId).leaves.Perm layout.leaves := by
  rw [leaves_swapLayoutPanes]
  refine (List.perm_ext_iff_of_nodup (List.Nodup.map (Equiv.injective _) nodup) nodup).mpr fun id => ?_
  constructor
  · intro swapped
    rcases List.mem_map.mp swapped with ⟨old, oldMem, rfl⟩
    rw [Equiv.swap_apply_def]
    split_ifs
    · exact secondMem
    · exact firstMem
    · exact oldMem
  · intro member
    refine List.mem_map.mpr ⟨Equiv.swap firstId secondId id, ?_, Equiv.swap_apply_self ..⟩
    rw [Equiv.swap_apply_def]
    split_ifs
    · exact secondMem
    · exact firstMem
    · exact member

section Arithmetic

variable [RatioNumber R]

theorem leaves_resizeBetween (target neighbor : PaneId) (amount : R) (layout : PaneLayout R) :
    (resizeBetween target neighbor amount layout).2.leaves = layout.leaves := by
  induction layout with
  | pane id => rfl
  | split direction ratio first second ihFirst ihSecond =>
      simp only [resizeBetween]
      split_ifs <;> simp [ihFirst, ihSecond]

theorem depth_resizeBetween (target neighbor : PaneId) (amount : R) (layout : PaneLayout R) :
    (resizeBetween target neighbor amount layout).2.depth = layout.depth := by
  induction layout with
  | pane id => rfl
  | split direction ratio first second ihFirst ihSecond =>
      simp only [resizeBetween]
      split_ifs <;> simp [ihFirst, ihSecond]

/-- The ratio a resize sets has gone through the clamp. -/
theorem ratios_resizeBetween {target neighbor : PaneId} {amount : R} {layout : PaneLayout R}
    {member : R} (contained : member ∈ (resizeBetween target neighbor amount layout).2.ratios) :
    (∃ value, member = validSplitRatio value) ∨ member ∈ layout.ratios := by
  induction layout with
  | pane id => simp [resizeBetween] at contained
  | split direction ratio first second ihFirst ihSecond =>
      simp only [resizeBetween] at contained
      split_ifs at contained <;>
        simp only [ratios, List.mem_cons, List.mem_append] at contained ⊢ <;>
        grind

/-- As many ratios as splits are used up exactly. -/
theorem applySplitRatios_append (layout : PaneLayout R) (given rest : List R)
    (enough : given.length = layout.ratios.length) :
    ∃ next, applySplitRatios layout (given ++ rest) = some (next, rest) ∧
      next.leaves = layout.leaves ∧ next.depth = layout.depth ∧
      next.ratios = given.map validSplitRatio := by
  induction layout generalizing given rest with
  | pane id =>
      obtain rfl : given = [] := by simpa using enough
      exact ⟨pane id, by simp [applySplitRatios], rfl, rfl, rfl⟩
  | split direction ratio first second ihFirst ihSecond =>
      rcases given with _ | ⟨head, tail⟩
      · simp at enough
      · simp only [ratios, List.length_cons, List.length_append, Nat.add_right_cancel_iff] at enough
        -- the first child takes its share of the tail, the second the remainder
        obtain ⟨first', firstEq, firstLeaves, firstDepth, firstRatios⟩ :=
          ihFirst (tail.take first.ratios.length) (tail.drop first.ratios.length ++ rest)
            (by simp; omega)
        obtain ⟨second', secondEq, secondLeaves, secondDepth, secondRatios⟩ :=
          ihSecond (tail.drop first.ratios.length) rest (by simp; omega)
        rw [← List.append_assoc, List.take_append_drop] at firstEq
        refine ⟨split direction (validSplitRatio head) first' second', ?_, ?_, ?_, ?_⟩
        · simp [applySplitRatios, firstEq, secondEq]
        · simp [firstLeaves, secondLeaves]
        · simp [firstDepth, secondDepth]
        · rw [ratios, firstRatios, secondRatios, ← List.map_append, List.take_append_drop,
            List.map_cons]

/-! ## Neighbors -/

theorem collectPaneRects_ids (layout : PaneLayout R) (left top right bottom : R)
    (rects : List (PaneRect R)) :
    (collectPaneRects layout left top right bottom rects).map (·.id) =
      rects.map (·.id) ++ layout.leaves := by
  induction layout generalizing left top right bottom rects with
  | pane id => simp [collectPaneRects]
  | split direction ratio first second ihFirst ihSecond =>
      cases direction <;> simp [collectPaneRects, ihFirst, ihSecond]

theorem minByScore_mem {scored : List (PaneId × R)} {least : PaneId × R}
    (found : minByScore scored = some least) : least ∈ scored := by
  rcases scored with _ | ⟨head, rest⟩
  · simp [minByScore] at found
  · rcases Option.some.inj found with rfl
    -- whatever the fold has kept so far was the head or came from the rest
    have kept : ∀ (rest : List (PaneId × R)) (head : PaneId × R),
        rest.foldl (fun least next =>
          if RatioNumber.totalLe least.2 next.2 then least else next) head ∈ head :: rest := by
      intro rest
      induction rest with
      | nil => simp
      | cons next rest ih =>
          intro head
          simp only [List.foldl_cons]
          split
          · have := ih head
            simp only [List.mem_cons] at this ⊢
            tauto
          · have := ih next
            simp only [List.mem_cons] at this ⊢
            tauto
    exact kept rest head

/-- A neighbor is another Pane of the same layout. -/
theorem neighborPaneId_mem {layout : PaneLayout R} {target neighbor : PaneId}
    {direction : PaneDirection} (found : neighborPaneId layout target direction = some neighbor) :
    neighbor ∈ layout.leaves ∧ neighbor ≠ target := by
  simp only [neighborPaneId, Option.bind_eq_bind, Option.bind_eq_some_iff, Option.map_eq_some_iff]
    at found
  rcases found with ⟨targetRect, targetFound, ⟨least, score⟩, leastFound, rfl⟩
  have targetId : targetRect.id = target := by simpa using List.find?_some targetFound
  have scored := minByScore_mem leastFound
  simp only [List.mem_filterMap, Option.ite_none_left_eq_some, Option.map_eq_some_iff,
    Prod.mk.injEq] at scored
  rcases scored with ⟨candidate, candidateMem, differ, _, _, rfl, rfl⟩
  refine ⟨?_, targetId ▸ differ⟩
  have ids := collectPaneRects_ids layout (RatioNumber.literal 0) (RatioNumber.literal 0)
    (RatioNumber.literal 1) (RatioNumber.literal 1) []
  rw [List.map_nil, List.nil_append] at ids
  exact ids ▸ List.mem_map_of_mem candidateMem

end Arithmetic

end PaneLayout

end Condr
