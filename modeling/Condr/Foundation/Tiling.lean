import Mathlib.Order.MinMax
import Mathlib.Tactic.Common

/-!
# Boxes cut into boxes

A box has an extent along a direction and one across it. Cutting it along or across, again and
again, leaves boxes that fill it: behind every one of them that does not reach the end lies
another one, with a common piece of edge between the two.
-/

namespace Tiling

universe u

variable {α : Type u} [LinearOrder α]

/-- Where a box starts and stops along the direction, and its ends across it. -/
structure Box (α : Type u) where
  start : α
  stop : α
  low : α
  high : α

namespace Box

structure Proper (box : Box α) : Prop where
  along : box.start < box.stop
  across : box.low < box.high

/-- Two extents across the direction have more than a point in common. -/
def Overlaps (low high otherLow otherHigh : α) : Prop :=
  max low otherLow < min high otherHigh

/-- The other box starts at the end of the box, along a common piece of edge. -/
def Adjoins (box other : Box α) : Prop :=
  other.start = box.stop ∧ Overlaps box.low box.high other.low other.high

structure Within (box whole : Box α) : Prop where
  start : whole.start ≤ box.start
  stop : box.stop ≤ whole.stop
  low : whole.low ≤ box.low
  high : box.high ≤ whole.high

theorem Within.refl (box : Box α) : box.Within box :=
  ⟨le_rfl, le_rfl, le_rfl, le_rfl⟩

theorem Within.trans {box middle whole : Box α} (inner : box.Within middle)
    (outer : middle.Within whole) : box.Within whole where
  start := outer.start.trans inner.start
  stop := inner.stop.trans outer.stop
  low := outer.low.trans inner.low
  high := inner.high.trans outer.high

end Box

open Box

/-- The boxes that are left of one after some cuts, in any order. -/
inductive Cuts : Box α → List (Box α) → Prop where
  | whole (box : Box α) : Cuts box [box]
  | along {box : Box α} {middle : α} {near far tiles : List (Box α)} (after : box.start < middle)
      (before : middle < box.stop) (nearCuts : Cuts { box with stop := middle } near)
      (farCuts : Cuts { box with start := middle } far) (perm : tiles.Perm (near ++ far)) :
      Cuts box tiles
  | across {box : Box α} {middle : α} {below above tiles : List (Box α)} (after : box.low < middle)
      (before : middle < box.high) (belowCuts : Cuts { box with high := middle } below)
      (aboveCuts : Cuts { box with low := middle } above) (perm : tiles.Perm (below ++ above)) :
      Cuts box tiles

variable {box tile : Box α} {tiles : List (Box α)}

theorem Cuts.of_along {near far : Box α} {middle : α} {front back : List (Box α)}
    (halves : (near, far) = ({ box with stop := middle }, { box with start := middle }))
    (after : box.start < middle) (before : middle < box.stop) (nearCuts : Cuts near front)
    (farCuts : Cuts far back) (perm : tiles.Perm (front ++ back)) : Cuts box tiles := by
  cases halves
  exact .along after before nearCuts farCuts perm

theorem Cuts.of_across {below above : Box α} {middle : α} {front back : List (Box α)}
    (halves : (below, above) = ({ box with high := middle }, { box with low := middle }))
    (after : box.low < middle) (before : middle < box.high) (belowCuts : Cuts below front)
    (aboveCuts : Cuts above back) (perm : tiles.Perm (front ++ back)) : Cuts box tiles := by
  cases halves
  exact .across after before belowCuts aboveCuts perm

theorem Cuts.within (cuts : Cuts box tiles) (proper : box.Proper) (member : tile ∈ tiles) :
    tile.Proper ∧ tile.Within box := by
  induction cuts with
  | whole box =>
      rw [List.mem_singleton] at member
      subst member
      exact ⟨proper, .refl tile⟩
  | @along box middle near far tiles after before _ _ perm ihNear ihFar =>
      rw [perm.mem_iff, List.mem_append] at member
      rcases member with inNear | inFar
      · rcases ihNear ⟨after, proper.across⟩ inNear with ⟨own, within⟩
        exact ⟨own, within.trans ⟨le_rfl, before.le, le_rfl, le_rfl⟩⟩
      · rcases ihFar ⟨before, proper.across⟩ inFar with ⟨own, within⟩
        exact ⟨own, within.trans ⟨after.le, le_rfl, le_rfl, le_rfl⟩⟩
  | @across box middle below above tiles after before _ _ perm ihBelow ihAbove =>
      rw [perm.mem_iff, List.mem_append] at member
      rcases member with inBelow | inAbove
      · rcases ihBelow ⟨proper.along, after⟩ inBelow with ⟨own, within⟩
        exact ⟨own, within.trans ⟨le_rfl, le_rfl, le_rfl, before.le⟩⟩
      · rcases ihAbove ⟨proper.along, before⟩ inAbove with ⟨own, within⟩
        exact ⟨own, within.trans ⟨le_rfl, le_rfl, after.le, le_rfl⟩⟩

/-- Whatever overlaps the box overlaps a box at its start. -/
theorem Cuts.exists_at_start (cuts : Cuts box tiles) {low high : α}
    (overlaps : Overlaps low high box.low box.high) :
    ∃ tile ∈ tiles, tile.start = box.start ∧ Overlaps low high tile.low tile.high := by
  induction cuts with
  | whole box => exact ⟨box, List.mem_singleton_self box, rfl, overlaps⟩
  | along after before nearCuts farCuts perm ihNear ihFar =>
      rcases ihNear overlaps with ⟨tile, member, starts, common⟩
      exact ⟨tile, perm.mem_iff.mpr (List.mem_append_left _ member), starts, common⟩
  | @across box middle below above tiles after before belowCuts aboveCuts perm ihBelow ihAbove =>
      -- the common piece does not lie on the cut alone
      rcases max_lt_iff.mp overlaps with ⟨left, right⟩
      rcases lt_min_iff.mp left with ⟨nonempty, lowBelow⟩
      rcases lt_min_iff.mp right with ⟨highAbove, proper⟩
      by_cases inBelow : low < middle
      · rcases ihBelow (max_lt (lt_min nonempty inBelow) (lt_min highAbove after))
          with ⟨tile, member, starts, common⟩
        exact ⟨tile, perm.mem_iff.mpr (List.mem_append_left _ member), starts, common⟩
      · have above : middle < high := (not_lt.mp inBelow).trans_lt nonempty
        rcases ihAbove (max_lt (lt_min nonempty lowBelow) (lt_min above before))
          with ⟨tile, member, starts, common⟩
        exact ⟨tile, perm.mem_iff.mpr (List.mem_append_right _ member), starts, common⟩

/-- A box that does not reach the end adjoins another one. -/
theorem Cuts.exists_adjoining (cuts : Cuts box tiles) (proper : box.Proper)
    (member : tile ∈ tiles) : tile.stop = box.stop ∨ ∃ other ∈ tiles, tile.Adjoins other := by
  induction cuts with
  | whole box =>
      rw [List.mem_singleton] at member
      exact .inl (by rw [member])
  | @along box middle near far tiles after before nearCuts farCuts perm ihNear ihFar =>
      rw [perm.mem_iff, List.mem_append] at member
      rcases member with inNear | inFar
      · rcases ihNear ⟨after, proper.across⟩ inNear with reaches | ⟨other, otherMem, adjoins⟩
        · -- the near part ends where the far one starts
          rcases nearCuts.within ⟨after, proper.across⟩ inNear with ⟨own, within⟩
          have overlaps : Overlaps tile.low tile.high box.low box.high :=
            max_lt (lt_min own.across (own.across.trans_le within.high))
              (lt_min (within.low.trans_lt own.across) proper.across)
          rcases farCuts.exists_at_start overlaps with ⟨other, otherMem, starts, common⟩
          exact .inr ⟨other, perm.mem_iff.mpr (List.mem_append_right _ otherMem),
            starts.trans reaches.symm, common⟩
        · exact .inr ⟨other, perm.mem_iff.mpr (List.mem_append_left _ otherMem), adjoins⟩
      · rcases ihFar ⟨before, proper.across⟩ inFar with reaches | ⟨other, otherMem, adjoins⟩
        · exact .inl reaches
        · exact .inr ⟨other, perm.mem_iff.mpr (List.mem_append_right _ otherMem), adjoins⟩
  | @across box middle below above tiles after before belowCuts aboveCuts perm ihBelow ihAbove =>
      rw [perm.mem_iff, List.mem_append] at member
      rcases member with inBelow | inAbove
      · rcases ihBelow ⟨proper.along, after⟩ inBelow with reaches | ⟨other, otherMem, adjoins⟩
        · exact .inl reaches
        · exact .inr ⟨other, perm.mem_iff.mpr (List.mem_append_left _ otherMem), adjoins⟩
      · rcases ihAbove ⟨proper.along, before⟩ inAbove with reaches | ⟨other, otherMem, adjoins⟩
        · exact .inl reaches
        · exact .inr ⟨other, perm.mem_iff.mpr (List.mem_append_right _ otherMem), adjoins⟩

end Tiling
