import Condr.Session.Layout

/-!
# Places in a layout

A place in a layout is the splits above it, outermost first, each with the child on the other
side. A Pane that occurs once has one place, where it can be removed or split.
-/

namespace Condr

namespace PaneLayout

variable {R : Type}

/-- A split above a place, with what is on its other side. -/
inductive Frame (R : Type) where
  | inFirst (direction : SplitDirection) (ratio : R) (second : PaneLayout R)
  | inSecond (direction : SplitDirection) (ratio : R) (first : PaneLayout R)

namespace Frame

def plug : Frame R → PaneLayout R → PaneLayout R
  | inFirst direction ratio second, layout => split direction ratio layout second
  | inSecond direction ratio first, layout => split direction ratio first layout

def sibling : Frame R → PaneLayout R
  | inFirst _ _ second => second
  | inSecond _ _ first => first

end Frame

/-- The layout with another at a place. -/
def fill (place : List (Frame R)) (layout : PaneLayout R) : PaneLayout R :=
  place.foldr Frame.plug layout

/-- The Panes around a place. -/
def around (place : List (Frame R)) : List PaneId :=
  place.flatMap fun frame => frame.sibling.leaves

@[simp]
theorem fill_nil (layout : PaneLayout R) : fill [] layout = layout := rfl

@[simp]
theorem fill_cons (frame : Frame R) (place : List (Frame R)) (layout : PaneLayout R) :
    fill (frame :: place) layout = frame.plug (fill place layout) := rfl

theorem fill_append (outer inner : List (Frame R)) (layout : PaneLayout R) :
    fill (outer ++ inner) layout = fill outer (fill inner layout) :=
  List.foldr_append ..

variable {paneId newPane : PaneId} {layout rest : PaneLayout R} {place : List (Frame R)}
  {frame : Frame R} {side : PaneDirection} {ratio : R}

theorem leaves_plug : (frame.plug layout).leaves.Perm (layout.leaves ++ frame.sibling.leaves) := by
  cases frame with
  | inFirst direction ratio second => exact .refl _
  | inSecond direction ratio first => exact List.perm_append_comm

theorem leaves_fill : (fill place layout).leaves.Perm (layout.leaves ++ around place) := by
  induction place with
  | nil => simp [around]
  | cons frame place induction =>
      refine leaves_plug.trans ((induction.append_right _).trans ?_)
      rw [List.append_assoc]
      exact List.perm_append_comm.append_left _

/-- A Pane of a layout has a place in it. -/
theorem exists_place (member : paneId ∈ layout.leaves) :
    ∃ place, layout = fill place (pane paneId) := by
  induction layout with
  | pane id =>
      rw [leaves, List.mem_singleton] at member
      exact ⟨[], by rw [member, fill_nil]⟩
  | split direction ratio first second ihFirst ihSecond =>
      rw [leaves, List.mem_append] at member
      rcases member with inFirst | inSecond
      · rcases ihFirst inFirst with ⟨place, same⟩
        exact ⟨.inFirst direction ratio second :: place, by rw [fill_cons, ← same]; rfl⟩
      · rcases ihSecond inSecond with ⟨place, same⟩
        exact ⟨.inSecond direction ratio first :: place, by rw [fill_cons, ← same]; rfl⟩

/-- A Pane that occurs once is not around its own place. -/
theorem not_mem_around (nodup : (fill place (pane paneId)).leaves.Nodup) :
    paneId ∉ around place := by
  have split := leaves_fill.nodup_iff.mp nodup
  rw [leaves, List.singleton_append, List.nodup_cons] at split
  exact split.1

/-! ## Removing -/

theorem removeFromLayout_of_not_mem (absent : paneId ∉ layout.leaves) :
    removeFromLayout paneId layout = some layout := by
  induction layout with
  | pane id =>
      rw [leaves, List.mem_singleton] at absent
      rw [removeFromLayout, if_neg (Ne.symm absent)]
  | split direction ratio first second ihFirst ihSecond =>
      rw [leaves, List.mem_append, not_or] at absent
      simp only [removeFromLayout, ihFirst absent.1, ihSecond absent.2]

theorem removeFromLayout_plug (absent : paneId ∉ frame.sibling.leaves) :
    removeFromLayout paneId (frame.plug layout) = some
      (((removeFromLayout paneId layout).map frame.plug).getD frame.sibling) := by
  cases frame with
  | inFirst direction ratio second =>
      have kept : removeFromLayout paneId second = some second := removeFromLayout_of_not_mem absent
      simp only [Frame.plug, removeFromLayout, kept, Frame.sibling]
      cases removeFromLayout paneId layout <;> rfl
  | inSecond direction ratio first =>
      have kept : removeFromLayout paneId first = some first := removeFromLayout_of_not_mem absent
      simp only [Frame.plug, removeFromLayout, kept, Frame.sibling]
      cases removeFromLayout paneId layout <;> rfl

theorem removeFromLayout_fill (absent : paneId ∉ around place)
    (remains : removeFromLayout paneId layout = some rest) :
    removeFromLayout paneId (fill place layout) = some (fill place rest) := by
  induction place with
  | nil => exact remains
  | cons frame place induction =>
      rw [around, List.flatMap_cons, List.mem_append, not_or] at absent
      rw [fill_cons, removeFromLayout_plug absent.1, induction absent.2]
      rfl

/-- The layout is left when the Pane goes and its sibling takes the place of their split. -/
def Detaches (layout : PaneLayout R) (paneId : PaneId) (rest : PaneLayout R) : Prop :=
  ∃ (place : List (Frame R)) (frame : Frame R),
    layout = fill place (frame.plug (pane paneId)) ∧ rest = fill place frame.sibling

/-- To remove a Pane is to leave its sibling in the place of their split. -/
theorem removeFromLayout_eq_some_iff (nodup : layout.leaves.Nodup)
    (member : paneId ∈ layout.leaves) :
    removeFromLayout paneId layout = some rest ↔ layout.Detaches paneId rest := by
  have removes : ∀ (place : List (Frame R)) (frame : Frame R),
      layout = fill place (frame.plug (pane paneId)) →
      removeFromLayout paneId layout = some (fill place frame.sibling) := by
    intro place frame same
    subst same
    have apart : paneId ∉ around (place ++ [frame]) := by
      apply not_mem_around
      rwa [fill_append]
    rw [around, List.flatMap_append, List.mem_append, not_or, List.flatMap_singleton] at apart
    apply removeFromLayout_fill apart.1
    rw [removeFromLayout_plug apart.2]
    simp [removeFromLayout]
  constructor
  · intro remains
    rcases exists_place member with ⟨place, same⟩
    rcases List.eq_nil_or_concat place with rfl | ⟨outer, frame, rfl⟩
    · rw [same, fill_nil, removeFromLayout, if_pos rfl] at remains
      cases remains
    · rw [List.concat_eq_append, fill_append] at same
      have removed := removes outer frame same
      rw [remains, Option.some.injEq] at removed
      exact ⟨outer, frame, same, removed⟩
  · rintro ⟨place, frame, same, rfl⟩
    exact removes place frame same

/-! ## Splitting -/

/-- Two Panes side by side, the new one on the given side of the target. -/
def beside (target newPane : PaneId) (ratio : R) : PaneDirection → PaneLayout R
  | .left => split .horizontal ratio (pane newPane) (pane target)
  | .right => split .horizontal ratio (pane target) (pane newPane)
  | .up => split .vertical ratio (pane newPane) (pane target)
  | .down => split .vertical ratio (pane target) (pane newPane)

/-- The layout with a new Pane beside one of its own. -/
def Attaches (layout : PaneLayout R) (target newPane : PaneId) (side : PaneDirection) (ratio : R)
    (next : PaneLayout R) : Prop :=
  ∃ place, layout = fill place (pane target) ∧ next = fill place (beside target newPane ratio side)

theorem splitLayout_eq_iff {target : PaneId} {next : PaneLayout R} (nodup : layout.leaves.Nodup) :
    splitLayout target newPane side ratio layout = (true, next) ↔
      layout.Attaches target newPane side ratio next := by
  have attaches : ∀ place : List (Frame R), target ∉ around place →
      splitLayout target newPane side ratio (fill place (pane target)) =
        (true, fill place (beside target newPane ratio side)) := by
    intro place
    induction place with
    | nil =>
        intro _
        cases side <;> simp [splitLayout, beside]
    | cons frame place induction =>
        intro absent
        rw [around, List.flatMap_cons, List.mem_append, not_or] at absent
        cases frame with
        | inFirst direction splitRatio second =>
            simp only [fill_cons, Frame.plug, splitLayout, induction absent.2]
        | inSecond direction splitRatio first =>
            have missed : splitLayout target newPane side ratio first = (false, first) :=
              splitLayout_of_not_mem absent.1
            simp only [fill_cons, Frame.plug, splitLayout, missed, induction absent.2]
  constructor
  · intro done
    have member := (splitLayout_fst target newPane side ratio layout).mp (by rw [done])
    rcases exists_place member with ⟨place, rfl⟩
    rw [attaches place (not_mem_around nodup), Prod.mk.injEq] at done
    exact ⟨place, rfl, done.2.symm⟩
  · rintro ⟨place, rfl, rfl⟩
    exact attaches place (not_mem_around nodup)

/-- A Pane that was put beside another one is removed as it came. -/
theorem Attaches.detaches {target : PaneId} {next : PaneLayout R}
    (attaches : layout.Attaches target newPane side ratio next) : next.Detaches newPane layout := by
  rcases attaches with ⟨place, rfl, rfl⟩
  cases side with
  | left => exact ⟨place, .inFirst .horizontal ratio (pane target), rfl, rfl⟩
  | right => exact ⟨place, .inSecond .horizontal ratio (pane target), rfl, rfl⟩
  | up => exact ⟨place, .inFirst .vertical ratio (pane target), rfl, rfl⟩
  | down => exact ⟨place, .inSecond .vertical ratio (pane target), rfl, rfl⟩

/-! ## Exchanging -/

/-- The same splits with other Panes. -/
def relabel (names : PaneId → PaneId) : PaneLayout R → PaneLayout R
  | pane id => pane (names id)
  | split direction ratio first second =>
      split direction ratio (first.relabel names) (second.relabel names)

theorem swapLayoutPanes_eq (firstId secondId : PaneId) (layout : PaneLayout R) :
    layout.swapLayoutPanes firstId secondId = layout.relabel (Equiv.swap firstId secondId) := by
  induction layout with
  | pane id =>
      simp only [swapLayoutPanes, relabel, Equiv.swap_apply_def]
      split_ifs <;> rfl
  | split direction ratio first second ihFirst ihSecond =>
      simp [swapLayoutPanes, relabel, ihFirst, ihSecond]

theorem swapLayoutPanes_swapLayoutPanes (firstId secondId : PaneId) (layout : PaneLayout R) :
    (layout.swapLayoutPanes firstId secondId).swapLayoutPanes firstId secondId = layout := by
  simp only [swapLayoutPanes_eq]
  induction layout with
  | pane id => simp [relabel]
  | split direction ratio first second ihFirst ihSecond => simp [relabel, ihFirst, ihSecond]

end PaneLayout

end Condr
