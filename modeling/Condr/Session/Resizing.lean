import Condr.Session.Moving
import Condr.Session.Neighbors

/-!
# Resizing a Pane

A resize moves one divider, that between the Pane and the neighbor which the search finds. It is
the divider at the Pane's own edge when the search finds a Pane behind that divider.
-/

namespace Condr

open Tiling

/-- An area of a Tab. -/
structure Area where
  left : ℚ
  top : ℚ
  right : ℚ
  bottom : ℚ

namespace Area

def whole : Area where
  left := 0
  top := 0
  right := 1
  bottom := 1

structure Proper (area : Area) : Prop where
  wide : area.left < area.right
  tall : area.top < area.bottom

theorem whole_proper : whole.Proper where
  wide := one_pos
  tall := one_pos

def along (direction : PaneDirection) (area : Area) : Box ℚ :=
  boxAlong direction area.left area.top area.right area.bottom

/-- Where the divider of a split of the area lies. -/
def divider (area : Area) : SplitDirection → ℚ → ℚ
  | .horizontal, ratio => area.left + (area.right - area.left) * ratio
  | .vertical, ratio => area.top + (area.bottom - area.top) * ratio

/-- The area before the divider. -/
def first (area : Area) (cut : SplitDirection) (ratio : ℚ) : Area :=
  match cut with
  | .horizontal => { area with right := area.divider cut ratio }
  | .vertical => { area with bottom := area.divider cut ratio }

/-- The area behind the divider. -/
def second (area : Area) (cut : SplitDirection) (ratio : ℚ) : Area :=
  match cut with
  | .horizontal => { area with left := area.divider cut ratio }
  | .vertical => { area with top := area.divider cut ratio }

variable {area : Area} {cut : SplitDirection} {ratio : ℚ}

theorem Proper.first (proper : area.Proper) (inRange : ratioInRange ratio = true) :
    (area.first cut ratio).Proper := by
  have bounds := ratioInRange_rat.mp inRange
  cases cut with
  | horizontal => exact ⟨(PaneLayout.divider_inside proper.wide bounds).1, proper.tall⟩
  | vertical => exact ⟨proper.wide, (PaneLayout.divider_inside proper.tall bounds).1⟩

theorem Proper.second (proper : area.Proper) (inRange : ratioInRange ratio = true) :
    (area.second cut ratio).Proper := by
  have bounds := ratioInRange_rat.mp inRange
  cases cut with
  | horizontal => exact ⟨(PaneLayout.divider_inside proper.wide bounds).2, proper.tall⟩
  | vertical => exact ⟨proper.wide, (PaneLayout.divider_inside proper.tall bounds).2⟩

theorem Proper.along (proper : area.Proper) (direction : PaneDirection) :
    (area.along direction).Proper := by
  cases direction with
  | left => exact ⟨neg_lt_neg proper.wide, proper.tall⟩
  | right => exact ⟨proper.wide, proper.tall⟩
  | up => exact ⟨neg_lt_neg proper.tall, proper.wide⟩
  | down => exact ⟨proper.tall, proper.wide⟩

end Area

namespace PaneDirection

/-- The splits whose dividers lie across the direction. -/
def axis : PaneDirection → SplitDirection
  | left => .horizontal
  | right => .horizontal
  | up => .vertical
  | down => .vertical

/-- The child of a split that the direction leaves. -/
def near {α : Type} (first second : α) : PaneDirection → α
  | left => second
  | right => first
  | up => second
  | down => first

/-- The child of a split that the direction enters. -/
def far {α : Type} (first second : α) : PaneDirection → α
  | left => first
  | right => second
  | up => first
  | down => second

/-- The change of a coordinate by a step in the direction. -/
def shift (step : ℚ) : PaneDirection → ℚ
  | left => -step
  | right => step
  | up => -step
  | down => step

end PaneDirection

/-- The edge of a Pane on a side. -/
def PaneRect.edge (rect : PaneRect ℚ) : PaneDirection → ℚ
  | .left => rect.left
  | .right => rect.right
  | .up => rect.top
  | .down => rect.bottom

namespace PaneLayout

/-- The area of the child that a place goes on to. -/
def Frame.area (area : Area) : Frame ℚ → Area
  | inFirst cut ratio _ => area.first cut ratio
  | inSecond cut ratio _ => area.second cut ratio

def areaAt (place : List (Frame ℚ)) : Area := place.foldl Frame.area .whole

/-! ## What a resize should do -/

/-- The split at a place has its divider on an edge of a Pane that lies before it. -/
structure Divides (layout : PaneLayout ℚ) (rect : PaneRect ℚ) (side : PaneDirection)
    (place : List (Frame ℚ)) (ratio : ℚ) (first second : PaneLayout ℚ) : Prop where
  cuts : layout = fill place (split side.axis ratio first second)
  near : rect.id ∈ (side.near first second).leaves
  edge : rect.edge side = (areaAt place).divider side.axis ratio

def HasDivider (layout : PaneLayout ℚ) (rect : PaneRect ℚ) (side : PaneDirection) : Prop :=
  ∃ place ratio first second, layout.Divides rect side place ratio first second

/-- The divider on the edge of a Pane is moved, and nothing else changes. -/
def MovesDivider (layout : PaneLayout ℚ) (rect : PaneRect ℚ) (side : PaneDirection) (move : ℚ)
    (next : PaneLayout ℚ) : Prop :=
  ∃ place ratio first second, layout.Divides rect side place ratio first second ∧
    next = fill place
      (split side.axis (max (1 / 10) (min (9 / 10) (ratio + move))) first second)

/-- The divider on the trailing edge moves by a step towards the direction, or the one on the
leading edge when there is no other. -/
def ResizesBy (layout : PaneLayout ℚ) (target : PaneId) (direction : PaneDirection) (step : ℚ)
    (next : PaneLayout ℚ) : Prop :=
  ∃ rect ∈ layout.paneRects, rect.id = target ∧
    (layout.HasDivider rect direction.boundaries.1 →
      layout.MovesDivider rect direction.boundaries.1 (direction.shift step) next) ∧
    (¬layout.HasDivider rect direction.boundaries.1 →
      layout.HasDivider rect direction.boundaries.2 →
        layout.MovesDivider rect direction.boundaries.2 (direction.shift step) next) ∧
    (¬layout.HasDivider rect direction.boundaries.1 →
      ¬layout.HasDivider rect direction.boundaries.2 → next = layout)

/-- The other Pane lies behind the divider on the edge. -/
def Behind (layout : PaneLayout ℚ) (rect : PaneRect ℚ) (side : PaneDirection)
    (other : PaneRect ℚ) : Prop :=
  ∃ place ratio first second, layout.Divides rect side place ratio first second ∧
    other.id ∈ (side.far first second).leaves

/-- The search on a side is not led past the divider there, nor anywhere when there is none. -/
def SeeksDivider (layout : PaneLayout ℚ) (rect : PaneRect ℚ) (side : PaneDirection) : Prop :=
  (layout.HasDivider rect side → layout.Leads rect side (layout.Behind rect side)) ∧
    (¬layout.HasDivider rect side → ∀ other ∈ layout.paneRects, ¬rect.Compares side other)

/-- No search of a resize is led astray. -/
def SeeksEdge (layout : PaneLayout ℚ) (target : PaneId) (direction : PaneDirection) : Prop :=
  ∃ rect ∈ layout.paneRects, rect.id = target ∧
    layout.SeeksDivider rect direction.boundaries.1 ∧
    (¬layout.HasDivider rect direction.boundaries.1 →
      layout.SeeksDivider rect direction.boundaries.2)

/-- At most one ratio changes, that of a split around the Pane, by a step and within its range. -/
def MovesOneRatio (layout : PaneLayout ℚ) (target : PaneId) (step : ℚ) (next : PaneLayout ℚ) :
    Prop :=
  next = layout ∨ ∃ place cut ratio first second move,
    layout = fill place (split cut ratio first second) ∧
    target ∈ (split cut ratio first second).leaves ∧ (move = step ∨ move = -step) ∧
    next = fill place (split cut (max (1 / 10) (min (9 / 10) (ratio + move))) first second)

/-! ## Areas -/

variable {layout first second : PaneLayout ℚ} {area : Area} {place : List (Frame ℚ)}
  {cut : SplitDirection} {ratio : ℚ} {rect other : PaneRect ℚ} {side : PaneDirection}

/-- The places of the Panes of a layout in an area. -/
def rectsAt (layout : PaneLayout ℚ) (area : Area) : List (PaneRect ℚ) :=
  layout.rectsIn area.left area.top area.right area.bottom

theorem rectsAt_split : (split cut ratio first second).rectsAt area =
    first.rectsAt (area.first cut ratio) ++ second.rectsAt (area.second cut ratio) := by
  cases cut with
  | horizontal => exact rectsIn_horizontal
  | vertical => exact rectsIn_vertical

theorem mem_rectsAt_plug {frame : Frame ℚ} (member : rect ∈ layout.rectsAt (frame.area area)) :
    rect ∈ (frame.plug layout).rectsAt area := by
  cases frame with
  | inFirst cut ratio second =>
      rw [Frame.plug, rectsAt_split]
      exact List.mem_append_left _ member
  | inSecond cut ratio first =>
      rw [Frame.plug, rectsAt_split]
      exact List.mem_append_right _ member

theorem mem_rectsAt_fill (member : rect ∈ layout.rectsAt (place.foldl Frame.area area)) :
    rect ∈ (fill place layout).rectsAt area := by
  induction place generalizing area with
  | nil => exact member
  | cons frame place induction => exact mem_rectsAt_plug (induction member)

/-- A Pane of what is at a place lies there in the whole layout. -/
theorem mem_paneRects_fill (member : rect ∈ layout.rectsAt (areaAt place)) :
    rect ∈ (fill place layout).paneRects :=
  mem_rectsAt_fill member

theorem ratios_plug {frame : Frame ℚ} (proper : area.Proper)
    (ratios : ∀ ratio ∈ (frame.plug layout).ratios, ratioInRange ratio = true) :
    (frame.area area).Proper ∧ ∀ ratio ∈ layout.ratios, ratioInRange ratio = true := by
  cases frame with
  | inFirst cut ratio second =>
      refine ⟨proper.first (ratios ratio (by simp [Frame.plug])), ?_⟩
      intro other member
      exact ratios other (by simp [Frame.plug, member])
  | inSecond cut ratio first =>
      refine ⟨proper.second (ratios ratio (by simp [Frame.plug])), ?_⟩
      intro other member
      exact ratios other (by simp [Frame.plug, member])

/-- The area at a place is a proper one, and so are the ratios there. -/
theorem ratios_fill (proper : area.Proper)
    (ratios : ∀ ratio ∈ (fill place layout).ratios, ratioInRange ratio = true) :
    (place.foldl Frame.area area).Proper ∧
      ∀ ratio ∈ layout.ratios, ratioInRange ratio = true := by
  induction place generalizing area with
  | nil => exact ⟨proper, ratios⟩
  | cons frame place induction =>
      rcases ratios_plug proper ratios with ⟨inner, innerRatios⟩
      exact induction inner innerRatios

theorem within_rectsAt (proper : area.Proper)
    (ratios : ∀ ratio ∈ layout.ratios, ratioInRange ratio = true)
    (member : rect ∈ layout.rectsAt area) (direction : PaneDirection) :
    (rect.along direction).Within (area.along direction) :=
  ((cuts_rectsIn direction ratios proper.wide proper.tall).within (proper.along direction)
    (List.mem_map_of_mem member)).2

/-- The two children of a split at a place, with a Pane in each. -/
structure Parts (layout : PaneLayout ℚ) (place : List (Frame ℚ)) (cut : SplitDirection) (ratio : ℚ)
    (first second : PaneLayout ℚ) (before behind : PaneId) : Prop where
  cuts : layout = fill place (split cut ratio first second)
  inFirst : before ∈ first.leaves
  inSecond : behind ∈ second.leaves

/-- Two Panes are parted by a split. -/
theorem exists_parts {one two : PaneId} (differ : one ≠ two) (oneMem : one ∈ layout.leaves)
    (twoMem : two ∈ layout.leaves) :
    ∃ place cut ratio first second, layout.Parts place cut ratio first second one two ∨
      layout.Parts place cut ratio first second two one := by
  induction layout with
  | pane id =>
      rw [leaves, List.mem_singleton] at oneMem twoMem
      exact absurd (oneMem.trans twoMem.symm) differ
  | split cut ratio first second ihFirst ihSecond =>
      rw [leaves, List.mem_append] at oneMem twoMem
      by_cases oneFirst : one ∈ first.leaves
      · by_cases twoFirst : two ∈ first.leaves
        · rcases ihFirst oneFirst twoFirst with ⟨place, cut', ratio', left, right, parts⟩
          refine ⟨.inFirst cut ratio second :: place, cut', ratio', left, right, ?_⟩
          exact parts.imp (fun is => ⟨by rw [is.cuts]; rfl, is.inFirst, is.inSecond⟩)
            (fun is => ⟨by rw [is.cuts]; rfl, is.inFirst, is.inSecond⟩)
        · exact ⟨[], cut, ratio, first, second,
            .inl ⟨rfl, oneFirst, twoMem.resolve_left twoFirst⟩⟩
      · have oneSecond := oneMem.resolve_left oneFirst
        by_cases twoFirst : two ∈ first.leaves
        · exact ⟨[], cut, ratio, first, second, .inr ⟨rfl, twoFirst, oneSecond⟩⟩
        · rcases ihSecond oneSecond (twoMem.resolve_left twoFirst)
            with ⟨place, cut', ratio', left, right, parts⟩
          refine ⟨.inSecond cut ratio first :: place, cut', ratio', left, right, ?_⟩
          exact parts.imp (fun is => ⟨by rw [is.cuts]; rfl, is.inFirst, is.inSecond⟩)
            (fun is => ⟨by rw [is.cuts]; rfl, is.inFirst, is.inSecond⟩)

theorem exists_rectAt {target : PaneId} (present : target ∈ layout.leaves) (area : Area) :
    ∃ rect ∈ layout.rectsAt area, rect.id = target := by
  have listed : target ∈ (layout.rectsAt area).map (·.id) := by
    rwa [rectsAt, rectsIn_ids]
  rcases List.mem_map.mp listed with ⟨rect, member, id⟩
  exact ⟨rect, member, id⟩

/-- Where the two Panes of a parting lie. -/
theorem Parts.within {before behind : PaneRect ℚ} (nodup : layout.leaves.Nodup)
    (ratios : ∀ ratio ∈ layout.ratios, ratioInRange ratio = true)
    (beforeMem : before ∈ layout.paneRects) (behindMem : behind ∈ layout.paneRects)
    (parts : layout.Parts place cut ratio first second before.id behind.id)
    (side : PaneDirection) :
    (before.along side).Within (((areaAt place).first cut ratio).along side) ∧
      (behind.along side).Within (((areaAt place).second cut ratio).along side) := by
  rcases parts with ⟨rfl, inFirst, inSecond⟩
  rcases ratios_fill Area.whole_proper ratios with ⟨proper, splitRatios⟩
  have inRange : ratioInRange ratio = true := splitRatios ratio (by simp)
  have firstRatios : ∀ other ∈ first.ratios, ratioInRange other = true := by
    intro other member
    exact splitRatios other (by simp [member])
  have secondRatios : ∀ other ∈ second.ratios, ratioInRange other = true := by
    intro other member
    exact splitRatios other (by simp [member])
  rcases exists_rectAt inFirst ((areaAt place).first cut ratio) with ⟨one, oneMem, oneId⟩
  rcases exists_rectAt inSecond ((areaAt place).second cut ratio) with ⟨two, twoMem, twoId⟩
  have one_in : one ∈ (fill place (split cut ratio first second)).paneRects := by
    apply mem_paneRects_fill
    rw [rectsAt_split]
    exact List.mem_append_left _ oneMem
  have two_in : two ∈ (fill place (split cut ratio first second)).paneRects := by
    apply mem_paneRects_fill
    rw [rectsAt_split]
    exact List.mem_append_right _ twoMem
  rw [mem_rects_unique nodup beforeMem one_in oneId.symm,
    mem_rects_unique nodup behindMem two_in twoId.symm]
  exact ⟨within_rectsAt (proper.first inRange) firstRatios oneMem side,
    within_rectsAt (proper.second inRange) secondRatios twoMem side⟩

/-! ## The divider on an edge -/

theorem near_stop_eq : ((side.near (area.first side.axis ratio)
    (area.second side.axis ratio)).along side).stop = side.shift (area.divider side.axis ratio) := by
  cases side <;> rfl

theorem far_start_eq : ((side.far (area.first side.axis ratio)
    (area.second side.axis ratio)).along side).start = side.shift (area.divider side.axis ratio) := by
  cases side <;> rfl

section Dividers

variable (nodup : layout.leaves.Nodup)
  (ratios : ∀ ratio ∈ layout.ratios, ratioInRange ratio = true)
  (member : rect ∈ layout.paneRects) (otherMem : other ∈ layout.paneRects)

include nodup ratios member otherMem

/-- Of two Panes that a split parts, one lies before the divider and one behind it. -/
theorem near_far_within (cuts : layout = fill place (split cut ratio first second))
    (near : rect.id ∈ (side.near first second).leaves)
    (far : other.id ∈ (side.far first second).leaves) :
    (rect.along side).Within ((side.near ((areaAt place).first cut ratio)
        ((areaAt place).second cut ratio)).along side) ∧
      (other.along side).Within ((side.far ((areaAt place).first cut ratio)
        ((areaAt place).second cut ratio)).along side) := by
  cases side with
  | left => exact (Parts.within nodup ratios otherMem member ⟨cuts, far, near⟩ .left).symm
  | right => exact Parts.within nodup ratios member otherMem ⟨cuts, near, far⟩ .right
  | up => exact (Parts.within nodup ratios otherMem member ⟨cuts, far, near⟩ .up).symm
  | down => exact Parts.within nodup ratios member otherMem ⟨cuts, near, far⟩ .down

theorem stop_le_divider_le_start
    (cuts : layout = fill place (split side.axis ratio first second))
    (near : rect.id ∈ (side.near first second).leaves)
    (far : other.id ∈ (side.far first second).leaves) :
    (rect.along side).stop ≤ side.shift ((areaAt place).divider side.axis ratio) ∧
      side.shift ((areaAt place).divider side.axis ratio) ≤ (other.along side).start := by
  rcases near_far_within nodup ratios member otherMem cuts near far with ⟨before, behind⟩
  have stops := before.stop
  have starts := behind.start
  rw [near_stop_eq] at stops
  rw [far_start_eq] at starts
  exact ⟨stops, starts⟩

/-- A Pane behind the divider on the edge starts no earlier than the edge. -/
theorem Behind.stop_le_start (behind : layout.Behind rect side other) :
    (rect.along side).stop ≤ (other.along side).start := by
  rcases behind with ⟨place, ratio, first, second, divides, far⟩
  rcases stop_le_divider_le_start nodup ratios member otherMem divides.cuts divides.near far
    with ⟨stops, starts⟩
  exact stops.trans starts

theorem compares_of_behind (behind : layout.Behind rect side other) :
    rect.Compares side other := by
  have starts := behind.stop_le_start nodup ratios member otherMem
  constructor
  · intro same
    have proper : (rect.along side).Proper := along_proper ratios member
    have long := proper.along
    rw [mem_rects_unique nodup otherMem member same] at starts
    linarith
  · rw [Ahead]
    linarith

end Dividers

/-- Behind every divider lies some Pane. -/
theorem hasDivider_iff : layout.HasDivider rect side ↔
    ∃ other ∈ layout.paneRects, layout.Behind rect side other := by
  constructor
  · rintro ⟨place, ratio, first, second, divides⟩
    rcases List.exists_mem_of_ne_nil _ (leaves_ne_nil (side.far first second)) with ⟨paneId, far⟩
    have inside : paneId ∈ (split side.axis ratio first second).leaves := by
      rw [leaves, List.mem_append]
      cases side with
      | left => exact .inl far
      | right => exact .inr far
      | up => exact .inl far
      | down => exact .inr far
    have present : paneId ∈ layout.leaves := by
      rw [divides.cuts]
      exact leaves_fill.mem_iff.mpr (List.mem_append_left _ inside)
    rcases exists_rect present with ⟨other, otherMem, rfl⟩
    exact ⟨other, otherMem, place, ratio, first, second, divides, far⟩
  · rintro ⟨other, -, place, ratio, first, second, divides, -⟩
    exact ⟨place, ratio, first, second, divides⟩

/-! ## One ratio -/

theorem validSplitRatio_rat (value : ℚ) :
    validSplitRatio value = max (1 / 10) (min (9 / 10) value) := by
  change (if decide (value < 1 / 10) = true then (1 / 10 : ℚ)
    else if decide (9 / 10 < value) = true then 9 / 10 else value) = _
  simp only [decide_eq_true_eq]
  split_ifs with below above
  · rw [min_eq_right (by linarith), max_eq_left (by linarith)]
  · rw [min_eq_left (by linarith), max_eq_right (by norm_num)]
  · rw [min_eq_right (by linarith), max_eq_right (by linarith)]

/-- A resize between two Panes goes on to the split that parts them. -/
theorem resizeBetween_fill {target neighbor : PaneId} {amount : ℚ} {inner : PaneLayout ℚ}
    (nodup : (fill place inner).leaves.Nodup) (targetMem : target ∈ inner.leaves)
    (neighborMem : neighbor ∈ inner.leaves) :
    (resizeBetween target neighbor amount (fill place inner)).2 =
      fill place (resizeBetween target neighbor amount inner).2 := by
  induction place with
  | nil => rfl
  | cons frame place induction =>
      have inside : ∀ id ∈ inner.leaves, id ∈ (fill place inner).leaves := by
        intro id member
        exact leaves_fill.mem_iff.mpr (List.mem_append_left _ member)
      cases frame with
      | inFirst cut ratio second =>
          have rest : (fill place inner).leaves.Nodup := (List.nodup_append.mp nodup).1
          have targetFirst := (containsPane_iff _ _).mpr (inside target targetMem)
          have neighborFirst := (containsPane_iff _ _).mpr (inside neighbor neighborMem)
          simp only [fill_cons, Frame.plug, resizeBetween, targetFirst, neighborFirst, ne_eq,
            not_true_eq_false, if_false, if_true, induction rest]
      | inSecond cut ratio first =>
          have split := List.nodup_append.mp nodup
          have apart : ∀ id ∈ inner.leaves, first.containsPane id = false := by
            intro id member
            rw [← Bool.not_eq_true, containsPane_iff]
            intro isFirst
            exact split.2.2 id isFirst id (inside id member) rfl
          simp only [fill_cons, Frame.plug, resizeBetween, apart target targetMem,
            apart neighbor neighborMem, ne_eq, not_true_eq_false, if_false, Bool.false_eq_true,
            induction split.2.1]

/-- A resize that leaves the ratio leaves the layout, and so sets the ratio all the same. -/
theorem snd_ite_eq (next : ℚ) :
    (if RatioNumber.eq next ratio = true then (false, split cut ratio first second)
      else (true, split cut next first second)).2 = split cut next first second := by
  by_cases same : RatioNumber.eq next ratio = true
  · rw [if_pos same, of_decide_eq_true same]
  · rw [if_neg same]

theorem resizeBetween_split {target neighbor : PaneId} {amount : ℚ}
    (differ : first.containsPane target ≠ first.containsPane neighbor) :
    (resizeBetween target neighbor amount (split cut ratio first second)).2 =
      split cut (validSplitRatio (ratio + if first.containsPane target then amount else -amount))
        first second := by
  rw [resizeBetween]
  dsimp only
  rw [if_pos differ]
  exact snd_ite_eq _

/-- The ratio of the split that parts two Panes grows with the first and shrinks with the second. -/
theorem resizeBetween_parts {one two : PaneId} {amount : ℚ} (nodup : layout.leaves.Nodup)
    (parts : layout.Parts place cut ratio first second one two) :
    (resizeBetween one two amount layout).2 =
        fill place (split cut (max (1 / 10) (min (9 / 10) (ratio + amount))) first second) ∧
      (resizeBetween two one amount layout).2 =
        fill place (split cut (max (1 / 10) (min (9 / 10) (ratio + -amount))) first second) := by
  rcases parts with ⟨rfl, inFirst, inSecond⟩
  have whole := leaves_fill.nodup_iff.mp nodup
  have children := List.nodup_append.mp (List.nodup_append.mp whole).1
  have oneFirst : first.containsPane one = true := (containsPane_iff _ _).mpr inFirst
  have twoFirst : first.containsPane two = false := by
    rw [← Bool.not_eq_true, containsPane_iff]
    intro isFirst
    exact children.2.2 two isFirst two inSecond rfl
  have oneMem : one ∈ (split cut ratio first second).leaves := List.mem_append_left _ inFirst
  have twoMem : two ∈ (split cut ratio first second).leaves := List.mem_append_right _ inSecond
  have differ : first.containsPane one ≠ first.containsPane two := by
    rw [oneFirst, twoFirst]
    exact Bool.noConfusion
  constructor
  · rw [resizeBetween_fill nodup oneMem twoMem, resizeBetween_split differ, oneFirst, if_pos rfl,
      validSplitRatio_rat]
  · rw [resizeBetween_fill nodup twoMem oneMem, resizeBetween_split differ.symm, twoFirst,
      if_neg Bool.false_ne_true, validSplitRatio_rat]

/-! ## The resize of a Pane -/

section Resize

variable {target neighbor : PaneId} {direction : PaneDirection} {amount step : ℚ}

/-- What a resize at a neighbor on a side leaves. -/
def resizedAt (layout : PaneLayout ℚ) (target neighbor : PaneId) (direction side : PaneDirection)
    (step : ℚ) : PaneLayout ℚ :=
  if direction = side then (layout.resizeBetween target neighbor step).2
  else (layout.resizeBetween neighbor target step).2

theorem literal_min_eq (amount : ℚ) :
    RatioNumber.min (RatioNumber.abs amount) (RatioNumber.literal (2 / 5)) = min |amount| (2 / 5) :=
  (min_def _ _).symm

theorem resizePane_of_trailing
    (found : layout.neighborPaneId target direction.boundaries.1 = some neighbor) :
    (layout.resizePane target direction amount).2 =
      layout.resizedAt target neighbor direction direction.boundaries.1 (min |amount| (2 / 5)) := by
  rw [← literal_min_eq, resizedAt, ← apply_ite Prod.snd]
  simp only [resizePane, found, decide_eq_true_eq]

theorem resizePane_of_leading
    (missing : layout.neighborPaneId target direction.boundaries.1 = none)
    (found : layout.neighborPaneId target direction.boundaries.2 = some neighbor) :
    (layout.resizePane target direction amount).2 =
      layout.resizedAt target neighbor direction direction.boundaries.2 (min |amount| (2 / 5)) := by
  rw [← literal_min_eq, resizedAt, ← apply_ite Prod.snd]
  simp only [resizePane, missing, found, Option.map_some, decide_eq_true_eq]

theorem resizePane_of_none
    (missing : layout.neighborPaneId target direction.boundaries.1 = none)
    (alone : layout.neighborPaneId target direction.boundaries.2 = none) :
    (layout.resizePane target direction amount).2 = layout := by
  simp only [resizePane, missing, alone, Option.map_none]

/-- At a neighbor behind the divider on a side, that divider moves. -/
theorem moves_resizedAt (nodup : layout.leaves.Nodup)
    (along : side = direction.boundaries.1 ∨ side = direction.boundaries.2)
    (behind : layout.Behind rect side other) :
    layout.MovesDivider rect side (direction.shift step)
      (layout.resizedAt rect.id other.id direction side step) := by
  rcases behind with ⟨place, ratio, first, second, divides, far⟩
  refine ⟨place, ratio, first, second, divides, ?_⟩
  have forward (side : PaneDirection) (before : layout.Parts place side.axis ratio first second
      rect.id other.id) := @resizeBetween_parts _ _ _ _ _ _ _ _ step nodup before
  have backward (side : PaneDirection) (before : layout.Parts place side.axis ratio first second
      other.id rect.id) := @resizeBetween_parts _ _ _ _ _ _ _ _ step nodup before
  rw [resizedAt]
  cases direction with
  | left =>
      rcases along with rfl | rfl
      · rw [if_neg (by decide)]
        exact (forward .right ⟨divides.cuts, divides.near, far⟩).2
      · rw [if_pos (by decide)]
        exact (backward .left ⟨divides.cuts, far, divides.near⟩).2
  | right =>
      rcases along with rfl | rfl
      · rw [if_pos (by decide)]
        exact (forward .right ⟨divides.cuts, divides.near, far⟩).1
      · rw [if_neg (by decide)]
        exact (backward .left ⟨divides.cuts, far, divides.near⟩).1
  | up =>
      rcases along with rfl | rfl
      · rw [if_neg (by decide)]
        exact (forward .down ⟨divides.cuts, divides.near, far⟩).2
      · rw [if_pos (by decide)]
        exact (backward .up ⟨divides.cuts, far, divides.near⟩).2
  | down =>
      rcases along with rfl | rfl
      · rw [if_pos (by decide)]
        exact (forward .down ⟨divides.cuts, divides.near, far⟩).1
      · rw [if_neg (by decide)]
        exact (backward .up ⟨divides.cuts, far, divides.near⟩).1

/-- A search that is not led astray finds a Pane behind the divider, or none without one. -/
theorem neighbor_of_seeks (nodup : layout.leaves.Nodup)
    (ratios : ∀ ratio ∈ layout.ratios, ratioInRange ratio = true)
    (member : rect ∈ layout.paneRects) (seeks : layout.SeeksDivider rect side) :
    (layout.HasDivider rect side → ∃ other ∈ layout.paneRects,
      layout.neighborPaneId rect.id side = some other.id ∧ layout.Behind rect side other) ∧
      (¬layout.HasDivider rect side → layout.neighborPaneId rect.id side = none) := by
  rcases seeks with ⟨leads, alone⟩
  constructor
  · intro divides
    apply (finds_kind_iff nodup member _ (hasDivider_iff.mp divides)).mpr (leads divides)
    intro other otherMem behind
    exact compares_of_behind nodup ratios member otherMem behind
  · intro none
    exact (neighborPaneId_eq_none nodup member).mpr (alone none)

/-- A resize whose searches are not led astray moves the divider on the Pane's own edge. -/
theorem resizesBy_resizePane (nodup : layout.leaves.Nodup)
    (ratios : ∀ ratio ∈ layout.ratios, ratioInRange ratio = true)
    (seeks : layout.SeeksEdge target direction) :
    layout.ResizesBy target direction (min |amount| (2 / 5))
      (layout.resizePane target direction amount).2 := by
  rcases seeks with ⟨rect, member, rfl, trailing, leading⟩
  rcases neighbor_of_seeks nodup ratios member trailing with ⟨trails, trailsNone⟩
  refine ⟨rect, member, rfl, ?_, ?_, ?_⟩
  · intro divides
    rcases trails divides with ⟨other, -, found, behind⟩
    rw [resizePane_of_trailing found]
    exact moves_resizedAt nodup (.inl rfl) behind
  · intro none divides
    rcases neighbor_of_seeks nodup ratios member (leading none) with ⟨leads, -⟩
    rcases leads divides with ⟨other, -, found, behind⟩
    rw [resizePane_of_leading (trailsNone none) found]
    exact moves_resizedAt nodup (.inr rfl) behind
  · intro none alone
    rcases neighbor_of_seeks nodup ratios member (leading none) with ⟨-, leadsNone⟩
    exact resizePane_of_none (trailsNone none) (leadsNone alone)

/-- Whichever neighbor is found, the ratio of one split changes at most. -/
theorem movesOneRatio_resizedAt (nodup : layout.leaves.Nodup) (targetMem : target ∈ layout.leaves)
    (neighborMem : neighbor ∈ layout.leaves) (differ : neighbor ≠ target) :
    layout.MovesOneRatio target step (layout.resizedAt target neighbor direction side step) := by
  rcases exists_parts differ.symm targetMem neighborMem
    with ⟨place, cut, ratio, first, second, parts | parts⟩
  · have inside : target ∈ (split cut ratio first second).leaves :=
      List.mem_append_left _ parts.inFirst
    have resizes := @resizeBetween_parts _ _ _ _ _ _ _ _ step nodup parts
    rw [resizedAt]
    split_ifs
    · exact .inr ⟨place, cut, ratio, first, second, step, parts.cuts, inside, .inl rfl, resizes.1⟩
    · exact .inr ⟨place, cut, ratio, first, second, -step, parts.cuts, inside, .inr rfl, resizes.2⟩
  · have inside : target ∈ (split cut ratio first second).leaves :=
      List.mem_append_right _ parts.inSecond
    have resizes := @resizeBetween_parts _ _ _ _ _ _ _ _ step nodup parts
    rw [resizedAt]
    split_ifs
    · exact .inr ⟨place, cut, ratio, first, second, -step, parts.cuts, inside, .inr rfl, resizes.2⟩
    · exact .inr ⟨place, cut, ratio, first, second, step, parts.cuts, inside, .inl rfl, resizes.1⟩

theorem movesOneRatio_resizePane (nodup : layout.leaves.Nodup) (present : target ∈ layout.leaves) :
    layout.MovesOneRatio target (min |amount| (2 / 5))
      (layout.resizePane target direction amount).2 := by
  cases trailing : layout.neighborPaneId target direction.boundaries.1 with
  | some neighbor =>
      rcases neighborPaneId_mem trailing with ⟨neighborMem, differ⟩
      rw [resizePane_of_trailing trailing]
      exact movesOneRatio_resizedAt nodup present neighborMem differ
  | none =>
      cases leading : layout.neighborPaneId target direction.boundaries.2 with
      | some neighbor =>
          rcases neighborPaneId_mem leading with ⟨neighborMem, differ⟩
          rw [resizePane_of_leading trailing leading]
          exact movesOneRatio_resizedAt nodup present neighborMem differ
      | none => exact .inl (resizePane_of_none trailing leading)

end Resize

end PaneLayout

/-! ## The Session around it -/

/-- A resize of a Pane changes the layout of its Tab as the layout alone would be changed, and
nothing else of the Session. -/
theorem Session.resizePane_spec (session : Session) (paneId : PaneId) (direction : PaneDirection)
    (amount : F32) :
    (∀ next, session.resizePane paneId direction amount = (false, next) → next = session) ∧
      ∀ next, session.resizePane paneId direction amount = (true, next) →
        ∃ workspaceIx tabIx paneIx workspace tab terminals pane layout,
          session.Located paneId workspaceIx tabIx paneIx workspace tab terminals pane ∧
          terminals.layout.resizePane paneId direction amount = (true, layout) ∧
          next = session.setTerminals workspaceIx tabIx { terminals with layout } := by
  constructor
  · intro next fails
    rw [Session.resizePane] at fails
    split_ifs at fails
    · exact (Prod.mk.inj fails).2.symm
    · exact Session.withTerminals_eq_false fails
  · intro next succeeds
    rw [Session.resizePane] at succeeds
    by_cases still : (!RatioNumber.isFinite amount ||
        RatioNumber.eq amount (RatioNumber.literal 0)) = true
    · rw [if_pos still] at succeeds
      cases succeeds
    rw [if_neg still] at succeeds
    rcases Session.withTerminals_eq_true succeeds with ⟨workspaceIx, tabIx, paneIx, workspace, tab,
      terminals, pane, changed, -, located, resized, rfl⟩
    cases outcome : terminals.layout.resizePane paneId direction amount with
    | mk done layout =>
        rw [outcome] at resized
        cases done with
        | false => cases resized
        | true =>
            cases Option.some.inj resized
            exact ⟨workspaceIx, tabIx, paneIx, workspace, tab, terminals, pane, layout, located,
              outcome, rfl⟩

/-- With exact ratios, a resize moves one divider next to the Pane's branch at most, by no more
than two fifths. It is the divider on the Pane's own edge, the trailing one first, when no search
is led past it. Nothing else of the Session changes. -/
theorem resize_pane_moves_divider :
    (∀ layout : PaneLayout ℚ, layout.leaves.Nodup →
      (∀ ratio ∈ layout.ratios, ratioInRange ratio = true) → ∀ target ∈ layout.leaves,
        ∀ (direction : PaneDirection) (amount : ℚ),
          layout.MovesOneRatio target (min |amount| (2 / 5))
            (layout.resizePane target direction amount).2 ∧
          (layout.SeeksEdge target direction →
            layout.ResizesBy target direction (min |amount| (2 / 5))
              (layout.resizePane target direction amount).2)) ∧
    ∀ (session : Session) (paneId : PaneId) (direction : PaneDirection) (amount : F32),
      (∀ next, session.resizePane paneId direction amount = (false, next) → next = session) ∧
      ∀ next, session.resizePane paneId direction amount = (true, next) →
        ∃ workspaceIx tabIx paneIx workspace tab terminals pane layout,
          session.Located paneId workspaceIx tabIx paneIx workspace tab terminals pane ∧
          terminals.layout.resizePane paneId direction amount = (true, layout) ∧
          next = session.setTerminals workspaceIx tabIx { terminals with layout } := by
  refine ⟨?_, Session.resizePane_spec⟩
  intro layout nodup ratios target present direction amount
  exact ⟨PaneLayout.movesOneRatio_resizePane nodup present,
    PaneLayout.resizesBy_resizePane nodup ratios⟩

namespace PaneLayout

/-! ## Two layouts -/

def twoColumns : PaneLayout ℚ := .split .horizontal (1 / 10) (.pane ⟨1⟩) (.pane ⟨2⟩)

/-- Two rows that are cut at the same place, with a thin Pane over the cut on the left. -/
def rowsLayout : PaneLayout ℚ :=
  .split .vertical (17 / 20)
    (.split .horizontal (1 / 2) (.split .vertical (9 / 10) (.pane ⟨1⟩) (.pane ⟨2⟩)) (.pane ⟨3⟩))
    (.split .horizontal (1 / 2) (.pane ⟨4⟩) (.pane ⟨5⟩))

theorem twoColumns_ratios : ∀ ratio ∈ twoColumns.ratios, ratioInRange ratio = true := by
  simp only [twoColumns, ratios, ratioInRange_rat]
  norm_num

theorem rowsLayout_ratios : ∀ ratio ∈ rowsLayout.ratios, ratioInRange ratio = true := by
  simp only [rowsLayout, ratios, ratioInRange_rat]
  norm_num

theorem resize_twoColumns (amount : ℚ) : (twoColumns.resizePane ⟨1⟩ .right amount).2 =
    .split .horizontal (max (1 / 10) (min (9 / 10) (1 / 10 + min |amount| (2 / 5))))
      (.pane ⟨1⟩) (.pane ⟨2⟩) := by
  have found : twoColumns.neighborPaneId ⟨1⟩ .right = some ⟨2⟩ := by
    decide +kernel
  have parts : twoColumns.Parts [] .horizontal (1 / 10) (.pane ⟨1⟩) (.pane ⟨2⟩) ⟨1⟩ ⟨2⟩ :=
    ⟨rfl, List.mem_singleton_self _, List.mem_singleton_self _⟩
  have trailing := @resizePane_of_trailing twoColumns ⟨1⟩ ⟨2⟩ .right amount found
  rw [trailing, resizedAt, if_pos (by decide), (resizeBetween_parts (by decide) parts).1]
  rfl

theorem resize_rowsLayout : (rowsLayout.resizePane ⟨2⟩ .right (1 / 10)).2 =
    .split .vertical (9 / 10)
      (.split .horizontal (1 / 2) (.split .vertical (9 / 10) (.pane ⟨1⟩) (.pane ⟨2⟩)) (.pane ⟨3⟩))
      (.split .horizontal (1 / 2) (.pane ⟨4⟩) (.pane ⟨5⟩)) := by
  have found : rowsLayout.neighborPaneId ⟨2⟩ .right = some ⟨5⟩ := by
    decide +kernel
  have parts : rowsLayout.Parts [] .vertical (17 / 20)
      (.split .horizontal (1 / 2) (.split .vertical (9 / 10) (.pane ⟨1⟩) (.pane ⟨2⟩)) (.pane ⟨3⟩))
      (.split .horizontal (1 / 2) (.pane ⟨4⟩) (.pane ⟨5⟩)) ⟨2⟩ ⟨5⟩ :=
    ⟨rfl, by decide, by decide⟩
  have trailing := @resizePane_of_trailing rowsLayout ⟨2⟩ ⟨5⟩ .right (1 / 10) found
  have ratio : max (1 / 10) (min (9 / 10) (17 / 20 + min |(1 / 10 : ℚ)| (2 / 5))) = 9 / 10 := by
    norm_num [abs_of_pos]
  rw [trailing, resizedAt, if_pos (by decide), (resizeBetween_parts (by decide) parts).1, ratio]
  rfl

theorem twoColumns_rects :
    twoColumns.paneRects = [⟨⟨1⟩, 0, 0, 1 / 10, 1⟩, ⟨⟨2⟩, 1 / 10, 0, 1, 1⟩] := by
  simp only [twoColumns, paneRects, rectsIn_horizontal]
  norm_num [rectsIn, collectPaneRects]

theorem rowsLayout_rects : rowsLayout.paneRects =
    [⟨⟨1⟩, 0, 0, 1 / 2, 153 / 200⟩, ⟨⟨2⟩, 0, 153 / 200, 1 / 2, 17 / 20⟩,
      ⟨⟨3⟩, 1 / 2, 0, 1, 17 / 20⟩, ⟨⟨4⟩, 0, 17 / 20, 1 / 2, 1⟩,
      ⟨⟨5⟩, 1 / 2, 17 / 20, 1, 1⟩] := by
  simp only [rowsLayout, paneRects, rectsIn_horizontal, rectsIn_vertical]
  norm_num [rectsIn, collectPaneRects]

theorem twoColumns_divides : twoColumns.Divides ⟨⟨1⟩, 0, 0, 1 / 10, 1⟩ .right [] (1 / 10)
    (.pane ⟨1⟩) (.pane ⟨2⟩) where
  cuts := rfl
  near := List.mem_singleton_self _
  edge := by norm_num [PaneRect.edge, areaAt, Area.whole, Area.divider, PaneDirection.axis]

theorem fill_split_ne_pane {paneId : PaneId} :
    fill place (split cut ratio first second) ≠ pane paneId := by
  cases place with
  | nil => exact nofun
  | cons frame place => cases frame <;> exact nofun

/-- A step of more than two fifths is cut short. -/
theorem not_resizesBy_twoColumns :
    ¬twoColumns.ResizesBy ⟨1⟩ .right (4 / 5) (twoColumns.resizePane ⟨1⟩ .right (4 / 5)).2 := by
  rintro ⟨rect, member, id, moves, -, -⟩
  have here := mem_rects_unique (by decide) member
    (show ⟨⟨1⟩, 0, 0, 1 / 10, 1⟩ ∈ twoColumns.paneRects by rw [twoColumns_rects]; simp) id
  subst here
  rcases moves ⟨[], 1 / 10, .pane ⟨1⟩, .pane ⟨2⟩, twoColumns_divides⟩
    with ⟨place, ratio, first, second, divides, next⟩
  rw [resize_twoColumns] at next
  have cuts := divides.cuts
  cases place with
  | nil =>
      rw [fill_nil, twoColumns, split.injEq] at cuts
      rw [fill_nil, split.injEq, ← cuts.2.1] at next
      have ratios := next.2.1
      norm_num [PaneDirection.shift, abs_of_pos] at ratios
  | cons frame place =>
      cases frame with
      | inFirst cut ratio second =>
          rw [fill_cons, Frame.plug, twoColumns, split.injEq] at cuts
          exact fill_split_ne_pane cuts.2.2.1.symm
      | inSecond cut ratio first =>
          rw [fill_cons, Frame.plug, twoColumns, split.injEq] at cuts
          exact fill_split_ne_pane cuts.2.2.2.symm

/-- The divider between two rows moves in place of the one between two columns. -/
theorem not_resizesBy_rowsLayout :
    ¬rowsLayout.ResizesBy ⟨2⟩ .right (1 / 10) (rowsLayout.resizePane ⟨2⟩ .right (1 / 10)).2 := by
  rintro ⟨rect, member, id, moves, -, -⟩
  have here := mem_rects_unique (by decide) member
    (show ⟨⟨2⟩, 0, 153 / 200, 1 / 2, 17 / 20⟩ ∈ rowsLayout.paneRects by
      rw [rowsLayout_rects]; simp) id
  subst here
  have divides : rowsLayout.HasDivider ⟨⟨2⟩, 0, 153 / 200, 1 / 2, 17 / 20⟩ .right := by
    refine ⟨[.inFirst .vertical (17 / 20) (.split .horizontal (1 / 2) (.pane ⟨4⟩) (.pane ⟨5⟩))],
      1 / 2, _, .pane ⟨3⟩, rfl, by decide, ?_⟩
    norm_num [PaneRect.edge, areaAt, Frame.area, Area.first, Area.whole, Area.divider,
      PaneDirection.axis]
  rcases moves divides with ⟨place, ratio, first, second, ⟨cuts, -, -⟩, next⟩
  rw [resize_rowsLayout] at next
  cases place with
  | nil =>
      rw [fill_nil, rowsLayout, split.injEq] at cuts
      cases cuts.1
  | cons frame place =>
      cases frame with
      | inFirst cut ratio second =>
          rw [fill_cons, Frame.plug, rowsLayout, split.injEq] at cuts
          rw [fill_cons, Frame.plug, split.injEq, ← cuts.2.1] at next
          norm_num at next
      | inSecond cut ratio first =>
          rw [fill_cons, Frame.plug, rowsLayout, split.injEq] at cuts
          rw [fill_cons, Frame.plug, split.injEq, ← cuts.2.1] at next
          norm_num at next

end PaneLayout

open PaneLayout in
/-- A large step is cut short, and a search may be led past the divider on the edge. -/
theorem resize_may_move_otherwise :
    (twoColumns.leaves.Nodup ∧ (∀ ratio ∈ twoColumns.ratios, ratioInRange ratio = true) ∧
      ⟨1⟩ ∈ twoColumns.leaves ∧
      ¬twoColumns.ResizesBy ⟨1⟩ .right (4 / 5) (twoColumns.resizePane ⟨1⟩ .right (4 / 5)).2) ∧
    (rowsLayout.leaves.Nodup ∧ (∀ ratio ∈ rowsLayout.ratios, ratioInRange ratio = true) ∧
      ⟨2⟩ ∈ rowsLayout.leaves ∧
      ¬rowsLayout.ResizesBy ⟨2⟩ .right (1 / 10)
        (rowsLayout.resizePane ⟨2⟩ .right (1 / 10)).2) :=
  ⟨⟨by decide, twoColumns_ratios, by decide, not_resizesBy_twoColumns⟩,
    ⟨by decide, rowsLayout_ratios, by decide, not_resizesBy_rowsLayout⟩⟩

namespace PaneLayout

/-- The divider between the columns of the upper row. -/
theorem rowsLayout_divides : rowsLayout.Divides ⟨⟨1⟩, 0, 0, 1 / 2, 153 / 200⟩ .right
    [.inFirst .vertical (17 / 20) (.split .horizontal (1 / 2) (.pane ⟨4⟩) (.pane ⟨5⟩))] (1 / 2)
    (.split .vertical (9 / 10) (.pane ⟨1⟩) (.pane ⟨2⟩)) (.pane ⟨3⟩) where
  cuts := rfl
  near := by decide
  edge := by
    norm_num [PaneRect.edge, areaAt, Frame.area, Area.first, Area.whole, Area.divider,
      PaneDirection.axis]

/-- The Pane beside is nearer than the one below it, which is no less ahead. -/
theorem rowsLayout_seeksEdge : rowsLayout.SeeksEdge ⟨1⟩ .right := by
  have divides : rowsLayout.HasDivider ⟨⟨1⟩, 0, 0, 1 / 2, 153 / 200⟩ .right :=
    ⟨_, _, _, _, rowsLayout_divides⟩
  refine ⟨⟨⟨1⟩, 0, 0, 1 / 2, 153 / 200⟩, by rw [rowsLayout_rects]; simp, rfl,
    ⟨fun _ => ?_, fun none => absurd divides none⟩, fun none => absurd divides none⟩
  intro rivalIx rival rivalAt compares apart
  have beside : rowsLayout.Behind ⟨⟨1⟩, 0, 0, 1 / 2, 153 / 200⟩ .right
      ⟨⟨3⟩, 1 / 2, 0, 1, 17 / 20⟩ :=
    ⟨_, _, _, _, rowsLayout_divides, List.mem_singleton_self _⟩
  refine ⟨2, ⟨⟨3⟩, 1 / 2, 0, 1, 17 / 20⟩, by rw [rowsLayout_rects]; rfl, beside, .inl ?_⟩
  have member := List.mem_of_getElem? rivalAt
  rw [rowsLayout_rects] at member
  simp only [List.mem_cons, List.not_mem_nil, or_false] at member
  rcases member with rfl | rfl | rfl | rfl | rfl
  · exact absurd rfl compares.1
  · exact absurd compares.2 (by decide +kernel)
  · exact absurd beside apart
  · exact absurd compares.2 (by decide +kernel)
  · decide +kernel

end PaneLayout

open PaneLayout in
theorem resize_pane_moves_divider_example :
    rowsLayout.MovesOneRatio ⟨1⟩ (min |1 / 10| (2 / 5))
        (rowsLayout.resizePane ⟨1⟩ .right (1 / 10)).2 ∧
      rowsLayout.ResizesBy ⟨1⟩ .right (min |1 / 10| (2 / 5))
        (rowsLayout.resizePane ⟨1⟩ .right (1 / 10)).2 := by
  have resizes := resize_pane_moves_divider.1 rowsLayout (by decide) rowsLayout_ratios ⟨1⟩
    (by decide) .right (1 / 10)
  exact ⟨resizes.1, resizes.2 rowsLayout_seeksEdge⟩

end Condr
