import Condr.Session.Geometry

/-!
# Neighbors

The search for a neighbor takes the Pane with the least score ahead of an edge. A Pane that has
its edge in common is found when every other Pane ahead is more remote than one of those that do,
or as remote and later in the layout.
-/

namespace Condr

open Tiling

/-- The edge in a direction lies on the border of the Tab. -/
def PaneRect.OnBorder (direction : PaneDirection) (rect : PaneRect ℚ) : Prop :=
  (rect.along direction).stop = (tabAlong direction).stop

/-- The other Pane lies behind the edge in a direction, on a common piece of it. -/
def PaneRect.Borders (direction : PaneDirection) (rect other : PaneRect ℚ) : Prop :=
  (rect.along direction).Adjoins (other.along direction)

/-- The other Pane is one that the search in a direction compares. -/
def PaneRect.Compares (direction : PaneDirection) (rect other : PaneRect ℚ) : Prop :=
  other.id ≠ rect.id ∧ Ahead (rect.along direction) (other.along direction)

def PaneRect.remotenessOf (direction : PaneDirection) (rect other : PaneRect ℚ) : ℚ :=
  remoteness (rect.along direction) (other.along direction)

namespace PaneLayout

/-- The Pane that is found has a piece of the edge in common, and none is found at the border. -/
def FindsNeighbor (layout : PaneLayout ℚ) (target : PaneId) (direction : PaneDirection) : Prop :=
  ∃ rect ∈ layout.paneRects, rect.id = target ∧
    (layout.neighborPaneId target direction = none ↔ rect.OnBorder direction) ∧
    (¬rect.OnBorder direction → ∃ other ∈ layout.paneRects,
      layout.neighborPaneId target direction = some other.id ∧ rect.Borders direction other)

/-- No Pane is compared at the border. Before it, every Pane that is compared without a piece of
the edge is more remote than one with a piece, or as remote and later. -/
def Unrivalled (layout : PaneLayout ℚ) (target : PaneId) (direction : PaneDirection) : Prop :=
  ∃ rect ∈ layout.paneRects, rect.id = target ∧
    (rect.OnBorder direction → ∀ other ∈ layout.paneRects, ¬rect.Compares direction other) ∧
    (¬rect.OnBorder direction → ∀ (rivalIx : ℕ) (rival : PaneRect ℚ),
      layout.paneRects[rivalIx]? = some rival → rect.Compares direction rival →
      ¬rect.Borders direction rival →
        ∃ (otherIx : ℕ) (other : PaneRect ℚ), layout.paneRects[otherIx]? = some other ∧
          rect.Borders direction other ∧
          (rect.remotenessOf direction other < rect.remotenessOf direction rival ∨
            rect.remotenessOf direction other = rect.remotenessOf direction rival ∧
              otherIx < rivalIx))

/-- Every Pane that is compared and not of a kind is more remote than one of the kind, or as remote
and later. -/
def Leads (layout : PaneLayout ℚ) (rect : PaneRect ℚ) (direction : PaneDirection)
    (kind : PaneRect ℚ → Prop) : Prop :=
  ∀ (rivalIx : ℕ) (rival : PaneRect ℚ), layout.paneRects[rivalIx]? = some rival →
    rect.Compares direction rival → ¬kind rival →
      ∃ (otherIx : ℕ) (other : PaneRect ℚ), layout.paneRects[otherIx]? = some other ∧ kind other ∧
        (rect.remotenessOf direction other < rect.remotenessOf direction rival ∨
          rect.remotenessOf direction other = rect.remotenessOf direction rival ∧
            otherIx < rivalIx)

/-! ## The least score -/

theorem minByScore_split {scored : List (PaneId × ℚ)} {least : PaneId × ℚ}
    (found : minByScore scored = some least) :
    ∃ front back, scored = front ++ least :: back ∧ (∀ other ∈ front, least.2 < other.2) ∧
      ∀ other ∈ back, least.2 ≤ other.2 := by
  have folds : ∀ (rest front middle : List (PaneId × ℚ)) (kept : PaneId × ℚ),
      (∀ other ∈ front, kept.2 < other.2) → (∀ other ∈ middle, kept.2 ≤ other.2) →
      rest.foldl (fun least next => if RatioNumber.totalLe least.2 next.2 then least else next)
        kept = least →
      ∃ front' back, front ++ kept :: (middle ++ rest) = front' ++ least :: back ∧
        (∀ other ∈ front', least.2 < other.2) ∧ ∀ other ∈ back, least.2 ≤ other.2 := by
    intro rest
    induction rest with
    | nil =>
        intro front middle kept before after same
        rw [List.foldl_nil] at same
        subst same
        exact ⟨front, middle, by rw [List.append_nil], before, after⟩
    | cons next rest induction =>
        intro front middle kept before after same
        rw [List.foldl_cons] at same
        by_cases stays : kept.2 ≤ next.2
        · have keeps : RatioNumber.totalLe kept.2 next.2 = true := decide_eq_true stays
          rw [if_pos keeps] at same
          rcases induction front (middle ++ [next]) kept before (by
            intro other member
            rcases List.mem_append.mp member with inMiddle | inNext
            · exact after other inMiddle
            · rw [List.mem_singleton.mp inNext]
              exact stays) same with ⟨front', back, split, rest⟩
          exact ⟨front', back, by rw [← split]; simp, rest⟩
        · have changes : ¬RatioNumber.totalLe kept.2 next.2 = true := by
            intro keeps
            exact stays (of_decide_eq_true keeps)
          rw [if_neg changes] at same
          rw [not_le] at stays
          rcases induction (front ++ kept :: middle) [] next (by
            intro other member
            rcases List.mem_append.mp member with inFront | inRest
            · exact stays.trans (before other inFront)
            · rcases List.mem_cons.mp inRest with rfl | inMiddle
              · exact stays
              · exact stays.trans_le (after other inMiddle)) (by simp) same
            with ⟨front', back, split, rest⟩
          exact ⟨front', back, by rw [← split]; simp, rest⟩
  cases scored with
  | nil => cases found
  | cons head rest => exact folds rest [] [] head (by simp) (by simp) (Option.some.inj found)

theorem minByScore_eq_none {scored : List (PaneId × ℚ)} :
    minByScore scored = none ↔ scored = [] := by
  cases scored <;> simp [minByScore]

/-! ## What the search finds -/

variable {layout : PaneLayout ℚ} {target : PaneId} {direction : PaneDirection}
  {rect other : PaneRect ℚ}

theorem mem_rects_unique (nodup : layout.leaves.Nodup) (one : rect ∈ layout.paneRects)
    (two : other ∈ layout.paneRects) (same : rect.id = other.id) : rect = other := by
  have ids : (layout.paneRects.map (·.id)).Nodup := by
    rw [paneRects, rectsIn_ids]
    exact nodup
  exact List.inj_on_of_nodup_map ids one two same

open Classical in
/-- The Panes that are compared, with their scores. -/
noncomputable def compared (layout : PaneLayout ℚ) (rect : PaneRect ℚ)
    (direction : PaneDirection) : List (PaneId × ℚ) :=
  layout.paneRects.filterMap fun other =>
    if rect.Compares direction other then some (other.id, rect.remotenessOf direction other)
    else none

theorem neighborPaneId_eq (nodup : layout.leaves.Nodup) (member : rect ∈ layout.paneRects) :
    layout.neighborPaneId rect.id direction =
      (minByScore (layout.compared rect direction)).map Prod.fst := by
  have found : layout.paneRects.find? (fun other => other.id = rect.id) = some rect := by
    have isSome : (layout.paneRects.find? fun other => other.id = rect.id).isSome = true :=
      List.find?_isSome.mpr ⟨rect, member, decide_eq_true rfl⟩
    rcases Option.isSome_iff_exists.mp isSome with ⟨other, otherFound⟩
    have same : other.id = rect.id := by simpa using List.find?_some otherFound
    rw [otherFound, mem_rects_unique nodup (List.mem_of_find?_eq_some otherFound) member same]
  have scores : (layout.paneRects.filterMap fun candidate =>
      if candidate.id = rect.id then none
      else (directionalScore rect candidate direction).map (candidate.id, ·)) =
        layout.compared rect direction := by
    apply List.filterMap_congr
    intro candidate _
    rw [directionalScore_eq]
    by_cases same : candidate.id = rect.id
    · rw [if_pos same, if_neg (fun compares => compares.1 same)]
    · by_cases ahead : Ahead (rect.along direction) (candidate.along direction)
      · rw [if_neg same, if_pos ahead, if_pos ⟨same, ahead⟩]
        rfl
      · rw [if_neg same, if_neg ahead, if_neg (fun compares => ahead compares.2)]
        rfl
  change (layout.paneRects.find? fun other => other.id = rect.id).bind _ = _
  rw [found, ← scores]
  rfl

theorem neighborPaneId_eq_none (nodup : layout.leaves.Nodup) (member : rect ∈ layout.paneRects) :
    layout.neighborPaneId rect.id direction = none ↔
      ∀ other ∈ layout.paneRects, ¬rect.Compares direction other := by
  rw [neighborPaneId_eq nodup member, Option.map_eq_none_iff, minByScore_eq_none, compared,
    List.filterMap_eq_nil_iff]
  simp

/-- The Pane that is found is the first of the least remote ones. -/
theorem neighborPaneId_eq_some {neighbor : PaneId} (nodup : layout.leaves.Nodup)
    (member : rect ∈ layout.paneRects)
    (found : layout.neighborPaneId rect.id direction = some neighbor) :
    ∃ (otherIx : ℕ) (other : PaneRect ℚ), layout.paneRects[otherIx]? = some other ∧
      other.id = neighbor ∧ rect.Compares direction other ∧
      ∀ (rivalIx : ℕ) (rival : PaneRect ℚ), layout.paneRects[rivalIx]? = some rival →
        rect.Compares direction rival →
          rect.remotenessOf direction other ≤ rect.remotenessOf direction rival ∧
            (rivalIx < otherIx →
              rect.remotenessOf direction other < rect.remotenessOf direction rival) := by
  rw [neighborPaneId_eq nodup member, Option.map_eq_some_iff] at found
  rcases found with ⟨least, leastFound, rfl⟩
  rcases minByScore_split leastFound with ⟨front, back, split, before, after⟩
  rw [compared, List.filterMap_eq_append_iff] at split
  rcases split with ⟨frontRects, rest, rects, frontEq, restEq⟩
  rw [List.filterMap_eq_cons_iff] at restEq
  rcases restEq with ⟨skipped, other, backRects, restRects, skips, otherEq, backEq⟩
  rw [Option.ite_none_right_eq_some] at otherEq
  rcases otherEq with ⟨compares, scored⟩
  cases Option.some.inj scored
  have place : layout.paneRects = (frontRects ++ skipped) ++ other :: backRects := by
    rw [rects, restRects, List.append_assoc]
  refine ⟨(frontRects ++ skipped).length, other, by rw [place]; simp, rfl, compares, ?_⟩
  intro rivalIx rival rivalAt rivalCompares
  have scoresRival : ∀ list : List (PaneRect ℚ), rival ∈ list →
      (rival.id, rect.remotenessOf direction rival) ∈ list.filterMap fun other =>
        open Classical in if rect.Compares direction other then
          some (other.id, rect.remotenessOf direction other) else none := by
    intro list inList
    exact List.mem_filterMap.mpr ⟨rival, inList, if_pos rivalCompares⟩
  have earlier : rivalIx < (frontRects ++ skipped).length →
      rect.remotenessOf direction other < rect.remotenessOf direction rival := by
    intro isEarlier
    rw [place, List.getElem?_append_left isEarlier] at rivalAt
    rcases List.mem_append.mp (List.mem_of_getElem? rivalAt) with inFront | inSkipped
    · exact before _ (frontEq ▸ scoresRival frontRects inFront)
    · have none := skips rival inSkipped
      rw [if_pos rivalCompares] at none
      cases none
  refine ⟨?_, earlier⟩
  by_cases isEarlier : rivalIx < (frontRects ++ skipped).length
  · exact (earlier isEarlier).le
  · rw [place, List.getElem?_append_right (not_lt.mp isEarlier)] at rivalAt
    rcases List.mem_cons.mp (List.mem_of_getElem? rivalAt) with rfl | inBack
    · exact le_rfl
    · exact after _ (backEq ▸ scoresRival backRects inBack)

/-- Where some Panes of a kind are compared, one of them is found exactly when the kind leads. -/
theorem finds_kind_iff {kind : PaneRect ℚ → Prop} (nodup : layout.leaves.Nodup)
    (member : rect ∈ layout.paneRects)
    (compares : ∀ other ∈ layout.paneRects, kind other → rect.Compares direction other)
    (some_kind : ∃ other ∈ layout.paneRects, kind other) :
    (∃ other ∈ layout.paneRects,
      layout.neighborPaneId rect.id direction = some other.id ∧ kind other) ↔
      layout.Leads rect direction kind := by
  constructor
  · rintro ⟨other, otherMem, found, isKind⟩ rivalIx rival rivalAt rivalCompares apart
    rcases neighborPaneId_eq_some nodup member found
      with ⟨otherIx, nearest, nearestAt, id, -, least⟩
    have same := mem_rects_unique nodup (List.mem_of_getElem? nearestAt) otherMem id
    subst same
    rcases least rivalIx rival rivalAt rivalCompares with ⟨near, earlier⟩
    refine ⟨otherIx, nearest, nearestAt, isKind, ?_⟩
    rcases near.lt_or_eq with nearer | even
    · exact .inl nearer
    · refine .inr ⟨even, ?_⟩
      by_contra later
      rcases Nat.lt_or_eq_of_le (not_lt.mp later) with before | here
      · exact absurd even (earlier before).ne
      · subst here
        rw [nearestAt, Option.some.injEq] at rivalAt
        exact apart (rivalAt ▸ isKind)
  · intro leads
    rcases some_kind with ⟨any, anyMem, anyKind⟩
    have exists_found : layout.neighborPaneId rect.id direction ≠ none := by
      intro missing
      exact (neighborPaneId_eq_none nodup member).mp missing any anyMem (compares any anyMem anyKind)
    rcases Option.ne_none_iff_exists'.mp exists_found with ⟨neighbor, found⟩
    rcases neighborPaneId_eq_some nodup member found
      with ⟨otherIx, other, otherAt, rfl, otherCompares, least⟩
    refine ⟨other, List.mem_of_getElem? otherAt, found, ?_⟩
    by_contra apart
    rcases leads otherIx other otherAt otherCompares apart
      with ⟨nearIx, near, nearAt, nearKind, nearer⟩
    have nearCompares := compares near (List.mem_of_getElem? nearAt) nearKind
    rcases least nearIx near nearAt nearCompares with ⟨atMost, earlier⟩
    rcases nearer with nearer | ⟨even, before⟩
    · exact absurd nearer (not_lt.mpr atMost)
    · exact absurd even.symm (earlier before).ne

/-! ## Behind the edge -/

theorem exists_rect (present : target ∈ layout.leaves) :
    ∃ rect ∈ layout.paneRects, rect.id = target := by
  have listed : target ∈ layout.paneRects.map (·.id) := by
    rwa [paneRects, rectsIn_ids]
  rcases List.mem_map.mp listed with ⟨rect, member, id⟩
  exact ⟨rect, member, id⟩

theorem cuts_paneRects (ratios : ∀ ratio ∈ layout.ratios, ratioInRange ratio = true)
    (direction : PaneDirection) :
    Cuts (tabAlong direction) (layout.paneRects.map (PaneRect.along direction)) :=
  cuts_rectsIn direction ratios one_pos one_pos

theorem tabAlong_proper (direction : PaneDirection) : (tabAlong direction).Proper := by
  cases direction <;> constructor <;> norm_num [tabAlong, boxAlong]

theorem along_proper (ratios : ∀ ratio ∈ layout.ratios, ratioInRange ratio = true)
    (member : rect ∈ layout.paneRects) : (rect.along direction).Proper :=
  ((cuts_paneRects ratios direction).within (tabAlong_proper direction)
    (List.mem_map_of_mem member)).1

/-- A Pane that shares a piece of the edge is compared. -/
theorem compares_of_borders (ratios : ∀ ratio ∈ layout.ratios, ratioInRange ratio = true)
    (nodup : layout.leaves.Nodup) (member : rect ∈ layout.paneRects)
    (otherMem : other ∈ layout.paneRects) (borders : rect.Borders direction other) :
    rect.Compares direction other := by
  constructor
  · intro same
    have here := mem_rects_unique nodup otherMem member same
    have proper : (rect.along direction).Proper := along_proper ratios member
    have long := proper.along
    have starts := borders.1
    rw [here] at starts
    linarith
  · rw [Ahead, borders.1]
    norm_num

/-- Off the border, some Pane shares a piece of the edge. -/
theorem exists_borders (ratios : ∀ ratio ∈ layout.ratios, ratioInRange ratio = true)
    (member : rect ∈ layout.paneRects) (inside : ¬rect.OnBorder direction) :
    ∃ other ∈ layout.paneRects, rect.Borders direction other := by
  rcases (cuts_paneRects ratios direction).exists_adjoining (tabAlong_proper direction)
    (List.mem_map_of_mem member) with reaches | ⟨box, boxMem, adjoins⟩
  · exact absurd reaches inside
  · rcases List.mem_map.mp boxMem with ⟨other, otherMem, rfl⟩
    exact ⟨other, otherMem, adjoins⟩

/-- The search finds a Pane behind a common piece of the edge, and none at the border, exactly
when nothing is compared at the border and no Pane elsewhere rivals those behind the edge. -/
theorem finds_neighbor_iff (nodup : layout.leaves.Nodup)
    (ratios : ∀ ratio ∈ layout.ratios, ratioInRange ratio = true)
    (present : target ∈ layout.leaves) (direction : PaneDirection) :
    layout.FindsNeighbor target direction ↔ layout.Unrivalled target direction := by
  have finds : ∀ rect ∈ layout.paneRects, ¬rect.OnBorder direction →
      ((∃ other ∈ layout.paneRects, layout.neighborPaneId rect.id direction = some other.id ∧
        rect.Borders direction other) ↔
        layout.Leads rect direction (rect.Borders direction)) := by
    intro rect member inside
    exact finds_kind_iff nodup member
      (fun other otherMem borders => compares_of_borders ratios nodup member otherMem borders)
      (exists_borders ratios member inside)
  constructor
  · rintro ⟨rect, member, rfl, none, found⟩
    refine ⟨rect, member, rfl, ?_, ?_⟩
    · intro border
      exact (neighborPaneId_eq_none nodup member).mp (none.mpr border)
    · intro inside
      exact (finds rect member inside).mp (found inside)
  · rintro ⟨rect, member, rfl, alone, unrivalled⟩
    refine ⟨rect, member, rfl, ?_, ?_⟩
    · rw [neighborPaneId_eq_none nodup member]
      constructor
      · intro nothing
        by_contra inside
        rcases exists_borders ratios member inside with ⟨other, otherMem, borders⟩
        exact nothing other otherMem (compares_of_borders ratios nodup member otherMem borders)
      · exact alone
    · intro inside
      exact (finds rect member inside).mpr (unrivalled inside)

/-- Two columns that are cut at the same height, with a thin Pane over the cut on the left. -/
def cornerLayout : PaneLayout ℚ :=
  .split .horizontal (1 / 2)
    (.split .vertical (17 / 20) (.split .vertical (9 / 10) (.pane ⟨1⟩) (.pane ⟨2⟩)) (.pane ⟨3⟩))
    (.split .vertical (17 / 20) (.pane ⟨4⟩) (.pane ⟨5⟩))

theorem cornerLayout_ratios : ∀ ratio ∈ cornerLayout.ratios, ratioInRange ratio = true := by
  simp only [cornerLayout, ratios, ratioInRange_rat]
  norm_num

theorem finds_neighbor_iff_example :
    cornerLayout.FindsNeighbor ⟨2⟩ .left ↔ cornerLayout.Unrivalled ⟨2⟩ .left :=
  finds_neighbor_iff (by decide) cornerLayout_ratios (by decide) .left

theorem cornerLayout_rects : cornerLayout.paneRects =
    [⟨⟨1⟩, 0, 0, 1 / 2, 153 / 200⟩, ⟨⟨2⟩, 0, 153 / 200, 1 / 2, 17 / 20⟩,
      ⟨⟨3⟩, 0, 17 / 20, 1 / 2, 1⟩, ⟨⟨4⟩, 1 / 2, 0, 1, 17 / 20⟩,
      ⟨⟨5⟩, 1 / 2, 17 / 20, 1, 1⟩] := by
  simp only [cornerLayout, paneRects, rectsIn_horizontal, rectsIn_vertical]
  norm_num [rectsIn, collectPaneRects]

/-- To the right of the thin Pane, the one that touches its corner is found. -/
theorem neighbor_may_touch_corner :
    cornerLayout.leaves.Nodup ∧ (∀ ratio ∈ cornerLayout.ratios, ratioInRange ratio = true) ∧
      ⟨2⟩ ∈ cornerLayout.leaves ∧ cornerLayout.neighborPaneId ⟨2⟩ .right = some ⟨5⟩ ∧
      ¬cornerLayout.FindsNeighbor ⟨2⟩ .right := by
  have found : cornerLayout.neighborPaneId ⟨2⟩ .right = some ⟨5⟩ := by
    decide +kernel
  refine ⟨by decide, cornerLayout_ratios, by decide, found, ?_⟩
  rintro ⟨rect, member, id, -, finds⟩
  rw [cornerLayout_rects] at member finds
  have here : rect = ⟨⟨2⟩, 0, 153 / 200, 1 / 2, 17 / 20⟩ := by
    simp only [List.mem_cons, List.not_mem_nil, or_false] at member
    rcases member with rfl | rfl | rfl | rfl | rfl
    · exact absurd id (by decide)
    · rfl
    · exact absurd id (by decide)
    · exact absurd id (by decide)
    · exact absurd id (by decide)
  subst here
  have inside : ¬PaneRect.OnBorder .right ⟨⟨2⟩, 0, 153 / 200, 1 / 2, 17 / 20⟩ := by
    norm_num [PaneRect.OnBorder, PaneRect.along, boxAlong, tabAlong]
  rcases finds inside with ⟨other, otherMem, same, borders⟩
  rw [found, Option.some.injEq] at same
  have there : other = ⟨⟨5⟩, 1 / 2, 17 / 20, 1, 1⟩ := by
    simp only [List.mem_cons, List.not_mem_nil, or_false] at otherMem
    rcases otherMem with rfl | rfl | rfl | rfl | rfl
    · exact absurd same (by decide)
    · exact absurd same (by decide)
    · exact absurd same (by decide)
    · exact absurd same (by decide)
    · rfl
  subst there
  have common := borders.2
  norm_num [PaneRect.along, boxAlong, Box.Overlaps] at common

end PaneLayout

end Condr
