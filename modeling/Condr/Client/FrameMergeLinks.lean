import Condr.Client.FrameMergeLaw
import Condr.Terminal.LostLinks

/-!
# Links of merged frames

Merging looks at a link only to limit the merged frame, so it is followed on the texts of the
links. A merged frame does what its two frames do, but for links that the limits of one frame
have no room for.
-/

namespace Overlay

variable {α β : Type*} {change : α → β} {writes : List (ℕ × α)} {place : ℕ} {value : α}

theorem insert_map : (insert writes place value).map (Prod.map id change) =
    insert (writes.map (Prod.map id change)) place (change value) := by
  induction writes with
  | nil => rfl
  | cons head rest induction =>
      rcases head with ⟨other, held⟩
      simp only [insert, List.map_cons, Prod.map_apply, id_eq]
      split_ifs
      · rfl
      · rfl
      · rw [List.map_cons, induction]
        rfl

theorem collect_map :
    (collect writes).map (Prod.map id change) = collect (writes.map (Prod.map id change)) := by
  induction writes using List.reverseRecOn with
  | nil => rfl
  | append_singleton writes last induction =>
      rw [List.map_append, collect_append, collect_append, ← induction]
      exact insert_map

end Overlay

namespace Condr

open Budget

variable {Link Other : Type} {change : Link → Other}

/-! ## Merging with other links -/

theorem entries_map {run : TerminalCellRun Link} :
    (run.map change).entries = run.entries.map (Prod.map id (TerminalCell.map change)) := by
  simp only [TerminalCellRun.entries, Overlay.places, TerminalCellRun.map, List.map_map,
    List.zipIdx_map]
  rfl

theorem stop_map {run : TerminalCellRun Link} : (run.map change).stop = run.stop := by
  simp [TerminalCellRun.stop, TerminalCellRun.map]

theorem pushCell_map {runs : List (TerminalCellRun Link)} {entry : ℕ × TerminalCell Link} :
    (pushCell runs entry).map (TerminalCellRun.map change) =
      pushCell (runs.map (TerminalCellRun.map change))
        (Prod.map id (TerminalCell.map change) entry) := by
  rcases List.eq_nil_or_concat runs with rfl | ⟨front, last, rfl⟩
  · rfl
  · simp only [List.concat_eq_append, pushCell, List.map_append, List.map_cons, List.map_nil,
      List.getLast?_append, List.getLast?_singleton, Option.some_or, List.dropLast_concat,
      stop_map, Prod.map_fst, id_eq]
    split_ifs
    · simp [TerminalCellRun.map]
    · simp [TerminalCellRun.map]

theorem foldl_pushCell_map {writes : List (ℕ × TerminalCell Link)}
    {runs : List (TerminalCellRun Link)} :
    (writes.foldl pushCell runs).map (TerminalCellRun.map change) =
      (writes.map (Prod.map id (TerminalCell.map change))).foldl pushCell
        (runs.map (TerminalCellRun.map change)) := by
  induction writes generalizing runs with
  | nil => rfl
  | cons entry writes induction =>
      rw [List.foldl_cons, induction, pushCell_map]
      rfl

variable {previous next : TerminalViewDelta Link} {frame other : TerminalViewFrame Link}

theorem writes_map : (next.map change).writes =
    next.writes.map (Prod.map id (TerminalCell.map change)) := by
  simp only [TerminalViewDelta.writes, TerminalViewDelta.map, List.flatMap_map, List.map_flatMap,
    entries_map]

theorem mergedDelta_map :
    (mergedDelta previous next).map change = mergedDelta (previous.map change) (next.map change) := by
  have runs : (mergedDelta previous next).runs.map (TerminalCellRun.map change) =
      (mergedDelta (previous.map change) (next.map change)).runs := by
    rw [mergedDelta, mergedDelta, foldl_pushCell_map, Overlay.collect_map, List.map_append,
      writes_map, writes_map]
    rfl
  exact congrArg (TerminalViewDelta.mk _ _ _ _ _ _) runs

theorem checkTerminalDeltaMerge_map :
    checkTerminalDeltaMerge (previous.map change) (next.map change) =
      checkTerminalDeltaMerge previous next := by
  have empty : ∀ run : TerminalCellRun Link,
      (run.map change).cells.isEmpty = run.cells.isEmpty := by
    intro run
    simp [TerminalCellRun.map]
  have runs : (previous.map change).runs ++ (next.map change).runs =
      (previous.runs ++ next.runs).map (TerminalCellRun.map change) := List.map_append.symm
  have bad : (((previous.map change).runs ++ (next.map change).runs).any fun run =>
      run.cells.isEmpty || decide (2 ^ 32 ≤ run.stop)) =
        (previous.runs ++ next.runs).any fun run =>
          run.cells.isEmpty || decide (2 ^ 32 ≤ run.stop) := by
    rw [runs, List.any_map]
    congr 1
    funext run
    simp only [Function.comp_apply, empty, stop_map]
  rw [checkTerminalDeltaMerge, checkTerminalDeltaMerge, bad]
  rfl

theorem validateDelta_map {view : TerminalView Link} :
    (view.map change).validateDelta (next.map change) = view.validateDelta next :=
  validateDelta_congr rfl (List.length_map _) rfl rfl shape_map

theorem checkTerminalFrameMerge_map :
    checkTerminalFrameMerge (frame.map change) (other.map change) =
      checkTerminalFrameMerge frame other := by
  cases other with
  | full view => cases frame <;> rfl
  | delta update =>
      cases frame with
      | full whole =>
          simp only [TerminalViewFrame.map, checkTerminalFrameMerge, validateDelta_map]
      | delta base => exact checkTerminalDeltaMerge_map

theorem applyFrame_map {view : TerminalView Link} :
    (view.map change).applyFrame (frame.map change) =
      (view.applyFrame frame).map (TerminalView.map change) := by
  cases frame with
  | full whole => rfl
  | delta update =>
      simp only [TerminalViewFrame.map, TerminalView.applyFrame, TerminalView.validateFrame,
        validateDelta_map]
      cases view.validateDelta update with
      | error error => rfl
      | ok done => exact congrArg Except.ok map_applyValidatedDelta.symm

theorem composeTerminalFrames_map :
    composeTerminalFrames (frame.map change) (other.map change) =
      (composeTerminalFrames frame other).map (TerminalViewFrame.map change) := by
  cases accepts : checkTerminalFrameMerge frame other with
  | error error =>
      have rejects := composeTerminalFrames_of_error accepts
      rw [← @checkTerminalFrameMerge_map _ _ change] at accepts
      rw [rejects, composeTerminalFrames_of_error accepts]
      rfl
  | ok done =>
      cases other with
      | full whole => cases frame <;> rfl
      | delta update =>
          cases frame with
          | full whole =>
              have applied := @applyFrame_map _ _ change (.delta update) whole
              simp only [TerminalViewFrame.map] at applied ⊢
              simp only [composeTerminalFrames, applied]
              cases whole.applyFrame (.delta update) <;> rfl
          | delta base =>
              have mapped : checkTerminalDeltaMerge (base.map change) (update.map change) =
                  .ok () := by
                rw [checkTerminalDeltaMerge_map]
                exact accepts
              simp only [TerminalViewFrame.map]
              rw [composeTerminalFrames_deltas mapped, composeTerminalFrames_deltas accepts,
                ← mergedDelta_map]
              rfl

theorem addsLinks_map : (frame.map change).addsLinks = frame.addsLinks := by
  cases frame with
  | full whole => rfl
  | delta update =>
      simp only [TerminalViewFrame.map, TerminalViewFrame.addsLinks, TerminalViewDelta.cells,
        TerminalViewDelta.map, List.flatMap_map]
      have cells : (update.runs.flatMap fun run => (run.map change).cells) =
          (update.runs.flatMap TerminalCellRun.cells).map (TerminalCell.map change) := by
        rw [List.map_flatMap]
        rfl
      rw [cells, List.any_map]
      congr 1
      funext cell
      simp [TerminalCell.map]

/-! ## The merged frame by its texts -/

/-- The merged frame with the links that one frame has room for, where the later frame brings
links. -/
def mergedTexts (previous next : TerminalViewFrame String) :
    Except Unit (TerminalViewFrame String) :=
  (composeTerminalFrames previous next).map fun exact =>
    if next.addsLinks then settleFrame ∅ exact else exact

theorem mergeTerminalFrames_read (memory : Memory) (previous next : TerminalViewFrame SmolStr) :
    ∃ outcome, mergeTerminalFrames memory previous next = some outcome ∧
      outcome.map (TerminalViewFrame.read memory) =
        mergedTexts (previous.read memory) (next.read memory) := by
  simp only [mergedTexts, composeTerminalFrames_map, addsLinks_map, mergeTerminalFrames]
  cases composes : composeTerminalFrames previous next with
  | error error => exact ⟨.error (), rfl, rfl⟩
  | ok exact =>
      by_cases adds : next.addsLinks = true
      · rcases @TerminalViewFrame.normalizeHyperlinksForWire_spec memory exact
          with ⟨normalized, changed, runs, text, -⟩
        refine ⟨.ok normalized, by simp [adds, runs], ?_⟩
        simp only [adds, if_true]
        exact congrArg Except.ok text
      · exact ⟨.ok exact, by simp [adds], by simp only [adds]; rfl⟩

/-- Where the later frame is accepted the merge succeeds. -/
theorem mergeTerminalFrames_of_ok {memory : Memory} {previous next : TerminalViewFrame SmolStr}
    (accepts : checkTerminalFrameMerge previous next = .ok ()) :
    ∃ merged, mergeTerminalFrames memory previous next = some (.ok merged) ∧
      mergedTexts (previous.read memory) (next.read memory) = .ok (merged.read memory) := by
  rcases composeTerminalFrames_of_ok accepts with ⟨exact, composes⟩
  rcases mergeTerminalFrames_read memory previous next with ⟨outcome, runs, texts⟩
  cases outcome with
  | ok merged => exact ⟨merged, runs, texts.symm⟩
  | error error =>
      rw [mergedTexts, composeTerminalFrames_map, composes] at texts
      cases texts

/-! ## What the merged frame does -/

variable {view first second third : TerminalView String}
  {earlier later last merged : TerminalViewFrame String}

theorem mergedTexts_eq_ok (merges : mergedTexts earlier later = .ok merged) :
    ∃ exact, composeTerminalFrames earlier later = .ok exact ∧
      merged = (if later.addsLinks then settleFrame ∅ exact else exact) ∧
      merged.LosesLinks exact := by
  rw [mergedTexts] at merges
  cases composes : composeTerminalFrames earlier later with
  | error error =>
      rw [composes] at merges
      cases merges
  | ok exact =>
      rw [composes] at merges
      cases Except.ok.inj merges
      refine ⟨exact, rfl, rfl, ?_⟩
      split_ifs
      · exact settleFrame_losesLinks ∅ exact
      · exact .refl exact

theorem check_of_mergedTexts (merges : mergedTexts earlier later = .ok merged) :
    checkTerminalFrameMerge earlier later = .ok () := by
  rcases mergedTexts_eq_ok merges with ⟨exact, composes, -⟩
  cases accepts : checkTerminalFrameMerge earlier later with
  | ok done => rfl
  | error error =>
      rw [composeTerminalFrames_of_error accepts] at composes
      cases composes

/-- A merged frame leads to the view after its two frames, which may miss links. -/
theorem mergedTexts_law (applies : view.applyFrame earlier = .ok first)
    (laterApplies : first.applyFrame later = .ok second)
    (merges : mergedTexts earlier later = .ok merged) :
    ∃ result, view.applyFrame merged = .ok result ∧ result.LosesLinks second := by
  rcases mergedTexts_eq_ok merges with ⟨exact, composes, -, loses⟩
  rcases composeTerminalFrames_law applies laterApplies (check_of_mergedTexts merges)
    with ⟨same, composed, exactApplies⟩
  cases Except.ok.inj (composes.symm.trans composed)
  exact (TerminalView.LosesLinks.refl view).applyFrame loses exactApplies

/-! ## Links within the limits -/

/-- The distinct links that a frame brings. -/
def TerminalViewFrame.linkTexts : TerminalViewFrame String → Finset String
  | .full whole => Condr.linkTexts whole.cells
  | .delta update => Condr.linkTexts update.cells

theorem mem_linkTexts {cells : List (TerminalCell String)} {uri : String} :
    uri ∈ linkTexts cells ↔ ∃ cell ∈ cells, cell.hyperlink = some uri := by
  rw [linkTexts_eq, Multiset.mem_toFinset, linksOf, Multiset.mem_coe, List.mem_filterMap]

theorem cells_eq_writes {delta : TerminalViewDelta String} :
    delta.cells = delta.writes.map Prod.snd := by
  rw [TerminalViewDelta.cells, TerminalViewDelta.writes, List.map_flatMap]
  congr 1
  funext run
  rw [TerminalCellRun.entries, Overlay.places, List.map_map]
  exact (List.zipIdx_map_fst _ _).symm

theorem linkTexts_applyFrame (applies : view.applyFrame earlier = .ok first) :
    linkTexts first.cells ⊆ linkTexts view.cells ∪ earlier.linkTexts := by
  cases earlier with
  | full whole =>
      cases Except.ok.inj applies
      exact Finset.subset_union_right
  | delta update =>
      rcases applyFrame_delta_eq_ok.mp applies with ⟨valid, rfl⟩
      rw [linkTexts_applyValidatedDelta valid]
      apply Finset.union_subset_union_left
      have split := linksOf_drop (validateRuns_of_validateDelta valid)
      rw [List.drop_zero] at split
      rw [untouched, linkTexts_eq, linkTexts_eq, split, Multiset.toFinset_add]
      exact Finset.subset_union_right

theorem linkTexts_composeTerminalFrames
    (composes : composeTerminalFrames earlier later = .ok merged) :
    merged.linkTexts ⊆ earlier.linkTexts ∪ later.linkTexts := by
  cases later with
  | full whole =>
      rw [composeTerminalFrames_full] at composes
      cases Except.ok.inj composes
      exact Finset.subset_union_right
  | delta update =>
      cases earlier with
      | full whole =>
          rw [composeTerminalFrames] at composes
          cases applies : whole.applyFrame (.delta update) with
          | error error =>
              rw [applies] at composes
              cases composes
          | ok result =>
              rw [applies] at composes
              cases Except.ok.inj composes
              exact linkTexts_applyFrame applies
      | delta base =>
          cases accepts : checkTerminalDeltaMerge base update with
          | error error =>
              rw [@composeTerminalFrames_of_error _ (.delta base) (.delta update) accepts]
                at composes
              cases composes
          | ok done =>
              rw [composeTerminalFrames_deltas accepts] at composes
              cases Except.ok.inj composes
              rcases small_of_check accepts with ⟨small, smallNext⟩
              intro uri member
              rcases mem_linkTexts.mp member with ⟨cell, listed, holds⟩
              rw [cells_eq_writes, writes_mergedDelta small smallNext, List.mem_map] at listed
              rcases listed with ⟨entry, collected, rfl⟩
              rw [Finset.mem_union]
              rcases List.mem_append.mp (Overlay.mem_collect collected) with before | behind
              · exact Or.inl (mem_linkTexts.mpr
                  ⟨entry.2, cells_eq_writes ▸ List.mem_map_of_mem before, holds⟩)
              · exact Or.inr (mem_linkTexts.mpr
                  ⟨entry.2, cells_eq_writes ▸ List.mem_map_of_mem behind, holds⟩)

theorem settleFrame_of_within (within : Within hyperlinkLimits merged.linkTexts) :
    settleFrame ∅ merged = merged := by
  cases merged with
  | full whole =>
      apply congrArg TerminalViewFrame.full
      apply settleView_eq_self.mpr
      apply settleCells_of_within
      rwa [Finset.empty_union]
  | delta update =>
      apply congrArg TerminalViewFrame.delta
      apply settleDelta_eq_self.mpr
      apply settleCells_of_within
      rwa [Finset.empty_union]

/-- Where one frame has room for all links of two, none is lost. -/
theorem mergedTexts_of_within (within : Within hyperlinkLimits (earlier.linkTexts ∪ later.linkTexts)) :
    mergedTexts earlier later = composeTerminalFrames earlier later := by
  rw [mergedTexts]
  cases composes : composeTerminalFrames earlier later with
  | error error => rfl
  | ok exact =>
      have room := within.mono (linkTexts_composeTerminalFrames composes)
      simp only [Except.map, settleFrame_of_within room, ite_self]

end Condr
