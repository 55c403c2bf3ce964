import Condr.Terminal.HyperlinkAccounts
import Mathlib.Tactic.Abel

/-!
# A budget follows its view

Starting a budget for a view, and applying a delta to both, leaves the budget that of the
view's links, and never finds a link to release that has no reference. What stays of a
frame's links is decided by the texts of the links that the frame does not replace.
-/

namespace Condr

open Budget

/-! ## The cells outside of runs -/

section Runs

variable {Link Other : Type} {runs others : List (TerminalCellRun Link)} {previousEnd count : ℕ}

/-- The links of cells, each as often as it occurs. -/
def linksOf (cells : List (TerminalCell Link)) : Multiset Link :=
  cells.filterMap TerminalCell.hyperlink

@[simp] theorem linksOf_nil : linksOf ([] : List (TerminalCell Link)) = 0 := rfl

@[simp] theorem linksOf_append (front back : List (TerminalCell Link)) :
    linksOf (front ++ back) = linksOf front + linksOf back := by
  rw [linksOf, List.filterMap_append, ← Multiset.coe_add, linksOf, linksOf]

theorem linksOf_cons_none {cell : TerminalCell Link} {cells : List (TerminalCell Link)}
    (plain : cell.hyperlink = none) : linksOf (cell :: cells) = linksOf cells := by
  rw [linksOf, List.filterMap_cons_none plain, linksOf]

theorem linksOf_cons_some {cell : TerminalCell Link} {cells : List (TerminalCell Link)}
    {link : Link} (links : cell.hyperlink = some link) :
    linksOf (cell :: cells) = link ::ₘ linksOf cells := by
  rw [linksOf, List.filterMap_cons_some links, linksOf, Multiset.cons_coe]

theorem linksOf_map (change : Link → Other) (cells : List (TerminalCell Link)) :
    linksOf (cells.map (TerminalCell.map change)) = (linksOf cells).map change := by
  simp only [linksOf, Multiset.map_coe, List.filterMap_map, List.map_filterMap]
  rfl

/-- Of the cells behind an index, those that no run replaces. -/
def outside : ℕ → List (TerminalCellRun Link) → List (TerminalCell Other) →
    List (TerminalCell Other)
  | _, [], cells => cells
  | previousEnd, run :: runs, cells =>
      cells.take (run.start.toNat - previousEnd) ++
        outside run.stop runs (cells.drop (run.stop - previousEnd))

theorem validateRuns_cons {run : TerminalCellRun Link}
    (valid : validateRuns count previousEnd (run :: runs) = .ok ()) :
    previousEnd ≤ run.start.toNat ∧ run.stop ≤ count ∧
      validateRuns count run.stop runs = .ok () := by
  rw [validateRuns] at valid
  split_ifs at valid with far bad
  simp only [Bool.or_eq_true, decide_eq_true_eq, not_or, Nat.not_lt] at bad
  exact ⟨bad.2, Nat.le_of_not_lt far, valid⟩

theorem drop_drop_of_le {cells : List (TerminalCell Other)} {stop : ℕ}
    (reach : previousEnd ≤ stop) :
    (cells.drop previousEnd).drop (stop - previousEnd) = cells.drop stop := by
  rw [List.drop_drop]
  congr 1
  omega

/-- The cells behind an index, around one run. -/
theorem drop_around {run : TerminalCellRun Link} {cells : List (TerminalCell Other)}
    (apart : previousEnd ≤ run.start.toNat) :
    cells.drop previousEnd = (cells.drop previousEnd).take (run.start.toNat - previousEnd) ++
      (run.replaced cells ++ cells.drop run.stop) := by
  rw [TerminalCellRun.replaced, TerminalCellRun.stop, ← List.drop_drop, List.take_append_drop,
    ← drop_drop_of_le apart, List.take_append_drop]

/-- Runs in order split the cells into those they replace and the others. -/
theorem linksOf_drop {cells : List (TerminalCell Other)}
    (valid : validateRuns cells.length previousEnd runs = .ok ()) :
    linksOf (cells.drop previousEnd) =
      linksOf (runs.flatMap fun run => run.replaced cells) +
        linksOf (outside previousEnd runs (cells.drop previousEnd)) := by
  induction runs generalizing previousEnd with
  | nil => simp [outside]
  | cons run runs induction =>
      rcases validateRuns_cons valid with ⟨apart, -, later⟩
      have reach : previousEnd ≤ run.stop := apart.trans (Nat.le_add_right _ _)
      rw [outside, drop_drop_of_le reach, List.flatMap_cons, linksOf_append, linksOf_append]
      conv_lhs => rw [drop_around apart, linksOf_append, linksOf_append, induction later]
      abel

theorem length_apply {run : TerminalCellRun Link} {cells : List (TerminalCell Link)}
    (inside : run.stop ≤ cells.length) : (run.apply cells).length = cells.length := by
  simp only [TerminalCellRun.stop] at inside
  simp only [TerminalCellRun.apply, TerminalCellRun.stop, List.length_append, List.length_take,
    List.length_drop]
  omega

/-- Applied runs in order stand in for the cells they replace. -/
theorem linksOf_foldl_apply {cells : List (TerminalCell Link)}
    (valid : validateRuns cells.length previousEnd runs = .ok ()) :
    (runs.foldl (fun cells run => run.apply cells) cells).take previousEnd =
        cells.take previousEnd ∧
      linksOf ((runs.foldl (fun cells run => run.apply cells) cells).drop previousEnd) =
        linksOf (runs.flatMap TerminalCellRun.cells) +
          linksOf (outside previousEnd runs (cells.drop previousEnd)) := by
  induction runs generalizing previousEnd cells with
  | nil => simp [outside]
  | cons run runs induction =>
      rcases validateRuns_cons valid with ⟨apart, inside, later⟩
      have reach : previousEnd ≤ run.stop := apart.trans (Nat.le_add_right _ _)
      have fits : run.start.toNat ≤ cells.length := (Nat.le_add_right _ _).trans inside
      rw [← length_apply inside] at later
      rcases induction later with ⟨front, back⟩
      have applied : run.apply cells =
          cells.take run.start.toNat ++ run.cells ++ cells.drop run.stop := rfl
      have length : (cells.take run.start.toNat ++ run.cells).length = run.stop := by
        simp [TerminalCellRun.stop, fits]
      have applyTake : (run.apply cells).take run.stop =
          cells.take run.start.toNat ++ run.cells := by
        rw [applied, ← length, List.take_left]
      have applyDrop : (run.apply cells).drop run.stop = cells.drop run.stop := by
        rw [applied, ← length, List.drop_left, length]
      rw [List.foldl_cons]
      set last := runs.foldl (fun cells run => run.apply cells) (run.apply cells)
      have split : last = cells.take run.start.toNat ++ run.cells ++ last.drop run.stop := by
        rw [← applyTake, ← front, List.take_append_drop]
      have atStart : (cells.take run.start.toNat).length = run.start.toNat := by simp [fits]
      constructor
      · rw [split, List.append_assoc, List.take_append_of_le_length (by omega), List.take_take,
          Nat.min_eq_left apart]
      · rw [split, List.append_assoc, List.drop_append_of_le_length (by omega), linksOf_append,
          linksOf_append, back, applyDrop, outside, drop_drop_of_le reach, linksOf_append,
          List.flatMap_cons, linksOf_append, List.drop_take]
        abel

/-- Runs that start and end where others do. -/
def shape (runs : List (TerminalCellRun Link)) : List (UInt32 × ℕ) :=
  runs.map fun run => (run.start, run.cells.length)

theorem shape_map {change : Link → Other} :
    shape (runs.map (TerminalCellRun.map change)) = shape runs := by
  simp [shape, TerminalCellRun.map]

theorem shape_refill {cells : List (TerminalCell Other)}
    (fits : cells.length = (runs.flatMap TerminalCellRun.cells).length) :
    shape (refill runs cells) = shape runs := by
  induction runs generalizing cells with
  | nil => rfl
  | cons run runs induction =>
      rw [List.flatMap_cons, List.length_append] at fits
      have rest := @induction (cells.drop run.cells.length) (by rw [List.length_drop]; omega)
      simp only [shape, refill, List.map_cons, List.length_take] at rest ⊢
      rw [rest, Nat.min_eq_left (by omega)]

variable {given : List (TerminalCellRun Other)}

theorem validateRuns_congr (same : shape given = shape runs) :
    validateRuns count previousEnd given = validateRuns count previousEnd runs := by
  induction runs generalizing given previousEnd with
  | nil =>
      rw [List.map_eq_nil_iff.mp same]
      rfl
  | cons run runs induction =>
      rcases List.map_eq_cons_iff.mp same with ⟨other, rest, rfl, first, later⟩
      rcases Prod.mk.inj first with ⟨start, length⟩
      have stop : other.stop = run.stop := by
        rw [TerminalCellRun.stop, TerminalCellRun.stop, start, length]
      have empty : other.cells.isEmpty = run.cells.isEmpty := by
        rw [Bool.eq_iff_iff, List.isEmpty_iff_length_eq_zero, List.isEmpty_iff_length_eq_zero,
          length]
      rw [validateRuns, validateRuns, stop, start, empty, induction later]

theorem outside_congr {Third : Type} {cells : List (TerminalCell Third)} (same : shape given = shape runs) :
    outside previousEnd given cells = outside previousEnd runs cells := by
  induction runs generalizing given previousEnd cells with
  | nil =>
      rw [List.map_eq_nil_iff.mp same]
      rfl
  | cons run runs induction =>
      rcases List.map_eq_cons_iff.mp same with ⟨other, rest, rfl, first, later⟩
      rcases Prod.mk.inj first with ⟨start, length⟩
      have stop : other.stop = run.stop := by
        rw [TerminalCellRun.stop, TerminalCellRun.stop, start, length]
      rw [outside, outside, stop, start, induction later]

theorem map_outside {change : Link → Other} {cells : List (TerminalCell Link)} :
    (outside previousEnd runs cells).map (TerminalCell.map change) =
      outside previousEnd runs (cells.map (TerminalCell.map change)) := by
  induction runs generalizing previousEnd cells with
  | nil => rfl
  | cons run runs induction =>
      rw [outside, List.map_append, induction, List.map_take, List.map_drop, outside]

theorem map_foldl_apply {change : Link → Other} {cells : List (TerminalCell Link)} :
    (runs.foldl (fun cells run => run.apply cells) cells).map (TerminalCell.map change) =
      (runs.map (TerminalCellRun.map change)).foldl (fun cells run => run.apply cells)
        (cells.map (TerminalCell.map change)) := by
  induction runs generalizing cells with
  | nil => rfl
  | cons run runs induction =>
      rw [List.foldl_cons, induction, List.map_cons, List.foldl_cons]
      simp [TerminalCellRun.apply, TerminalCellRun.map, TerminalCellRun.stop, List.map_take,
        List.map_drop]

theorem map_applyValidatedDelta {change : Link → Other} {view : TerminalView Link}
    {delta : TerminalViewDelta Link} :
    (view.applyValidatedDelta delta).map change =
      (view.map change).applyValidatedDelta (delta.map change) := by
  simp [TerminalView.applyValidatedDelta, TerminalView.map, TerminalViewDelta.map,
    map_foldl_apply]

/-- Whether a delta applies depends on the revisions, the grid and the shape of its runs. -/
theorem validateDelta_congr {view : TerminalView Link} {update : TerminalViewDelta Link}
    {same : TerminalView Other} {given : TerminalViewDelta Other}
    (revision : same.revision = view.revision) (grid : same.cells.length = view.cells.length)
    (base : given.baseRevision = update.baseRevision) (next : given.revision = update.revision)
    (runs : shape given.runs = shape update.runs) :
    same.validateDelta given = view.validateDelta update := by
  rw [TerminalView.validateDelta, TerminalView.validateDelta, revision, grid, base, next,
    validateRuns_congr runs]

theorem validateRuns_of_validateDelta {view : TerminalView Link}
    {update : TerminalViewDelta Link} (valid : view.validateDelta update = .ok ()) :
    validateRuns view.cells.length 0 update.runs = .ok () := by
  rw [TerminalView.validateDelta] at valid
  split_ifs at valid
  exact valid

end Runs

/-! ## Passes of the budget -/

namespace TerminalHyperlinkBudget

variable {memory : Memory} {budget : TerminalHyperlinkBudget} {links : Multiset SmolStr}
  {aliases : Aliases}

namespace Accounts

theorem mem_of_uriAt (accounts : budget.Accounts memory links) {index : ℕ} {link : SmolStr}
    (found : budget.uriAt index = some link) : link ∈ links := by
  rcases Option.map_eq_some_iff.mp found with ⟨entry, entryAt, rfl⟩
  rcases accounts.counted index entry entryAt with ⟨counted, positive⟩
  exact Multiset.count_pos.mp (counted ▸ positive)

/-- A budget's distinct texts are those of the links it accounts for. -/
theorem uris_eq (accounts : budget.Accounts memory links) :
    budget.uris = (links.map (SmolStr.read memory)).toFinset := by
  ext uri
  rw [accounts.mem_uris_iff, Multiset.mem_toFinset, Multiset.mem_map]
  constructor
  · rintro ⟨index, present⟩
    rcases Option.map_eq_some_iff.mp present with ⟨link, linkAt, text⟩
    exact ⟨link, accounts.mem_of_uriAt linkAt, text⟩
  · rintro ⟨link, member, rfl⟩
    rcases accounts.held link member with ⟨index, linkAt⟩
    exact ⟨index, by rw [linkAt]; rfl⟩

/-- The budget's pass over cells is the pass over their texts. -/
theorem normalizeCells (accounts : budget.Accounts memory links)
    (sound : Sound memory budget aliases) (cells : List (TerminalCell SmolStr)) :
    ∃ normalized lost next,
      budget.normalizeCells memory aliases cells = some (normalized, lost, next) ∧
        next.Accounts memory (linksOf normalized + links) ∧
        normalized.map (TerminalCell.read memory) =
          settleCells budget.uris (cells.map (TerminalCell.read memory)) := by
  induction cells generalizing budget links aliases with
  | nil => exact ⟨[], false, budget, rfl, by simpa using accounts, rfl⟩
  | cons cell cells induction =>
      cases present : cell.hyperlink with
      | none =>
          rcases induction accounts sound with ⟨normalized, lost, next, runs, nextAccounts, texts⟩
          refine ⟨cell :: normalized, lost, next, ?_, ?_, ?_⟩
          · simp [TerminalHyperlinkBudget.normalizeCells, present, runs]
          · rwa [linksOf_cons_none present]
          · rw [List.map_cons, List.map_cons, texts, settleCells_cons_none]
            simp [TerminalCell.map, present]
      | some link =>
          have reads : (cell.read memory).hyperlink = some (link.read memory) := by
            simp [TerminalCell.map, present]
          rcases accounts.admitLink sound link with ⟨outcome, after, noted, admits, admitted⟩
          cases admitted with
          | @kept index canonical _ _ room afterAccounts found text uris afterSound =>
              rcases Option.map_eq_some_iff.mp found with ⟨entry, entryAt, rfl⟩
              rcases induction afterAccounts afterSound
                with ⟨normalized, lost, next, runs, nextAccounts, texts⟩
              refine ⟨{ cell with hyperlink := some entry.uri } :: normalized, lost, next,
                ?_, ?_, ?_⟩
              · simp [TerminalHyperlinkBudget.normalizeCells, present, admits, entryAt, runs]
              · rw [linksOf_cons_some rfl, Multiset.cons_add, ← Multiset.add_cons]
                exact nextAccounts
              · rw [List.map_cons, List.map_cons, texts, settleCells_cons_of_within reads room,
                  uris]
                simp [TerminalCell.map, present, text]
          | refused full afterSound =>
              rcases induction accounts afterSound
                with ⟨normalized, lost, next, runs, nextAccounts, texts⟩
              refine ⟨{ cell with hyperlink := none } :: normalized, true, next, ?_, ?_, ?_⟩
              · simp [TerminalHyperlinkBudget.normalizeCells, present, admits, runs]
              · rwa [linksOf_cons_none rfl]
              · rw [List.map_cons, List.map_cons, texts,
                  settleCells_cons_of_not_within reads full]
                simp [TerminalCell.map]

/-- Every link of the cells has a reference to release. -/
theorem releaseCells {cells : List (TerminalCell SmolStr)}
    (accounts : budget.Accounts memory (linksOf cells + links)) :
    ∃ next, budget.releaseCells memory cells = some next ∧ next.Accounts memory links := by
  induction cells generalizing budget with
  | nil => exact ⟨budget, rfl, by simpa using accounts⟩
  | cons cell cells induction =>
      cases present : cell.hyperlink with
      | none =>
          rw [linksOf_cons_none present] at accounts
          rcases induction accounts with ⟨next, releases, nextAccounts⟩
          refine ⟨next, ?_, nextAccounts⟩
          rw [TerminalHyperlinkBudget.releaseCells, List.filterMap_cons_none present]
          exact releases
      | some link =>
          rw [linksOf_cons_some present, Multiset.cons_add] at accounts
          rcases accounts.release (Multiset.mem_cons_self _ _) with ⟨after, releases, afterAccounts⟩
          rw [Multiset.erase_cons_head] at afterAccounts
          rcases induction afterAccounts with ⟨next, later, nextAccounts⟩
          refine ⟨next, ?_, nextAccounts⟩
          rw [TerminalHyperlinkBudget.releaseCells, List.filterMap_cons_some present,
            List.foldlM_cons, releases]
          exact later

/-- Every link that the runs replace has a reference to release. -/
theorem releaseRuns {runs : List (TerminalCellRun SmolStr)} {cells : List (TerminalCell SmolStr)}
    (accounts : budget.Accounts memory
      (linksOf (runs.flatMap fun run => run.replaced cells) + links)) :
    ∃ next, runs.foldlM (fun budget run => budget.releaseCells memory (run.replaced cells))
        budget = some next ∧ next.Accounts memory links := by
  induction runs generalizing budget with
  | nil => exact ⟨budget, rfl, by simpa using accounts⟩
  | cons run runs induction =>
      rw [List.flatMap_cons, linksOf_append, add_assoc] at accounts
      rcases accounts.releaseCells with ⟨after, releases, afterAccounts⟩
      rcases induction afterAccounts with ⟨next, later, nextAccounts⟩
      refine ⟨next, ?_, nextAccounts⟩
      rw [List.foldlM_cons, releases]
      exact later

/-- Where the heap still holds the links, the budget is still theirs. -/
theorem remember (accounts : budget.Accounts memory links) {later : Memory}
    (keeps : ∀ link ∈ links, link.read later = link.read memory) :
    budget.Accounts later links := by
  have texts : ∀ index, (budget.uriAt index).map (SmolStr.read later) =
      (budget.uriAt index).map (SmolStr.read memory) := by
    intro index
    cases found : budget.uriAt index with
    | none => rfl
    | some link => exact congrArg some (keeps link (accounts.mem_of_uriAt found))
  have places : ∀ index, (budget.uriAt index).bind (heapStringPointer later) =
      (budget.uriAt index).bind (heapStringPointer memory) := by
    intro index
    cases found : budget.uriAt index with
    | none => rfl
    | some link =>
        have same := keeps link (accounts.mem_of_uriAt found)
        cases link with
        | inline text => rfl
        | heap address =>
            simp only [SmolStr.read] at same
            simp only [Option.bind_some, heapStringPointer, same]
  refine ⟨?_, ?_, accounts.counted, accounts.held, accounts.free, accounts.freeNodup,
    accounts.bytes, accounts.within⟩
  · intro uri index
    rw [texts]
    exact accounts.indexed uri index
  · intro pointer index
    rw [places]
    exact accounts.pointed pointer index

end Accounts

theorem accounts_empty : empty.Accounts memory 0 where
  indexed := by simp [empty, uriAt, entryAt]
  pointed := by simp [empty, uriAt, entryAt]
  counted := by simp [empty, entryAt]
  held := by simp
  free := by simp [empty]
  freeNodup := List.nodup_nil
  bytes := rfl
  within := within_empty

/-- A new budget is that of the view it bounds. -/
theorem new_spec (memory : Memory) (view : TerminalView SmolStr) :
    ∃ budget bounded, new memory view = some (budget, bounded) ∧
      budget.Accounts memory (linksOf bounded.cells) ∧
      bounded.map (SmolStr.read memory) = settleView ∅ (view.map (SmolStr.read memory)) := by
  rcases (@accounts_empty memory).normalizeCells sound_empty view.cells
    with ⟨normalized, lost, budget, runs, accounts, texts⟩
  refine ⟨budget, { view with cells := normalized }, ?_, ?_, ?_⟩
  · simp [new, runs]
  · simpa using accounts
  · rw [TerminalView.map, texts]
    rfl

end TerminalHyperlinkBudget

/-! ## Deltas -/

theorem linkTexts_eq (cells : List (TerminalCell String)) :
    linkTexts cells = (linksOf cells).toFinset := by
  ext uri
  simp [linkTexts, linkSlots, linksOf]

/-- The links that stay in a view whatever a delta brings. -/
def untouched (view : TerminalView String) (delta : TerminalViewDelta String) : Finset String :=
  linkTexts (outside 0 delta.runs view.cells)

/-- A view after a delta has the links that the delta brings and those it leaves. -/
theorem linkTexts_applyValidatedDelta {view : TerminalView String}
    {delta : TerminalViewDelta String} (valid : view.validateDelta delta = .ok ()) :
    linkTexts (view.applyValidatedDelta delta).cells =
      untouched view delta ∪ linkTexts delta.cells := by
  have split := (linksOf_foldl_apply (validateRuns_of_validateDelta valid)).2
  simp only [List.drop_zero] at split
  rw [linkTexts_eq, TerminalView.applyValidatedDelta, split, Multiset.toFinset_add,
    Finset.union_comm, untouched, linkTexts_eq, linkTexts_eq, TerminalViewDelta.cells]

/-- Where the view after a delta is within the limits, the delta loses no link. -/
theorem settleDelta_of_within {view : TerminalView String} {delta : TerminalViewDelta String}
    (valid : view.validateDelta delta = .ok ())
    (within : Within hyperlinkLimits (linkTexts (view.applyValidatedDelta delta).cells)) :
    settleDelta (untouched view delta) delta = delta := by
  rw [linkTexts_applyValidatedDelta valid] at within
  exact settleDelta_eq_self.mpr (settleCells_of_within within)

theorem shape_settleDelta {kept : Finset String} {delta : TerminalViewDelta String} :
    shape (settleDelta kept delta).runs = shape delta.runs :=
  shape_refill length_settleCells

namespace TerminalHyperlinkBudget

/-- A delta without links, to a view without links, leaves the budget as it is. -/
theorem Accounts.plain {memory : Memory} {budget : TerminalHyperlinkBudget}
    {links : Multiset SmolStr} (accounts : budget.Accounts memory links)
    (nothing : budget.byUri.keys = []) : links = 0 := by
  apply Multiset.eq_zero_of_forall_notMem
  intro link member
  have listed := accounts.mem_uris_of_mem member
  simp [uris, nothing] at listed

theorem applyDelta_spec {memory : Memory} {budget : TerminalHyperlinkBudget}
    {view : TerminalView SmolStr} {delta : TerminalViewDelta SmolStr}
    (accounts : budget.Accounts memory (linksOf view.cells))
    (valid : view.validateDelta delta = .ok ()) :
    ∃ next sent, budget.applyDelta memory view delta =
        some (.ok (next, view.applyValidatedDelta sent, sent)) ∧
      next.Accounts memory (linksOf (view.applyValidatedDelta sent).cells) ∧
      sent.map (SmolStr.read memory) =
        settleDelta (untouched (view.map (SmolStr.read memory)) (delta.map (SmolStr.read memory)))
          (delta.map (SmolStr.read memory)) := by
  have runs := validateRuns_of_validateDelta valid
  have split := linksOf_drop runs
  rw [List.drop_zero] at split
  -- the links the delta leaves are those the texts say
  have left : ((linksOf (outside 0 delta.runs view.cells)).map (SmolStr.read memory)).toFinset =
      untouched (view.map (SmolStr.read memory)) (delta.map (SmolStr.read memory)) := by
    rw [untouched, linkTexts_eq, ← linksOf_map, map_outside]
    congr 2
    exact (outside_congr shape_map).symm
  have noLinks : (delta.cells.any fun cell => cell.hyperlink.isSome) = false →
      linksOf delta.cells = 0 ∧ ∀ kept, Within hyperlinkLimits kept →
        settleDelta kept (delta.map (SmolStr.read memory)) = delta.map (SmolStr.read memory) := by
    intro plain
    have none : linksOf delta.cells = 0 := by
      rw [linksOf, Multiset.coe_eq_zero, List.filterMap_eq_nil_iff]
      intro cell member
      rw [List.any_eq_false] at plain
      simpa using plain cell member
    refine ⟨none, ?_⟩
    intro kept within
    apply settleDelta_eq_self.mpr
    apply settleCells_of_within
    rwa [cells_mapDelta, linkTexts_eq, linksOf_map, none, Multiset.map_zero,
      Multiset.toFinset_zero, Finset.union_empty]
  simp only [applyDelta, valid]
  split_ifs with fast links
  · simp only [Bool.and_eq_true, List.isEmpty_iff, Bool.not_eq_true'] at fast
    rcases noLinks fast.2 with ⟨none, same⟩
    have zero := accounts.plain fast.1
    have applied := (linksOf_foldl_apply runs).2
    rw [List.drop_zero, List.drop_zero] at applied
    have rest : linksOf (outside 0 delta.runs view.cells) = 0 := by
      rw [zero] at split
      exact Multiset.le_zero.mp (split ▸ Multiset.le_add_left _ _)
    refine ⟨budget, delta, rfl, ?_, ?_⟩
    · rw [TerminalView.applyValidatedDelta, applied, rest, ← TerminalViewDelta.cells, none,
        add_zero, ← zero]
      exact accounts
    · apply Eq.symm
      apply same
      rw [← left, rest]
      exact within_empty
  · rw [split] at accounts
    rcases accounts.releaseRuns with ⟨released, releases, releasedAccounts⟩
    rcases releasedAccounts.normalizeCells sound_empty delta.cells
      with ⟨normalized, lost, next, passes, nextAccounts, texts⟩
    rw [releasedAccounts.uris_eq, left, ← cells_mapDelta] at texts
    have length : normalized.length = (delta.runs.flatMap TerminalCellRun.cells).length := by
      have same := congrArg List.length texts
      rw [List.length_map, length_settleCells, cells_mapDelta, List.length_map] at same
      exact same
    have shapes : shape (refill delta.runs normalized) = shape delta.runs := shape_refill length
    refine ⟨next, { delta with runs := refill delta.runs normalized }, ?_, ?_, ?_⟩
    · simp [releases, passes]
    · have applied := (linksOf_foldl_apply ((validateRuns_congr shapes).trans runs)).2
      rw [List.drop_zero, List.drop_zero, flatMap_refill length, outside_congr shapes] at applied
      rw [TerminalView.applyValidatedDelta, applied]
      exact nextAccounts
    · rw [TerminalViewDelta.map, map_refill, texts, settleDelta, TerminalViewDelta.map, refill_map]
  · rcases noLinks (by simpa using links) with ⟨none, same⟩
    rw [split] at accounts
    rcases accounts.releaseRuns with ⟨released, releases, releasedAccounts⟩
    refine ⟨released, delta, ?_, ?_, ?_⟩
    · simp [releases]
    · have applied := (linksOf_foldl_apply runs).2
      rw [List.drop_zero, List.drop_zero, ← TerminalViewDelta.cells, none, zero_add] at applied
      rw [TerminalView.applyValidatedDelta, applied]
      exact releasedAccounts
    · apply Eq.symm
      apply same
      rw [← left, ← releasedAccounts.uris_eq]
      exact releasedAccounts.within

end TerminalHyperlinkBudget

end Condr
