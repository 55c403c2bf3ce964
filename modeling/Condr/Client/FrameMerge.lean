import Condr.Foundation.Lists
import Condr.Foundation.Overlay
import Condr.Terminal.Hyperlinks

/-!
# Merged terminal frames

A burst of frames of one terminal is merged into one. Two deltas become one whose runs hold
the cells of both, those of the later one where they meet; a delta is applied to a whole view
before it. The merged frame is limited again when the later frame brings links.
-/

namespace Condr

variable {Link : Type}

/-- The cells that a run writes, at their places. -/
def TerminalCellRun.entries (run : TerminalCellRun Link) : List (ℕ × TerminalCell Link) :=
  Overlay.places run.start.toNat run.cells

def checkTerminalDeltaMerge (previous next : TerminalViewDelta Link) : Except Unit Unit :=
  if previous.revision ≠ next.baseRevision then .error ()
  else if (previous.runs ++ next.runs).any fun run =>
      run.cells.isEmpty || decide (2 ^ 32 ≤ run.stop) then .error ()
  else .ok ()

/-- Whether a merge would succeed. -/
def checkTerminalFrameMerge : TerminalViewFrame Link → TerminalViewFrame Link → Except Unit Unit
  | _, .full _ => .ok ()
  | .full view, .delta delta => (view.validateDelta delta).mapError fun _ => ()
  | .delta previous, .delta next => checkTerminalDeltaMerge previous next

/-- A cell behind the runs so far: it is the next of the last run, or begins one. -/
def pushCell (runs : List (TerminalCellRun Link)) (entry : ℕ × TerminalCell Link) :
    List (TerminalCellRun Link) :=
  let fresh := runs ++ [{ start := UInt32.ofNat entry.1, cells := [entry.2] }]
  match runs.getLast? with
  | none => fresh
  | some last =>
      if last.stop = entry.1 then
        runs.dropLast ++ [{ last with cells := last.cells ++ [entry.2] }]
      else fresh

/-- The map of the cells is ordered by their places. -/
def mergeTerminalDeltas (previous next : TerminalViewDelta Link) :
    Except Unit (TerminalViewDelta Link) := do
  checkTerminalDeltaMerge previous next
  let cells := Overlay.collect ((previous.runs ++ next.runs).flatMap TerminalCellRun.entries)
  .ok {
    baseRevision := previous.baseRevision
    revision := next.revision
    displayOffset := next.displayOffset
    mouseTracking := next.mouseTracking
    cursor := next.cursor
    selection := next.selection
    runs := cells.foldl pushCell [] }

/-- The merged frame before its links are limited. -/
def composeTerminalFrames : TerminalViewFrame Link → TerminalViewFrame Link →
    Except Unit (TerminalViewFrame Link)
  | .full view, .delta delta =>
      match view.applyFrame (.delta delta) with
      | .error _ => .error ()
      | .ok view => .ok (.full view)
  | _, .full view => .ok (.full view)
  | .delta previous, .delta next => (mergeTerminalDeltas previous next).map .delta

/-- A delta that brings links. -/
def TerminalViewFrame.addsLinks : TerminalViewFrame Link → Bool
  | .delta update => update.cells.any fun cell => cell.hyperlink.isSome
  | .full _ => false

/-- The outer `none` is a panic. -/
def mergeTerminalFrames (memory : Memory) (previous next : TerminalViewFrame SmolStr) :
    Option (Except Unit (TerminalViewFrame SmolStr)) :=
  match composeTerminalFrames previous next with
  | .error () => some (.error ())
  | .ok merged =>
      if next.addsLinks then do
        let (merged, _) ← merged.normalizeHyperlinksForWire memory
        return .ok merged
      else some (.ok merged)

/-! ## Runs in order -/

/-- Where the last of the runs ends. -/
def reach (runs : List (TerminalCellRun Link)) : ℕ :=
  match runs.getLast? with
  | none => 0
  | some last => last.stop

variable {count : ℕ} {runs : List (TerminalCellRun Link)} {run : TerminalCellRun Link}
  {cells : List (TerminalCell Link)}

theorem validateRuns_cons_iff {previousEnd : ℕ} :
    validateRuns count previousEnd (run :: runs) = .ok () ↔
      (run.stop ≤ count ∧ run.cells ≠ [] ∧ previousEnd ≤ run.start.toNat) ∧
        validateRuns count run.stop runs = .ok () := by
  rw [validateRuns]
  split_ifs with far bad
  · simp only [false_iff]
    rintro ⟨⟨inside, -⟩, -⟩
    omega
  · simp only [false_iff]
    rintro ⟨⟨-, some, apart⟩, -⟩
    simp only [Bool.or_eq_true, List.isEmpty_iff, decide_eq_true_eq] at bad
    rcases bad with none | early
    · exact some none
    · omega
  · simp only [Bool.or_eq_true, List.isEmpty_iff, decide_eq_true_eq, not_or] at bad
    exact ⟨fun later => ⟨⟨by omega, bad.1, by omega⟩, later⟩, fun both => both.2⟩

/-- One more run is valid behind the last. -/
theorem validateRuns_append {previousEnd : ℕ} :
    validateRuns count previousEnd (runs ++ [run]) = .ok () ↔
      validateRuns count previousEnd runs = .ok () ∧ run.stop ≤ count ∧ run.cells ≠ [] ∧
        (if runs = [] then previousEnd else reach runs) ≤ run.start.toNat := by
  induction runs generalizing previousEnd with
  | nil =>
      rw [List.nil_append, validateRuns_cons_iff]
      simp [validateRuns]
  | cons head rest induction =>
      have same : (if rest = [] then head.stop else reach rest) = reach (head :: rest) := by
        cases rest with
        | nil => rfl
        | cons other rest => simp [reach]
      rw [List.cons_append, validateRuns_cons_iff, induction, validateRuns_cons_iff, same,
        if_neg (List.cons_ne_nil _ _)]
      exact and_assoc.symm

theorem reach_append : reach (runs ++ [run]) = run.stop := by
  simp [reach]

theorem validateRuns_snoc :
    validateRuns count 0 (runs ++ [run]) = .ok () ↔
      validateRuns count 0 runs = .ok () ∧ run.stop ≤ count ∧ run.cells ≠ [] ∧
        reach runs ≤ run.start.toNat := by
  rw [validateRuns_append]
  cases runs with
  | nil => simp [reach]
  | cons head rest => rw [if_neg (List.cons_ne_nil _ _)]

theorem TerminalCellRun.stop_single {place : ℕ} {cell : TerminalCell Link}
    (small : place < 2 ^ 32) :
    (⟨UInt32.ofNat place, [cell]⟩ : TerminalCellRun Link).stop = place + 1 := by
  rw [stop, List.length_singleton, UInt32.toNat_ofNat_of_lt' small]

/-- A cell behind the last one keeps the runs valid. -/
theorem validateRuns_pushCell {entry : ℕ × TerminalCell Link}
    (valid : validateRuns count 0 runs = .ok ()) (behind : reach runs ≤ entry.1)
    (inside : entry.1 < count) (small : entry.1 < 2 ^ 32) :
    validateRuns count 0 (pushCell runs entry) = .ok () ∧
      reach (pushCell runs entry) = entry.1 + 1 := by
  have fresh : validateRuns count 0 (runs ++ [⟨UInt32.ofNat entry.1, [entry.2]⟩]) = .ok () ∧
      reach (runs ++ [⟨UInt32.ofNat entry.1, [entry.2]⟩]) = entry.1 + 1 := by
    rw [validateRuns_snoc, reach_append, TerminalCellRun.stop_single small]
    refine ⟨⟨valid, inside, by simp, ?_⟩, rfl⟩
    rw [UInt32.toNat_ofNat_of_lt' small]
    exact behind
  rcases List.eq_nil_or_concat runs with rfl | ⟨front, last, rfl⟩
  · exact fresh
  · simp only [List.concat_eq_append] at *
    rw [pushCell]
    simp only [List.getLast?_append, List.getLast?_singleton, Option.some_or,
      List.dropLast_concat]
    split_ifs with next
    · rw [validateRuns_snoc] at valid
      have stop : TerminalCellRun.stop { last with cells := last.cells ++ [entry.2] } =
          entry.1 + 1 := by
        rw [← next, TerminalCellRun.stop, List.length_append, List.length_singleton,
          ← Nat.add_assoc]
        rfl
      rw [validateRuns_snoc, reach_append, stop]
      exact ⟨⟨valid.1, inside, by simp, valid.2.2.2⟩, rfl⟩
    · exact fresh

/-- Cells in order make valid runs. -/
theorem validateRuns_foldl_pushCell {writes : List (ℕ × TerminalCell Link)}
    (valid : validateRuns count 0 runs = .ok ()) (ordered : Overlay.Ordered writes)
    (behind : ∀ entry ∈ writes, reach runs ≤ entry.1 ∧ entry.1 < count ∧ entry.1 < 2 ^ 32) :
    validateRuns count 0 (writes.foldl pushCell runs) = .ok () := by
  induction writes generalizing runs with
  | nil => exact valid
  | cons entry writes induction =>
      rcases behind entry List.mem_cons_self with ⟨apart, inside, small⟩
      rcases List.pairwise_cons.mp ordered with ⟨first, later⟩
      rcases validateRuns_pushCell valid apart inside small with ⟨pushed, reached⟩
      rw [List.foldl_cons]
      apply induction pushed later
      intro other member
      rcases behind other (List.mem_cons_of_mem _ member) with ⟨-, rest⟩
      refine ⟨?_, rest⟩
      rw [reached]
      exact first other member

/-! ## The cells that runs hold -/

theorem entries_append {cell : TerminalCell Link} :
    TerminalCellRun.entries { run with cells := run.cells ++ [cell] } =
      run.entries ++ [(run.stop, cell)] := by
  simp [TerminalCellRun.entries, Overlay.places, List.zipIdx_append, TerminalCellRun.stop]

theorem entries_pushCell {entry : ℕ × TerminalCell Link} (small : entry.1 < 2 ^ 32) :
    (pushCell runs entry).flatMap TerminalCellRun.entries =
      runs.flatMap TerminalCellRun.entries ++ [entry] := by
  have single : TerminalCellRun.entries ⟨UInt32.ofNat entry.1, [entry.2]⟩ = [entry] := by
    simp only [TerminalCellRun.entries, UInt32.toNat_ofNat_of_lt' small]
    rfl
  have fresh : List.flatMap TerminalCellRun.entries
      (runs ++ [⟨UInt32.ofNat entry.1, [entry.2]⟩]) =
      runs.flatMap TerminalCellRun.entries ++ [entry] := by
    rw [List.flatMap_append, List.flatMap_singleton, single]
  rcases List.eq_nil_or_concat runs with rfl | ⟨front, last, rfl⟩
  · exact fresh
  · simp only [List.concat_eq_append] at *
    rw [pushCell]
    simp only [List.getLast?_append, List.getLast?_singleton, Option.some_or,
      List.dropLast_concat]
    split_ifs with next
    · rw [List.flatMap_append, List.flatMap_singleton, entries_append, next,
        List.flatMap_append, List.flatMap_singleton, List.append_assoc]
    · exact fresh

/-- The runs hold the cells they were made of. -/
theorem entries_foldl_pushCell {writes : List (ℕ × TerminalCell Link)}
    (small : ∀ entry ∈ writes, entry.1 < 2 ^ 32) :
    (writes.foldl pushCell runs).flatMap TerminalCellRun.entries =
      runs.flatMap TerminalCellRun.entries ++ writes := by
  induction writes generalizing runs with
  | nil => simp
  | cons entry writes induction =>
      rw [List.foldl_cons, induction fun other member => small other (List.mem_cons_of_mem _ member),
        entries_pushCell (small entry List.mem_cons_self), List.append_assoc]
      rfl

theorem entry_lt_stop {entry : ℕ × TerminalCell Link} (member : entry ∈ run.entries) :
    entry.1 < run.stop := by
  simp only [TerminalCellRun.entries, Overlay.places, List.mem_map] at member
  rcases member with ⟨⟨cell, place⟩, listed, rfl⟩
  have := List.snd_lt_add_of_mem_zipIdx listed
  simp only [Prod.fst_swap, TerminalCellRun.stop]
  omega

theorem apply_eq_writeAll (inside : run.stop ≤ cells.length) :
    run.apply cells = Overlay.writeAll List.set cells run.entries :=
  (Overlay.writeAll_places inside).symm

theorem stop_le_of_validateRuns {previousEnd : ℕ}
    (valid : validateRuns count previousEnd runs = .ok ()) (member : run ∈ runs) :
    run.stop ≤ count ∧ run.cells ≠ [] := by
  induction runs generalizing previousEnd with
  | nil => exact nomatch member
  | cons head rest induction =>
      rcases validateRuns_cons_iff.mp valid with ⟨⟨inside, some, -⟩, later⟩
      rcases List.mem_cons.mp member with rfl | behind
      · exact ⟨inside, some⟩
      · exact induction later behind

/-- Runs inside a grid are applied as the writes of their cells. -/
theorem foldl_apply_eq_writeAll (inside : ∀ run ∈ runs, run.stop ≤ cells.length) :
    runs.foldl (fun cells run => run.apply cells) cells =
      Overlay.writeAll List.set cells (runs.flatMap TerminalCellRun.entries) := by
  induction runs generalizing cells with
  | nil => rfl
  | cons head rest induction =>
      rw [List.foldl_cons, apply_eq_writeAll (inside head List.mem_cons_self), induction,
        List.flatMap_cons, Overlay.writeAll_append]
      intro other member
      rw [Overlay.length_writeAll_set]
      exact inside other (List.mem_cons_of_mem _ member)

end Condr
