import Condr.Foundation.Transition
import Condr.Terminal.HyperlinkTable
import Condr.Terminal.VtView
import Mathlib.Data.List.Forall2

/-!
# Views that read only what changed

A view keeps the rows that are not marked from the view before. Taking the marks of found links
off gives back the cells the library holds, so the links are found in the same text as when every
row is read. What has to hold for it is that the view before lost no link a program set.
-/

namespace Condr.Vt

/-! ## The mark of a found link -/

theorem or_and_flag (flags other flag : UInt32) :
    (flags ||| other) &&& flag = (flags &&& flag) ||| (other &&& flag) := by
  apply UInt32.eq_of_toBitVec_eq
  simp only [UInt32.toBitVec_or, UInt32.toBitVec_and]
  ext index
  simp only [BitVec.getElem_or, BitVec.getElem_and]
  grind

theorem clear_flag {flags : UInt32} (plain : flags &&& detectedLinkFlag = 0) :
    (flags ||| detectedLinkFlag) &&& ~~~detectedLinkFlag = flags := by
  have bits := congrArg UInt32.toBitVec plain
  apply UInt32.eq_of_toBitVec_eq
  simp only [UInt32.toBitVec_or, UInt32.toBitVec_and, UInt32.toBitVec_not] at bits ⊢
  ext index below
  have bit := congrArg (fun bits => bits[index]) bits
  simp only [BitVec.getElem_or, BitVec.getElem_and, BitVec.getElem_not] at bit ⊢
  simp at bit
  grind

/-- The cell has no mark of a found link. -/
def Plain (cell : TerminalCell String) : Prop := cell.flags &&& detectedLinkFlag = 0

theorem undetect_of_plain {cell : TerminalCell String} (plain : Plain cell) :
    undetect cell = cell := by
  have unmarked : ¬cell.flags &&& detectedLinkFlag ≠ 0 := not_not.mpr plain
  rw [undetect, if_neg unmarked]

theorem map_undetect_of_plain {cells : List (TerminalCell String)}
    (plain : ∀ cell ∈ cells, Plain cell) : cells.map undetect = cells := by
  have same : cells.map undetect = cells.map id := by
    apply List.map_congr_left
    intro cell contained
    exact undetect_of_plain (plain cell contained)
  rw [same, List.map_id]

theorem undetect_marked {cell : TerminalCell String} (plain : Plain cell)
    (bare : cell.hyperlink = none) (link : Option String) :
    undetect { cell with hyperlink := link, flags := cell.flags ||| detectedLinkFlag } = cell := by
  have marked : (cell.flags ||| detectedLinkFlag) &&& detectedLinkFlag ≠ 0 := by
    rw [or_and_flag, plain]
    decide
  rw [undetect, if_pos marked]
  rcases cell with ⟨text, foreground, background, underline, flags, hyperlink⟩
  cases bare
  simp only [clear_flag plain]

theorem foldl_bits_plain {bits : List (Bool × UInt32)} {flags : UInt32}
    (start : flags &&& detectedLinkFlag = 0)
    (each : ∀ bit ∈ bits, bit.2 &&& detectedLinkFlag = 0) :
    bits.foldl (fun flags bit => if bit.1 then flags ||| bit.2 else flags) flags &&&
      detectedLinkFlag = 0 := by
  induction bits generalizing flags with
  | nil => exact start
  | cons bit bits induction =>
      rw [List.foldl_cons]
      apply induction
      · split_ifs
        · rw [or_and_flag, start, each bit List.mem_cons_self]
          rfl
        · exact start
      · intro other contained
        exact each other (List.mem_cons_of_mem _ contained)

theorem plain_cellFlags (width : CellWidth) (style : Style) :
    cellFlags width style &&& detectedLinkFlag = 0 := by
  apply foldl_bits_plain
  · rw [or_and_flag]
    cases width <;> cases style.underline <;> rfl
  · simp only [styleBits, List.mem_cons, List.not_mem_nil, or_false, forall_eq_or_imp, forall_eq]
    and_intros <;> rfl

theorem plain_blankCell : Plain blankCell := rfl

theorem plain_readCell (colors : Colors) (columns : ℕ) (row : Row) (x : ℕ) (cell : Cell) :
    Plain (readCell colors columns row x cell) := by
  have mapped : (terminalCell cell colors).flags &&& detectedLinkFlag = 0 :=
    plain_cellFlags cell.width cell.style
  simp only [Plain, readCell]
  split_ifs
  · rw [or_and_flag, mapped]
    rfl
  · exact mapped

/-! ## What is read of a row -/

/-- What a row shows: its cells, their links and whether it wraps. -/
def Row.shown (colors : Colors) (row : Row) : List (TerminalCell String × Option String) × Bool :=
  (row.cells.map fun cell => (terminalCell cell colors, cell.hyperlink), row.wrapped)

theorem length_readRow (colors : Colors) (columns : ℕ) (row : Row)
    (old : List (TerminalCell String)) : (readRow colors columns row old).length = columns := by
  simp [readRow]

/-- Rows that show the same are read the same, where they have a cell for every column. -/
theorem readRow_congr {colors otherColors : Colors} {columns : ℕ} {row other : Row}
    (same : row.shown colors = other.shown otherColors) (whole : columns ≤ row.cells.length)
    (old otherOld : List (TerminalCell String)) :
    readRow colors columns row old = readRow otherColors columns other otherOld := by
  simp only [Row.shown, Prod.mk.injEq] at same
  apply List.map_congr_left
  intro x contained
  have below : x < row.cells.length := Nat.lt_of_lt_of_le (List.mem_range.mp contained) whole
  have cells := congrArg (fun cells => cells[x]?) same.1
  simp only [List.getElem?_map, List.getElem?_eq_getElem below, Option.map_some] at cells ⊢
  rcases Option.map_eq_some_iff.mp cells.symm with ⟨cell, found, shown⟩
  simp only [Prod.mk.injEq] at shown
  simp only [found, readCell, same.2, shown.1, shown.2]

theorem plain_readRow {colors : Colors} {columns : ℕ} {row : Row}
    {old : List (TerminalCell String)} (plain : ∀ cell ∈ old, Plain cell) :
    ∀ cell ∈ readRow colors columns row old, Plain cell := by
  intro cell contained
  rcases List.mem_map.mp contained with ⟨x, -, rfl⟩
  cases row.cells[x]? with
  | none =>
      cases there : old[x]? with
      | none => exact plain_blankCell
      | some kept => exact plain kept (List.mem_of_getElem? there)
  | some cell => exact plain_readCell colors columns row x cell

theorem plain_readCells (screen : Screen) (size : TerminalSize) :
    ∀ cell ∈ readCells screen size none, Plain cell := by
  have blank : ∀ cell ∈ List.replicate size.columns.toNat blankCell, Plain cell := by
    intro cell contained
    rw [List.eq_of_mem_replicate contained]
    exact plain_blankCell
  intro cell contained
  rcases List.mem_flatMap.mp contained with ⟨y, -, inRow⟩
  unfold rowCells at inRow
  dsimp only at inRow
  split at inRow
  · exact blank cell inRow
  · exact plain_readRow blank cell inRow

/-! ## Rows of a grid -/

theorem slice_flatMap {columns rows y : ℕ} {rowCells : ℕ → List (TerminalCell String)}
    (whole : ∀ y, (rowCells y).length = columns) (below : y < rows) :
    slice columns y ((List.range rows).flatMap rowCells) = rowCells y := by
  have front : ∀ count, ((List.range count).flatMap rowCells).length = count * columns := by
    intro count
    simp [List.length_flatMap, whole]
  have split : List.range rows = List.range y ++ y :: (List.range (rows - y - 1)).map (y + 1 + ·) := by
    have parts : rows = y + (1 + (rows - y - 1)) := by omega
    conv_lhs => rw [parts, List.range_add, List.range_add]
    simp [Function.comp_def, Nat.add_assoc]
  rw [slice, split, List.flatMap_append, ← front y, List.drop_left, List.flatMap_cons, ← whole y,
    List.take_left]

theorem flatMap_slice {columns rows : ℕ} {cells : List (TerminalCell String)}
    (whole : cells.length = rows * columns) :
    (List.range rows).flatMap (fun y => slice columns y cells) = cells := by
  have fronts : ∀ count, (List.range count).flatMap (fun y => slice columns y cells) =
      cells.take (count * columns) := by
    intro count
    induction count with
    | zero => simp
    | succ count induction =>
        rw [List.range_succ, List.flatMap_append, induction, List.flatMap_singleton, slice,
          ← List.take_add, Nat.succ_mul]
  rw [fronts, ← whole, List.take_length]

theorem map_slice (columns y : ℕ) (cells : List (TerminalCell String))
    (change : TerminalCell String → TerminalCell String) :
    (slice columns y cells).map change = slice columns y (cells.map change) := by
  simp [slice, List.map_take, List.map_drop]

theorem length_rowCells (screen : Screen) (size : TerminalSize) (y : ℕ) :
    (rowCells screen size none y).length = size.columns.toNat := by
  unfold rowCells
  dsimp only
  split
  · exact List.length_replicate
  · exact length_readRow _ _ _ _

theorem length_readCells (screen : Screen) (size : TerminalSize) :
    (readCells screen size none).length = size.rows.toNat * size.columns.toNat := by
  simp only [readCells, List.length_flatMap, length_rowCells]
  simp

theorem flatten_logicalLines (rows : List (List (TerminalCell String))) :
    (logicalLines rows).flatten = rows.flatten := by
  induction rows with
  | nil => rfl
  | cons row rows induction =>
      rw [List.flatten_cons, ← induction, logicalLines]
      cases logicalLines rows with
      | nil => simp
      | cons line lines =>
          dsimp only
          split_ifs <;> simp

/-! ## Cells with found links -/

/-- A cell as it was, or a cell without a link that got one. -/
inductive Marked (raw : TerminalCell String) : TerminalCell String → Prop where
  | same : Marked raw raw
  | found (uri : String) (bare : raw.hyperlink = none) :
      Marked raw { raw with hyperlink := some uri, flags := raw.flags ||| detectedLinkFlag }

theorem Marked.markCell {raw cell : TerminalCell String} (marked : Marked raw cell)
    (uri : String) (first last index : ℕ) : Marked raw (markCell uri first last index cell) := by
  unfold Vt.markCell
  split_ifs with marks
  · cases marked with
    | same =>
        simp only [Bool.and_eq_true, Option.isNone_iff_eq_none] at marks
        exact .found uri marks.2
    | found other bare => simp at marks
  · exact marked

theorem marked_mapIdx {raws cells : List (TerminalCell String)}
    {change : ℕ → TerminalCell String → TerminalCell String}
    (keeps : ∀ raw cell index, Marked raw cell → Marked raw (change index cell))
    (marked : List.Forall₂ Marked raws cells) :
    List.Forall₂ Marked raws (cells.mapIdx change) := by
  rw [List.forall₂_iff_get] at marked ⊢
  refine ⟨by rw [List.length_mapIdx, marked.1], ?_⟩
  intro index below inside
  simp only [List.get_eq_getElem, List.getElem_mapIdx]
  rw [List.length_mapIdx] at inside
  exact keeps _ _ index (marked.2 index below inside)

theorem marked_markLine (find : UrlFinder) (line : List (TerminalCell String)) :
    List.Forall₂ Marked line (markLine find line) := by
  unfold markLine
  generalize find ((owners line).map Prod.fst) = found
  have from_marked : ∀ cells, List.Forall₂ Marked line cells →
      List.Forall₂ Marked line (found.foldl (markUrl (owners line)) cells) := by
    induction found with
    | nil => exact fun cells marked => marked
    | cons range found induction =>
        intro cells marked
        apply induction
        unfold markUrl
        dsimp only
        split
        · exact marked
        · split_ifs
          · exact marked
          · exact marked_mapIdx (fun _ _ _ cell => cell.markCell _ _ _ _) marked
  exact from_marked line (List.forall₂_same.mpr fun cell _ => .same)

theorem marked_flatMap (find : UrlFinder) (lines : List (List (TerminalCell String))) :
    List.Forall₂ Marked lines.flatten (lines.flatMap (markLine find)) := by
  induction lines with
  | nil => exact .nil
  | cons line lines induction =>
      rw [List.flatten_cons, List.flatMap_cons]
      exact List.rel_append (marked_markLine find line) induction

theorem marked_markLinks {size : TerminalSize} {cells : List (TerminalCell String)}
    (find : UrlFinder) (whole : cells.length = size.rows.toNat * size.columns.toNat) :
    List.Forall₂ Marked cells (markLinks find size cells) := by
  have marked := marked_flatMap find (logicalLines
    ((List.range size.rows.toNat).map fun y => slice size.columns.toNat y cells))
  rwa [flatten_logicalLines, ← List.flatMap_def, flatMap_slice whole] at marked

/-! ## Cells within the limits -/

/-- A cell as it was, or without its link. -/
def Interned (cell kept : TerminalCell String) : Prop :=
  kept = cell ∨ cell.hyperlink.isSome ∧ kept = { cell with hyperlink := none }

theorem intern_cases (hyperlinks : Hyperlinks) (uri : String) :
    (hyperlinks.intern uri).2 = some uri ∨ (hyperlinks.intern uri).2 = none := by
  unfold Hyperlinks.intern
  dsimp only
  split_ifs <;> simp

theorem interned_internCells (hyperlinks : Hyperlinks) (cells : List (TerminalCell String)) :
    List.Forall₂ Interned cells (hyperlinks.internCells cells) := by
  induction cells generalizing hyperlinks with
  | nil => exact .nil
  | cons cell cells induction =>
      rw [Hyperlinks.internCells]
      cases link : cell.hyperlink with
      | none => exact .cons (.inl rfl) (induction _)
      | some uri =>
          refine .cons ?_ (induction _)
          rcases intern_cases hyperlinks uri with kept | lost
          · rw [kept, ← link]
            exact .inl rfl
          · rw [lost]
            exact .inr ⟨by rw [link]; rfl, rfl⟩

/-- The cell still has the link that a program set. -/
def KeepsLink (raw kept : TerminalCell String) : Prop :=
  raw.hyperlink.isSome → kept.hyperlink = raw.hyperlink

theorem undetect_interned {raw cell kept : TerminalCell String} (plain : Plain raw)
    (marked : Marked raw cell) (interned : Interned cell kept) (keeps : KeepsLink raw kept) :
    undetect kept = raw := by
  cases marked with
  | same =>
      rcases interned with rfl | ⟨linked, rfl⟩
      · exact undetect_of_plain plain
      · have lost := keeps linked
        rw [← lost] at linked
        cases linked
  | found uri bare =>
      rcases interned with rfl | ⟨-, rfl⟩
      · exact undetect_marked plain bare _
      · exact undetect_marked plain bare _

/-- A view of every cell loses no link that a program set. -/
def KeepsLinks (find : UrlFinder) (screen : Screen) (size : TerminalSize) : Prop :=
  List.Forall₂ KeepsLink (readCells screen size none)
    (Hyperlinks.default.internCells (detectLinks find size (readCells screen size none)))

instance (raw kept : TerminalCell String) : Decidable (KeepsLink raw kept) :=
  inferInstanceAs (Decidable (_ → _))

theorem detectLinks_readCells (find : UrlFinder) (screen : Screen) (size : TerminalSize) :
    detectLinks find size (readCells screen size none) =
      markLinks find size (readCells screen size none) := by
  rw [detectLinks, map_undetect_of_plain (plain_readCells screen size)]

theorem map_undetect_of_keeps {raws cells kepts : List (TerminalCell String)}
    (plain : ∀ raw ∈ raws, Plain raw) (marked : List.Forall₂ Marked raws cells)
    (interned : List.Forall₂ Interned cells kepts) (keeps : List.Forall₂ KeepsLink raws kepts) :
    kepts.map undetect = raws := by
  induction marked generalizing kepts with
  | nil =>
      cases interned
      rfl
  | cons first rest induction =>
      cases interned with
      | cons firstInterned restInterned =>
          cases keeps with
          | cons firstKeeps restKeeps =>
              have whole := undetect_interned (plain _ List.mem_cons_self) first firstInterned
                firstKeeps
              rw [List.map_cons, whole]
              congr 1
              apply induction _ restInterned restKeeps
              intro raw contained
              exact plain raw (List.mem_cons_of_mem _ contained)

/-- Without the found links, such a view has the cells the library holds. -/
theorem map_undetect_view {find : UrlFinder} {screen : Screen} {size : TerminalSize}
    (keeps : KeepsLinks find screen size) (revision : ℕ) :
    (view find screen size revision none).cells.map undetect = readCells screen size none := by
  have marked := marked_markLinks find (length_readCells screen size)
  rw [← detectLinks_readCells] at marked
  exact map_undetect_of_keeps (plain_readCells screen size) marked
    (interned_internCells Hyperlinks.default _) keeps

/-! ## Runs -/

/-- The screen has a row and a cell for every place of a view. -/
structure Screen.Fits (screen : Screen) (size : TerminalSize) : Prop where
  rows : size.rows.toNat ≤ screen.rows.length
  columns : ∀ row ∈ screen.rows, size.columns.toNat ≤ row.cells.length

/-- A row that is not marked shows what it showed before. -/
def SoundMarks (seen screen : Screen) (size : TerminalSize) : Prop :=
  screen.dirty = .full ∨ ∀ y row, y < size.rows.toNat → screen.rows[y]? = some row →
    row.dirty = false → ∃ old, seen.rows[y]? = some old ∧
      row.shown screen.colors = old.shown seen.colors

/-- A terminal, the view last taken for the frames, and the screen it was taken of. -/
structure Frames where
  screen : Screen
  size : TerminalSize
  baseline : Option (TerminalView String)
  seen : Screen

inductive FrameAction where
  /-- The program, a resize or a Client changes the terminal. -/
  | change (screen : Screen) (size : TerminalSize)
  /-- The monitor takes a view. -/
  | take (revision : ℕ)

namespace Frames

/-- What a step may do: the library marks what it changes. -/
def Allowed (state : Frames) : FrameAction → Prop
  | .change screen size =>
      screen.Fits size ∧ ∀ view, state.baseline = some view → view.size = size →
        SoundMarks state.seen screen size
  | .take _ => True

def perform (find : UrlFinder) (state : Frames) : FrameAction → Frames
  | .change screen size => { state with screen, size }
  | .take revision =>
      { state with
        screen := if state.baseline.isSome then state.screen.markClean state.size else state.screen
        baseline := some (view find state.screen state.size revision state.baseline)
        seen := state.screen }

end Frames

/-- The runs in which no view taken loses a link that a program set. -/
def frameSystem (find : UrlFinder) : Transition.System Frames FrameAction where
  initial := fun state => state.baseline = none ∧ state.screen.Fits state.size
  step := fun state action next => state.Allowed action ∧ next = state.perform find action ∧
    ∀ revision, action = .take revision → KeepsLinks find state.screen state.size

namespace Frames

variable {find : UrlFinder} {state : Frames}

/-- The marks are sound, and the baseline has the cells of the screen it was taken of. -/
structure Sound (state : Frames) : Prop where
  fits : state.screen.Fits state.size
  taken : ∀ view, state.baseline = some view →
    (view.size = state.size → SoundMarks state.seen state.screen state.size) ∧
      view.cells.map undetect = readCells state.seen view.size none

/-- Kept or read, a row has the library's cells once the found links are off. -/
theorem map_undetect_rowCells {screen seen : Screen} {size : TerminalSize}
    {previous : TerminalView String} {y : ℕ} (fits : screen.Fits size)
    (marks : SoundMarks seen screen size) (some_rows : screen.dirty ≠ .full)
    (cells : previous.cells.map undetect = readCells seen size none) (below : y < size.rows.toNat) :
    (rowCells screen size (some previous) y).map undetect = rowCells screen size none y := by
  have inScreen : y < screen.rows.length := Nat.lt_of_lt_of_le below fits.rows
  have row := List.getElem?_eq_getElem inScreen
  have whole := fits.columns _ (List.getElem_mem inScreen)
  revert row whole
  generalize screen.rows[y] = row
  intro found whole
  -- the row as it is when every row is read
  have read : ∀ old, (readRow screen.colors size.columns.toNat row old) =
      rowCells screen size none y := by
    intro old
    simp only [rowCells, found, Option.isSome_none, Bool.false_and, Bool.false_eq_true, if_false]
    exact readRow_congr rfl whole _ _
  have plain : ∀ cell ∈ rowCells screen size none y, Plain cell := by
    intro cell contained
    apply plain_readCells screen size
    exact List.mem_flatMap.mpr ⟨y, List.mem_range.mpr below, contained⟩
  cases dirty : row.dirty with
  | true =>
      have fresh : rowCells screen size (some previous) y = rowCells screen size none y := by
        rw [← read (slice size.columns.toNat y previous.cells)]
        simp [rowCells, found, dirty]
      rw [fresh, map_undetect_of_plain plain]
  | false =>
      have kept : rowCells screen size (some previous) y =
          slice size.columns.toNat y previous.cells := by
        simp [rowCells, found, dirty]
      rcases marks.resolve_left some_rows y row below found dirty with ⟨old, oldFound, shown⟩
      have oldRow : rowCells seen size none y = rowCells screen size none y := by
        rw [← read (List.replicate size.columns.toNat blankCell)]
        simp only [rowCells, oldFound, Option.isSome_none, Bool.false_and, Bool.false_eq_true,
          if_false]
        exact (readRow_congr shown whole _ _).symm
      rw [kept, map_slice, cells, readCells, slice_flatMap (length_rowCells seen size) below,
        oldRow]

/-- A view that keeps rows is the view that reads every row. -/
theorem Sound.view_eq (sound : state.Sound) (find : UrlFinder) (revision : ℕ) :
    view find state.screen state.size revision state.baseline =
      view find state.screen state.size revision none := by
  have same : (readCells state.screen state.size
      (narrowing state.screen state.size state.baseline)).map undetect =
        (readCells state.screen state.size none).map undetect := by
    cases kept : narrowing state.screen state.size state.baseline with
    | none => rfl
    | some previous =>
        rcases Option.filter_eq_some_iff.mp kept with ⟨baseline, narrow⟩
        simp only [Bool.and_eq_true, decide_eq_true_eq] at narrow
        rcases sound.taken previous baseline with ⟨marks, cells⟩
        rw [narrow.1] at cells
        rw [map_undetect_of_plain (plain_readCells state.screen state.size)]
        simp only [readCells, List.map_flatMap]
        apply List.flatMap_congr
        intro y contained
        exact map_undetect_rowCells sound.fits (marks narrow.1) narrow.2 cells
          (List.mem_range.mp contained)
  have none_narrowing : narrowing state.screen state.size none = none := rfl
  simp only [view, detectLinks, same, none_narrowing]

theorem Sound.take (sound : state.Sound) {revision : ℕ}
    (keeps : KeepsLinks find state.screen state.size) :
    (state.perform find (.take revision)).Sound := by
  have cleared : ∀ (y : ℕ) (row : Row), (state.screen.markClean state.size).rows[y]? = some row →
      ∃ old, state.screen.rows[y]? = some old ∧
        row.shown state.screen.colors = old.shown state.screen.colors ∧
          row.cells.length = old.cells.length := by
    intro y row found
    simp only [Screen.markClean, List.getElem?_mapIdx, Option.map_eq_some_iff] at found
    rcases found with ⟨old, oldFound, rfl⟩
    refine ⟨old, oldFound, ?_⟩
    split_ifs <;> exact ⟨rfl, rfl⟩
  have same : SoundMarks state.screen (state.screen.markClean state.size) state.size := by
    refine .inr fun y row below found clean => ?_
    rcases cleared y row found with ⟨old, oldFound, shown, -⟩
    exact ⟨old, oldFound, shown⟩
  have unread : SoundMarks state.screen state.screen state.size :=
    .inr fun y row below found clean => ⟨row, found, rfl⟩
  have size : ∀ previous, (view find state.screen state.size revision previous).size = state.size :=
    fun _ => rfl
  constructor
  · simp only [perform]
    split_ifs
    · refine ⟨by simpa [Screen.markClean] using sound.fits.rows, ?_⟩
      intro row contained
      rcases List.mem_iff_getElem?.mp contained with ⟨y, found⟩
      rcases cleared y row found with ⟨old, oldFound, -, length⟩
      rw [length]
      exact sound.fits.columns old (List.mem_of_getElem? oldFound)
    · exact sound.fits
  · intro taken isTaken
    cases isTaken
    refine ⟨?_, ?_⟩
    · intro _
      simp only [perform]
      split_ifs
      · exact same
      · exact unread
    · rw [sound.view_eq, size]
      exact map_undetect_view keeps revision

theorem sound_of_reachable (reached : (frameSystem find).Reachable state) : state.Sound := by
  apply reached.invariant Sound
  · intro state starts
    refine ⟨starts.2, fun view taken => ?_⟩
    rw [starts.1] at taken
    cases taken
  · rintro state action next sound ⟨allowed, rfl, keeps⟩
    cases action with
    | change screen size =>
        refine ⟨allowed.1, fun view taken => ?_⟩
        exact ⟨allowed.2 view taken, (sound.taken view taken).2⟩
    | take revision => exact sound.take (keeps revision rfl)

end Frames

/-- A view that keeps the rows the library has not marked since the view before is the view that
reads every row, with all its links, as long as no view taken lost a link that a program set. -/
theorem incremental_view_eq {find : UrlFinder} {state : Frames}
    (reached : (frameSystem find).Reachable state) (revision : ℕ) :
    view find state.screen state.size revision state.baseline =
      view find state.screen state.size revision none :=
  (Frames.sound_of_reachable reached).view_eq find revision

/-- A row of plain characters, with a link a program set on all of them. -/
def plainRow (text : String) (wrapped dirty : Bool) (link : Option String) : Row where
  cells := text.toList.map fun char =>
    { text := String.singleton char
      style := ⟨.default, .default, .default, false, false, false, false, false, false, false,
        false, .none⟩
      width := .narrow
      hyperlink := link }
  wrapped
  dirty
  selection := none

def plainScreen (rows : List Row) (dirty : Dirty) : Screen where
  rows
  dirty
  colors := ⟨fun _ => ⟨0, 0, 0⟩, fun _ => ⟨0, 0, 0⟩⟩
  cursor := ⟨none, true, false, .block⟩
  scrollbar := ⟨2, 0, 2⟩
  modes := fun _ => false
  hasSelection := false

/-- Finds a URL that is the whole of its line. -/
def wholeLine : UrlFinder := fun chars =>
  if "ftp://".toList.isPrefixOf chars then [(0, chars.length)] else []

/-- The second row of a wrapped URL changes, and the first is kept. -/
theorem incremental_view_eq_example :
    let size : TerminalSize := ⟨2, 7, 8, 16⟩
    let before := plainScreen [plainRow "ftp://a" true true none, plainRow "bcdefgh" false true none]
      .full
    let after := plainScreen [plainRow "ftp://a" true false none, plainRow "xyzxyzx" false true none]
      .someRows
    let first := view wholeLine before size 1 none
    view wholeLine after size 2 (some first) = view wholeLine after size 2 none := by
  intro size before after first
  have keeps : KeepsLinks wholeLine before size := by
    unfold KeepsLinks
    decide +kernel
  have start : (frameSystem wholeLine).Reachable ⟨before, size, none, before⟩ :=
    .start ⟨rfl, by decide, by decide⟩
  have takes : (frameSystem wholeLine).step ⟨before, size, none, before⟩ (.take 1)
      (Frames.perform wholeLine ⟨before, size, none, before⟩ (.take 1)) := by
    refine ⟨trivial, rfl, ?_⟩
    intro _ _
    exact keeps
  have taken := start.next takes
  have marks : SoundMarks before after size := by
    refine .inr ?_
    intro y row below found clean
    have above : y = 0 ∨ y = 1 := by
      have bound : y < 2 := below
      omega
    rcases above with rfl | rfl
    · cases found
      exact ⟨_, rfl, rfl⟩
    · cases found
      cases clean
  have changes : (frameSystem wholeLine).step
      (Frames.perform wholeLine ⟨before, size, none, before⟩ (.take 1)) (.change after size)
      (Frames.perform wholeLine (Frames.perform wholeLine ⟨before, size, none, before⟩ (.take 1))
        (.change after size)) := by
    refine ⟨⟨⟨by decide, by decide⟩, ?_⟩, rfl, ?_⟩
    · intro view _ _
      exact marks
    · intro revision isTake
      cases isTake
  exact incremental_view_eq (taken.next changes) 2

end Condr.Vt
