import Mathlib.Data.List.Basic
import Mathlib.Tactic.Common
import Mathlib.Algebra.GroupWithZero.Nat

/-!
# The recent text of a Pane

The last rows of the active screen and its scrollback. The terminal engine gives the text
between two cells.
-/

namespace Condr

/-- What the terminal engine says of a Pane: the rows there are and those on the screen, the
columns, and the text from one cell to another. -/
structure VtTerminal where
  total : ℕ
  len : ℕ
  cols : ℕ
  selectionText : ℕ × ℕ → ℕ × ℕ → Option String

def stripCarriageReturn (line : List Char) : List Char :=
  if line.getLast? = some '\r' then line.dropLast else line

/-- `str::lines`: every line is behind its terminator, and the rest is a line unless it is
empty. -/
def textLines (text : List Char) : List (List Char) :=
  let pieces := text.splitOn '\n'
  pieces.dropLast.map stripCarriageReturn ++
    (pieces.getLast?.filter fun last => !last.isEmpty).toList

/-- `trim_end_matches` of line feeds. -/
def trimLineFeeds (text : List Char) : List Char :=
  (text.reverse.dropWhile (· == '\n')).reverse

/-- `terminal.recent_text`, row by row. -/
def VtTerminal.recentRows (terminal : VtTerminal) (lines : ℕ) : List (List Char) :=
  if terminal.total = 0 then []
  else
    let last := terminal.total - 1
    let wanted := min (lines + terminal.len) (2 ^ 64 - 1)
    let first := if last - wanted < 2 ^ 32 then last - wanted else 0
    let text := terminal.selectionText (0, first) (terminal.cols - 1, min last (2 ^ 32 - 1))
    let rows := textLines (trimLineFeeds (text.getD "").toList)
    rows.drop (rows.length - lines)

/-- The rows joined by line feeds. A Pane whose lock is poisoned has no text. -/
def recentText (terminal : Option VtTerminal) (lines : ℕ) : String :=
  match terminal with
  | none => ""
  | some terminal => String.ofList (['\n'].intercalate (terminal.recentRows lines))

/-- The bytes of the rows, and of the line feeds between them. -/
def rowsSize (rows : List (List Char)) : ℕ :=
  (rows.map fun row => (String.ofList row).utf8ByteSize).sum + (rows.length - 1)

theorem utf8ByteSize_append_ofList (front back : List Char) :
    (String.ofList (front ++ back)).utf8ByteSize =
      (String.ofList front).utf8ByteSize + (String.ofList back).utf8ByteSize := by
  rw [String.ofList_append, String.utf8ByteSize_append]

theorem utf8ByteSize_intercalate (rows : List (List Char)) :
    (String.ofList (['\n'].intercalate rows)).utf8ByteSize = rowsSize rows := by
  induction rows with
  | nil => rfl
  | cons row rows ih =>
      cases rows with
      | nil => simp [List.intercalate, rowsSize]
      | cons next rows =>
          have feed : (String.ofList ['\n']).utf8ByteSize = 1 := by decide
          rw [List.intercalate_cons_cons, utf8ByteSize_append_ofList, utf8ByteSize_append_ofList,
            ih, feed]
          simp only [rowsSize, List.map_cons, List.sum_cons, List.length_cons]
          omega

end Condr
