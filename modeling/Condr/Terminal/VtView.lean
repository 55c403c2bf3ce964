import Condr.Terminal.View
import Mathlib.Algebra.GroupWithZero.Nat

/-!
# The view of a terminal

What `Vt::view` makes of the screen the terminal library holds. With the view taken before, only
the rows the library marks are read again. Links that a program set come with their cells; plain
URLs are found in the text of whole lines, and every link then has to fit the limits of one view.
-/

namespace Condr.Vt

/-! ## The library's screen -/

inductive CellWidth where
  | narrow
  | wide
  | spacerTail
  | spacerHead
deriving DecidableEq

inductive Underline where
  | none
  | single
  | double
  | curly
  | dotted
  | dashed
deriving DecidableEq

structure Rgb where
  red : UInt8
  green : UInt8
  blue : UInt8
deriving DecidableEq

inductive Color where
  | default
  | palette (index : UInt8)
  | rgb (value : Rgb)
deriving DecidableEq

structure Style where
  foreground : Color
  background : Color
  underlineColor : Color
  bold : Bool
  italic : Bool
  faint : Bool
  blink : Bool
  inverse : Bool
  invisible : Bool
  strikethrough : Bool
  overline : Bool
  underline : Underline
deriving DecidableEq

/-- A cell with the link that `Terminal::hyperlink` answers for it. -/
structure Cell where
  text : String
  style : Style
  width : CellWidth
  hyperlink : Option String
deriving DecidableEq

structure Row where
  cells : List Cell
  wrapped : Bool
  dirty : Bool
  selection : Option (UInt16 × UInt16)
deriving DecidableEq

inductive Dirty where
  | clean
  /-- Some rows changed; each says whether it did. -/
  | someRows
  /-- Every row must be read again. -/
  | full
deriving DecidableEq

inductive CursorStyle where
  | bar
  | block
  | underline
  | blockHollow
deriving DecidableEq

structure Cursor where
  /-- Column and row in the viewport. -/
  position : Option (UInt16 × UInt16)
  visible : Bool
  blinking : Bool
  style : CursorStyle
deriving DecidableEq

structure Scrollbar where
  total : ℕ
  offset : ℕ
  len : ℕ
deriving DecidableEq

/-- The palette as the program left it and as the terminal started. -/
structure Colors where
  palette : UInt8 → Rgb
  defaultPalette : UInt8 → Rgb

structure Screen where
  rows : List Row
  dirty : Dirty
  colors : Colors
  cursor : Cursor
  scrollbar : Scrollbar
  modes : ℕ → Bool
  hasSelection : Bool

/-! ## Cells -/

def cellWidth : UInt32 := 0b11
def cellWide : UInt32 := 1
def cellSpacerTail : UInt32 := 2
def cellSpacerHead : UInt32 := 3
def cellUnderlineSingle : UInt32 := (1 : UInt32) <<< 2
def cellUnderlineDouble : UInt32 := (2 : UInt32) <<< 2
def cellUnderlineCurly : UInt32 := (3 : UInt32) <<< 2
def cellUnderlineDotted : UInt32 := (4 : UInt32) <<< 2
def cellUnderlineDashed : UInt32 := (5 : UInt32) <<< 2
def cellBold : UInt32 := (1 : UInt32) <<< 5
def cellItalic : UInt32 := (1 : UInt32) <<< 6
def cellFaint : UInt32 := (1 : UInt32) <<< 7
def cellBlink : UInt32 := (1 : UInt32) <<< 8
def cellInverse : UInt32 := (1 : UInt32) <<< 9
def cellInvisible : UInt32 := (1 : UInt32) <<< 10
def cellStrikethrough : UInt32 := (1 : UInt32) <<< 11
def cellOverline : UInt32 := (1 : UInt32) <<< 12
def detectedLinkFlag : UInt32 := (1 : UInt32) <<< 13
def cellWrapped : UInt32 := (1 : UInt32) <<< 14

def maxTerminalCellTextBytes : ℕ := 256

def rgbColor (value : Rgb) : TerminalColor := .rgb value.red value.green value.blue

/-- An entry a program changed goes out as its colour, an untouched one as its index. -/
def Colors.color (colors : Colors) : Color → TerminalColor
  | .default => .default
  | .palette index =>
      if colors.palette index = colors.defaultPalette index then .indexed index
      else rgbColor (colors.palette index)
  | .rgb value => rgbColor value

/-- The longest front of the characters within some bytes. -/
def cutChars : ℕ → List Char → List Char
  | _, [] => []
  | room, char :: chars =>
      if char.utf8Size ≤ room then char :: cutChars (room - char.utf8Size) chars else []

/-- A space where there is no text, and else the text cut at a character boundary. -/
def cellText (text : String) : String :=
  if text.isEmpty then " " else String.ofList (cutChars maxTerminalCellTextBytes text.toList)

def widthFlags : CellWidth → UInt32
  | .narrow => 0
  | .wide => cellWide
  | .spacerTail => cellSpacerTail
  | .spacerHead => cellSpacerHead

def underlineFlags : Underline → UInt32
  | .none => 0
  | .single => cellUnderlineSingle
  | .double => cellUnderlineDouble
  | .curly => cellUnderlineCurly
  | .dotted => cellUnderlineDotted
  | .dashed => cellUnderlineDashed

/-- The bits of a style that are set. -/
def styleBits (style : Style) : List (Bool × UInt32) :=
  [(style.bold, cellBold), (style.italic, cellItalic), (style.faint, cellFaint),
    (style.blink, cellBlink), (style.inverse, cellInverse), (style.invisible, cellInvisible),
    (style.strikethrough, cellStrikethrough), (style.overline, cellOverline)]

def cellFlags (width : CellWidth) (style : Style) : UInt32 :=
  (styleBits style).foldl (fun flags bit => if bit.1 then flags ||| bit.2 else flags)
    (widthFlags width ||| underlineFlags style.underline)

def terminalCell (cell : Cell) (colors : Colors) : TerminalCell String where
  text := cellText cell.text
  foreground := colors.color cell.style.foreground
  background := colors.color cell.style.background
  underlineColor := colors.color cell.style.underlineColor
  flags := cellFlags cell.width cell.style
  hyperlink := none

def blankCell : TerminalCell String where
  text := " "
  foreground := .default
  background := .default
  underlineColor := .default
  flags := 0
  hyperlink := none

def isSpacer (cell : TerminalCell String) : Bool := cellSpacerTail ≤ cell.flags &&& cellWidth

/-! ## Rows -/

/-- A cell as the view has it: with the wrap of its row on the last one, and with its link. -/
def readCell (colors : Colors) (columns : ℕ) (row : Row) (x : ℕ) (cell : Cell) :
    TerminalCell String :=
  let mapped := terminalCell cell colors
  { mapped with
    flags := if row.wrapped && x + 1 = columns then mapped.flags ||| cellWrapped else mapped.flags
    hyperlink := cell.hyperlink }

/-- Reads a row over the cells that are there. -/
def readRow (colors : Colors) (columns : ℕ) (row : Row) (old : List (TerminalCell String)) :
    List (TerminalCell String) :=
  (List.range columns).map fun x =>
    match row.cells[x]? with
    | none => old[x]?.getD blankCell
    | some cell => readCell colors columns row x cell

/-- The cells of a view from some place on. -/
def slice (columns y : ℕ) (cells : List (TerminalCell String)) : List (TerminalCell String) :=
  (cells.drop (y * columns)).take columns

/-- The cells of one row: those of the previous view where it is not marked. -/
def rowCells (screen : Screen) (size : TerminalSize) (previous : Option (TerminalView String))
    (y : ℕ) : List (TerminalCell String) :=
  let columns := size.columns.toNat
  let old := match previous with
    | none => List.replicate columns blankCell
    | some previous => slice columns y previous.cells
  match screen.rows[y]? with
  | none => old
  | some row =>
      if previous.isSome && !row.dirty then old else readRow screen.colors columns row old

def readCells (screen : Screen) (size : TerminalSize)
    (previous : Option (TerminalView String)) : List (TerminalCell String) :=
  (List.range size.rows.toNat).flatMap (rowCells screen size previous)

/-! ## Links found in the text -/

/-- Takes the mark of a link found in text off, and the link. -/
def undetect (cell : TerminalCell String) : TerminalCell String :=
  if cell.flags &&& detectedLinkFlag ≠ 0 then
    { cell with flags := cell.flags &&& ~~~detectedLinkFlag, hyperlink := none }
  else cell

/-- Whether the text of a row goes on in the next one. -/
def wraps (row : List (TerminalCell String)) : Bool :=
  row.getLast?.any fun cell => cell.flags &&& cellWrapped ≠ 0

/-- Joins each row with those it wraps into. -/
def logicalLines : List (List (TerminalCell String)) → List (List (TerminalCell String))
  | [] => []
  | row :: rows =>
      match logicalLines rows with
      | [] => [row]
      | line :: lines => if wraps row then (row ++ line) :: lines else row :: line :: lines

/-- The loop of `trimmed_url_len`, from the last character back. -/
def trimmedFromEnd : List Char → ℕ
  | [] => 0
  | char :: chars =>
      if char ∈ ['.', ',', ';', ':', '!', '?'] then trimmedFromEnd chars
      else
        let unmatched (opening closing : Char) : Bool :=
          (char :: chars).count opening < (char :: chars).count closing
        if char = ')' && unmatched '(' ')' || char = ']' && unmatched '[' ']' ||
            char = '}' && unmatched '{' '}' then trimmedFromEnd chars
        else chars.length + 1

/-- `trimmed_url_len`: the length without trailing punctuation and closing brackets that have no
opener. -/
def trimmedUrlLen (chars : List Char) : ℕ := trimmedFromEnd chars.reverse

/-- Every character of a line with its cell. -/
def owners (line : List (TerminalCell String)) : List (Char × ℕ) :=
  (line.zipIdx.filter fun entry => !isSpacer entry.1).map fun entry =>
    (entry.1.text.toList.head?.getD ' ', entry.2)

/-- Gives a cell without a link the one that was found. -/
def markCell (uri : String) (first last : ℕ) (index : ℕ) (cell : TerminalCell String) :
    TerminalCell String :=
  if first ≤ index && index < last && cell.hyperlink.isNone then
    { cell with hyperlink := some uri, flags := cell.flags ||| detectedLinkFlag }
  else cell

/-- Marks one URL, given by the places of its characters in the text. -/
def markUrl (owners : List (Char × ℕ)) (line : List (TerminalCell String)) (found : ℕ × ℕ) :
    List (TerminalCell String) :=
  let chars := ((owners.map Prod.fst).drop found.1).take (found.2 - found.1)
  let keep := trimmedUrlLen chars
  match owners[found.1]? with
  | none => line
  | some (_, first) =>
      if keep = 0 then line
      else
        let last := match owners[found.1 + keep]? with
          | some (_, index) => index
          | none => (owners[found.2 - 1]?.map fun owner => owner.2 + 1).getD 0
        line.mapIdx (markCell (String.ofList (chars.take keep)) first last)

/-- Where the URL pattern matches a text: the first character and the one after the last. -/
abbrev UrlFinder := List Char → List (ℕ × ℕ)

def markLine (find : UrlFinder) (line : List (TerminalCell String)) : List (TerminalCell String) :=
  (find ((owners line).map Prod.fst)).foldl (markUrl (owners line)) line

/-- Marks the URLs of every logical line. -/
def markLinks (find : UrlFinder) (size : TerminalSize) (cells : List (TerminalCell String)) :
    List (TerminalCell String) :=
  let rows := (List.range size.rows.toNat).map fun y => slice size.columns.toNat y cells
  (logicalLines rows).flatMap (markLine find)

/-- `detect_links`: cells of the previous view still carry the links found then. -/
def detectLinks (find : UrlFinder) (size : TerminalSize) (cells : List (TerminalCell String)) :
    List (TerminalCell String) :=
  markLinks find size (cells.map undetect)

/-! ## The limits of one view -/

def maxHyperlinkUriBytes : ℕ := 8 * 1024
def maxHyperlinkBytes : ℕ := 4 * 1024 * 1024

/-- The links one view carries, each text stored once. -/
structure Hyperlinks where
  values : List String
  bytes : ℕ

namespace Hyperlinks

def default : Hyperlinks where
  values := []
  bytes := 0

def intern (hyperlinks : Hyperlinks) (uri : String) : Hyperlinks × Option String :=
  if maxHyperlinkUriBytes < uri.utf8ByteSize then (hyperlinks, none)
  else if uri ∈ hyperlinks.values then (hyperlinks, some uri)
  else
    let bytes := hyperlinks.bytes + uri.utf8ByteSize
    if maxHyperlinkBytes < bytes then (hyperlinks, none)
    else ({ values := uri :: hyperlinks.values, bytes }, some uri)

/-- Takes the link of each cell, in order. -/
def internCells (hyperlinks : Hyperlinks) :
    List (TerminalCell String) → List (TerminalCell String)
  | [] => []
  | cell :: cells =>
      match cell.hyperlink with
      | none => cell :: hyperlinks.internCells cells
      | some uri =>
          { cell with hyperlink := (hyperlinks.intern uri).2 } ::
            (hyperlinks.intern uri).1.internCells cells

end Hyperlinks

/-! ## The rest of a view -/

def displayOffset (screen : Screen) : ℕ :=
  screen.scrollbar.total - (screen.scrollbar.offset + screen.scrollbar.len)

def mouseTracking (screen : Screen) : TerminalMouseTracking :=
  if screen.modes 1003 then .motion
  else if screen.modes 1002 then .drag
  else if screen.modes 1000 || screen.modes 9 then .click
  else .none

def cursor (screen : Screen) (size : TerminalSize) : Option TerminalCursor := do
  let (column, row) ← screen.cursor.position
  if row < size.rows ∧ column < size.columns then
    return {
      row
      column
      shape :=
        if !screen.cursor.visible then .hidden
        else
          match screen.cursor.style with
          | .block => .block
          | .underline => .underline
          | .bar => .beam
          | .blockHollow => .hollowBlock
      blinking := screen.cursor.blinking }
  else none

/-- The selection as inclusive cells; one that is out of view is one row past the grid. -/
def viewportSelection (screen : Screen) (size : TerminalSize) (displayOffset : UInt32) :
    Option TerminalSelection :=
  let selected := (screen.rows.take size.rows.toNat).zipIdx.filterMap fun entry =>
    entry.1.selection.map fun range => (UInt16.ofNat entry.2, range)
  if size.columns = 0 then none
  else
    let position (row column : UInt16) (side : TerminalSide) : TerminalPosition :=
      { row, column := min column (size.columns - 1), side }
    match selected.head?, selected.getLast? with
    | some (first, range), some (last, lastRange) =>
        some {
          start := position first range.1 .left
          finish := position last lastRange.2 .right
          displayOffset }
    | _, _ =>
        if screen.hasSelection then
          some {
            start := position size.rows 0 .left
            finish := position size.rows (size.columns - 1) .right
            displayOffset }
        else none

def u32OrMax (value : ℕ) : UInt32 := UInt32.ofNat (min value (2 ^ 32 - 1))

/-- The previous view, where its rows may be kept. -/
def narrowing (screen : Screen) (size : TerminalSize) (previous : Option (TerminalView String)) :
    Option (TerminalView String) :=
  previous.filter fun previous => previous.size = size && screen.dirty ≠ .full

/-- `Vt::view`. -/
def view (find : UrlFinder) (screen : Screen) (size : TerminalSize) (revision : ℕ)
    (previous : Option (TerminalView String)) : TerminalView String where
  revision
  size
  displayOffset := u32OrMax (displayOffset screen)
  mouseTracking := mouseTracking screen
  cells := Hyperlinks.default.internCells
    (detectLinks find size (readCells screen size (narrowing screen size previous)))
  cursor := cursor screen size
  selection := viewportSelection screen size (u32OrMax (displayOffset screen))

/-- The marks after a view: with a previous one they are cleared, on the rows in the view. -/
def Screen.markClean (screen : Screen) (size : TerminalSize) : Screen :=
  { screen with
    rows := screen.rows.mapIdx fun y row =>
      if y < size.rows.toNat then { row with dirty := false } else row
    dirty := .clean }

end Condr.Vt
