import Condr.Foundation.Lists
import Condr.Foundation.Utf8
import Condr.Protocol.Pb
import Condr.Terminal.HyperlinkTable

/-!
# Terminal views on the wire

Cells travel as parallel columns, and a link as its place in the table of the frame. The
decoder reads the columns one cell at a time. It is written with a fault for every read that
would panic, beside the errors it reports.
-/

namespace Condr

def maxTerminalCells : ℕ := 65536
def maxTerminalCellTextBytes : ℕ := 256

namespace Pb

structure TerminalSize where
  rows : UInt32
  columns : UInt32
  cellWidth : UInt32
  cellHeight : UInt32

structure TerminalCursor where
  row : UInt32
  column : UInt32
  shape : ℤ
  blinking : Bool

structure TerminalPosition where
  row : UInt32
  column : UInt32
  side : ℤ

structure TerminalSelection where
  start : Option TerminalPosition
  finish : Option TerminalPosition
  displayOffset : UInt32

structure TerminalCells where
  text : String
  textLen : List UInt32
  foreground : List UInt32
  background : List UInt32
  flags : List UInt32
  hyperlink : List UInt32
  underline : List UInt32

structure TerminalView where
  revision : ℕ
  size : Option TerminalSize
  displayOffset : UInt32
  mouseTracking : ℤ
  hyperlinks : List String
  cells : Option TerminalCells
  cursor : Option TerminalCursor
  selection : Option TerminalSelection

structure TerminalViewDelta where
  baseRevision : ℕ
  revision : ℕ
  displayOffset : UInt32
  mouseTracking : ℤ
  cursor : Option TerminalCursor
  selection : Option TerminalSelection
  hyperlinks : List String
  runStart : List UInt32
  runLen : List UInt32
  cells : Option TerminalCells

end Pb

/-! ## Numbers and enums -/

/-- A wire number that holds a narrower one. -/
def narrow {Small : Type} (size : ℕ) (cut : UInt32 → Small) (value : UInt32) (field : String) :
    WireResult Small :=
  if value.toNat < size then .ok (cut value) else malformed (field ++ " is out of range")

def narrow16 : UInt32 → String → WireResult UInt16 := narrow UInt16.size UInt32.toUInt16

def narrow8 : UInt32 → String → WireResult UInt8 := narrow UInt8.size UInt32.toUInt8

/-- The kind in the low two bits, the value above them. -/
def encodeColor : TerminalColor → UInt32
  | .default => 0
  | .indexed value => value.toUInt32 <<< 2 ||| 2
  | .rgb red green blue =>
      (red.toUInt32 <<< 16 ||| green.toUInt32 <<< 8 ||| blue.toUInt32) <<< 2 ||| 3

def decodeColor (value : UInt32) : WireResult TerminalColor :=
  let payload := value >>> 2
  let kind := value &&& 3
  if kind = 0 ∧ payload = 0 then .ok .default
  else if kind = 1 then .ok .default
  else if kind = 2 then (narrow8 payload "indexed color").map .indexed
  else if kind = 3 ∧ payload ≤ 0xffffff then
    .ok (.rgb (payload >>> 16).toUInt8 (payload >>> 8).toUInt8 payload.toUInt8)
  else malformed "terminal cell color is not a known kind"

def encodeSize (size : TerminalSize) : Pb.TerminalSize where
  rows := size.rows.toUInt32
  columns := size.columns.toUInt32
  cellWidth := size.cellWidth.toUInt32
  cellHeight := size.cellHeight.toUInt32

def decodeSize (size : Pb.TerminalSize) : WireResult TerminalSize := do
  let rows ← narrow16 size.rows "terminal rows"
  let columns ← narrow16 size.columns "terminal columns"
  let cellWidth ← narrow16 size.cellWidth "cell width"
  let cellHeight ← narrow16 size.cellHeight "cell height"
  return { rows, columns, cellWidth, cellHeight }

def encodeMouseTracking : TerminalMouseTracking → ℤ
  | .none => 1
  | .click => 2
  | .drag => 3
  | .motion => 4

def decodeMouseTracking (raw : ℤ) : WireResult TerminalMouseTracking :=
  enumOr raw "mouse tracking" .none fun raw => match raw with
    | 1 => some .none
    | 2 => some .click
    | 3 => some .drag
    | 4 => some .motion
    | _ => none

def TerminalCursorShape.toWire : TerminalCursorShape → ℤ
  | .block => 1
  | .underline => 2
  | .beam => 3
  | .hollowBlock => 4
  | .hidden => 5

def cursorShape (raw : ℤ) : WireResult TerminalCursorShape :=
  enumOr raw "cursor shape" .block fun raw => match raw with
    | 1 => some .block
    | 2 => some .underline
    | 3 => some .beam
    | 4 => some .hollowBlock
    | 5 => some .hidden
    | _ => none

def encodeCursor (cursor : TerminalCursor) : Pb.TerminalCursor where
  row := cursor.row.toUInt32
  column := cursor.column.toUInt32
  shape := cursor.shape.toWire
  blinking := cursor.blinking

def decodeCursor (cursor : Pb.TerminalCursor) : WireResult TerminalCursor := do
  let row ← narrow16 cursor.row "cursor row"
  let column ← narrow16 cursor.column "cursor column"
  let shape ← cursorShape cursor.shape
  return { row, column, shape, blinking := cursor.blinking }

def TerminalSide.toWire : TerminalSide → ℤ
  | .left => 1
  | .right => 2

def selectionSide (raw : ℤ) : WireResult TerminalSide :=
  enumOr raw "selection side" .left fun raw => match raw with
    | 1 => some .left
    | 2 => some .right
    | _ => none

def encodePosition (position : TerminalPosition) : Pb.TerminalPosition where
  row := position.row.toUInt32
  column := position.column.toUInt32
  side := position.side.toWire

def decodePosition (position : Pb.TerminalPosition) : WireResult TerminalPosition := do
  let row ← narrow16 position.row "selection row"
  let column ← narrow16 position.column "selection column"
  let side ← selectionSide position.side
  return { row, column, side }

def encodeSelection (selection : TerminalSelection) : Pb.TerminalSelection where
  start := some (encodePosition selection.start)
  finish := some (encodePosition selection.finish)
  displayOffset := selection.displayOffset

def decodeSelection (selection : Pb.TerminalSelection) : WireResult TerminalSelection := do
  let start ← decodePosition (← required selection.start "selection start")
  let finish ← decodePosition (← required selection.finish "selection end")
  return { start, finish, displayOffset := selection.displayOffset }

/-! ## Cells in columns -/

/-- A column that stays empty until a cell needs it, and whether one did. -/
structure OptionalColumn where
  values : List UInt32
  any : Bool

/-- `resize(index, 0)` before the first value that is not zero. -/
def OptionalColumn.push (index : ℕ) (column : OptionalColumn) (value : UInt32) : OptionalColumn :=
  let values :=
    if value ≠ 0 ∧ column.any = false then
      column.values.take index ++ List.replicate (index - column.values.length) 0
    else column.values
  if value ≠ 0 ∨ column.any then { values := values ++ [value], any := true }
  else { values := values, any := false }

/-- The columns with the cells written so far. -/
structure CellWriter where
  text : String
  textLen : List UInt32
  foreground : List UInt32
  background : List UInt32
  flags : OptionalColumn
  underline : OptionalColumn
  hyperlink : OptionalColumn
  hyperlinks : WireHyperlinks
  index : ℕ

def CellWriter.start (hyperlinks : WireHyperlinks) : CellWriter where
  text := ""
  textLen := []
  foreground := []
  background := []
  flags := { values := [], any := false }
  underline := { values := [], any := false }
  hyperlink := { values := [], any := false }
  hyperlinks := hyperlinks
  index := 0

/-- A link's column value, one above its place in the table, and the table after it. -/
def internCell (memory : Memory) (hyperlinks : WireHyperlinks) (cell : TerminalCell SmolStr) :
    UInt32 × WireHyperlinks :=
  match cell.hyperlink with
  | none => (0, hyperlinks)
  | some hyperlink =>
      match hyperlinks.intern memory hyperlink with
      | (none, hyperlinks) => (0, hyperlinks)
      | (some index, hyperlinks) => (UInt32.ofNat index + 1, hyperlinks)

/-- The body of the loop of `encode_cells`. -/
def CellWriter.write (memory : Memory) (writer : CellWriter) (cell : TerminalCell SmolStr) :
    CellWriter :=
  let (hyperlink, hyperlinks) := internCell memory writer.hyperlinks cell
  { text := writer.text ++ cell.text
    textLen := writer.textLen ++ [UInt32.ofNat cell.text.utf8ByteSize]
    foreground := writer.foreground ++ [encodeColor cell.foreground]
    background := writer.background ++ [encodeColor cell.background]
    flags := writer.flags.push writer.index cell.flags
    underline := writer.underline.push writer.index (encodeColor cell.underlineColor)
    hyperlink := writer.hyperlink.push writer.index hyperlink
    hyperlinks := hyperlinks
    index := writer.index + 1 }

/-- The columns of the cells, and the table with their links. -/
def encodeCells (memory : Memory) (cells : List (TerminalCell SmolStr))
    (hyperlinks : WireHyperlinks) : Pb.TerminalCells × WireHyperlinks :=
  let writer := cells.foldl (CellWriter.write memory) (.start hyperlinks)
  ({ text := writer.text
     textLen := writer.textLen
     foreground := writer.foreground
     background := writer.background
     flags := writer.flags.values
     hyperlink := writer.hyperlink.values
     underline := writer.underline.values },
    writer.hyperlinks)

/-- Why nothing was read: a read outside of its column, which would panic, or an error. -/
inductive ReadFault where
  | outOfRange
  | wire (error : WireError)
deriving DecidableEq

abbrev ReadResult (α : Type) := Except ReadFault α

def fromWire {α : Type} (result : WireResult α) : ReadResult α := result.mapError .wire

/-- An indexed read. -/
def readAt (column : List UInt32) (index : ℕ) : ReadResult UInt32 :=
  match column[index]? with
  | none => .error .outOfRange
  | some value => .ok value

structure CellReader where
  columns : Pb.TerminalCells
  hyperlinks : List String
  index : ℕ
  offset : ℕ

namespace CellReader

def new (columns : Pb.TerminalCells) (hyperlinks : List String) (count : ℕ) :
    ReadResult CellReader :=
  let optional (column : List UInt32) := column.isEmpty || column.length == count
  if columns.textLen.length ≠ count ∨ columns.foreground.length ≠ count ∨
      columns.background.length ≠ count ∨ !optional columns.flags ∨
      !optional columns.hyperlink ∨ !optional columns.underline then
    fromWire (malformed "terminal cell columns disagree on the cell count")
  else .ok { columns := columns, hyperlinks := hyperlinks, index := 0, offset := 0 }

/-- The link a column value stands for. -/
def linkAt (hyperlinks : List String) (link : UInt32) : WireResult (Option String) :=
  if link = 0 then .ok none
  else match hyperlinks[link.toNat - 1]? with
  | none => malformed "terminal cell references an invalid hyperlink index"
  | some hyperlink => .ok (some hyperlink)

def nextCell (reader : CellReader) : ReadResult (TerminalCell String × CellReader) := do
  let length := (← readAt reader.columns.textLen reader.index).toNat
  if maxTerminalCellTextBytes < length then
    fromWire (malformed "terminal cell text exceeds the byte limit")
  else match Utf8.get reader.columns.text reader.offset (reader.offset + length) with
  | none => fromWire (malformed "terminal cell text does not split on character boundaries")
  | some text => do
      let hyperlink ←
        fromWire (linkAt reader.hyperlinks (reader.columns.hyperlink[reader.index]?.getD 0))
      let flags := reader.columns.flags[reader.index]?.getD 0
      let underlineColor ←
        fromWire (decodeColor (reader.columns.underline[reader.index]?.getD 0))
      let foreground ← fromWire (decodeColor (← readAt reader.columns.foreground reader.index))
      let background ← fromWire (decodeColor (← readAt reader.columns.background reader.index))
      return ({ text, foreground, background, underlineColor, flags, hyperlink },
        { reader with index := reader.index + 1, offset := reader.offset + length })

def cells : ℕ → CellReader → ReadResult (List (TerminalCell String) × CellReader)
  | 0, reader => .ok ([], reader)
  | count + 1, reader => do
      let (cell, reader) ← reader.nextCell
      let (cells, reader) ← CellReader.cells count reader
      return (cell :: cells, reader)

def finish (reader : CellReader) : ReadResult Unit :=
  if reader.offset ≠ reader.columns.text.utf8ByteSize then
    fromWire (malformed "terminal cell text has bytes no cell covers")
  else .ok ()

end CellReader

/-- The loop of `decode_hyperlinks` from a running total. -/
def checkHyperlinks : ℕ → List String → WireResult Unit
  | _, [] => .ok ()
  | bytes, hyperlink :: hyperlinks =>
      if maxTerminalHyperlinkUriBytes < hyperlink.utf8ByteSize then
        malformed "terminal hyperlink URI exceeds the byte limit"
      else if maxTerminalHyperlinkBytes < bytes + hyperlink.utf8ByteSize then
        malformed "terminal hyperlink table exceeds the byte limit"
      else checkHyperlinks (bytes + hyperlink.utf8ByteSize) hyperlinks

def decodeHyperlinks (hyperlinks : List String) : WireResult (List String) :=
  if maxTerminalHyperlinks < hyperlinks.length then
    malformed "terminal hyperlink table exceeds u16 indices"
  else (checkHyperlinks 0 hyperlinks).map fun _ => hyperlinks

/-! ## Views and deltas -/

def TerminalView.toWire (memory : Memory) (view : TerminalView SmolStr) : Pb.TerminalView :=
  let (cells, hyperlinks) := encodeCells memory view.cells .default
  { revision := view.revision
    size := some (encodeSize view.size)
    displayOffset := view.displayOffset
    mouseTracking := encodeMouseTracking view.mouseTracking
    hyperlinks := hyperlinks.values.map (SmolStr.read memory)
    cells := some cells
    cursor := view.cursor.map encodeCursor
    selection := view.selection.map encodeSelection }

def Pb.TerminalView.toDomain (view : Pb.TerminalView) : ReadResult (Condr.TerminalView String) := do
  let size ← fromWire (decodeSize (← fromWire (required view.size "terminal size")))
  let count := size.rows.toNat * size.columns.toNat
  if maxTerminalCells < count then
    fromWire (malformed "terminal grid exceeds the maximum cell count")
  else do
    let hyperlinks ← fromWire (decodeHyperlinks view.hyperlinks)
    let columns ← fromWire (required view.cells "terminal cells")
    let reader ← CellReader.new columns hyperlinks count
    let (cells, reader) ← reader.cells count
    reader.finish
    let mouseTracking ← fromWire (decodeMouseTracking view.mouseTracking)
    let cursor ← fromWire (transposeMap decodeCursor view.cursor)
    let selection ← fromWire (transposeMap decodeSelection view.selection)
    return {
      revision := view.revision
      size := size
      displayOffset := view.displayOffset
      mouseTracking := mouseTracking
      cells := cells
      cursor := cursor
      selection := selection }

def TerminalViewDelta.toWire (memory : Memory) (delta : TerminalViewDelta SmolStr) :
    Pb.TerminalViewDelta :=
  let (cells, hyperlinks) := encodeCells memory delta.cells .default
  { baseRevision := delta.baseRevision
    revision := delta.revision
    displayOffset := delta.displayOffset
    mouseTracking := encodeMouseTracking delta.mouseTracking
    cursor := delta.cursor.map encodeCursor
    selection := delta.selection.map encodeSelection
    hyperlinks := hyperlinks.values.map (SmolStr.read memory)
    runStart := delta.runs.map TerminalCellRun.start
    runLen := delta.runs.map fun run => UInt32.ofNat run.cells.length
    cells := some cells }

/-- The cells of all runs, counted from a running total. -/
def countCells : ℕ → List UInt32 → WireResult ℕ
  | count, [] => .ok count
  | count, length :: lengths =>
      if maxTerminalCells < count + length.toNat then
        malformed "terminal delta exceeds the maximum cell count"
      else countCells (count + length.toNat) lengths

/-- Every run with its cells, in order. -/
def readRuns : List (UInt32 × UInt32) → CellReader →
    ReadResult (List (TerminalCellRun String) × CellReader)
  | [], reader => .ok ([], reader)
  | (start, length) :: runs, reader => do
      let (cells, reader) ← reader.cells length.toNat
      let (runs, reader) ← readRuns runs reader
      return ({ start := start, cells := cells } :: runs, reader)

def Pb.TerminalViewDelta.toDomain (delta : Pb.TerminalViewDelta) :
    ReadResult (Condr.TerminalViewDelta String) := do
  if delta.runStart.length ≠ delta.runLen.length then
    fromWire (malformed "terminal delta run columns disagree")
  else do
    let count ← fromWire (countCells 0 delta.runLen)
    let hyperlinks ← fromWire (decodeHyperlinks delta.hyperlinks)
    let columns ← fromWire (required delta.cells "terminal cells")
    let reader ← CellReader.new columns hyperlinks count
    let (runs, reader) ← readRuns (delta.runStart.zip delta.runLen) reader
    reader.finish
    let mouseTracking ← fromWire (decodeMouseTracking delta.mouseTracking)
    let cursor ← fromWire (transposeMap decodeCursor delta.cursor)
    let selection ← fromWire (transposeMap decodeSelection delta.selection)
    return {
      baseRevision := delta.baseRevision
      revision := delta.revision
      displayOffset := delta.displayOffset
      mouseTracking := mouseTracking
      cursor := cursor
      selection := selection
      runs := runs }

end Condr
