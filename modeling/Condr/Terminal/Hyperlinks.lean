import Condr.Foundation.Budget
import Condr.Terminal.View
import Mathlib.Data.List.AList

/-!
# Hyperlinks of terminal views

Every holder of a view keeps a budget for the hyperlinks its cells retain, and every frame
on the wire carries a table of its own links. Both read a link as a string that may lie on
the heap, and remember where a string lies to find its entry sooner. A `none` stands for a
panic of the code.
-/

namespace Condr

def maxTerminalHyperlinks : ℕ := 65535 + 1
def maxTerminalHyperlinkUriBytes : ℕ := 8 * 1024
def maxTerminalHyperlinkBytes : ℕ := 4 * 1024 * 1024

/-- The limits on the links of one view, and of one frame on the wire. -/
def hyperlinkLimits : Budget.Limits String where
  cost := String.utf8ByteSize
  each := maxTerminalHyperlinkUriBytes
  total := maxTerminalHyperlinkBytes
  count := maxTerminalHyperlinks

/-! ## Strings -/

/-- The text at every address of the heap that a live string has. -/
abbrev Memory := ℕ → String

/-- A short text in place, or one on the heap that clones share. -/
inductive SmolStr where
  | inline (text : String)
  | heap (address : ℕ)
deriving DecidableEq

def SmolStr.read (memory : Memory) : SmolStr → String
  | .inline text => text
  | .heap address => memory address

abbrev Pointer := ℕ × ℕ

def heapStringPointer (memory : Memory) : SmolStr → Option Pointer
  | .inline _ => none
  | .heap address => some (address, (memory address).utf8ByteSize)

/-- What a pass found out about the strings at each pointer. -/
abbrev Aliases := AList fun _ : Pointer => Option ℕ

def Aliases.note (aliases : Aliases) (outcome : Option ℕ) : Option Pointer → Aliases
  | none => aliases
  | some pointer => aliases.insert pointer outcome

def checkedAdd (left right : ℕ) : Option ℕ :=
  if left + right < 2 ^ 64 then some (left + right) else none

/-! ## The table of one frame -/

structure WireHyperlinks where
  values : List SmolStr
  indices : AList fun _ : String => ℕ
  pointers : Aliases
  bytes : ℕ

namespace WireHyperlinks

def default : WireHyperlinks where
  values := []
  indices := ∅
  pointers := ∅
  bytes := 0

def internByValue (memory : Memory) (table : WireHyperlinks) (hyperlink : SmolStr) :
    Option ℕ × WireHyperlinks :=
  let text := hyperlink.read memory
  if maxTerminalHyperlinkUriBytes < text.utf8ByteSize then (none, table)
  else match table.indices.lookup text with
  | some index => (some index, table)
  | none =>
      match checkedAdd table.bytes text.utf8ByteSize with
      | none => (none, table)
      | some nextBytes =>
          -- an index is a `u16`
          if maxTerminalHyperlinkBytes < nextBytes ∨ 65535 < table.values.length then (none, table)
          else
            (some table.values.length,
              { table with
                bytes := nextBytes
                values := table.values ++ [hyperlink]
                indices := table.indices.insert text table.values.length })

def intern (memory : Memory) (table : WireHyperlinks) (hyperlink : SmolStr) :
    Option ℕ × WireHyperlinks :=
  let pointer := heapStringPointer memory hyperlink
  match pointer.bind table.pointers.lookup with
  | some index => (index, table)
  | none =>
      let (index, table) := table.internByValue memory hyperlink
      (index, { table with pointers := table.pointers.note index pointer })

/-- The cell with the table's string for its link, and whether it lost the link. -/
def normalizeCell (memory : Memory) (table : WireHyperlinks) (cell : TerminalCell SmolStr) :
    Option (TerminalCell SmolStr × Bool × WireHyperlinks) :=
  match cell.hyperlink with
  | none => some (cell, false, table)
  | some hyperlink =>
      match table.intern memory hyperlink with
      | (none, table) => some ({ cell with hyperlink := none }, true, table)
      | (some index, table) => do
          let value ← table.values[index]?
          return ({ cell with hyperlink := some value }, false, table)

def normalizeCells (memory : Memory) :
    WireHyperlinks → List (TerminalCell SmolStr) → Option (List (TerminalCell SmolStr) × Bool)
  | _, [] => some ([], false)
  | table, cell :: cells => do
      let (cell, lost, table) ← table.normalizeCell memory cell
      let (cells, changed) ← table.normalizeCells memory cells
      return (cell :: cells, lost || changed)

end WireHyperlinks

/-- The runs with other cells, in order. -/
def refill {Link Other : Type} : List (TerminalCellRun Link) → List (TerminalCell Other) →
    List (TerminalCellRun Other)
  | [], _ => []
  | run :: runs, cells =>
      { start := run.start, cells := cells.take run.cells.length } ::
        refill runs (cells.drop run.cells.length)

def TerminalView.normalizeHyperlinksForWire (memory : Memory) (view : TerminalView SmolStr) :
    Option (TerminalView SmolStr × Bool) := do
  let (cells, changed) ← WireHyperlinks.default.normalizeCells memory view.cells
  return ({ view with cells := cells }, changed)

def TerminalViewDelta.normalizeHyperlinksForWire (memory : Memory)
    (delta : TerminalViewDelta SmolStr) : Option (TerminalViewDelta SmolStr × Bool) := do
  let (cells, changed) ← WireHyperlinks.default.normalizeCells memory delta.cells
  return ({ delta with runs := refill delta.runs cells }, changed)

/-- Applies the limits of the wire, and tells whether a link was lost. -/
def TerminalViewFrame.normalizeHyperlinksForWire (memory : Memory) :
    TerminalViewFrame SmolStr → Option (TerminalViewFrame SmolStr × Bool)
  | .full view => do
      let (view, changed) ← view.normalizeHyperlinksForWire memory
      return (.full view, changed)
  | .delta update => do
      let (update, changed) ← update.normalizeHyperlinksForWire memory
      return (.delta update, changed)

/-! ## The budget of a retained view -/

structure TrackedHyperlink where
  uri : SmolStr
  references : ℕ
deriving DecidableEq

structure TerminalHyperlinkBudget where
  byUri : AList fun _ : String => ℕ
  byPointer : AList fun _ : Pointer => ℕ
  entries : List (Option TrackedHyperlink)
  freeEntries : List ℕ
  bytes : ℕ

namespace TerminalHyperlinkBudget

def entryAt (budget : TerminalHyperlinkBudget) (index : ℕ) : Option TrackedHyperlink :=
  budget.entries[index]?.join

/-- The entry found by where the string lies, or else by its text. -/
def find (memory : Memory) (budget : TerminalHyperlinkBudget) (uri : SmolStr) : Option ℕ :=
  ((heapStringPointer memory uri).bind budget.byPointer.lookup).or
    (budget.byUri.lookup (uri.read memory))

def retain (budget : TerminalHyperlinkBudget) (index : ℕ) : Option TerminalHyperlinkBudget := do
  let entry ← budget.entryAt index
  return { budget with
    entries := budget.entries.set index (some { entry with references := entry.references + 1 }) }

/-- A new entry, in a free place or behind the others. -/
def place (memory : Memory) (budget : TerminalHyperlinkBudget) (uri : SmolStr) (nextBytes : ℕ) :
    Option (ℕ × TerminalHyperlinkBudget) :=
  let index := budget.freeEntries.head?.getD budget.entries.length
  let entry : TrackedHyperlink := { uri := uri, references := 1 }
  let placed : TerminalHyperlinkBudget :=
    { byUri := budget.byUri.insert (uri.read memory) index
      byPointer := match heapStringPointer memory uri with
        | some pointer => budget.byPointer.insert pointer index
        | none => budget.byPointer
      entries := budget.entries
      freeEntries := budget.freeEntries.tail
      bytes := nextBytes }
  if index = budget.entries.length then
    some (index, { placed with entries := budget.entries ++ [some entry] })
  else if index < budget.entries.length then
    some (index, { placed with entries := budget.entries.set index (some entry) })
  else none

def admitLink (memory : Memory) (budget : TerminalHyperlinkBudget) (aliases : Aliases)
    (uri : SmolStr) : Option (Option ℕ × TerminalHyperlinkBudget × Aliases) :=
  let pointer := heapStringPointer memory uri
  let length := (uri.read memory).utf8ByteSize
  match pointer.bind aliases.lookup with
  | some (some index) => do
      let budget ← budget.retain index
      return (some index, budget, aliases)
  | some none => some (none, budget, aliases)
  | none =>
      if maxTerminalHyperlinkUriBytes < length then some (none, budget, aliases.note none pointer)
      else match budget.find memory uri with
      | some index => do
          let budget ← budget.retain index
          return (some index, budget, aliases.note (some index) pointer)
      | none =>
          match checkedAdd budget.bytes length with
          | none => some (none, budget, aliases)
          | some nextBytes =>
              if maxTerminalHyperlinkBytes < nextBytes ∨
                  maxTerminalHyperlinks ≤ budget.byUri.keys.length then
                some (none, budget, aliases.note none pointer)
              else do
                let (index, budget) ← budget.place memory uri nextBytes
                return (some index, budget, aliases.note (some index) pointer)

/-- The cells with the budget's strings for their links, and whether a link was lost. -/
def normalizeCells (memory : Memory) :
    TerminalHyperlinkBudget → Aliases → List (TerminalCell SmolStr) →
      Option (List (TerminalCell SmolStr) × Bool × TerminalHyperlinkBudget)
  | budget, _, [] => some ([], false, budget)
  | budget, aliases, cell :: cells =>
      match cell.hyperlink with
      | none => do
          let (cells, lost, budget) ← budget.normalizeCells memory aliases cells
          return (cell :: cells, lost, budget)
      | some hyperlink => do
          let (admitted, budget, aliases) ← budget.admitLink memory aliases hyperlink
          match admitted with
          | none => do
              let (cells, _, budget) ← budget.normalizeCells memory aliases cells
              return ({ cell with hyperlink := none } :: cells, true, budget)
          | some index => do
              let entry ← budget.entryAt index
              let (cells, lost, budget) ← budget.normalizeCells memory aliases cells
              return ({ cell with hyperlink := some entry.uri } :: cells, lost, budget)

/-- Takes back one reference, and the entry with its last. -/
def release (memory : Memory) (budget : TerminalHyperlinkBudget) (uri : SmolStr) :
    Option TerminalHyperlinkBudget := do
  let index ← budget.find memory uri
  let entry ← budget.entryAt index
  match entry.references with
  | 0 => none
  | references + 1 =>
      if references ≠ 0 then
        return { budget with
          entries := budget.entries.set index (some { entry with references := references }) }
      else if budget.bytes < (entry.uri.read memory).utf8ByteSize then none
      else
        return {
          byUri := budget.byUri.erase (entry.uri.read memory)
          byPointer := match heapStringPointer memory entry.uri with
            | some pointer => budget.byPointer.erase pointer
            | none => budget.byPointer
          entries := budget.entries.set index none
          freeEntries := index :: budget.freeEntries
          bytes := budget.bytes - (entry.uri.read memory).utf8ByteSize }

def releaseCells (memory : Memory) (budget : TerminalHyperlinkBudget)
    (cells : List (TerminalCell SmolStr)) : Option TerminalHyperlinkBudget :=
  (cells.filterMap TerminalCell.hyperlink).foldlM (fun budget uri => budget.release memory uri)
    budget

def empty : TerminalHyperlinkBudget where
  byUri := ∅
  byPointer := ∅
  entries := []
  freeEntries := []
  bytes := 0

/-- Bounds a whole view, and starts its budget. -/
def new (memory : Memory) (view : TerminalView SmolStr) :
    Option (TerminalHyperlinkBudget × TerminalView SmolStr) := do
  let (cells, _, budget) ← empty.normalizeCells memory ∅ view.cells
  return (budget, { view with cells := cells })

/-- Applies a delta whose links the budget admits, and returns it with them. -/
def applyDelta (memory : Memory) (budget : TerminalHyperlinkBudget) (view : TerminalView SmolStr)
    (delta : TerminalViewDelta SmolStr) :
    Option (Except TerminalFrameError
      (TerminalHyperlinkBudget × TerminalView SmolStr × TerminalViewDelta SmolStr)) :=
  match view.validateDelta delta with
  | .error error => some (.error error)
  | .ok () =>
      let deltaHasLinks := delta.cells.any fun cell => cell.hyperlink.isSome
      if budget.byUri.keys.isEmpty && !deltaHasLinks then
        some (.ok (budget, view.applyValidatedDelta delta, delta))
      else do
        let released ← delta.runs.foldlM
          (fun budget run => budget.releaseCells memory (run.replaced view.cells)) budget
        if deltaHasLinks then do
          let (cells, _, budget) ← released.normalizeCells memory ∅ delta.cells
          let delta := { delta with runs := refill delta.runs cells }
          return .ok (budget, view.applyValidatedDelta delta, delta)
        else return .ok (released, view.applyValidatedDelta delta, delta)

end TerminalHyperlinkBudget

end Condr
