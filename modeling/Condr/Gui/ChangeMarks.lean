import Condr.Foundation.Boundaries
import Mathlib.Algebra.BigOperators.Group.List.Basic

/-!
# The change marks of a text

The lines of a text are compared with those of its old side, and each run of operations
between two that keep lines becomes one change, in the byte offsets of the new text. The
edit script itself comes from a library.
-/

namespace Condr

/-- One operation of an edit script, on line indices. -/
inductive DiffOp
  | equal (oldIndex newIndex len : ℕ)
  | delete (oldIndex oldLen newIndex : ℕ)
  | insert (oldIndex newIndex newLen : ℕ)
  | replace (oldIndex oldLen newIndex newLen : ℕ)
deriving DecidableEq

namespace DiffOp

def oldRange : DiffOp → ℕ × ℕ
  | equal oldIndex _ len => (oldIndex, oldIndex + len)
  | delete oldIndex oldLen _ => (oldIndex, oldIndex + oldLen)
  | insert oldIndex _ _ => (oldIndex, oldIndex)
  | replace oldIndex oldLen _ _ => (oldIndex, oldIndex + oldLen)

def newRange : DiffOp → ℕ × ℕ
  | equal _ newIndex len => (newIndex, newIndex + len)
  | delete _ _ newIndex => (newIndex, newIndex)
  | insert _ newIndex newLen => (newIndex, newIndex + newLen)
  | replace _ _ newIndex newLen => (newIndex, newIndex + newLen)

def isEqual : DiffOp → Bool
  | equal .. => true
  | _ => false

end DiffOp

/-- One changed run of the new text, in its byte offsets. -/
inductive LineChange
  | added (start stop : ℕ)
  | modified (start stop : ℕ)
  | deleted (offset : ℕ)
deriving DecidableEq

namespace ChangeMarks

/-! ## Lines -/

def byteLength (text : List Char) : ℕ := (text.map Char.utf8Size).sum

/-- `str::split_inclusive` at line feeds. -/
def splitInclusive : List Char → List (List Char)
  | [] => []
  | char :: text =>
      if char = '\n' then [char] :: splitInclusive text
      else match splitInclusive text with
      | [] => [[char]]
      | line :: lines => (char :: line) :: lines

/-- A line without its break: a line feed, and a carriage return before that. -/
def stripBreak (line : List Char) : List Char :=
  if line.getLast? = some '\n' then
    if line.dropLast.getLast? = some '\r' then line.dropLast.dropLast else line.dropLast
  else line

def lines (text : List Char) : List (List Char) := (splitInclusive text).map stripBreak

/-- `match_indices` of line feeds, as byte offsets from where the text begins. -/
def matchIndices (offset : ℕ) : List Char → List ℕ
  | [] => []
  | char :: text =>
      if char = '\n' then offset :: matchIndices (offset + char.utf8Size) text
      else matchIndices (offset + char.utf8Size) text

/-- Where each new line starts, and the end of the text after the last. -/
def lineStarts (text : List Char) : List ℕ :=
  (0 :: (matchIndices 0 text).map (· + 1)).take (lines text).length ++ [byteLength text]

/-! ## Runs -/

/-- The run being collected: its new lines, and how many old lines it replaces. -/
structure Run where
  start : ℕ
  stop : ℕ
  oldLen : ℕ
deriving DecidableEq

/-- The change of the run being collected: none where an index is out of range. -/
def flush (starts : List ℕ) : Option Run → Option (List LineChange)
  | none => some []
  | some run => do
      let newLen ← checkedSub run.stop run.start
      if newLen = 0 then
        return [.deleted (← starts[run.start]?)]
      else if run.oldLen = 0 then
        return [.added (← starts[run.start]?) (← starts[run.stop]?)]
      else
        return [.modified (← starts[run.start]?) (← starts[run.stop]?)]

def collect (starts : List ℕ) : Option Run → List DiffOp → Option (List LineChange)
  | run, [] => flush starts run
  | run, op :: ops =>
      if op.isEqual then do
        let changes ← flush starts run
        let later ← collect starts none ops
        return changes ++ later
      else
        let begun := run.getD ⟨op.newRange.1, op.newRange.1, 0⟩
        collect starts
          (some ⟨begun.start, op.newRange.2, begun.oldLen + (op.oldRange.2 - op.oldRange.1)⟩) ops

/-- The changed runs of the new text against the old, line by line: some none past the
deadline. -/
def lineChanges (capture : List (List Char) → List (List Char) → List DiffOp)
    (old new : List Char) (late : Bool) : Option (Option (List LineChange)) :=
  if late then some none
  else do
    let changes ← collect (lineStarts new) none (capture (lines old) (lines new))
    return some changes

/-! ## What a script and its changes mean -/

/-- The operations cover both line lists in order, from these lines on. -/
def Tiles (old new : List (List Char)) : ℕ → ℕ → List DiffOp → Prop
  | oldAt, newAt, [] => oldAt = old.length ∧ newAt = new.length
  | oldAt, newAt, op :: ops =>
      op.oldRange.1 = oldAt ∧ op.newRange.1 = newAt ∧
        Tiles old new op.oldRange.2 op.newRange.2 ops

/-- An equal operation pairs at least one line, and only lines that are the same. -/
def PairsEqual (old new : List (List Char)) : DiffOp → Prop
  | .equal oldIndex newIndex len =>
      0 < len ∧ ∀ line < len, old[oldIndex + line]? = new[newIndex + line]?
  | _ => True

instance decidableTiles (old new : List (List Char)) :
    ∀ oldAt newAt ops, Decidable (Tiles old new oldAt newAt ops)
  | oldAt, newAt, [] => inferInstanceAs (Decidable (oldAt = old.length ∧ newAt = new.length))
  | oldAt, newAt, op :: ops =>
      have := decidableTiles old new op.oldRange.2 op.newRange.2 ops
      inferInstanceAs (Decidable (op.oldRange.1 = oldAt ∧ op.newRange.1 = newAt ∧ _))

instance decidablePairsEqual (old new : List (List Char)) :
    ∀ op, Decidable (PairsEqual old new op)
  | .equal oldIndex newIndex len =>
      inferInstanceAs (Decidable
        (0 < len ∧ ∀ line < len, old[oldIndex + line]? = new[newIndex + line]?))
  | .delete .. | .insert .. | .replace .. => inferInstanceAs (Decidable True)

/-- What the library promises of its script. -/
structure Valid (old new : List (List Char)) (script : List DiffOp) : Prop where
  tiles : Tiles old new 0 0 script
  pairs : ∀ op ∈ script, PairsEqual old new op

/-- An operation that keeps lines pairs this new line. -/
def Paired (script : List DiffOp) (line : ℕ) : Prop :=
  ∃ op ∈ script, op.isEqual = true ∧ op.newRange.1 ≤ line ∧ line < op.newRange.2

/-- The maximal runs between the operations that keep lines. -/
def runs (script : List DiffOp) : List (List DiffOp) :=
  (script.splitOnP DiffOp.isEqual).filter (· ≠ [])

def oldLines (run : List DiffOp) : ℕ :=
  (run.map fun op => op.oldRange.2 - op.oldRange.1).sum

def newLines (run : List DiffOp) : ℕ :=
  (run.map fun op => op.newRange.2 - op.newRange.1).sum

/-- The new line a run begins before. -/
def firstLine (run : List DiffOp) : ℕ := (run.head?.map fun op => op.newRange.1).getD 0

/-- The bytes before a line. -/
def lineStart (text : List Char) (line : ℕ) : ℕ :=
  byteLength ((splitInclusive text).take line).flatten

def change (text : List Char) (run : List DiffOp) : LineChange :=
  let start := firstLine run
  let stop := firstLine run + newLines run
  if newLines run = 0 then .deleted (lineStart text start)
  else if oldLines run = 0 then .added (lineStart text start) (lineStart text stop)
  else .modified (lineStart text start) (lineStart text stop)

/-- A byte offset of the text that begins it or is behind a line feed. -/
def IsLineStart (text : List Char) (offset : ℕ) : Prop :=
  ∃ front back, text = front ++ back ∧ byteLength front = offset ∧ back ≠ [] ∧
    (front = [] ∨ front.getLast? = some '\n')

end ChangeMarks

namespace LineChange

def start : LineChange → ℕ
  | added start _ | modified start _ => start
  | deleted offset => offset

def stop : LineChange → ℕ
  | added _ stop | modified _ stop => stop
  | deleted offset => offset

/-- The byte is in a range of new lines. -/
def Covers (change : LineChange) (offset : ℕ) : Prop :=
  change.start ≤ offset ∧ offset < change.stop

end LineChange

namespace ChangeMarks

/-! ## Where lines start -/

theorem byteLength_append (front back : List Char) :
    byteLength (front ++ back) = byteLength front + byteLength back := by
  rw [byteLength, List.map_append, List.sum_append]
  rfl

theorem byteLength_cons (char : Char) (text : List Char) :
    byteLength (char :: text) = char.utf8Size + byteLength text :=
  List.sum_cons

theorem splitInclusive_flatten (text : List Char) : (splitInclusive text).flatten = text := by
  induction text with
  | nil => rfl
  | cons char text induction =>
      unfold splitInclusive
      split_ifs
      · rw [List.flatten_cons, induction, List.singleton_append]
      · split
        · next none =>
            rw [none] at induction
            rw [← induction]
            rfl
        · next line lines found =>
            rw [found] at induction
            rw [← induction]
            rfl

theorem ne_nil_of_mem_splitInclusive {text line : List Char}
    (contained : line ∈ splitInclusive text) : line ≠ [] := by
  induction text with
  | nil => cases contained
  | cons char text induction =>
      unfold splitInclusive at contained
      split_ifs at contained
      · rcases List.mem_cons.mp contained with rfl | later
        · exact List.cons_ne_nil _ _
        · exact induction later
      · split at contained
        · rw [List.mem_singleton.mp contained]
          exact List.cons_ne_nil _ _
        · next first rest found =>
            rcases List.mem_cons.mp contained with rfl | later
            · exact List.cons_ne_nil _ _
            · exact induction (found ▸ List.mem_cons_of_mem _ later)

/-- Only the last line may lack its line feed. -/
theorem getLast?_of_splitInclusive {text : List Char} {front back : List (List Char)}
    {line : List Char} (split : splitInclusive text = front ++ line :: back)
    (more : back ≠ []) : line.getLast? = some '\n' := by
  induction text generalizing front line with
  | nil => simp [splitInclusive] at split
  | cons char text induction =>
      unfold splitInclusive at split
      split_ifs at split with feed
      · subst feed
        cases front with
        | nil =>
            rw [List.nil_append, List.cons.injEq] at split
            rw [← split.1]
            rfl
        | cons first front =>
            rw [List.cons_append, List.cons.injEq] at split
            exact induction split.2
      · cases found : splitInclusive text with
        | nil =>
            rw [found] at split
            cases front with
            | nil =>
                rw [List.nil_append, List.cons.injEq] at split
                exact absurd split.2.symm more
            | cons first front => simp at split
        | cons first rest =>
            rw [found] at split induction
            cases front with
            | nil =>
                rw [List.nil_append, List.cons.injEq] at split
                have last := @induction [] first (by rw [List.nil_append, split.2])
                rw [← split.1, List.getLast?_cons, last]
                rfl
            | cons other front =>
                rw [List.cons_append, List.cons.injEq] at split
                exact @induction (first :: front) line (by rw [split.2, List.cons_append])

/-- The offsets where consecutive pieces begin. -/
def offsets (offset : ℕ) : List (List Char) → List ℕ
  | [] => []
  | piece :: pieces => offset :: offsets (offset + byteLength piece) pieces

theorem length_offsets (offset : ℕ) (pieces : List (List Char)) :
    (offsets offset pieces).length = pieces.length := by
  induction pieces generalizing offset with
  | nil => rfl
  | cons piece pieces induction => rw [offsets, List.length_cons, List.length_cons, induction]

theorem getElem?_offsets {pieces : List (List Char)} {offset line : ℕ}
    (inBounds : line < pieces.length) :
    (offsets offset pieces)[line]? = some (offset + byteLength (pieces.take line).flatten) := by
  induction pieces generalizing offset line with
  | nil => exact absurd inBounds (Nat.not_lt_zero _)
  | cons piece pieces induction =>
      cases line with
      | zero => rfl
      | succ line =>
          rw [offsets, List.getElem?_cons_succ, induction (by simpa using inBounds),
            List.take_succ_cons, List.flatten_cons, byteLength_append, Nat.add_assoc]

/-- The line feeds give the starts of all lines but the first. -/
theorem take_matchIndices (text : List Char) (offset : ℕ) :
    (offset :: (matchIndices offset text).map (· + 1)).take (splitInclusive text).length =
      offsets offset (splitInclusive text) := by
  induction text generalizing offset with
  | nil => rfl
  | cons char text induction =>
      unfold matchIndices splitInclusive
      split_ifs with feed
      · subst feed
        rw [List.length_cons, List.take_succ_cons, offsets, List.map_cons]
        congr 1
        exact induction (offset + 1)
      · have rest := induction (offset + char.utf8Size)
        cases found : splitInclusive text with
        | nil => rfl
        | cons line lines =>
            rw [found, List.length_cons, List.take_succ_cons, offsets, List.cons.injEq] at rest
            simp only [List.length_cons, List.take_succ_cons, offsets, byteLength_cons]
            rw [rest.2, Nat.add_assoc]

theorem length_lines (text : List Char) : (lines text).length = (splitInclusive text).length :=
  List.length_map _

theorem lineStart_length (text : List Char) :
    lineStart text (lines text).length = byteLength text := by
  rw [lineStart, length_lines, List.take_length, splitInclusive_flatten]

/-- The table has the start of every line and the end of the text. -/
theorem getElem?_lineStarts {text : List Char} {line : ℕ} (within : line ≤ (lines text).length) :
    (lineStarts text)[line]? = some (lineStart text line) := by
  have starts := take_matchIndices text 0
  rw [← length_lines] at starts
  rw [lineStarts, starts]
  have length : (offsets 0 (splitInclusive text)).length = (lines text).length := by
    rw [length_offsets, length_lines]
  rcases Nat.lt_or_eq_of_le within with less | same
  · rw [List.getElem?_append_left (by omega), getElem?_offsets (by rwa [← length_lines]),
      Nat.zero_add]
    rfl
  · rw [same, lineStart_length, ← length, List.getElem?_append_right (Nat.le_refl _),
      Nat.sub_self]
    rfl

theorem byteLength_pos {text : List Char} (some : text ≠ []) : 0 < byteLength text := by
  cases text with
  | nil => exact absurd rfl some
  | cons char text =>
      have := char.utf8Size_pos
      rw [byteLength_cons]
      omega

theorem lineStart_succ {text : List Char} {line : ℕ} (within : line < (lines text).length) :
    lineStart text line < lineStart text (line + 1) := by
  rw [length_lines] at within
  have next := List.take_append_getElem within
  rw [lineStart, lineStart, ← next, List.flatten_append, byteLength_append,
    List.flatten_singleton]
  have := byteLength_pos (ne_nil_of_mem_splitInclusive (List.getElem_mem within))
  omega

theorem lineStart_le {text : List Char} {first last : ℕ} (less : first ≤ last)
    (within : last ≤ (lines text).length) : lineStart text first ≤ lineStart text last := by
  rcases Nat.exists_eq_add_of_le less with ⟨distance, rfl⟩
  induction distance with
  | zero => exact Nat.le_refl _
  | succ distance induction =>
      have before := induction (Nat.le_add_right _ _) (by omega)
      have step := @lineStart_succ text (first + distance) (by omega)
      exact Nat.le_of_lt (Nat.lt_of_le_of_lt before step)

theorem isLineStart_lineStart {text : List Char} {line : ℕ}
    (within : line < (lines text).length) : IsLineStart text (lineStart text line) := by
  rw [length_lines] at within
  refine ⟨((splitInclusive text).take line).flatten, ((splitInclusive text).drop line).flatten,
    ?_, rfl, ?_, ?_⟩
  · rw [← List.flatten_append, List.take_append_drop, splitInclusive_flatten]
  · rw [List.drop_eq_getElem_cons within, List.flatten_cons]
    intro none
    exact ne_nil_of_mem_splitInclusive (List.getElem_mem within) (List.append_eq_nil_iff.mp none).1
  · cases line with
    | zero => exact .inl rfl
    | succ line =>
        right
        have before : line < (splitInclusive text).length := by omega
        have split : splitInclusive text = (splitInclusive text).take line ++
            (splitInclusive text)[line] :: (splitInclusive text).drop (line + 1) := by
          rw [List.getElem_cons_drop, List.take_append_drop]
        have feed := getLast?_of_splitInclusive split (by
          rw [List.drop_eq_getElem_cons within]
          exact List.cons_ne_nil _ _)
        rw [← List.take_append_getElem before, List.flatten_append, List.flatten_singleton,
          List.getLast?_append, feed]
        rfl

/-! ## One change for each run -/

section Collecting

variable {old new : List (List Char)}

theorem newRange_le (op : DiffOp) : op.newRange.1 ≤ op.newRange.2 := by
  cases op <;> simp [DiffOp.newRange]

theorem tiles_le {oldAt newAt : ℕ} {ops : List DiffOp} (tiles : Tiles old new oldAt newAt ops) :
    newAt ≤ new.length := by
  induction ops generalizing oldAt newAt with
  | nil => exact Nat.le_of_eq tiles.2
  | cons op ops induction =>
      rcases tiles with ⟨-, starts, rest⟩
      have := induction rest
      have := newRange_le op
      omega

/-- What is kept of the operations since the last that keeps lines. -/
def pendingRun : List DiffOp → Option Run
  | [] => none
  | op :: ops =>
      some ⟨op.newRange.1, op.newRange.1 + newLines (op :: ops), oldLines (op :: ops)⟩

theorem newLines_append (front back : List DiffOp) :
    newLines (front ++ back) = newLines front + newLines back := by
  rw [newLines, List.map_append, List.sum_append]
  rfl

theorem oldLines_append (front back : List DiffOp) :
    oldLines (front ++ back) = oldLines front + oldLines back := by
  rw [oldLines, List.map_append, List.sum_append]
  rfl

theorem newLines_singleton (op : DiffOp) :
    newLines [op] = op.newRange.2 - op.newRange.1 := by
  simp [newLines]

theorem oldLines_singleton (op : DiffOp) :
    oldLines [op] = op.oldRange.2 - op.oldRange.1 := by
  simp [oldLines]

theorem firstLine_append {pending : List DiffOp} (some : pending ≠ []) (ops : List DiffOp) :
    firstLine (pending ++ ops) = firstLine pending := by
  cases pending with
  | nil => exact absurd rfl some
  | cons op pending => rfl

/-- The run that is pending begins before the line reached. -/
def Pending (pending : List DiffOp) (newAt : ℕ) : Prop :=
  pending ≠ [] → firstLine pending + newLines pending = newAt

/-- One operation more that keeps nothing. -/
theorem Pending.append {pending : List DiffOp} {op : DiffOp}
    (invariant : Pending pending op.newRange.1) :
    Pending (pending ++ [op]) op.newRange.2 := by
  intro _
  have := newRange_le op
  by_cases none : pending = []
  · subst none
    rw [List.nil_append, newLines_singleton]
    change op.newRange.1 + _ = _
    omega
  · have := invariant none
    rw [firstLine_append none, newLines_append, newLines_singleton]
    omega

theorem pendingRun_append {pending : List DiffOp} {op : DiffOp}
    (invariant : Pending pending op.newRange.1) :
    pendingRun (pending ++ [op]) =
      some ⟨((pendingRun pending).getD ⟨op.newRange.1, op.newRange.1, 0⟩).start, op.newRange.2,
        ((pendingRun pending).getD ⟨op.newRange.1, op.newRange.1, 0⟩).oldLen +
          (op.oldRange.2 - op.oldRange.1)⟩ := by
  have stops := invariant.append (List.append_ne_nil_of_right_ne_nil _ (List.cons_ne_nil op []))
  cases pending with
  | nil =>
      rw [List.nil_append] at stops ⊢
      simp only [pendingRun, oldLines_singleton, Option.getD_none, Nat.zero_add]
      rw [← stops]
      rfl
  | cons first pending =>
      rw [List.cons_append] at stops ⊢
      simp only [pendingRun, Option.getD_some, Option.some.injEq, Run.mk.injEq, true_and]
      refine ⟨stops, ?_⟩
      rw [← List.cons_append, oldLines_append, oldLines_singleton]

theorem flush_pendingRun {text : List Char} {pending : List DiffOp} {newAt : ℕ}
    (invariant : Pending pending newAt) (within : newAt ≤ (lines text).length) :
    flush (lineStarts text) (pendingRun pending) =
      some (([pending].filter (· ≠ [])).map (change text)) := by
  cases pending with
  | nil => rfl
  | cons op pending =>
      have stops := invariant (List.cons_ne_nil op pending)
      have start : firstLine (op :: pending) = op.newRange.1 := rfl
      rw [start] at stops
      simp only [pendingRun, flush, checkedSub_of_le (Nat.le_add_right _ _), Nat.add_sub_cancel_left,
        getElem?_lineStarts (show op.newRange.1 ≤ (lines text).length by omega),
        getElem?_lineStarts (show op.newRange.1 + newLines (op :: pending) ≤ (lines text).length by
          omega), Option.bind_eq_bind, Option.bind_some]
      simp only [List.filter_cons, List.filter_nil, decide_eq_true_eq, ne_eq, reduceCtorEq,
        not_false_eq_true, if_true, List.map_cons, List.map_nil, change, start]
      split_ifs <;> rfl

/-- The changes are those of the runs, the pending one among them. -/
theorem collect_pendingRun {text : List Char} {pending ops : List DiffOp} {oldAt newAt : ℕ}
    (tiles : Tiles old (lines text) oldAt newAt ops) (invariant : Pending pending newAt) :
    collect (lineStarts text) (pendingRun pending) ops =
      some (((ops.splitOnPPrepend DiffOp.isEqual pending.reverse).filter (· ≠ [])).map
        (change text)) := by
  induction ops generalizing pending oldAt newAt with
  | nil =>
      rw [collect, flush_pendingRun invariant (Nat.le_of_eq tiles.2), List.splitOnPPrepend_nil,
        List.reverse_reverse]
  | cons op ops induction =>
      rcases tiles with ⟨-, rfl, rest⟩
      unfold collect
      cases keeps : op.isEqual with
      | true =>
          have before := flush_pendingRun invariant
            (Nat.le_trans (newRange_le op) (tiles_le rest))
          have later := @induction [] _ _ rest (fun none => absurd rfl none)
          change collect (lineStarts text) none ops = _ at later
          rw [List.splitOnPPrepend_cons_pos keeps, List.reverse_reverse]
          simp only [if_true, before, later, Option.bind_eq_bind, Option.bind_some,
            List.reverse_nil, List.splitOnPPrepend_nil_right]
          rw [← List.map_append, ← List.filter_append]
          rfl
      | false =>
          have later := induction rest invariant.append
          rw [pendingRun_append invariant, List.reverse_append] at later
          rw [List.splitOnPPrepend_cons_neg keeps]
          simpa using later

end Collecting

/-! ## Where the runs are -/

/-- The runs from a line on, in order, are the lines that no operation pairs. -/
structure Laid (total start : ℕ) (ops : List DiffOp) (runs : List (List DiffOp)) : Prop where
  within : ∀ run ∈ runs, start ≤ firstLine run ∧ firstLine run + newLines run ≤ total
  ordered : runs.Pairwise fun first second => firstLine first + newLines first ≤ firstLine second
  covered : ∀ line, start ≤ line → line < total →
    ((∃ run ∈ runs, firstLine run ≤ line ∧ line < firstLine run + newLines run) ↔
      ¬ Paired ops line)
  empty : ∀ run ∈ runs, newLines run = 0 → Paired ops (firstLine run) ∨ firstLine run = total

theorem paired_cons {op : DiffOp} {ops : List DiffOp} {line : ℕ} :
    Paired (op :: ops) line ↔
      (op.isEqual = true ∧ op.newRange.1 ≤ line ∧ line < op.newRange.2) ∨ Paired ops line := by
  simp [Paired]

theorem le_of_paired {old new : List (List Char)} {oldAt newAt line : ℕ} {ops : List DiffOp}
    (tiles : Tiles old new oldAt newAt ops) (paired : Paired ops line) : newAt ≤ line := by
  induction ops generalizing oldAt newAt with
  | nil => simp [Paired] at paired
  | cons op ops induction =>
      rcases tiles with ⟨-, rfl, rest⟩
      rcases paired_cons.mp paired with ⟨-, starts, -⟩ | later
      · exact starts
      · exact Nat.le_trans (newRange_le op) (induction rest later)

/-- Where the pending run begins, or the next may. -/
def begins (pending : List DiffOp) (newAt : ℕ) : ℕ :=
  (pending.head?.map fun op => op.newRange.1).getD newAt

theorem firstLine_eq_begins {pending : List DiffOp} (some : pending ≠ []) (newAt : ℕ) :
    firstLine pending = begins pending newAt := by
  cases pending with
  | nil => exact absurd rfl some
  | cons op pending => rfl

theorem Pending.begins {pending : List DiffOp} {newAt : ℕ} (invariant : Pending pending newAt) :
    begins pending newAt + newLines pending = newAt := by
  by_cases none : pending = []
  · subst none
    rfl
  · rw [← firstLine_eq_begins none]
    exact invariant none

theorem begins_append (pending : List DiffOp) (op : DiffOp) :
    begins (pending ++ [op]) op.newRange.2 = begins pending op.newRange.1 := by
  cases pending <;> rfl

/-- The pending run on its own, up to where it ends. -/
theorem laid_pending {pending : List DiffOp} {newAt : ℕ} (invariant : Pending pending newAt) :
    Laid newAt (begins pending newAt) [] ([pending].filter (· ≠ [])) := by
  have stops := invariant.begins
  by_cases none : pending = []
  · subst none
    refine ⟨by simp, by simp, ?_, by simp⟩
    intro line starts less
    exact absurd (Nat.lt_of_le_of_lt starts less) (Nat.lt_irrefl _)
  · have first := firstLine_eq_begins none newAt
    have alone : [pending].filter (· ≠ []) = [pending] := by simp [none]
    rw [alone]
    refine ⟨?_, List.pairwise_singleton _ _, ?_, ?_⟩
    · intro run contained
      rw [List.mem_singleton.mp contained]
      omega
    · intro line starts less
      refine iff_of_true ⟨pending, List.mem_singleton_self _, by omega, by omega⟩ ?_
      simp [Paired]
    · intro run contained zero
      rw [List.mem_singleton.mp contained] at zero ⊢
      right
      omega

/-- The runs before an operation that keeps lines, and those behind it. -/
theorem Laid.append {total start : ℕ} {op : DiffOp} {ops : List DiffOp}
    {front back : List (List DiffOp)} (first : Laid op.newRange.1 start [] front)
    (later : Laid total op.newRange.2 ops back) (keeps : op.isEqual = true)
    (some : op.newRange.1 < op.newRange.2) (less : op.newRange.2 ≤ total)
    (starts : start ≤ op.newRange.1)
    (behind : ∀ line, Paired ops line → op.newRange.2 ≤ line) :
    Laid total start (op :: ops) (front ++ back) := by
  have unpaired : ∀ line, ¬ Paired [] line := by simp [Paired]
  refine ⟨?_, ?_, ?_, ?_⟩
  · intro run contained
    rcases List.mem_append.mp contained with before | after
    · have := first.within run before
      omega
    · have := later.within run after
      omega
  · rw [List.pairwise_append]
    refine ⟨first.ordered, later.ordered, ?_⟩
    intro left inFront right inBack
    have := first.within left inFront
    have := later.within right inBack
    omega
  · intro line starts inBounds
    rw [paired_cons]
    by_cases before : line < op.newRange.1
    · refine iff_of_true ?_ ?_
      · rcases (first.covered line starts before).mpr (unpaired line) with ⟨run, inFront, within⟩
        exact ⟨run, List.mem_append_left _ inFront, within⟩
      · rintro (⟨-, starts, -⟩ | paired)
        · omega
        · have := behind line paired
          omega
    by_cases inside : line < op.newRange.2
    · refine iff_of_false ?_ fun none => none (.inl ⟨keeps, by omega, inside⟩)
      rintro ⟨run, contained, within⟩
      rcases List.mem_append.mp contained with before | after
      · have := first.within run before
        omega
      · have := later.within run after
        omega
    · have rest := later.covered line (by omega) inBounds
      constructor
      · rintro ⟨run, contained, within⟩
        rcases List.mem_append.mp contained with before | after
        · have := first.within run before
          omega
        · rintro (⟨-, -, stops⟩ | paired)
          · omega
          · exact rest.mp ⟨run, after, within⟩ paired
      · intro none
        rcases rest.mpr fun paired => none (.inr paired) with ⟨run, after, within⟩
        exact ⟨run, List.mem_append_right _ after, within⟩
  · intro run contained zero
    rcases List.mem_append.mp contained with before | after
    · rcases first.empty run before zero with paired | same
      · exact absurd paired (unpaired _)
      · left
        exact paired_cons.mpr (.inl ⟨keeps, by omega, by omega⟩)
    · rcases later.empty run after zero with paired | same
      · exact .inl (paired_cons.mpr (.inr paired))
      · exact .inr same

/-- The runs that are collected from here on. -/
theorem laid_runs {old new : List (List Char)} {pending ops : List DiffOp} {oldAt newAt : ℕ}
    (tiles : Tiles old new oldAt newAt ops) (invariant : Pending pending newAt)
    (pairs : ∀ op ∈ ops, PairsEqual old new op) :
    Laid new.length (begins pending newAt) ops
      ((ops.splitOnPPrepend DiffOp.isEqual pending.reverse).filter (· ≠ [])) := by
  induction ops generalizing pending oldAt newAt with
  | nil =>
      rw [List.splitOnPPrepend_nil, List.reverse_reverse, ← tiles.2]
      exact laid_pending invariant
  | cons op ops induction =>
      rcases tiles with ⟨-, rfl, rest⟩
      rw [List.forall_mem_cons] at pairs
      cases keeps : op.isEqual with
      | true =>
          have later := @induction [] _ _ rest (fun none => absurd rfl none) pairs.2
          have some : op.newRange.1 < op.newRange.2 := by
            cases op with
            | equal oldIndex newIndex len => exact Nat.lt_add_of_pos_right pairs.1.1
            | delete | insert | replace => cases keeps
          rw [List.splitOnPPrepend_cons_pos keeps, List.reverse_reverse,
            ← @List.singleton_append _ pending, List.filter_append]
          have stops := invariant.begins
          exact (laid_pending invariant).append later keeps some (tiles_le rest) (by omega)
            fun line => le_of_paired rest
      | false =>
          have later := induction rest invariant.append pairs.2
          rw [begins_append, List.reverse_append] at later
          rw [List.splitOnPPrepend_cons_neg keeps]
          refine ⟨later.within, later.ordered, ?_, ?_⟩
          · intro line starts less
            rw [paired_cons, keeps]
            simpa using later.covered line starts less
          · intro run contained zero
            rw [paired_cons, keeps]
            simpa using later.empty run contained zero

/-! ## The changes of a text -/

/-- What the changes say about the script. -/
structure Describes (new : List Char) (script : List DiffOp) (changes : List LineChange) :
    Prop where
  perRun : changes = (runs script).map (change new)
  disjoint : changes.Pairwise fun first second => first.stop ≤ second.start
  aligned : ∀ change ∈ changes,
    (IsLineStart new change.start ∨
      change = .deleted (byteLength new)) ∧
    (IsLineStart new change.stop ∨ change.stop = byteLength new)
  kept : ∀ line < (lines new).length, ∀ offset, lineStart new line ≤ offset →
    offset < lineStart new (line + 1) →
      ((∃ change ∈ changes, change.Covers offset) ↔ ¬ Paired script line)
  deleted : ∀ run ∈ runs script, newLines run = 0 →
    Paired script (firstLine run) ∧ change new run = .deleted (lineStart new (firstLine run)) ∨
      firstLine run = (lines new).length ∧ change new run = .deleted (byteLength new)

theorem change_start (new : List Char) (run : List DiffOp) :
    (change new run).start = lineStart new (firstLine run) := by
  unfold change
  dsimp only
  split_ifs <;> rfl

theorem change_stop (new : List Char) (run : List DiffOp) :
    (change new run).stop = lineStart new (firstLine run + newLines run) := by
  unfold change
  dsimp only
  split_ifs with none
  · rw [none]
    rfl
  · rfl
  · rfl

theorem change_aligned {new : List Char} {run : List DiffOp}
    (within : firstLine run + newLines run ≤ (lines new).length) :
    (IsLineStart new (change new run).start ∨ change new run = .deleted (byteLength new)) ∧
      (IsLineStart new (change new run).stop ∨ (change new run).stop = byteLength new) := by
  rw [change_start, change_stop]
  constructor
  · rcases Nat.lt_or_eq_of_le (Nat.le_trans (Nat.le_add_right _ _) within) with less | same
    · exact .inl (isLineStart_lineStart less)
    · right
      rw [change, if_pos (by omega), same, lineStart_length]
  · rcases Nat.lt_or_eq_of_le within with less | same
    · exact .inl (isLineStart_lineStart less)
    · exact .inr (by rw [same, lineStart_length])

/-- A byte of a line is in the range of a run exactly where the line is in the run. -/
theorem covers_iff {new : List Char} {run : List DiffOp} {line offset : ℕ}
    (inBounds : line < (lines new).length) (starts : lineStart new line ≤ offset)
    (stops : offset < lineStart new (line + 1))
    (within : firstLine run + newLines run ≤ (lines new).length) :
    (change new run).Covers offset ↔
      firstLine run ≤ line ∧ line < firstLine run + newLines run := by
  rw [LineChange.Covers, change_start, change_stop]
  constructor
  · rintro ⟨after, before⟩
    constructor
    · by_contra less
      have := @lineStart_le new (line + 1) (firstLine run) (by omega) (by omega)
      omega
    · by_contra less
      have := @lineStart_le new (firstLine run + newLines run) line (by omega) (by omega)
      omega
  · rintro ⟨after, before⟩
    have := @lineStart_le new (firstLine run) line after (by omega)
    have := @lineStart_le new (line + 1) (firstLine run + newLines run) before within
    omega

theorem line_changes_describe
    {capture : List (List Char) → List (List Char) → List DiffOp} {old new : List Char}
    (valid : Valid (lines old) (lines new) (capture (lines old) (lines new))) (late : Bool) :
    ∃ changes, lineChanges capture old new late = some (if late then none else some changes) ∧
      Describes new (capture (lines old) (lines new)) changes := by
  have laid := @laid_runs _ _ [] _ _ _ valid.tiles (fun none => absurd rfl none) valid.pairs
  have collects := @collect_pendingRun _ new [] _ _ _ valid.tiles (fun none => absurd rfl none)
  rw [List.reverse_nil, List.splitOnPPrepend_nil_right] at laid collects
  change Laid _ 0 _ (runs _) at laid
  refine ⟨(runs (capture (lines old) (lines new))).map (change new), ?_, rfl, ?_, ?_, ?_, ?_⟩
  · change collect (lineStarts new) none (capture (lines old) (lines new)) = _ at collects
    unfold lineChanges
    rw [collects]
    cases late <;> rfl
  · rw [List.pairwise_map]
    refine laid.ordered.imp_of_mem ?_
    intro first second _ inRuns less
    rw [change_start, change_stop]
    have := laid.within second inRuns
    exact lineStart_le less (by omega)
  · intro one contained
    rcases List.mem_map.mp contained with ⟨run, inRuns, rfl⟩
    exact change_aligned (laid.within run inRuns).2
  · intro line inBounds offset starts stops
    rw [← laid.covered line (Nat.zero_le _) inBounds]
    constructor
    · rintro ⟨one, contained, covers⟩
      rcases List.mem_map.mp contained with ⟨run, inRuns, rfl⟩
      exact ⟨run, inRuns, (covers_iff inBounds starts stops (laid.within run inRuns).2).mp covers⟩
    · rintro ⟨run, inRuns, within⟩
      exact ⟨_, List.mem_map_of_mem inRuns,
        (covers_iff inBounds starts stops (laid.within run inRuns).2).mpr within⟩
  · intro run inRuns zero
    have gone : change new run = .deleted (lineStart new (firstLine run)) := if_pos zero
    rcases laid.empty run inRuns zero with paired | same
    · exact .inl ⟨paired, gone⟩
    · exact .inr ⟨same, by rw [gone, same, lineStart_length]⟩

/-- A break that changes its form keeps its line, and the last line is replaced. -/
theorem line_changes_describe_crlf :
    ∃ changes, lineChanges (fun _ _ => [.equal 0 0 1, .delete 1 1 1, .insert 2 1 1])
        "a\r\nb".toList "a\nc\r\n".toList false = some (if false then none else some changes) ∧
      Describes "a\nc\r\n".toList [.equal 0 0 1, .delete 1 1 1, .insert 2 1 1] changes :=
  line_changes_describe ⟨by decide, by decide⟩ false

end ChangeMarks

end Condr
