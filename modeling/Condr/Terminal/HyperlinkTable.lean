import Condr.Terminal.Hyperlinks

/-!
# Links within the limits of a frame

What a pass over cells keeps of their links depends on the texts alone: a link stays where
the limits have room for its text beside those kept so far. The table of a frame makes this
pass, starting with no links, and so changes nothing where all links of the frame fit.
-/

namespace Condr

open Budget

/-! ## Passes over cells -/

/-- The links of cells, cell by cell. -/
def linkSlots {Link : Type} (cells : List (TerminalCell Link)) : List (Option Link) :=
  cells.map TerminalCell.hyperlink

/-- The distinct links of cells. -/
def linkTexts (cells : List (TerminalCell String)) : Finset String := keys (linkSlots cells)

/-- The cells with the links that the limits have room for. -/
def settleCells (kept : Finset String) (cells : List (TerminalCell String)) :
    List (TerminalCell String) :=
  List.zipWith (fun cell link => { cell with hyperlink := link }) cells
    (settle hyperlinkLimits kept (linkSlots cells))

def settleView (kept : Finset String) (view : TerminalView String) : TerminalView String :=
  { view with cells := settleCells kept view.cells }

def settleDelta (kept : Finset String) (delta : TerminalViewDelta String) :
    TerminalViewDelta String :=
  { delta with runs := refill delta.runs (settleCells kept delta.cells) }

variable {kept large : Finset String} {uri : String} {cell : TerminalCell String}
  {cells : List (TerminalCell String)}

@[simp] theorem settleCells_nil : settleCells kept [] = [] := rfl

theorem settleCells_cons_none (plain : cell.hyperlink = none) :
    settleCells kept (cell :: cells) = cell :: settleCells kept cells := by
  rcases cell with ⟨text, foreground, background, underline, flags, link⟩
  subst plain
  rfl

theorem settleCells_cons_of_within (links : cell.hyperlink = some uri)
    (room : Within hyperlinkLimits (insert uri kept)) :
    settleCells kept (cell :: cells) = cell :: settleCells (insert uri kept) cells := by
  rcases cell with ⟨text, foreground, background, underline, flags, link⟩
  subst links
  simp [settleCells, linkSlots, settle_cons_of_within room]

theorem settleCells_cons_of_not_within (links : cell.hyperlink = some uri)
    (full : ¬Within hyperlinkLimits (insert uri kept)) :
    settleCells kept (cell :: cells) =
      { cell with hyperlink := none } :: settleCells kept cells := by
  rcases cell with ⟨text, foreground, background, underline, flags, link⟩
  subst links
  simp [settleCells, linkSlots, settle_cons_of_not_within full]

@[simp] theorem length_settleCells : (settleCells kept cells).length = cells.length := by
  simp [settleCells, linkSlots]

theorem linkSlots_settleCells :
    linkSlots (settleCells kept cells) = settle hyperlinkLimits kept (linkSlots cells) := by
  induction cells generalizing kept with
  | nil => rfl
  | cons cell cells induction =>
      cases links : cell.hyperlink with
      | none =>
          rw [settleCells_cons_none links]
          simp only [linkSlots, List.map_cons, links, settle_cons_none] at induction ⊢
          rw [induction]
      | some uri =>
          by_cases room : Within hyperlinkLimits (insert uri kept)
          · rw [settleCells_cons_of_within links room]
            simp only [linkSlots, List.map_cons, links, settle_cons_of_within room] at induction ⊢
            rw [induction]
          · rw [settleCells_cons_of_not_within links room]
            simp only [linkSlots, List.map_cons, links, settle_cons_of_not_within room]
              at induction ⊢
            rw [induction]

/-- A pass clears nothing where all links fit. -/
theorem settleCells_of_within (within : Within hyperlinkLimits (kept ∪ linkTexts cells)) :
    settleCells kept cells = cells := by
  rw [settleCells, settle_of_within within, linkSlots, List.zipWith_map_right, List.zipWith_self]
  exact List.map_id cells

theorem within_settleCells (within : Within hyperlinkLimits kept) :
    Within hyperlinkLimits (kept ∪ linkTexts (settleCells kept cells)) := by
  rw [linkTexts, linkSlots_settleCells]
  exact within_settle within

/-- What was kept beside some links is kept beside fewer of them. -/
theorem settleCells_settleCells (within : Within hyperlinkLimits large) (subset : kept ⊆ large) :
    settleCells kept (settleCells large cells) = settleCells large cells := by
  apply settleCells_of_within
  exact (within_settleCells within).mono (Finset.union_subset_union_left subset)

/-- What the limits ask of one more link. -/
theorem within_insert_uri_iff (within : Within hyperlinkLimits kept) (absent : uri ∉ kept) :
    Within hyperlinkLimits (insert uri kept) ↔
      uri.utf8ByteSize ≤ maxTerminalHyperlinkUriBytes ∧
        ∑ other ∈ kept, other.utf8ByteSize + uri.utf8ByteSize ≤ maxTerminalHyperlinkBytes ∧
        kept.card < maxTerminalHyperlinks :=
  within_insert_iff within absent

/-! ## The links of cells read from the heap -/

abbrev TerminalCell.read (memory : Memory) (cell : TerminalCell SmolStr) : TerminalCell String :=
  cell.map (SmolStr.read memory)

/-- A place on the heap tells the string that lies there. -/
theorem heapStringPointer_eq_some {memory : Memory} {uri : SmolStr} {pointer : Pointer}
    (lies : heapStringPointer memory uri = some pointer) :
    uri = .heap pointer.1 ∧ uri.read memory = memory pointer.1 := by
  cases uri with
  | inline text => cases lies
  | heap address =>
      cases lies
      exact ⟨rfl, rfl⟩

namespace WireHyperlinks

def names (memory : Memory) (table : WireHyperlinks) : List String :=
  table.values.map (SmolStr.read memory)

/-- The distinct texts in the table. -/
def uris (memory : Memory) (table : WireHyperlinks) : Finset String :=
  (table.names memory).toFinset

/-- The table lists distinct texts within the limits, and finds each by its text and by the
strings seen at a pointer. -/
structure Interns (memory : Memory) (table : WireHyperlinks) : Prop where
  distinct : (table.names memory).Nodup
  indexed : ∀ uri index,
    table.indices.lookup uri = some index ↔ (table.names memory)[index]? = some uri
  bytes : table.bytes = ∑ uri ∈ table.uris memory, uri.utf8ByteSize
  within : Within hyperlinkLimits (table.uris memory)
  found : ∀ pointer index, table.pointers.lookup pointer = some (some index) →
    (table.names memory)[index]? = some (memory pointer.1)
  refused : ∀ pointer, table.pointers.lookup pointer = some none →
    ¬Within hyperlinkLimits (insert (memory pointer.1) (table.uris memory))

variable {memory : Memory} {table : WireHyperlinks} {hyperlink : SmolStr}

theorem uris_default : uris memory default = ∅ := by
  simp [uris, names, default]

theorem interns_default : Interns memory default where
  distinct := List.nodup_nil
  indexed := by simp [default, names]
  bytes := rfl
  within := within_empty
  found := by simp [default]
  refused := by simp [default]

theorem mem_uris {uri : String} {index : ℕ} (listed : (table.names memory)[index]? = some uri) :
    uri ∈ table.uris memory :=
  List.mem_toFinset.mpr (List.mem_of_getElem? listed)

theorem Interns.card_uris (interns : table.Interns memory) :
    (table.uris memory).card = table.values.length := by
  rw [uris, List.toFinset_card_of_nodup interns.distinct, names, List.length_map]

theorem Interns.lookup_eq_none (interns : table.Interns memory) {uri : String} :
    table.indices.lookup uri = none ↔ uri ∉ table.uris memory := by
  constructor
  · intro missing member
    rcases List.getElem?_of_mem (List.mem_toFinset.mp member) with ⟨index, listed⟩
    have found := (interns.indexed uri index).mpr listed
    simp [missing] at found
  · intro absent
    apply Option.eq_none_iff_forall_ne_some.mpr
    intro index found
    exact absent (mem_uris ((interns.indexed uri index).mp found))

/-- What a table makes of one link. -/
inductive Interned (memory : Memory) (table : WireHyperlinks) (hyperlink : SmolStr) :
    Option ℕ → WireHyperlinks → Prop where
  | listed {index : ℕ} {next : WireHyperlinks}
      (room : Within hyperlinkLimits (insert (hyperlink.read memory) (table.uris memory)))
      (interns : next.Interns memory)
      (listed : (next.names memory)[index]? = some (hyperlink.read memory))
      (uris : next.uris memory = insert (hyperlink.read memory) (table.uris memory))
      (keeps : table.values <+: next.values) : Interned memory table hyperlink (some index) next
  | refused {next : WireHyperlinks}
      (full : ¬Within hyperlinkLimits (insert (hyperlink.read memory) (table.uris memory)))
      (interns : next.Interns memory) (values : next.values = table.values) :
      Interned memory table hyperlink none next

/-- The elements of a list with one more behind it. -/
theorem getElem?_concat_eq_some {Element : Type} {list : List Element} {last element : Element}
    {index : ℕ} : (list ++ [last])[index]? = some element ↔
      list[index]? = some element ∨ index = list.length ∧ element = last := by
  rcases Nat.lt_trichotomy index list.length with inside | rfl | outside
  · have : index ≠ list.length := by omega
    simp [List.getElem?_append_left inside, this]
  · simp [eq_comm]
  · have : index ≠ list.length := by omega
    rw [List.getElem?_eq_none (by simp; omega), List.getElem?_eq_none (by omega)]
    simp [this]

/-- A new text goes behind the others. -/
theorem Interns.push (interns : table.Interns memory)
    (absent : hyperlink.read memory ∉ table.uris memory)
    (room : Within hyperlinkLimits (insert (hyperlink.read memory) (table.uris memory))) :
    Interned memory table hyperlink (some table.values.length)
      { table with
        bytes := table.bytes + (hyperlink.read memory).utf8ByteSize
        values := table.values ++ [hyperlink]
        indices := table.indices.insert (hyperlink.read memory) table.values.length } := by
  set next : WireHyperlinks := { table with
    bytes := table.bytes + (hyperlink.read memory).utf8ByteSize
    values := table.values ++ [hyperlink]
    indices := table.indices.insert (hyperlink.read memory) table.values.length } with nextEq
  have names : next.names memory = table.names memory ++ [hyperlink.read memory] := by
    simp [nextEq, WireHyperlinks.names]
  have length : (table.names memory).length = table.values.length := List.length_map _
  have uris : next.uris memory = insert (hyperlink.read memory) (table.uris memory) := by
    ext uri
    simp [WireHyperlinks.uris, names]
  have listed : ∀ index uri, (next.names memory)[index]? = some uri ↔
      (table.names memory)[index]? = some uri ∨
        index = table.values.length ∧ uri = hyperlink.read memory := by
    intro index uri
    rw [names, getElem?_concat_eq_some, length]
  have isNew : (next.names memory)[table.values.length]? = some (hyperlink.read memory) :=
    (listed _ _).mpr (Or.inr ⟨rfl, rfl⟩)
  refine .listed room ?_ isNew uris (List.prefix_append _ _)
  refine ⟨?_, ?_, ?_, ?_, ?_, ?_⟩
  · rw [names, ← List.concat_eq_append, List.nodup_concat]
    exact ⟨fun member => absent (List.mem_toFinset.mpr member), interns.distinct⟩
  · intro uri index
    rw [listed]
    by_cases same : uri = hyperlink.read memory
    · subst same
      have nowhere : (table.names memory)[index]? ≠ some (hyperlink.read memory) :=
        fun found => absent (mem_uris found)
      simp [nextEq, nowhere, eq_comm]
    · simp only [nextEq, AList.lookup_insert_ne same, interns.indexed, same, and_false, or_false]
  · rw [uris, Finset.sum_insert absent, ← interns.bytes, Nat.add_comm]
  · rwa [uris]
  · intro pointer index found
    exact (listed _ _).mpr (Or.inl (interns.found pointer index found))
  · intro pointer refused within
    apply interns.refused pointer refused
    apply within.mono
    rw [uris]
    exact Finset.insert_subset_insert _ (Finset.subset_insert _ _)

theorem Interns.internByValue (interns : table.Interns memory) :
    Interned memory table hyperlink (table.internByValue memory hyperlink).1
      (table.internByValue memory hyperlink).2 := by
  have refuses : (¬Within hyperlinkLimits (insert (hyperlink.read memory) (table.uris memory))) →
      Interned memory table hyperlink none table := fun full => .refused full interns rfl
  simp only [WireHyperlinks.internByValue]
  split_ifs with long
  · apply refuses
    rintro ⟨each, -, -⟩
    have := each _ (Finset.mem_insert_self _ _)
    simp only [hyperlinkLimits] at this
    omega
  · cases lookup : table.indices.lookup (hyperlink.read memory) with
    | some index =>
        have listed := (interns.indexed _ index).mp lookup
        have member := mem_uris listed
        exact .listed (within_insert_of_mem interns.within member) interns listed
          (Finset.insert_eq_of_mem member).symm (List.prefix_refl _)
    | none =>
        have absent := interns.lookup_eq_none.mp lookup
        have room := within_insert_uri_iff interns.within absent
        rw [interns.card_uris, ← interns.bytes] at room
        simp only [checkedAdd]
        split_ifs with small
        · dsimp only
          by_cases full : maxTerminalHyperlinkBytes < table.bytes +
              (hyperlink.read memory).utf8ByteSize ∨ 65535 < table.values.length
          · rw [if_pos full]
            apply refuses
            intro within
            have := room.mp within
            simp only [maxTerminalHyperlinks] at this
            omega
          · rw [if_neg full]
            apply interns.push absent
            apply room.mpr
            simp only [maxTerminalHyperlinks]
            omega
        · apply refuses
          intro within
          have := room.mp within
          simp only [maxTerminalHyperlinkBytes] at this
          omega

/-- What was found out for one string holds for all at its pointer. -/
theorem Interned.note {outcome : Option ℕ} {next : WireHyperlinks}
    (interned : Interned memory table hyperlink outcome next) :
    Interned memory table hyperlink outcome
      { next with
        pointers := next.pointers.note outcome (heapStringPointer memory hyperlink) } := by
  cases lies : heapStringPointer memory hyperlink with
  | none => exact interned
  | some pointer =>
      have text := (heapStringPointer_eq_some lies).2
      have noted : ∀ other found,
          (next.pointers.insert pointer outcome).lookup other = some found →
          other = pointer ∧ found = outcome ∨ next.pointers.lookup other = some found := by
        intro other found looked
        by_cases here : other = pointer
        · subst here
          rw [AList.lookup_insert] at looked
          exact Or.inl ⟨rfl, (Option.some.inj looked).symm⟩
        · rw [AList.lookup_insert_ne here] at looked
          exact Or.inr looked
      cases interned with
      | listed room nextInterns listed uris keeps =>
          refine .listed room ⟨nextInterns.distinct, nextInterns.indexed, nextInterns.bytes,
            nextInterns.within, ?_, ?_⟩ listed uris keeps
          · intro other index found
            rcases noted other _ found with ⟨rfl, same⟩ | earlier
            · cases same
              rwa [← text]
            · exact nextInterns.found other index earlier
          · intro other refused
            rcases noted other _ refused with ⟨-, same⟩ | earlier
            · cases same
            · exact nextInterns.refused other earlier
      | refused full nextInterns values =>
          refine .refused full ⟨nextInterns.distinct, nextInterns.indexed, nextInterns.bytes,
            nextInterns.within, ?_, ?_⟩ values
          · intro other index found
            rcases noted other _ found with ⟨-, same⟩ | earlier
            · cases same
            · exact nextInterns.found other index earlier
          · intro other refused
            rcases noted other _ refused with ⟨rfl, -⟩ | earlier
            · have unchanged : next.uris memory = table.uris memory := by
                simp only [WireHyperlinks.uris, WireHyperlinks.names, values]
              rw [← text]
              exact unchanged ▸ full
            · exact nextInterns.refused other earlier

/-- Finding a string by its pointer makes no difference. -/
theorem Interns.intern (interns : table.Interns memory) (hyperlink : SmolStr) :
    Interned memory table hyperlink (table.intern memory hyperlink).1
      (table.intern memory hyperlink).2 := by
  simp only [WireHyperlinks.intern]
  cases looked : (heapStringPointer memory hyperlink).bind table.pointers.lookup with
  | none => exact interns.internByValue.note
  | some outcome =>
      rcases Option.bind_eq_some_iff.mp looked with ⟨pointer, lies, found⟩
      have text := (heapStringPointer_eq_some lies).2
      cases outcome with
      | some index =>
          have listed := interns.found pointer index found
          rw [← text] at listed
          have member := mem_uris listed
          exact .listed (within_insert_of_mem interns.within member) interns listed
            (Finset.insert_eq_of_mem member).symm (List.prefix_refl _)
      | none =>
          refine .refused ?_ interns rfl
          rw [text]
          exact interns.refused pointer found

/-- The table's pass over cells is the pass over their texts. -/
theorem Interns.normalizeCells (interns : table.Interns memory)
    (cells : List (TerminalCell SmolStr)) :
    ∃ normalized changed, table.normalizeCells memory cells = some (normalized, changed) ∧
      normalized.map (TerminalCell.read memory) =
        settleCells (table.uris memory) (cells.map (TerminalCell.read memory)) ∧
      (changed = false ↔
        settleCells (table.uris memory) (cells.map (TerminalCell.read memory)) =
          cells.map (TerminalCell.read memory)) := by
  induction cells generalizing table with
  | nil => exact ⟨[], false, rfl, rfl, by simp⟩
  | cons cell cells induction =>
      have plain := @settleCells_cons_none (table.uris memory) (cell.read memory)
        (cells.map (TerminalCell.read memory))
      cases links : cell.hyperlink with
      | none =>
          rcases induction interns with ⟨normalized, changed, runs, texts, same⟩
          have settled := plain (by simp [TerminalCell.map, links])
          refine ⟨cell :: normalized, changed, ?_, ?_, ?_⟩
          · simp [WireHyperlinks.normalizeCells, normalizeCell, links, runs]
          · rw [List.map_cons, List.map_cons, settled, texts]
          · rw [List.map_cons, settled, List.cons_inj_right, same]
      | some hyperlink =>
          have reads : (cell.read memory).hyperlink = some (hyperlink.read memory) := by
            simp [TerminalCell.map, links]
          have interned := interns.intern hyperlink
          rcases found : table.intern memory hyperlink with ⟨outcome, next⟩
          rw [found] at interned
          dsimp only at interned
          cases interned with
          | @listed index _ room nextInterns listed uris _ =>
              have listedValue : ∃ value, next.values[index]? = some value ∧
                  value.read memory = hyperlink.read memory := by
                simpa [names] using listed
              rcases listedValue with ⟨value, valueAt, valueText⟩
              rcases induction nextInterns with ⟨normalized, changed, runs, texts, same⟩
              have settled := @settleCells_cons_of_within _ _ _ (cells.map (TerminalCell.read memory))
                reads room
              rw [uris] at texts same
              refine ⟨{ cell with hyperlink := some value } :: normalized, changed, ?_, ?_, ?_⟩
              · simp [WireHyperlinks.normalizeCells, normalizeCell, links, found, valueAt, runs]
              · rw [List.map_cons, List.map_cons, settled, texts]
                simp [TerminalCell.map, links, valueText]
              · rw [List.map_cons, settled, List.cons_inj_right, same]
          | refused full nextInterns values =>
              rcases induction nextInterns with ⟨normalized, changed, runs, texts, same⟩
              have settled := @settleCells_cons_of_not_within _ _ _
                (cells.map (TerminalCell.read memory)) reads full
              have uris : next.uris memory = table.uris memory := by
                simp only [WireHyperlinks.uris, names, values]
              rw [uris] at texts same
              refine ⟨{ cell with hyperlink := none } :: normalized, true, ?_, ?_, ?_⟩
              · simp [WireHyperlinks.normalizeCells, normalizeCell, links, found, runs]
              · rw [List.map_cons, List.map_cons, settled, texts]
                simp [TerminalCell.map]
              · rw [List.map_cons, settled]
                simp only [Bool.true_eq_false, false_iff, List.cons.injEq, not_and]
                intro kept
                rw [← kept] at reads
                cases reads

end WireHyperlinks

/-! ## Frames within the limits of the wire -/

section Refill

variable {Link Other : Type} {runs : List (TerminalCellRun Link)}

attribute [local simp] refill

theorem flatMap_refill {cells : List (TerminalCell Other)}
    (fits : cells.length = (runs.flatMap TerminalCellRun.cells).length) :
    (refill runs cells).flatMap TerminalCellRun.cells = cells := by
  induction runs generalizing cells with
  | nil => simpa [eq_comm] using fits
  | cons run runs induction =>
      rw [List.flatMap_cons, List.length_append] at fits
      rw [refill, List.flatMap_cons, induction (by rw [List.length_drop]; omega),
        List.take_append_drop]

theorem refill_self : refill runs (runs.flatMap TerminalCellRun.cells) = runs := by
  induction runs with
  | nil => rfl
  | cons run runs induction =>
      rw [List.flatMap_cons, refill, List.take_left, List.drop_left, induction]

theorem map_refill {change : Link → Other} {cells : List (TerminalCell Link)} :
    (refill runs cells).map (TerminalCellRun.map change) =
      refill runs (cells.map (TerminalCell.map change)) := by
  induction runs generalizing cells with
  | nil => rfl
  | cons run runs induction =>
      rw [refill, List.map_cons, induction, refill, List.map_drop]
      simp [TerminalCellRun.map, List.map_take]

theorem refill_map {change : Link → Other} {cells : List (TerminalCell Other)} :
    refill (runs.map (TerminalCellRun.map change)) cells = refill runs cells := by
  induction runs generalizing cells with
  | nil => rfl
  | cons run runs induction =>
      rw [List.map_cons, refill, induction, refill]
      simp [TerminalCellRun.map]

end Refill

theorem cells_mapDelta {Link Other : Type} {change : Link → Other}
    {delta : TerminalViewDelta Link} :
    (delta.map change).cells = delta.cells.map (TerminalCell.map change) := by
  simp [TerminalViewDelta.map, TerminalViewDelta.cells, List.flatMap_map, List.map_flatMap,
    TerminalCellRun.map]

theorem cells_settleDelta {delta : TerminalViewDelta String} :
    (settleDelta kept delta).cells = settleCells kept delta.cells :=
  flatMap_refill length_settleCells

theorem settleDelta_eq_self {delta : TerminalViewDelta String} :
    settleDelta kept delta = delta ↔ settleCells kept delta.cells = delta.cells := by
  constructor
  · intro same
    rw [← cells_settleDelta, same]
  · intro same
    rw [settleDelta, same, TerminalViewDelta.cells, refill_self]

theorem settleView_eq_self {view : TerminalView String} :
    settleView kept view = view ↔ settleCells kept view.cells = view.cells := by
  constructor
  · intro same
    exact congrArg TerminalView.cells same
  · intro same
    rw [settleView, same]

/-- What a frame's own table makes of it. -/
def settleFrame (kept : Finset String) : TerminalViewFrame String → TerminalViewFrame String
  | .full view => .full (settleView kept view)
  | .delta update => .delta (settleDelta kept update)

/-- What a pass kept in a frame, a pass beside fewer links keeps whole. -/
theorem settleFrame_settleFrame (within : Within hyperlinkLimits large) (subset : kept ⊆ large)
    (frame : TerminalViewFrame String) :
    settleFrame kept (settleFrame large frame) = settleFrame large frame := by
  cases frame with
  | full view =>
      apply congrArg TerminalViewFrame.full
      exact settleView_eq_self.mpr (settleCells_settleCells within subset)
  | delta update =>
      apply congrArg TerminalViewFrame.delta
      apply settleDelta_eq_self.mpr
      rw [cells_settleDelta]
      exact settleCells_settleCells within subset

theorem TerminalView.normalizeHyperlinksForWire_spec {memory : Memory}
    {view : TerminalView SmolStr} :
    ∃ normalized changed, view.normalizeHyperlinksForWire memory = some (normalized, changed) ∧
      normalized.map (SmolStr.read memory) = settleView ∅ (view.map (SmolStr.read memory)) ∧
      (changed = false ↔
        settleView ∅ (view.map (SmolStr.read memory)) = view.map (SmolStr.read memory)) := by
  rcases (@WireHyperlinks.interns_default memory).normalizeCells view.cells
    with ⟨cells, changed, runs, texts, same⟩
  refine ⟨{ view with cells := cells }, changed, ?_, ?_, ?_⟩
  · simp [normalizeHyperlinksForWire, runs]
  · rw [TerminalView.map, texts]
    rfl
  · rw [same, settleView_eq_self]
    rfl

theorem TerminalViewDelta.normalizeHyperlinksForWire_spec {memory : Memory}
    {delta : TerminalViewDelta SmolStr} :
    ∃ normalized changed, delta.normalizeHyperlinksForWire memory = some (normalized, changed) ∧
      normalized.map (SmolStr.read memory) = settleDelta ∅ (delta.map (SmolStr.read memory)) ∧
      (changed = false ↔
        settleDelta ∅ (delta.map (SmolStr.read memory)) = delta.map (SmolStr.read memory)) := by
  rcases (@WireHyperlinks.interns_default memory).normalizeCells delta.cells
    with ⟨cells, changed, runs, texts, same⟩
  refine ⟨{ delta with runs := refill delta.runs cells }, changed, ?_, ?_, ?_⟩
  · simp [normalizeHyperlinksForWire, runs]
  · rw [TerminalViewDelta.map, map_refill, texts, settleDelta, cells_mapDelta,
      TerminalViewDelta.map, refill_map]
    rfl
  · rw [same, settleDelta_eq_self, cells_mapDelta]
    rfl

/-- On the wire a frame loses the links its table has no room for, and no others. -/
theorem TerminalViewFrame.normalizeHyperlinksForWire_spec {memory : Memory}
    {frame : TerminalViewFrame SmolStr} :
    ∃ normalized changed, frame.normalizeHyperlinksForWire memory = some (normalized, changed) ∧
      normalized.map (SmolStr.read memory) = settleFrame ∅ (frame.map (SmolStr.read memory)) ∧
      (changed = false ↔
        settleFrame ∅ (frame.map (SmolStr.read memory)) = frame.map (SmolStr.read memory)) := by
  cases frame with
  | full view =>
      rcases @TerminalView.normalizeHyperlinksForWire_spec memory view
        with ⟨normalized, changed, runs, texts, same⟩
      refine ⟨.full normalized, changed, ?_, congrArg _ texts, ?_⟩
      · simp [normalizeHyperlinksForWire, runs]
      · rw [same]
        exact TerminalViewFrame.full.injEq _ _ |>.symm.to_iff
  | delta update =>
      rcases @TerminalViewDelta.normalizeHyperlinksForWire_spec memory update
        with ⟨normalized, changed, runs, texts, same⟩
      refine ⟨.delta normalized, changed, ?_, congrArg _ texts, ?_⟩
      · simp [normalizeHyperlinksForWire, runs]
      · rw [same]
        exact TerminalViewFrame.delta.injEq _ _ |>.symm.to_iff

end Condr
