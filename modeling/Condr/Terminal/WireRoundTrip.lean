import Condr.Terminal.HyperlinkPasses
import Condr.Terminal.Wire

/-!
# Views and deltas survive the wire

Reading the columns of cells gives every cell back with the link that the frame's table had
room for, so a view or delta within the limits decodes to itself. On any message the decoder
reads inside the columns, and the views it returns have a cell for every place of the grid.
-/

namespace Condr

open Budget

/-! ## Numbers and enums -/

theorem narrow16_toUInt32 (value : UInt16) (field : String) :
    narrow16 value.toUInt32 field = .ok value := by
  have small := value.toNat_lt
  simp [narrow16, narrow, small]

theorem toNat_encodeColor_indexed (value : UInt8) :
    (encodeColor (.indexed value)).toNat = value.toNat * 4 + 2 := by
  have small := value.toNat_lt
  have kind := @Nat.two_pow_add_eq_or_of_lt 2 2 (by omega) value.toNat
  simp only [encodeColor, UInt32.toNat_or, UInt32.toNat_shiftLeft, UInt8.toNat_toUInt32,
    Nat.shiftLeft_eq]
  change value.toNat * 2 ^ 2 % 2 ^ 32 ||| 2 = _
  rw [Nat.mod_eq_of_lt (by omega), Nat.mul_comm, ← kind, Nat.mul_comm]

theorem toNat_encodeColor_rgb (red green blue : UInt8) :
    (encodeColor (.rgb red green blue)).toNat =
      (red.toNat * 65536 + green.toNat * 256 + blue.toNat) * 4 + 3 := by
  have redSmall : red.toNat < 256 := red.toNat_lt
  have greenSmall : green.toNat < 256 := green.toNat_lt
  have blueSmall : blue.toNat < 256 := blue.toNat_lt
  have high : 65536 * red.toNat + green.toNat * 256 = 65536 * red.toNat ||| green.toNat * 256 :=
    @Nat.two_pow_add_eq_or_of_lt 16 (green.toNat * 256) (by omega) red.toNat
  have low : 256 * (red.toNat * 256 + green.toNat) + blue.toNat =
      256 * (red.toNat * 256 + green.toNat) ||| blue.toNat :=
    @Nat.two_pow_add_eq_or_of_lt 8 blue.toNat blueSmall (red.toNat * 256 + green.toNat)
  have middle : 65536 * red.toNat + green.toNat * 256 =
      256 * (red.toNat * 256 + green.toNat) := by omega
  have payload : red.toNat * 65536 ||| green.toNat * 256 ||| blue.toNat =
      red.toNat * 65536 + green.toNat * 256 + blue.toNat := by
    rw [Nat.mul_comm red.toNat, ← high, middle, ← low, ← middle, Nat.mul_comm 65536]
  have kind : 4 * (red.toNat * 65536 + green.toNat * 256 + blue.toNat) + 3 =
      4 * (red.toNat * 65536 + green.toNat * 256 + blue.toNat) ||| 3 :=
    @Nat.two_pow_add_eq_or_of_lt 2 3 (by omega) _
  simp only [encodeColor, UInt32.toNat_or, UInt32.toNat_shiftLeft, UInt8.toNat_toUInt32,
    Nat.shiftLeft_eq]
  change (red.toNat * 65536 % 4294967296 ||| green.toNat * 256 % 4294967296 ||| blue.toNat) * 4 %
    4294967296 ||| 3 = _
  rw [Nat.mod_eq_of_lt (show red.toNat * 65536 < 4294967296 by omega),
    Nat.mod_eq_of_lt (show green.toNat * 256 < 4294967296 by omega), payload,
    Nat.mod_eq_of_lt (show (_ + _) * 4 < 4294967296 by omega), Nat.mul_comm _ 4, ← kind]

theorem toNat_payload (value : UInt32) : (value >>> 2).toNat = value.toNat / 4 := by
  rw [UInt32.toNat_shiftRight, Nat.shiftRight_eq_div_pow]
  rfl

theorem toNat_kind (value : UInt32) : (value &&& 3).toNat = value.toNat % 4 := by
  rw [UInt32.toNat_and]
  exact Nat.and_two_pow_sub_one_eq_mod value.toNat 2

theorem decodeColor_encodeColor (color : TerminalColor) :
    decodeColor (encodeColor color) = .ok color := by
  cases color with
  | default => decide
  | indexed value =>
      have small := value.toNat_lt
      have code := toNat_encodeColor_indexed value
      have kind : encodeColor (.indexed value) &&& 3 = 2 := by
        apply UInt32.toNat_inj.mp
        rw [toNat_kind, code]
        change (value.toNat * 4 + 2) % 4 = 2
        omega
      have payload : (encodeColor (.indexed value) >>> 2).toNat = value.toNat := by
        rw [toNat_payload, code]
        omega
      have cut : (encodeColor (.indexed value) >>> 2).toUInt8 = value := by
        apply UInt8.toNat_inj.mp
        rw [UInt32.toNat_toUInt8, payload]
        omega
      simp only [decodeColor, kind]
      simp only [narrow8, narrow, payload, cut, if_pos small]
      rfl
  | rgb red green blue =>
      have redSmall := red.toNat_lt
      have greenSmall := green.toNat_lt
      have blueSmall := blue.toNat_lt
      have code := toNat_encodeColor_rgb red green blue
      set value := encodeColor (.rgb red green blue)
      have kind : value &&& 3 = 3 := by
        apply UInt32.toNat_inj.mp
        rw [toNat_kind, code]
        change _ % 4 = 3
        omega
      have payload : (value >>> 2).toNat =
          red.toNat * 65536 + green.toNat * 256 + blue.toNat := by
        rw [toNat_payload, code]
        omega
      have small : value >>> 2 ≤ 0xffffff := by
        rw [UInt32.le_iff_toNat_le, payload]
        change _ ≤ 16777215
        omega
      have redCut : (value >>> 2 >>> 16).toUInt8 = red := by
        apply UInt8.toNat_inj.mp
        rw [UInt32.toNat_toUInt8, UInt32.toNat_shiftRight, payload, Nat.shiftRight_eq_div_pow]
        change _ / 2 ^ 16 % 2 ^ 8 = _
        omega
      have greenCut : (value >>> 2 >>> 8).toUInt8 = green := by
        apply UInt8.toNat_inj.mp
        rw [UInt32.toNat_toUInt8, UInt32.toNat_shiftRight, payload, Nat.shiftRight_eq_div_pow]
        change _ / 2 ^ 8 % 2 ^ 8 = _
        omega
      have blueCut : (value >>> 2).toUInt8 = blue := by
        apply UInt8.toNat_inj.mp
        rw [UInt32.toNat_toUInt8, payload]
        omega
      simp only [decodeColor, kind, small, redCut, greenCut, blueCut]
      rfl

theorem decodeSize_encodeSize (size : TerminalSize) : decodeSize (encodeSize size) = .ok size := by
  simp only [decodeSize, encodeSize, narrow16_toUInt32]
  rfl

theorem decodeMouseTracking_encode (tracking : TerminalMouseTracking) :
    decodeMouseTracking (encodeMouseTracking tracking) = .ok tracking := by
  cases tracking <;> rfl

theorem cursorShape_toWire (shape : TerminalCursorShape) :
    cursorShape shape.toWire = .ok shape := by
  cases shape <;> rfl

theorem selectionSide_toWire (side : TerminalSide) : selectionSide side.toWire = .ok side := by
  cases side <;> rfl

theorem decodeCursor_encodeCursor (cursor : TerminalCursor) :
    decodeCursor (encodeCursor cursor) = .ok cursor := by
  simp only [decodeCursor, encodeCursor, narrow16_toUInt32, cursorShape_toWire]
  rfl

theorem decodePosition_encodePosition (position : TerminalPosition) :
    decodePosition (encodePosition position) = .ok position := by
  simp only [decodePosition, encodePosition, narrow16_toUInt32, selectionSide_toWire]
  rfl

theorem decodeSelection_encodeSelection (selection : TerminalSelection) :
    decodeSelection (encodeSelection selection) = .ok selection := by
  have start := decodePosition_encodePosition selection.start
  have finish := decodePosition_encodePosition selection.finish
  simp only [decodeSelection, encodeSelection, required]
  change (decodePosition (encodePosition selection.start) >>= fun start => _) = _
  rw [start]
  change (decodePosition (encodePosition selection.finish) >>= fun finish => _) = _
  rw [finish]
  rfl

theorem transposeMap_map_eq_ok {α β ε : Type} {encode : α → β} {decode : β → Except ε α}
    (inverse : ∀ value, decode (encode value) = .ok value) (value : Option α) :
    transposeMap decode (value.map encode) = .ok value := by
  cases value with
  | none => rfl
  | some value => simp [transposeMap, inverse, Except.map]

theorem fromWire_ok {α : Type} (value : α) : fromWire (.ok value) = .ok value := rfl

/-! ## Columns as they are written -/

/-- A column that is empty where all values are zero. -/
def shown (values : List UInt32) : OptionalColumn :=
  if values.all (· == 0) then { values := [], any := false }
  else { values := values, any := true }

theorem shown_of_zero {values : List UInt32} (zero : ∀ value ∈ values, value = 0) :
    shown values = { values := [], any := false } :=
  if_pos (by simpa using zero)

theorem shown_of_any {values : List UInt32} (any : ¬∀ value ∈ values, value = 0) :
    shown values = { values := values, any := true } :=
  if_neg (by simpa using any)

theorem push_shown (values : List UInt32) (value : UInt32) :
    (shown values).push values.length value = shown (values ++ [value]) := by
  by_cases zero : ∀ other ∈ values, other = 0
  · rw [shown_of_zero zero]
    by_cases first : value = 0
    · have still : ∀ other ∈ values ++ [value], other = 0 := by
        intro other member
        rcases List.mem_append.mp member with earlier | last
        · exact zero other earlier
        · exact (List.mem_singleton.mp last).trans first
      rw [shown_of_zero still]
      simp [OptionalColumn.push, first]
    · have padding : List.replicate values.length 0 = values :=
        (List.eq_replicate_of_mem zero).symm
      rw [shown_of_any (by simp [first])]
      simp [OptionalColumn.push, first, padding]
  · have some : ¬∀ other ∈ values ++ [value], other = 0 := by
      intro all
      exact zero fun other member => all other (List.mem_append_left _ member)
    rw [shown_of_any zero, shown_of_any some]
    simp [OptionalColumn.push]

theorem getD_shown {values : List UInt32} {index : ℕ} {value : UInt32}
    (present : values[index]? = some value) : (shown values).values[index]?.getD 0 = value := by
  by_cases zero : ∀ other ∈ values, other = 0
  · rw [shown_of_zero zero]
    exact (zero value (List.mem_of_getElem? present)).symm
  · rw [shown_of_any zero, present]
    rfl

theorem length_shown (values : List UInt32) :
    (shown values).values = [] ∨ (shown values).values.length = values.length := by
  by_cases zero : ∀ other ∈ values, other = 0
  · exact Or.inl (by rw [shown_of_zero zero])
  · exact Or.inr (by rw [shown_of_any zero])

/-- The links of cells as column values, and the table with all of them. -/
def internCells (memory : Memory) :
    WireHyperlinks → List (TerminalCell SmolStr) → List UInt32 × WireHyperlinks
  | hyperlinks, [] => ([], hyperlinks)
  | hyperlinks, cell :: cells =>
      let (code, hyperlinks) := internCell memory hyperlinks cell
      let (codes, hyperlinks) := internCells memory hyperlinks cells
      (code :: codes, hyperlinks)

/-- The writer when cells are written, with the column values of their links. -/
def CellWriter.of (cells : List (TerminalCell SmolStr)) (codes : List UInt32)
    (hyperlinks : WireHyperlinks) : CellWriter where
  text := String.join (cells.map TerminalCell.text)
  textLen := cells.map fun cell => UInt32.ofNat cell.text.utf8ByteSize
  foreground := cells.map fun cell => encodeColor cell.foreground
  background := cells.map fun cell => encodeColor cell.background
  flags := shown (cells.map TerminalCell.flags)
  underline := shown (cells.map fun cell => encodeColor cell.underlineColor)
  hyperlink := shown codes
  hyperlinks := hyperlinks
  index := cells.length

theorem CellWriter.of_nil (hyperlinks : WireHyperlinks) :
    CellWriter.of [] [] hyperlinks = .start hyperlinks := by
  simp [of, start, shown, String.join]

theorem CellWriter.write_of {memory : Memory} {done : List (TerminalCell SmolStr)}
    {codes : List UInt32} {hyperlinks : WireHyperlinks} (cell : TerminalCell SmolStr)
    (same : codes.length = done.length) :
    (CellWriter.of done codes hyperlinks).write memory cell =
      CellWriter.of (done ++ [cell]) (codes ++ [(internCell memory hyperlinks cell).1])
        (internCell memory hyperlinks cell).2 := by
  have flags := push_shown (done.map TerminalCell.flags) cell.flags
  have underline := push_shown (done.map fun cell => encodeColor cell.underlineColor)
    (encodeColor cell.underlineColor)
  have hyperlink := push_shown codes (internCell memory hyperlinks cell).1
  rw [List.length_map] at flags underline
  rw [same] at hyperlink
  simp only [write, of, flags, underline, hyperlink, List.map_append, List.map_cons, List.map_nil,
    List.length_append, List.length_cons, List.length_nil]
  simp

theorem CellWriter.foldl_write {memory : Memory} {cells done : List (TerminalCell SmolStr)}
    {codes : List UInt32} {hyperlinks : WireHyperlinks} (same : codes.length = done.length) :
    cells.foldl (CellWriter.write memory) (CellWriter.of done codes hyperlinks) =
      CellWriter.of (done ++ cells) (codes ++ (internCells memory hyperlinks cells).1)
        (internCells memory hyperlinks cells).2 := by
  induction cells generalizing done codes hyperlinks with
  | nil => simp [internCells]
  | cons cell cells induction =>
      rw [List.foldl_cons, CellWriter.write_of cell same, induction (by simp [same])]
      simp [internCells]

/-- A table that grows keeps the places of its texts. -/
theorem names_preserved {memory : Memory} {table next : WireHyperlinks}
    (keeps : table.values <+: next.values) {index : ℕ} {uri : String}
    (listed : (table.names memory)[index]? = some uri) :
    (next.names memory)[index]? = some uri := by
  rcases keeps with ⟨more, same⟩
  have split : next.names memory = table.names memory ++ more.map (SmolStr.read memory) := by
    rw [WireHyperlinks.names, ← same, List.map_append, WireHyperlinks.names]
  rw [split, List.getElem?_append_left (List.getElem?_eq_some_iff.mp listed).1, listed]

/-- A column value leads to the text at its place. -/
theorem linkAt_listed {memory : Memory} {table : WireHyperlinks} (interns : table.Interns memory)
    {index : ℕ} {uri : String} (listed : (table.names memory)[index]? = some uri) :
    CellReader.linkAt (table.names memory) (UInt32.ofNat index + 1) = .ok (some uri) := by
  have inside := (List.getElem?_eq_some_iff.mp listed).1
  have few : (table.names memory).length ≤ 65536 := by
    have count := interns.within.2.2
    rwa [WireHyperlinks.uris, List.toFinset_card_of_nodup interns.distinct] at count
  have value : (UInt32.ofNat index + 1).toNat = index + 1 := by
    rw [UInt32.toNat_add, UInt32.toNat_ofNat_of_lt' (by simp [UInt32.size]; omega)]
    change (index + 1) % 2 ^ 32 = _
    omega
  have positive : UInt32.ofNat index + 1 ≠ 0 := by
    intro zero
    have := congrArg UInt32.toNat zero
    rw [value] at this
    cases this
  simp only [CellReader.linkAt, if_neg positive, value, Nat.add_sub_cancel, listed]

/-- What a table makes of the links of cells is what the pass over their texts keeps. -/
theorem internCells_spec {memory : Memory} {hyperlinks : WireHyperlinks}
    (interns : hyperlinks.Interns memory) (cells : List (TerminalCell SmolStr)) :
    (internCells memory hyperlinks cells).2.Interns memory ∧
      hyperlinks.values <+: (internCells memory hyperlinks cells).2.values ∧
      List.Forall₂
        (fun code link => CellReader.linkAt
          ((internCells memory hyperlinks cells).2.names memory) code = .ok link)
        (internCells memory hyperlinks cells).1
        (settle hyperlinkLimits (hyperlinks.uris memory)
          (linkSlots (cells.map (TerminalCell.read memory)))) := by
  induction cells generalizing hyperlinks with
  | nil => exact ⟨interns, List.prefix_refl _, List.Forall₂.nil⟩
  | cons cell cells induction =>
      cases present : cell.hyperlink with
      | none =>
          rcases induction interns with ⟨finalInterns, keeps, links⟩
          have step : internCell memory hyperlinks cell = (0, hyperlinks) := by
            simp [internCell, present]
          have plain : (cell.read memory).hyperlink = none := by
            simp [TerminalCell.map, present]
          simp only [internCells, step, linkSlots, List.map_cons, plain, settle_cons_none]
          exact ⟨finalInterns, keeps, List.Forall₂.cons rfl links⟩
      | some link =>
          have reads : (cell.read memory).hyperlink = some (link.read memory) := by
            simp [TerminalCell.map, present]
          have interned := interns.intern link
          rcases found : hyperlinks.intern memory link with ⟨outcome, next⟩
          rw [found] at interned
          dsimp only at interned
          cases interned with
          | @listed index _ room nextInterns listed uris keepsNext =>
              have step : internCell memory hyperlinks cell = (UInt32.ofNat index + 1, next) := by
                simp [internCell, present, found]
              rcases induction nextInterns with ⟨finalInterns, keeps, links⟩
              simp only [internCells, step, linkSlots, List.map_cons, reads,
                settle_cons_of_within room]
              refine ⟨finalInterns, keepsNext.trans keeps, List.Forall₂.cons ?_ (uris ▸ links)⟩
              exact linkAt_listed finalInterns (names_preserved keeps listed)
          | refused full nextInterns values =>
              have step : internCell memory hyperlinks cell = (0, next) := by
                simp [internCell, present, found]
              rcases induction nextInterns with ⟨finalInterns, keeps, links⟩
              have uris : next.uris memory = hyperlinks.uris memory := by
                simp only [WireHyperlinks.uris, WireHyperlinks.names, values]
              simp only [internCells, step, linkSlots, List.map_cons, reads,
                settle_cons_of_not_within full]
              exact ⟨finalInterns, values ▸ keeps, List.Forall₂.cons rfl (uris ▸ links)⟩

/-! ## Reading what is written -/

/-- Columns and a table that hold cells. -/
structure Written (columns : Pb.TerminalCells) (names : List String)
    (cells : List (TerminalCell String)) : Prop where
  text : columns.text = String.join (cells.map TerminalCell.text)
  textLen : columns.textLen = cells.map fun cell => UInt32.ofNat cell.text.utf8ByteSize
  foreground : columns.foreground = cells.map fun cell => encodeColor cell.foreground
  background : columns.background = cells.map fun cell => encodeColor cell.background
  flags : columns.flags = (shown (cells.map TerminalCell.flags)).values
  underline : columns.underline =
    (shown (cells.map fun cell => encodeColor cell.underlineColor)).values
  links : ∃ codes, columns.hyperlink = (shown codes).values ∧
    List.Forall₂ (fun code cell => CellReader.linkAt names code = .ok cell.hyperlink) codes cells

/-- What does not look at links is the same of the cells that a pass leaves. -/
theorem map_settleCells {Value : Type} {kept : Finset String} {cells : List (TerminalCell String)}
    {property : TerminalCell String → Value}
    (blind : ∀ cell link, property { cell with hyperlink := link } = property cell) :
    (settleCells kept cells).map property = cells.map property := by
  induction cells generalizing kept with
  | nil => rfl
  | cons cell cells induction =>
      cases present : cell.hyperlink with
      | none => rw [settleCells_cons_none present, List.map_cons, induction, List.map_cons]
      | some uri =>
          by_cases room : Within hyperlinkLimits (insert uri kept)
          · rw [settleCells_cons_of_within present room, List.map_cons, induction, List.map_cons]
          · rw [settleCells_cons_of_not_within present room, List.map_cons, induction, blind,
              List.map_cons]

/-- The encoder writes the cells with the links that the table has room for. -/
theorem written_encodeCells (memory : Memory) (cells : List (TerminalCell SmolStr)) :
    Written (encodeCells memory cells .default).1 ((encodeCells memory cells .default).2.names memory)
        (settleCells ∅ (cells.map (TerminalCell.read memory))) ∧
      (encodeCells memory cells .default).2.Interns memory := by
  have start := CellWriter.of_nil .default
  have writer := @CellWriter.foldl_write memory cells [] [] .default rfl
  rw [List.nil_append, List.nil_append, start] at writer
  rcases internCells_spec (@WireHyperlinks.interns_default memory) cells
    with ⟨finalInterns, -, links⟩
  rw [← linkSlots_settleCells, linkSlots, List.forall₂_map_right_iff,
    WireHyperlinks.uris_default] at links
  have encoded : encodeCells memory cells .default =
      ({ text := String.join (cells.map TerminalCell.text)
         textLen := cells.map fun cell => UInt32.ofNat cell.text.utf8ByteSize
         foreground := cells.map fun cell => encodeColor cell.foreground
         background := cells.map fun cell => encodeColor cell.background
         flags := (shown (cells.map TerminalCell.flags)).values
         hyperlink := (shown (internCells memory .default cells).1).values
         underline := (shown (cells.map fun cell => encodeColor cell.underlineColor)).values },
        (internCells memory .default cells).2) := by
    rw [encodeCells, writer]
    rfl
  rw [encoded]
  refine ⟨⟨?_, ?_, ?_, ?_, ?_, ?_, ⟨_, rfl, links⟩⟩, finalInterns⟩
  all_goals
    dsimp only
    rw [map_settleCells (by intros; rfl), List.map_map]
    rfl

variable {columns : Pb.TerminalCells} {names : List String} {cells : List (TerminalCell String)}

/-- The reader before a cell, behind the texts of those read. -/
def readerAt (columns : Pb.TerminalCells) (names : List String)
    (cells : List (TerminalCell String)) (index : ℕ) : CellReader where
  columns := columns
  hyperlinks := names
  index := index
  offset := (String.join ((cells.take index).map TerminalCell.text)).utf8ByteSize

theorem Written.nextCell (written : Written columns names cells) {index : ℕ}
    {cell : TerminalCell String} (present : cells[index]? = some cell)
    (short : cell.text.utf8ByteSize ≤ maxTerminalCellTextBytes) :
    (readerAt columns names cells index).nextCell =
      .ok (cell, readerAt columns names cells (index + 1)) := by
  have inside := (List.getElem?_eq_some_iff.mp present).1
  have length : (UInt32.ofNat cell.text.utf8ByteSize).toNat = cell.text.utf8ByteSize := by
    apply UInt32.toNat_ofNat_of_lt'
    exact short.trans_lt (by decide)
  have taken : (cells.take (index + 1)).map TerminalCell.text =
      (cells.take index).map TerminalCell.text ++ [cell.text] := by
    rw [List.take_add_one, present, List.map_append]
    rfl
  have text : columns.text = String.join ((cells.take index).map TerminalCell.text) ++ cell.text ++
      String.join ((cells.drop (index + 1)).map TerminalCell.text) := by
    calc columns.text = String.join ((cells.take (index + 1) ++ cells.drop (index + 1)).map
            TerminalCell.text) := by rw [List.take_append_drop, written.text]
      _ = _ := by
        rw [List.map_append, taken, String.join_append, String.join_append, String.join_cons,
          String.join_nil, String.append_empty]
  have slice := Utf8.get_append (String.join ((cells.take index).map TerminalCell.text)) cell.text
    (String.join ((cells.drop (index + 1)).map TerminalCell.text))
  have readTextLen : readAt columns.textLen index =
      .ok (UInt32.ofNat cell.text.utf8ByteSize) := by
    simp [readAt, written.textLen, present]
  have readForeground : readAt columns.foreground index = .ok (encodeColor cell.foreground) := by
    simp [readAt, written.foreground, present]
  have readBackground : readAt columns.background index = .ok (encodeColor cell.background) := by
    simp [readAt, written.background, present]
  have readFlags : columns.flags[index]?.getD 0 = cell.flags := by
    rw [written.flags]
    exact getD_shown (by simp [present])
  have readUnderline : columns.underline[index]?.getD 0 = encodeColor cell.underlineColor := by
    rw [written.underline]
    exact getD_shown (by simp [present])
  have readLink : CellReader.linkAt names (columns.hyperlink[index]?.getD 0) =
      .ok cell.hyperlink := by
    rcases written.links with ⟨codes, shows, links⟩
    have bound : index < codes.length := links.length_eq ▸ inside
    have linked := links.get bound inside
    rw [shows, getD_shown (List.getElem?_eq_getElem bound)]
    have same : cells.get ⟨index, inside⟩ = cell := by
      simpa [List.getElem?_eq_getElem inside] using present
    rw [same] at linked
    exact linked
  have offset : (String.join ((cells.take (index + 1)).map TerminalCell.text)).utf8ByteSize =
      (String.join ((cells.take index).map TerminalCell.text)).utf8ByteSize +
        cell.text.utf8ByteSize := by
    rw [taken, String.join_append, String.utf8ByteSize_append, String.join_cons, String.join_nil,
      String.append_empty]
  rw [← text] at slice
  simp only [CellReader.nextCell, readerAt, readTextLen, readForeground, readBackground, readFlags,
    readUnderline, readLink, decodeColor_encodeColor, offset, fromWire_ok, Lists.ok_bind, length, slice,
    if_neg (Nat.not_lt.mpr short)]
  rfl

theorem Written.readCells (written : Written columns names cells)
    (short : ∀ cell ∈ cells, cell.text.utf8ByteSize ≤ maxTerminalCellTextBytes) {count index : ℕ}
    (inside : index + count ≤ cells.length) :
    CellReader.cells count (readerAt columns names cells index) =
      .ok ((cells.drop index).take count, readerAt columns names cells (index + count)) := by
  induction count generalizing index with
  | zero => simp [CellReader.cells]
  | succ count induction =>
      have here : index < cells.length := by omega
      have next := written.nextCell (List.getElem?_eq_getElem here)
        (short _ (List.getElem_mem here))
      have later := @induction (index + 1) (by omega)
      rw [CellReader.cells, next, Lists.ok_bind]
      dsimp only
      rw [later, Lists.ok_bind, List.drop_eq_getElem_cons here, List.take_succ_cons]
      rw [show index + 1 + count = index + (count + 1) by omega]
      rfl

theorem Written.newReader (written : Written columns names cells) :
    CellReader.new columns names cells.length = .ok (readerAt columns names cells 0) := by
  have optional : ∀ {column values : List UInt32}, values.length = cells.length →
      column = (shown values).values →
      (column.isEmpty || column.length == cells.length) = true := by
    intro column values length shows
    rcases length_shown values with empty | same
    · simp [shows, empty]
    · simp [shows, same, length]
  rcases written.links with ⟨codes, shows, links⟩
  have flags := optional (List.length_map _) written.flags
  have underline := optional (List.length_map _) written.underline
  have hyperlink := optional links.length_eq shows
  simp [CellReader.new, flags, underline, hyperlink, written.textLen, written.foreground,
    written.background, readerAt]

theorem Written.finish (written : Written columns names cells) :
    (readerAt columns names cells cells.length).finish = .ok () := by
  simp [CellReader.finish, readerAt, written.text]

/-- A table within the limits is one that a frame may have. -/
theorem decodeHyperlinks_of_interns {memory : Memory} {table : WireHyperlinks}
    (interns : table.Interns memory) :
    decodeHyperlinks (table.names memory) = .ok (table.names memory) := by
  have few : (table.names memory).length ≤ maxTerminalHyperlinks := by
    rw [← List.toFinset_card_of_nodup interns.distinct]
    exact interns.within.2.2
  have total : ((table.names memory).map String.utf8ByteSize).sum ≤ maxTerminalHyperlinkBytes := by
    rw [← List.sum_toFinset _ interns.distinct]
    exact interns.within.2.1
  have each : ∀ uri ∈ table.names memory, uri.utf8ByteSize ≤ maxTerminalHyperlinkUriBytes := by
    intro uri member
    exact interns.within.1 uri (List.mem_toFinset.mpr member)
  have checks : ∀ (uris : List String) (bytes : ℕ),
      (∀ uri ∈ uris, uri.utf8ByteSize ≤ maxTerminalHyperlinkUriBytes) →
      bytes + (uris.map String.utf8ByteSize).sum ≤ maxTerminalHyperlinkBytes →
      checkHyperlinks bytes uris = .ok () := by
    intro uris
    induction uris with
    | nil => intros; rfl
    | cons uri uris induction =>
        intro bytes each total
        rw [List.forall_mem_cons] at each
        rw [List.map_cons, List.sum_cons] at total
        rw [checkHyperlinks, if_neg (by omega), if_neg (by omega)]
        exact induction _ each.2 (by omega)
  rw [decodeHyperlinks, if_neg (by omega), checks _ 0 each (by omega)]
  rfl

theorem short_settleCells {memory : Memory} {kept : Finset String}
    {given : List (TerminalCell SmolStr)}
    (short : ∀ cell ∈ given, cell.text.utf8ByteSize ≤ maxTerminalCellTextBytes) :
    ∀ cell ∈ settleCells kept (given.map (TerminalCell.read memory)),
      cell.text.utf8ByteSize ≤ maxTerminalCellTextBytes := by
  have texts : (settleCells kept (given.map (TerminalCell.read memory))).map TerminalCell.text =
      given.map TerminalCell.text := by
    rw [map_settleCells (by intros; rfl), List.map_map]
    rfl
  intro cell member
  have listed : cell.text ∈ given.map TerminalCell.text := texts ▸ List.mem_map_of_mem member
  rcases List.mem_map.mp listed with ⟨original, originalMem, same⟩
  rw [← same]
  exact short original originalMem

/-- Decoding a view that is written gives it back with the links its table had room for. -/
theorem toDomain_toWire_view {memory : Memory} {view : TerminalView SmolStr}
    (grid : view.cells.length = view.size.rows.toNat * view.size.columns.toNat)
    (few : view.cells.length ≤ maxTerminalCells)
    (short : ∀ cell ∈ view.cells, cell.text.utf8ByteSize ≤ maxTerminalCellTextBytes) :
    (view.toWire memory).toDomain = .ok (settleView ∅ (view.map (SmolStr.read memory))) := by
  rcases written_encodeCells memory view.cells with ⟨written, interns⟩
  set cells := settleCells ∅ (view.cells.map (TerminalCell.read memory)) with cellsEq
  have length : cells.length = view.cells.length := by simp [cellsEq]
  have shortCells := @short_settleCells memory ∅ _ short
  rw [← cellsEq] at shortCells
  have read := @Written.readCells _ _ _ written shortCells cells.length 0 (by omega)
  rw [List.drop_zero, List.take_length, Nat.zero_add] at read
  have count : view.size.rows.toNat * view.size.columns.toNat = cells.length := by omega
  have hyperlinks := decodeHyperlinks_of_interns interns
  rw [WireHyperlinks.names] at hyperlinks written read
  simp only [TerminalView.toWire, Pb.TerminalView.toDomain, required, decodeSize_encodeSize,
    fromWire_ok, Lists.ok_bind, count, if_neg (Nat.not_lt.mpr (length ▸ few)), hyperlinks,
    written.newReader, read, written.finish, decodeMouseTracking_encode,
    transposeMap_map_eq_ok decodeCursor_encodeCursor,
    transposeMap_map_eq_ok decodeSelection_encodeSelection]
  rfl

/-- The cells that are read as runs. -/
theorem Written.readRuns (written : Written columns names cells)
    (short : ∀ cell ∈ cells, cell.text.utf8ByteSize ≤ maxTerminalCellTextBytes)
    {runs : List (TerminalCellRun String)} {index : ℕ}
    (holds : cells.drop index = runs.flatMap TerminalCellRun.cells)
    (inside : index ≤ cells.length) (few : cells.length ≤ maxTerminalCells) :
    Condr.readRuns ((runs.map TerminalCellRun.start).zip
        (runs.map fun run => UInt32.ofNat run.cells.length)) (readerAt columns names cells index) =
      .ok (runs, readerAt columns names cells cells.length) := by
  induction runs generalizing index with
  | nil =>
      have done : index = cells.length := by
        have := congrArg List.length holds
        simp only [List.length_drop, List.flatMap_nil, List.length_nil] at this
        omega
      subst done
      rfl
  | cons run runs induction =>
      have lengths := congrArg List.length holds
      rw [List.flatMap_cons, List.length_append, List.length_drop] at lengths
      have length : (UInt32.ofNat run.cells.length).toNat = run.cells.length := by
        apply UInt32.toNat_ofNat_of_lt'
        have : maxTerminalCells < UInt32.size := by decide
        omega
      have first := @Written.readCells _ _ _ written short run.cells.length index (by omega)
      rw [holds, List.flatMap_cons, List.take_left] at first
      have rest : cells.drop (index + run.cells.length) =
          runs.flatMap TerminalCellRun.cells := by
        rw [← List.drop_drop, holds, List.flatMap_cons, List.drop_left]
      have later := induction rest (by omega)
      simp only [List.map_cons, List.zip_cons_cons, Condr.readRuns, length, first, Lists.ok_bind,
        later]
      rfl

theorem countCells_eq {Link : Type} {runs : List (TerminalCellRun Link)} {count : ℕ}
    (few : count + (runs.flatMap TerminalCellRun.cells).length ≤ maxTerminalCells) :
    countCells count (runs.map fun run => UInt32.ofNat run.cells.length) =
      .ok (count + (runs.flatMap TerminalCellRun.cells).length) := by
  induction runs generalizing count with
  | nil => rfl
  | cons run runs induction =>
      rw [List.flatMap_cons, List.length_append] at few ⊢
      have length : (UInt32.ofNat run.cells.length).toNat = run.cells.length := by
        apply UInt32.toNat_ofNat_of_lt'
        have : maxTerminalCells < UInt32.size := by decide
        omega
      rw [List.map_cons, countCells, length, if_neg (by omega), induction (by omega)]
      rw [Nat.add_assoc]

/-- Decoding a delta that is written gives it back with the links its table had room for. -/
theorem toDomain_toWire_delta {memory : Memory} {delta : TerminalViewDelta SmolStr}
    (few : delta.cells.length ≤ maxTerminalCells)
    (short : ∀ cell ∈ delta.cells, cell.text.utf8ByteSize ≤ maxTerminalCellTextBytes) :
    (delta.toWire memory).toDomain = .ok (settleDelta ∅ (delta.map (SmolStr.read memory))) := by
  rcases written_encodeCells memory delta.cells with ⟨written, interns⟩
  have shortCells := @short_settleCells memory ∅ _ short
  have settled : settleCells ∅ (delta.map (SmolStr.read memory)).cells =
      settleCells ∅ (delta.cells.map (TerminalCell.read memory)) := by
    rw [cells_mapDelta]
  set cells := settleCells ∅ (delta.cells.map (TerminalCell.read memory)) with cellsEq
  have length : cells.length = delta.cells.length := by simp [cellsEq]
  set runs := (settleDelta ∅ (delta.map (SmolStr.read memory))).runs with runsEq
  have holds : runs.flatMap TerminalCellRun.cells = cells := by
    rw [← settled, ← cells_settleDelta]
    rfl
  -- the runs start and end where those written did
  have shapes : shape runs = shape delta.runs := by
    rw [runsEq, shape_settleDelta]
    exact shape_map
  have starts : delta.runs.map TerminalCellRun.start = runs.map TerminalCellRun.start := by
    have firsts := congrArg (List.map Prod.fst) shapes
    simp only [shape, List.map_map] at firsts
    exact firsts.symm
  have lengths : (delta.runs.map fun run => UInt32.ofNat run.cells.length) =
      runs.map fun run => UInt32.ofNat run.cells.length := by
    have seconds := congrArg (List.map fun pair => UInt32.ofNat pair.2) shapes
    simp only [shape, List.map_map] at seconds
    exact seconds.symm
  have count : countCells 0 (runs.map fun run => UInt32.ofNat run.cells.length) =
      .ok cells.length := by
    rw [countCells_eq (by rw [holds]; omega), holds, Nat.zero_add]
  have read := @Written.readRuns _ _ _ written shortCells runs 0 (by rw [holds, List.drop_zero])
    (Nat.zero_le _) (by omega)
  have hyperlinks := decodeHyperlinks_of_interns interns
  rw [WireHyperlinks.names] at hyperlinks written read
  simp only [TerminalViewDelta.toWire, Pb.TerminalViewDelta.toDomain, required, starts, lengths,
    List.length_map, ne_eq, not_true_eq_false, if_false, fromWire_ok, Lists.ok_bind, count,
    hyperlinks, written.newReader, read, written.finish, decodeMouseTracking_encode,
    transposeMap_map_eq_ok decodeCursor_encodeCursor,
    transposeMap_map_eq_ok decodeSelection_encodeSelection]
  rfl

/-! ## Any message -/

/-- A read ends with a value that has the property or with an error, and never outside. -/
def Safe {α : Type} (property : α → Prop) : ReadResult α → Prop
  | .ok value => property value
  | .error .outOfRange => False
  | .error (.wire _) => True

theorem Safe.bind {α β : Type} {holds : α → Prop} {property : β → Prop} {result : ReadResult α}
    {rest : α → ReadResult β} (safe : Safe holds result)
    (later : ∀ value, holds value → Safe property (rest value)) :
    Safe property (result >>= rest) := by
  cases result with
  | ok value => exact later value safe
  | error fault =>
      cases fault with
      | outOfRange => exact safe
      | wire error => trivial

theorem safe_fromWire {α : Type} (result : WireResult α) :
    Safe (fun value => result = .ok value) (fromWire result) := by
  cases result with
  | ok value => rfl
  | error error => trivial

theorem safe_readAt {column : List UInt32} {index : ℕ} (inside : index < column.length) :
    Safe (fun _ => True) (readAt column index) := by
  rw [readAt, List.getElem?_eq_getElem inside]
  trivial

namespace CellReader

/-- The columns that are always there have a value for every cell. -/
def Covers (count : ℕ) (reader : CellReader) : Prop :=
  reader.columns.textLen.length = count ∧ reader.columns.foreground.length = count ∧
    reader.columns.background.length = count

theorem safe_new (columns : Pb.TerminalCells) (hyperlinks : List String) (count : ℕ) :
    Safe (fun reader => reader.Covers count ∧ reader.index = 0)
      (CellReader.new columns hyperlinks count) := by
  simp only [CellReader.new]
  split_ifs with disagree
  · trivial
  · simp only [not_or, ne_eq, not_not] at disagree
    exact ⟨⟨disagree.1, disagree.2.1, disagree.2.2.1⟩, rfl⟩

theorem safe_nextCell {count : ℕ} {reader : CellReader} (covers : reader.Covers count)
    (inside : reader.index < count) :
    Safe (fun read => read.2.Covers count ∧ read.2.index = reader.index + 1) reader.nextCell := by
  rcases covers with ⟨textLen, foreground, background⟩
  apply (safe_readAt (textLen.symm ▸ inside)).bind
  intro length _
  dsimp only
  split_ifs with long
  · trivial
  · split
    · trivial
    · apply (safe_fromWire _).bind
      intro hyperlink _
      apply (safe_fromWire _).bind
      intro underlineColor _
      apply (safe_readAt (foreground.symm ▸ inside)).bind
      intro foregroundCode _
      apply (safe_fromWire _).bind
      intro foregroundColor _
      apply (safe_readAt (background.symm ▸ inside)).bind
      intro backgroundCode _
      apply (safe_fromWire _).bind
      intro backgroundColor _
      exact ⟨⟨textLen, foreground, background⟩, rfl⟩

theorem safe_cells {count total : ℕ} {reader : CellReader} (covers : reader.Covers total)
    (inside : reader.index + count ≤ total) :
    Safe (fun read => read.1.length = count ∧ read.2.Covers total ∧
      read.2.index = reader.index + count) (CellReader.cells count reader) := by
  induction count generalizing reader with
  | zero => exact ⟨rfl, covers, rfl⟩
  | succ count induction =>
      apply (safe_nextCell covers (by omega)).bind
      rintro ⟨cell, next⟩ ⟨nextCovers, index⟩
      dsimp only at nextCovers index ⊢
      apply (induction nextCovers (by omega)).bind
      rintro ⟨cells, last⟩ ⟨length, lastCovers, lastIndex⟩
      dsimp only at length lastCovers lastIndex
      refine ⟨?_, lastCovers, ?_⟩
      · exact congrArg (· + 1) length
      · change last.index = _
        omega

theorem safe_finish (reader : CellReader) : Safe (fun _ => True) reader.finish := by
  rw [CellReader.finish]
  split_ifs <;> trivial

end CellReader

theorem safe_toDomain_view (message : Pb.TerminalView) :
    Safe (fun view => view.cells.length = view.size.rows.toNat * view.size.columns.toNat)
      message.toDomain := by
  apply (safe_fromWire _).bind
  intro wireSize _
  apply (safe_fromWire _).bind
  intro size _
  dsimp only
  split_ifs with large
  · trivial
  apply (safe_fromWire _).bind
  intro hyperlinks _
  apply (safe_fromWire _).bind
  intro columns _
  apply (CellReader.safe_new _ _ _).bind
  rintro reader ⟨covers, index⟩
  apply (CellReader.safe_cells covers (by omega)).bind
  rintro ⟨cells, last⟩ ⟨length, -, -⟩
  apply (CellReader.safe_finish _).bind
  intro _ _
  apply (safe_fromWire _).bind
  intro mouseTracking _
  apply (safe_fromWire _).bind
  intro cursor _
  apply (safe_fromWire _).bind
  intro selection _
  exact length

theorem countCells_sum {lengths : List UInt32} {count total : ℕ}
    (counts : countCells count lengths = .ok total) :
    total = count + (lengths.map UInt32.toNat).sum := by
  induction lengths generalizing count with
  | nil =>
      cases counts
      rfl
  | cons length lengths induction =>
      rw [countCells] at counts
      split_ifs at counts
      · cases counts
      · rw [induction counts, List.map_cons, List.sum_cons, Nat.add_assoc]

theorem safe_readRuns {runs : List (UInt32 × UInt32)} {total : ℕ} {reader : CellReader}
    (covers : reader.Covers total)
    (inside : reader.index + ((runs.map Prod.snd).map UInt32.toNat).sum ≤ total) :
    Safe (fun _ => True) (readRuns runs reader) := by
  induction runs generalizing reader with
  | nil => trivial
  | cons run runs induction =>
      rcases run with ⟨start, length⟩
      rw [List.map_cons, List.map_cons, List.sum_cons] at inside
      dsimp only at inside
      apply (CellReader.safe_cells covers (by omega)).bind
      rintro ⟨cells, next⟩ ⟨-, nextCovers, index⟩
      dsimp only at nextCovers index ⊢
      apply (induction nextCovers (by omega)).bind
      intro _ _
      trivial

theorem safe_toDomain_delta (message : Pb.TerminalViewDelta) :
    Safe (fun _ => True) message.toDomain := by
  rw [Pb.TerminalViewDelta.toDomain]
  split_ifs with disagree
  · trivial
  apply (safe_fromWire _).bind
  intro count counts
  apply (safe_fromWire _).bind
  intro hyperlinks _
  apply (safe_fromWire _).bind
  intro columns _
  apply (CellReader.safe_new _ _ _).bind
  rintro reader ⟨covers, index⟩
  have lengths : (message.runStart.zip message.runLen).map Prod.snd = message.runLen :=
    List.map_snd_zip (by omega)
  have sum := countCells_sum counts
  apply (safe_readRuns covers (by rw [lengths]; omega)).bind
  rintro ⟨runs, last⟩ _
  apply (CellReader.safe_finish _).bind
  intro _ _
  apply (safe_fromWire _).bind
  intro mouseTracking _
  apply (safe_fromWire _).bind
  intro cursor _
  apply (safe_fromWire _).bind
  intro selection _
  trivial

/-! ## Within the limits -/

/-- A view whose grid is full and within the limits. -/
structure TerminalView.WithinLimits (view : TerminalView String) : Prop where
  grid : view.cells.length = view.size.rows.toNat * view.size.columns.toNat
  few : view.cells.length ≤ maxTerminalCells
  short : ∀ cell ∈ view.cells, cell.text.utf8ByteSize ≤ maxTerminalCellTextBytes
  links : Within hyperlinkLimits (linkTexts view.cells)

/-- A delta whose cells are within the limits. -/
structure TerminalViewDelta.WithinLimits (delta : TerminalViewDelta String) : Prop where
  few : delta.cells.length ≤ maxTerminalCells
  short : ∀ cell ∈ delta.cells, cell.text.utf8ByteSize ≤ maxTerminalCellTextBytes
  links : Within hyperlinkLimits (linkTexts delta.cells)

theorem toDomain_toWire_view_of_within {memory : Memory} {view : TerminalView SmolStr}
    (within : (view.map (SmolStr.read memory)).WithinLimits) :
    (view.toWire memory).toDomain = .ok (view.map (SmolStr.read memory)) := by
  have same : (view.map (SmolStr.read memory)).cells.length = view.cells.length :=
    List.length_map _
  rw [toDomain_toWire_view (same ▸ within.grid) (same ▸ within.few)]
  · congr 1
    apply settleView_eq_self.mpr
    apply settleCells_of_within
    rw [Finset.empty_union]
    exact within.links
  · intro cell member
    exact within.short (cell.read memory) (List.mem_map_of_mem member)

theorem toDomain_toWire_delta_of_within {memory : Memory} {delta : TerminalViewDelta SmolStr}
    (within : (delta.map (SmolStr.read memory)).WithinLimits) :
    (delta.toWire memory).toDomain = .ok (delta.map (SmolStr.read memory)) := by
  have same : (delta.map (SmolStr.read memory)).cells.length = delta.cells.length := by
    rw [cells_mapDelta, List.length_map]
  rw [toDomain_toWire_delta (same ▸ within.few)]
  · congr 1
    apply settleDelta_eq_self.mpr
    apply settleCells_of_within
    rw [Finset.empty_union]
    exact within.links
  · intro cell member
    apply within.short (cell.read memory)
    rw [cells_mapDelta]
    exact List.mem_map_of_mem member

/-- Views and deltas within the limits decode to themselves. On any message the decoder returns
a value or an error, and a view it returns has a cell for every place of its grid. -/
theorem terminal_wire_round_trip :
    (∀ memory (view : TerminalView SmolStr), (view.map (SmolStr.read memory)).WithinLimits →
      (view.toWire memory).toDomain = .ok (view.map (SmolStr.read memory))) ∧
    (∀ memory (delta : TerminalViewDelta SmolStr),
      (delta.map (SmolStr.read memory)).WithinLimits →
      (delta.toWire memory).toDomain = .ok (delta.map (SmolStr.read memory))) ∧
    (∀ message : Pb.TerminalView, message.toDomain ≠ .error .outOfRange) ∧
    (∀ message : Pb.TerminalViewDelta, message.toDomain ≠ .error .outOfRange) ∧
    ∀ (message : Pb.TerminalView) view, message.toDomain = .ok view →
      view.cells.length = view.size.rows.toNat * view.size.columns.toNat := by
  refine ⟨?_, ?_, ?_, ?_, ?_⟩
  · exact fun memory view within => toDomain_toWire_view_of_within within
  · exact fun memory delta within => toDomain_toWire_delta_of_within within
  · intro message outside
    have safe := safe_toDomain_view message
    rw [outside] at safe
    exact safe
  · intro message outside
    have safe := safe_toDomain_delta message
    rw [outside] at safe
    exact safe
  · intro message view accepted
    have safe := safe_toDomain_view message
    rw [accepted] at safe
    exact safe

end Condr
