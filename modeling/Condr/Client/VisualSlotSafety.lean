import Condr.Client.VisualSlotEffect

/-!
# Merging and the visual slot

Two frames that are accepted merge into one that does what they do, and every run of the slot
tells the owner of pending frames and gives each published batch away once.
-/

namespace Condr

open Budget

/-! ## Merged frames -/

/-- The frame brings the view to the other one, which may miss links. -/
def TerminalViewFrame.Brings (memory : Memory) (frame : TerminalViewFrame SmolStr)
    (view result : TerminalView SmolStr) : Prop :=
  ∃ reached, view.applyFrame frame = .ok reached ∧
    (reached.read memory).LosesLinks (result.read memory)

/-- The runs of a delta are in order, apart, not empty, and inside a grid of that many cells. -/
def TerminalViewFrame.Canonical (count : ℕ) : TerminalViewFrame SmolStr → Prop
  | .full _ => True
  | .delta update => validateRuns count 0 update.runs = .ok ()

variable {memory : Memory} {view first second third : TerminalView SmolStr}
  {earlier later more merged : TerminalViewFrame SmolStr}

theorem applyFrame_read (applies : view.applyFrame earlier = .ok first) :
    (view.read memory).applyFrame (earlier.read memory) = .ok (first.read memory) := by
  rw [applyFrame_map, applies]
  rfl

theorem applyFrame_of_read {result : TerminalView String}
    (applies : (view.read memory).applyFrame (earlier.read memory) = .ok result) :
    ∃ reached, view.applyFrame earlier = .ok reached ∧ reached.read memory = result := by
  rw [applyFrame_map] at applies
  cases outcome : view.applyFrame earlier with
  | error error =>
      rw [outcome] at applies
      cases applies
  | ok reached =>
      rw [outcome] at applies
      exact ⟨reached, rfl, Except.ok.inj applies⟩

/-- What is merged of frames that apply one after the other brings a view to where they do. -/
theorem brings_merged (applies : view.applyFrame earlier = .ok first)
    (laterBrings : later.Brings memory first second)
    (merges : mergedTexts (earlier.read memory) (later.read memory) = .ok (merged.read memory)) :
    merged.Brings memory view second := by
  rcases laterBrings with ⟨reached, laterApplies, loses⟩
  rcases mergedTexts_law (applyFrame_read applies) (applyFrame_read laterApplies) merges
    with ⟨result, same, fewer⟩
  rcases applyFrame_of_read same with ⟨last, done, rfl⟩
  exact ⟨last, done, fewer.trans loses⟩

/-- A frame brings a view that misses links to one that misses links. -/
theorem Brings.next (brings : earlier.Brings memory view first)
    (laterApplies : first.applyFrame later = .ok second) :
    ∃ reached, view.applyFrame earlier = .ok reached ∧ later.Brings memory reached second := by
  rcases brings with ⟨reached, applies, loses⟩
  rcases loses.applyFrame (.refl (later.read memory)) (applyFrame_read laterApplies)
    with ⟨result, same, fewer⟩
  rcases applyFrame_of_read same with ⟨last, done, rfl⟩
  exact ⟨reached, applies, last, done, fewer⟩

theorem checkTerminalDeltaMerge_congr {previous next thin given : TerminalViewDelta String}
    (revision : thin.revision = previous.revision) (base : given.baseRevision = next.baseRevision)
    (runs : shape thin.runs = shape previous.runs) (nextRuns : shape given.runs = shape next.runs) :
    checkTerminalDeltaMerge thin given = checkTerminalDeltaMerge previous next := by
  have bad : ∀ runs : List (TerminalCellRun String),
      (runs.any fun run => run.cells.isEmpty || decide (2 ^ 32 ≤ run.stop)) =
        (shape runs).any fun run => run.2 == 0 || decide (2 ^ 32 ≤ run.1.toNat + run.2) := by
    intro runs
    rw [shape, List.any_map]
    congr 1
    funext run
    rcases run with ⟨start, cells⟩
    cases cells with
    | nil => simp [TerminalCellRun.stop]
    | cons head cells => exact decide_eq_decide.mpr Iff.rfl
  rw [checkTerminalDeltaMerge, checkTerminalDeltaMerge, revision, base, List.any_append,
    List.any_append, bad, bad, bad, bad, runs, nextRuns]

theorem checkTerminalFrameMerge_congr {previous next thin given : TerminalViewFrame String}
    (loses : thin.LosesLinks previous) (nextLoses : given.LosesLinks next) :
    checkTerminalFrameMerge thin given = checkTerminalFrameMerge previous next := by
  cases given with
  | full thinNext =>
      cases next with
      | full wholeNext => rw [checkTerminalFrameMerge_full, checkTerminalFrameMerge_full]
      | delta update => exact nextLoses.elim
  | delta thinNext =>
      cases next with
      | full wholeNext => exact nextLoses.elim
      | delta update =>
          have base : thinNext.baseRevision = update.baseRevision := by rw [nextLoses.rest]
          have revision : thinNext.revision = update.revision := by rw [nextLoses.rest]
          have runs := shape_of_losesLinks nextLoses.runs
          cases thin with
          | full thinView =>
              cases previous with
              | delta update => exact loses.elim
              | full whole =>
                  have same : thinView.revision = whole.revision := by rw [loses.rest]
                  exact congrArg (Except.mapError fun _ => ())
                    (validateDelta_congr same loses.cells.length_eq base revision runs)
          | delta thinUpdate =>
              cases previous with
              | full whole => exact loses.elim
              | delta previous =>
                  have same : thinUpdate.revision = previous.revision := by rw [loses.rest]
                  exact checkTerminalDeltaMerge_congr same base (shape_of_losesLinks loses.runs) runs

/-- Three frames that are accepted pairwise merge in either order, and both ways lead to where
the frames lead. -/
theorem merges_in_either_order (memory : Memory) (applies : view.applyFrame earlier = .ok first)
    (laterApplies : first.applyFrame later = .ok second)
    (moreApplies : second.applyFrame more = .ok third)
    (accepts : checkTerminalFrameMerge earlier later = .ok ())
    (laterAccepts : checkTerminalFrameMerge later more = .ok ()) :
    ∃ front back left right, mergeTerminalFrames memory earlier later = some (.ok front) ∧
      mergeTerminalFrames memory later more = some (.ok back) ∧
      mergeTerminalFrames memory front more = some (.ok left) ∧
      mergeTerminalFrames memory earlier back = some (.ok right) ∧
      left.Brings memory view third ∧ right.Brings memory view third ∧
      (Within hyperlinkLimits ((earlier.read memory).linkTexts ∪
          ((later.read memory).linkTexts ∪ (more.read memory).linkTexts)) →
        left.read memory = right.read memory) := by
  rcases @mergeTerminalFrames_of_ok memory _ _ accepts with ⟨front, merges, frontText⟩
  rcases @mergeTerminalFrames_of_ok memory _ _ laterAccepts with ⟨back, laterMerges, backText⟩
  have checked := accepts
  have laterChecked := laterAccepts
  rw [← @checkTerminalFrameMerge_map _ _ (SmolStr.read memory)] at checked laterChecked
  rcases composeTerminalFrames_assoc (applyFrame_read applies) (applyFrame_read laterApplies)
    (applyFrame_read moreApplies) checked laterChecked
    with ⟨exactFront, exactBack, whole, composes, laterComposes, frontAccepts, backAccepts,
      leftComposes, rightComposes⟩
  rcases mergedTexts_eq_ok frontText with ⟨sameFront, frontComposes, frontIs, frontLoses⟩
  rcases mergedTexts_eq_ok backText with ⟨sameBack, backComposes, backIs, backLoses⟩
  cases Except.ok.inj (composes.symm.trans frontComposes)
  cases Except.ok.inj (laterComposes.symm.trans backComposes)
  have leftAccepts : checkTerminalFrameMerge front more = .ok () := by
    rw [← @checkTerminalFrameMerge_map _ _ (SmolStr.read memory)]
    exact (checkTerminalFrameMerge_congr frontLoses (.refl _)).trans frontAccepts
  have rightAccepts : checkTerminalFrameMerge earlier back = .ok () := by
    rw [← @checkTerminalFrameMerge_map _ _ (SmolStr.read memory)]
    exact (checkTerminalFrameMerge_congr (.refl _) backLoses).trans backAccepts
  rcases @mergeTerminalFrames_of_ok memory _ _ leftAccepts with ⟨left, leftMerges, leftText⟩
  rcases @mergeTerminalFrames_of_ok memory _ _ rightAccepts with ⟨right, rightMerges, rightText⟩
  have exactly : ∀ {next : TerminalViewFrame SmolStr} {start stop : TerminalView SmolStr},
      start.applyFrame next = .ok stop → next.Brings memory start stop :=
    fun done => ⟨_, done, .refl _⟩
  refine ⟨front, back, left, right, merges, laterMerges, leftMerges, rightMerges, ?_, ?_, ?_⟩
  · rcases Brings.next (brings_merged applies (exactly laterApplies) frontText) moreApplies
      with ⟨reached, frontApplies, moreBrings⟩
    exact brings_merged frontApplies moreBrings leftText
  · exact brings_merged applies (brings_merged laterApplies (exactly moreApplies) backText)
      rightText
  · intro within
    rw [mergedTexts_of_within (within.mono (Finset.union_subset_union_right
      Finset.subset_union_left)), composes] at frontText
    rw [mergedTexts_of_within (within.mono Finset.subset_union_right), laterComposes] at backText
    have frontLinks := linkTexts_composeTerminalFrames composes
    have backLinks := linkTexts_composeTerminalFrames laterComposes
    rw [← Except.ok.inj frontText, mergedTexts_of_within (within.mono ?_), leftComposes]
      at leftText
    · rw [← Except.ok.inj backText, mergedTexts_of_within (within.mono ?_), rightComposes]
        at rightText
      · exact (Except.ok.inj leftText).symm.trans (Except.ok.inj rightText)
      · exact Finset.union_subset_union_right backLinks
    · apply Finset.union_subset
      · exact frontLinks.trans (Finset.union_subset_union_right Finset.subset_union_left)
      · exact Finset.subset_union_right.trans Finset.subset_union_right

namespace TerminalVisualSlot

/-- A batch whose first frame for a pane is refused leaves the slot. -/
theorem publish_of_rejects {slot : TerminalVisualSlot} {batch : TerminalFrameBatch SmolStr}
    {front back : List (PaneTerminalFrame SmolStr)} {pane : PaneTerminalFrame SmolStr}
    (panes : batch.panes = front ++ pane :: back)
    (unseen : ∀ other ∈ front, other.paneId ≠ pane.paneId)
    (pending : slot.panes.lookup pane.paneId = some earlier)
    (rejects : checkTerminalFrameMerge earlier pane.frame = .error ()) :
    slot.publish memory batch = some (slot, .error ()) := by
  have refused : ∀ seen : AList fun _ : PaneId => TerminalViewFrame SmolStr,
      seen.lookup pane.paneId = none →
        checkPanes slot.panes seen (front ++ pane :: back) = .error () := by
    clear panes
    induction front with
    | nil =>
        intro seen absent
        simp only [List.nil_append, checkPanes, absent, Option.none_or, pending, rejects]
        rfl
    | cons head front induction =>
        intro seen absent
        rw [List.cons_append, checkPanes]
        have later := induction (fun other member => unseen other (List.mem_cons_of_mem _ member))
          (seen.insert head.paneId head.frame)
          ((AList.lookup_insert_ne (unseen head List.mem_cons_self).symm).trans absent)
        cases (seen.lookup head.paneId).or (slot.panes.lookup head.paneId) with
        | none => exact later
        | some previous =>
            show (checkTerminalFrameMerge previous head.frame >>= _) = _
            cases checkTerminalFrameMerge previous head.frame with
            | error error => rfl
            | ok done => exact later
  simp only [publish, panes, refused ∅ (AList.lookup_empty _), ite_self]

end TerminalVisualSlot

/-- Frames that apply one after the other and that the check accepts merge, and the merged frame
brings a view to where they bring it, but for links that one frame has no room for. It is in
order again, and a third frame merges with either. Where the check refuses, the merge fails and
the slot is left. -/
theorem merged_frame_applies (memory : Memory) (applies : view.applyFrame earlier = .ok first)
    (laterApplies : first.applyFrame later = .ok second) :
    (checkTerminalFrameMerge earlier later = .ok () →
      (∃ exact merged result, composeTerminalFrames earlier later = .ok exact ∧
        view.applyFrame exact = .ok second ∧
        mergeTerminalFrames memory earlier later = some (.ok merged) ∧
        merged.read memory = (if later.addsLinks then settleFrame ∅ (exact.read memory)
          else exact.read memory) ∧
        view.applyFrame merged = .ok result ∧
        (result.read memory).LosesLinks (second.read memory) ∧
        (later.addsLinks = false ∨ Within hyperlinkLimits (exact.read memory).linkTexts →
          result.read memory = second.read memory) ∧
        merged.Canonical view.cells.length) ∧
      ∀ more third, second.applyFrame more = .ok third →
        checkTerminalFrameMerge later more = .ok () →
        ∃ front back left right, mergeTerminalFrames memory earlier later = some (.ok front) ∧
          mergeTerminalFrames memory later more = some (.ok back) ∧
          mergeTerminalFrames memory front more = some (.ok left) ∧
          mergeTerminalFrames memory earlier back = some (.ok right) ∧
          left.Brings memory view third ∧ right.Brings memory view third ∧
          (Within hyperlinkLimits ((earlier.read memory).linkTexts ∪
              ((later.read memory).linkTexts ∪ (more.read memory).linkTexts)) →
            left.read memory = right.read memory)) ∧
    (checkTerminalFrameMerge earlier later = .error () →
      mergeTerminalFrames memory earlier later = some (.error ()) ∧
      ∀ (slot : TerminalVisualSlot) (batch : TerminalFrameBatch SmolStr) (id : PaneId)
        (front back : List (PaneTerminalFrame SmolStr)),
        batch.panes = front ++ ⟨id, later⟩ :: back → (∀ other ∈ front, other.paneId ≠ id) →
        slot.panes.lookup id = some earlier →
        slot.publish memory batch = some (slot, .error ())) := by
  constructor
  · intro accepts
    constructor
    · rcases composeTerminalFrames_law applies laterApplies accepts with ⟨exact, composes, law⟩
      rcases @mergeTerminalFrames_of_ok memory _ _ accepts with ⟨merged, merges, text⟩
      rcases mergedTexts_eq_ok text with ⟨same, composed, is, -⟩
      rw [composeTerminalFrames_map, composes] at composed
      cases Except.ok.inj composed
      rw [addsLinks_map] at is
      rcases brings_merged applies ⟨second, laterApplies, .refl _⟩ text with ⟨result, done, loses⟩
      refine ⟨exact, merged, result, composes, law, merges, is, done, loses, ?_, ?_⟩
      · intro room
        have whole : merged.read memory = exact.read memory := by
          rw [is]
          rcases room with plain | within
          · rw [if_neg (by simp [plain])]
          · rw [settleFrame_of_within within, ite_self]
        have reached := @applyFrame_read memory _ _ _ done
        rw [whole, applyFrame_read law] at reached
        exact (Except.ok.inj reached).symm
      · cases merged with
        | full whole => trivial
        | delta update => exact (validateDelta_eq_ok.mp (applyFrame_delta_eq_ok.mp done).1).2.2
    · intro more third moreApplies laterAccepts
      exact merges_in_either_order memory applies laterApplies moreApplies accepts laterAccepts
  · intro rejects
    constructor
    · rw [mergeTerminalFrames, composeTerminalFrames_of_error rejects]
    · intro slot batch id front back panes unseen pending
      exact TerminalVisualSlot.publish_of_rejects panes unseen pending rejects

/-- A cell with a text and, it may be, a link on the heap. -/
def sampleCell (text : String) (hyperlink : Option SmolStr) : TerminalCell SmolStr where
  text := text
  foreground := .default
  background := .default
  underlineColor := .default
  flags := 0
  hyperlink := hyperlink

def sampleView (revision : ℕ) (cells : List (TerminalCell SmolStr)) : TerminalView SmolStr where
  revision := revision
  size := { rows := 1, columns := 2, cellWidth := 8, cellHeight := 16 }
  displayOffset := 0
  mouseTracking := .none
  cells := cells
  cursor := none
  selection := none

def sampleDelta (base : ℕ) (start : UInt32) (cells : List (TerminalCell SmolStr)) :
    TerminalViewDelta SmolStr where
  baseRevision := base
  revision := base + 1
  displayOffset := 0
  mouseTracking := .none
  cursor := none
  selection := none
  runs := [{ start := start, cells := cells }]

theorem merged_frame_applies_example :
    ∃ merged, mergeTerminalFrames (fun _ => "") (.delta (sampleDelta 1 0 [sampleCell "x" none]))
        (.delta (sampleDelta 2 0 [sampleCell "y" none])) = some (.ok merged) ∧
      merged.Canonical 1 := by
  rcases ((@merged_frame_applies (sampleView 1 [sampleCell "a" none]) _ _
    (.delta (sampleDelta 1 0 [sampleCell "x" none]))
    (.delta (sampleDelta 2 0 [sampleCell "y" none])) (fun _ => "") rfl rfl).1 rfl).1
    with ⟨exact, merged, result, -, -, merges, -, -, -, -, canonical⟩
  exact ⟨merged, merges, canonical⟩

/-- Where a delta brings a full frame to more links than one frame has room for, the merged frame
misses some. -/
theorem merged_frame_misses {whole : TerminalView SmolStr} {update : TerminalViewDelta SmolStr}
    (laterApplies : whole.applyFrame (.delta update) = .ok second)
    (accepts : checkTerminalFrameMerge (.full whole) (.delta update) = .ok ())
    (brings : (TerminalViewFrame.delta update).addsLinks = true)
    (beyond : ¬Within hyperlinkLimits (linkTexts (second.read memory).cells)) :
    ∃ merged result, mergeTerminalFrames memory (.full whole) (.delta update) = some (.ok merged) ∧
      view.applyFrame merged = .ok result ∧ result.read memory ≠ second.read memory := by
  rcases @mergeTerminalFrames_of_ok memory _ _ accepts with ⟨merged, merges, text⟩
  rcases mergedTexts_eq_ok text with ⟨exact, composes, is, -⟩
  have composed : composeTerminalFrames (.full whole) (.delta update) = .ok (.full second) := by
    rw [composeTerminalFrames, laterApplies]
  rw [composeTerminalFrames_map, composed] at composes
  cases Except.ok.inj composes
  rw [addsLinks_map, if_pos brings] at is
  cases merged with
  | delta update => cases is
  | full thin =>
      refine ⟨.full thin, thin, merges, rfl, ?_⟩
      intro same
      have cells : (thin.read memory).cells = settleCells ∅ (second.read memory).cells :=
        congrArg TerminalView.cells (TerminalViewFrame.full.inj is)
      have fits := @within_settleCells ∅ (second.read memory).cells within_empty
      rw [Finset.empty_union, ← cells, same] at fits
      exact beyond fits

/-- A heap of distinct strings that are as long as a link may be. -/
def longStrings : Memory := fun address =>
  String.ofList (List.replicate address 'a' ++
    List.replicate (maxTerminalHyperlinkUriBytes - address) 'b')

def longLinks (count : ℕ) : List (TerminalCell SmolStr) :=
  (List.range count).map fun address => sampleCell "x" (some (.heap address))

theorem utf8ByteSize_longStrings {address : ℕ} (inside : address ≤ maxTerminalHyperlinkUriBytes) :
    (longStrings address).utf8ByteSize = maxTerminalHyperlinkUriBytes := by
  rw [longStrings, String.ofList_append, String.utf8ByteSize_append,
    Utf8.utf8ByteSize_replicate rfl, Utf8.utf8ByteSize_replicate rfl]
  omega

theorem longStrings_injective {address other : ℕ} (same : longStrings address = longStrings other) :
    address = other := by
  have lists := congrArg (List.count 'a') (String.ofList_injective same)
  simpa [List.count_append, List.count_replicate] using lists

theorem linkTexts_longLinks (count : ℕ) :
    linkTexts ((longLinks count).map (TerminalCell.map (SmolStr.read longStrings))) =
      (Finset.range count).image longStrings := by
  ext uri
  simp only [mem_linkTexts, longLinks, List.map_map, List.mem_map, List.mem_range,
    Finset.mem_image, Finset.mem_range]
  constructor
  · rintro ⟨_, ⟨address, inside, rfl⟩, holds⟩
    exact ⟨address, inside, Option.some.inj holds⟩
  · rintro ⟨address, inside, rfl⟩
    exact ⟨_, ⟨address, inside, rfl⟩, rfl⟩

theorem linkTexts_plain_longLinks (revision count : ℕ) :
    linkTexts ((sampleView revision (sampleCell "b" none :: longLinks count)).read
      longStrings).cells = (Finset.range count).image longStrings := by
  rw [← linkTexts_longLinks]
  exact keys_cons_none

theorem linkTexts_one_more (revision count : ℕ) :
    linkTexts ((sampleView revision (sampleCell "x" (some (.heap count)) :: longLinks count)).read
      longStrings).cells = (insert count (Finset.range count)).image longStrings := by
  rw [Finset.image_insert, ← linkTexts_longLinks]
  exact keys_cons_some

/-- The limits have room for exactly this many of the strings. -/
theorem within_longStrings_iff {addresses : Finset ℕ}
    (inside : ∀ address ∈ addresses, address ≤ maxTerminalHyperlinkUriBytes) :
    Within hyperlinkLimits (addresses.image longStrings) ↔ addresses.card ≤ 512 := by
  have distinct : Set.InjOn longStrings addresses := by
    intro address _ other _ same
    exact longStrings_injective same
  have total : ∑ uri ∈ addresses.image longStrings, uri.utf8ByteSize =
      addresses.card * maxTerminalHyperlinkUriBytes := by
    rw [Finset.sum_image distinct]
    exact Finset.sum_const_nat fun address member =>
      utf8ByteSize_longStrings (inside address member)
  have each : ∀ uri ∈ addresses.image longStrings,
      uri.utf8ByteSize ≤ maxTerminalHyperlinkUriBytes := by
    intro uri member
    rcases Finset.mem_image.mp member with ⟨address, listed, rfl⟩
    exact (utf8ByteSize_longStrings (inside address listed)).le
  simp only [Within, hyperlinkLimits, total, Finset.card_image_of_injOn distinct]
  constructor
  · rintro ⟨-, bytes, -⟩
    simp only [maxTerminalHyperlinkUriBytes, maxTerminalHyperlinkBytes] at bytes
    omega
  · intro few
    refine ⟨each, ?_, ?_⟩
    · simp only [maxTerminalHyperlinkUriBytes, maxTerminalHyperlinkBytes]
      omega
    · simp only [maxTerminalHyperlinks]
      omega

theorem applyFrame_first (revision : ℕ) (old new : TerminalCell SmolStr)
    (cells : List (TerminalCell SmolStr)) :
    (sampleView revision (old :: cells)).applyFrame (.delta (sampleDelta revision 0 [new])) =
      .ok (sampleView (revision + 1) (new :: cells)) := by
  simp [TerminalView.applyFrame, TerminalView.validateFrame, TerminalView.validateDelta,
    validateRuns, sampleView, sampleDelta, TerminalView.applyValidatedDelta,
    TerminalCellRun.apply, TerminalCellRun.stop]

/-- Applied one after the other, two frames within the limits leave a link that the merged frame
misses. -/
theorem merged_frame_may_miss_links :
    ∃ earlier later first second merged result,
      Within hyperlinkLimits (TerminalViewFrame.read longStrings earlier).linkTexts ∧
      Within hyperlinkLimits (TerminalViewFrame.read longStrings later).linkTexts ∧
      (sampleView 1 [sampleCell "a" none]).applyFrame earlier = .ok first ∧
      first.applyFrame later = .ok second ∧
      checkTerminalFrameMerge earlier later = .ok () ∧
      mergeTerminalFrames longStrings earlier later = some (.ok merged) ∧
      (sampleView 1 [sampleCell "a" none]).applyFrame merged = .ok result ∧
      result.read longStrings ≠ second.read longStrings := by
  have applies := applyFrame_first 2 (sampleCell "b" none) (sampleCell "x" (some (.heap 512)))
    (longLinks 512)
  have accepts : checkTerminalFrameMerge (.full (sampleView 2 (sampleCell "b" none :: longLinks 512)))
      (.delta (sampleDelta 2 0 [sampleCell "x" (some (.heap 512))])) = .ok () := by
    rw [checkTerminalFrameMerge, (applyFrame_delta_eq_ok.mp applies).1]
    rfl
  have beyond : ¬Within hyperlinkLimits (linkTexts
      ((sampleView 3 (sampleCell "x" (some (.heap 512)) :: longLinks 512)).read longStrings).cells) := by
    rw [linkTexts_one_more, within_longStrings_iff (by simp [maxTerminalHyperlinkUriBytes]; omega)]
    simp
  rcases @merged_frame_misses longStrings (sampleView 1 [sampleCell "a" none]) _ _ _ applies accepts
    rfl beyond with ⟨merged, result, merges, done, misses⟩
  refine ⟨_, _, _, _, merged, result, ?_, ?_, rfl, applies, accepts, merges, done, misses⟩
  · rw [TerminalViewFrame.linkTexts.eq_def]
    simp only [TerminalViewFrame.read, TerminalViewFrame.map]
    rw [linkTexts_plain_longLinks, within_longStrings_iff (by simp [maxTerminalHyperlinkUriBytes]; omega)]
    simp
  · show Within hyperlinkLimits {longStrings 512}
    rw [← Finset.image_singleton, within_longStrings_iff (by simp [maxTerminalHyperlinkUriBytes])]
    simp

/-! ## Runs of the slot -/

/-- What holds of the slot in a run, and of every publish and take that comes next. -/
structure SlotRun.Coalesces (run : SlotRun) : Prop where
  /-- Frames are pending exactly while published batches are held. -/
  holds : run.slot.pending = none ↔ run.held = []
  /-- The owner was told of them, and did not hear it yet. -/
  told : run.slot.pending.isSome → run.slot.generation ∈ run.wakeups
  /-- A published batch was given to one take or dropped with its generation, or is held. -/
  conserved : run.published = run.outcomes.flatMap SlotOutcome.batches ++ run.held
  delivered : ∀ epoch batches, SlotOutcome.delivered epoch batches ∈ run.outcomes →
    ∀ entry ∈ batches, entry.1 = epoch
  /-- A publish that fails leaves the slot, or drops its generation when its batch has two
  frames for one pane. -/
  fails : ∀ memory batch slot, run.slot.publish memory batch = some (slot, .error ()) →
    slot = run.slot ∨
      slot = run.slot.advance ∧ ¬(batch.panes.map PaneTerminalFrame.paneId).Nodup
  /-- One that succeeds leaves frames pending, and tells the owner unless it is told. -/
  succeeds : ∀ memory batch slot signal, run.slot.publish memory batch = some (slot, .ok signal) →
    slot.generation = run.slot.generation ∧ slot.signaled = true ∧
      (∃ pending, slot.pending = some pending ∧ pending.serverId = batch.serverId ∧
        pending.sessionId = batch.sessionId) ∧
      signal = if run.slot.signaled then none else some run.slot.generation
  total : ∀ memory batch, (run.slot.publish memory batch).isSome
  /-- A take of the generation gives away all that is held. -/
  gives : run.held ≠ [] →
    ∃ batch slot, run.slot.take run.slot.generation = (some batch, slot)
  /-- What it gives away does what the held batches do one by one, but for links that a limit had
  no room for. -/
  taken : ∀ generation batch slot, run.slot.take generation = (some batch, slot) →
    generation = run.slot.generation ∧ slot.pending = none ∧
    (∀ entry ∈ run.held, entry.1 = run.epoch ∧ entry.2.serverId = batch.serverId ∧
      entry.2.sessionId = batch.sessionId) ∧
    run.SameEffect batch
  /-- A take of any other generation leaves the slot. -/
  stale : ∀ generation, generation ≠ run.slot.generation →
    run.slot.take generation = (none, run.slot)

/-- Every run of the slot coalesces the batches that are published. -/
theorem visual_slot_coalesces {run : SlotRun} (reached : slotSystem.Reachable run) :
    run.Coalesces := by
  have valid := SlotRun.Valid.of_reachable reached
  constructor
  case holds => exact valid.nothing
  case told => exact fun pending => valid.wakeup (valid.signaled pending)
  case conserved => exact valid.conserved
  case delivered => exact valid.delivered
  case fails =>
    intro memory batch slot publishes
    rcases TerminalVisualSlot.publish_spec memory run.slot batch with ⟨next, result, does, can⟩
    cases Option.some.inj (does.symm.trans publishes)
    cases can with
    | rejects => exact Or.inl rfl
    | invalidates twice => exact Or.inr ⟨rfl, twice⟩
  case succeeds =>
    intro memory batch slot signal publishes
    rcases TerminalVisualSlot.publish_spec memory run.slot batch with ⟨next, result, does, can⟩
    cases Option.some.inj (does.symm.trans publishes)
    cases can with
    | merges panes identity folds => exact ⟨rfl, rfl, ⟨_, rfl, rfl, rfl⟩, rfl⟩
  case total =>
    intro memory batch
    rcases TerminalVisualSlot.publish_spec memory run.slot batch with ⟨next, result, does, -⟩
    rw [does]
    rfl
  case gives =>
    intro held
    cases pending : run.slot.pending with
    | none => exact absurd (valid.nothing.mp pending) held
    | some visual => simp [TerminalVisualSlot.take, pending]
  case taken =>
    intro generation batch slot takes
    by_cases stale : run.slot.generation = generation
    · simp only [TerminalVisualSlot.take, stale, ne_eq, not_true, if_false, Prod.mk.injEq] at takes
      rcases takes with ⟨held, rfl⟩
      rcases Option.map_eq_some_iff.mp held with ⟨pending, holds, rfl⟩
      refine ⟨stale.symm, rfl, ?_, valid.sameEffect holds⟩
      intro entry member
      exact ⟨valid.current entry member, valid.identity pending holds entry member⟩
    · simp [TerminalVisualSlot.take, stale] at takes
  case stale =>
    intro generation other
    rw [TerminalVisualSlot.take, if_pos other.symm]

/-- A batch of frames for one pane. -/
def sampleBatch (frames : List (TerminalViewFrame SmolStr)) : TerminalFrameBatch SmolStr where
  serverId := ⟨1⟩
  sessionId := ⟨2⟩
  panes := frames.map fun frame => ⟨⟨3⟩, frame⟩

/-- The run of one batch. -/
def publishedRun (memory : Memory) (frame : TerminalViewFrame SmolStr) : SlotRun where
  memory := memory
  slot := {
    generation := 0
    pending := some ⟨⟨1⟩, ⟨2⟩, AList.singleton ⟨3⟩ frame⟩
    signaled := true }
  wakeups := [0]
  epoch := 0
  published := [(0, (sampleBatch [frame]).read memory)]
  held := [(0, (sampleBatch [frame]).read memory)]
  outcomes := []

theorem publishedRun_reachable (memory : Memory) (frame : TerminalViewFrame SmolStr) :
    slotSystem.Reachable (publishedRun memory frame) := by
  have starts : slotSystem.Reachable (SlotRun.start memory) := .start ⟨memory, rfl⟩
  have publishes : (SlotRun.start memory).perform (.publish memory (sampleBatch [frame])) =
      some (publishedRun memory frame) := rfl
  refine starts.next ⟨?_, publishes⟩
  intro pane held found
  cases found

/-- A delta coalesces with the frame that is held, and the owner, told once, takes both. -/
theorem visual_slot_coalesces_example :
    ∃ run : SlotRun, slotSystem.Reachable run ∧ run.held.length = 2 ∧ run.wakeups = [0] ∧
      (run.slot.take 0).1.isSome ∧ run.Coalesces := by
  have before := publishedRun_reachable (fun _ => "")
    (.full (sampleView 1 [sampleCell "a" none, sampleCell "b" none]))
  have after := @Transition.System.Reachable.next _ _ slotSystem _ _
    (.publish (fun _ => "") (sampleBatch [.delta (sampleDelta 1 1 [sampleCell "c" none])])) before
    ⟨fun _ _ _ => rfl, rfl⟩
  exact ⟨_, after, rfl, rfl, rfl, visual_slot_coalesces after⟩

/-- A client with one terminal that shows no link. -/
def sampleClient : ClientTerminals where
  terminals := AList.singleton ⟨3⟩ (sampleView 1 [sampleCell "a" none])
  terminalHyperlinks := AList.singleton ⟨3⟩ TerminalHyperlinkBudget.empty

/-- A publish that fails may drop what was pending, and a client that cannot apply the batches
one by one may apply what was taken. -/
theorem visual_slot_departs :
    (∃ run batch slot, slotSystem.Reachable run ∧ run.slot.pending.isSome ∧
      run.slot.publish (fun _ => "") batch = some (slot, .error ()) ∧ slot.pending = none) ∧
    ∃ run first second batch slot together, slotSystem.Reachable run ∧
      run.held.map Prod.snd = [first, second].map (TerminalFrameBatch.read fun _ => "") ∧
      run.slot.take run.slot.generation = (some batch, slot) ∧
      sampleClient.applyBatches (fun _ => "") [first, second] = some (.error ()) ∧
      sampleClient.applyTerminalFrameBatch (fun _ => "") batch.panes = some (.ok together) := by
  constructor
  · exact ⟨publishedRun (fun _ => "") (.full (sampleView 1 [sampleCell "a" none])),
      sampleBatch [.delta (sampleDelta 1 0 [sampleCell "x" none]),
        .delta (sampleDelta 2 5 [sampleCell "y" none])], _, publishedRun_reachable _ _, rfl, rfl, rfl⟩
  · have before := publishedRun_reachable (fun _ => "")
      (.delta (sampleDelta 5 0 [sampleCell "x" none]))
    have after := @Transition.System.Reachable.next _ _ slotSystem _ _
      (.publish (fun _ => "") (sampleBatch [.full (sampleView 9 [sampleCell "y" none])])) before
      ⟨fun _ _ _ => rfl, rfl⟩
    exact ⟨_, sampleBatch [.delta (sampleDelta 5 0 [sampleCell "x" none])],
      sampleBatch [.full (sampleView 9 [sampleCell "y" none])], _, _, _, after, rfl, rfl, rfl, rfl⟩

end Condr
