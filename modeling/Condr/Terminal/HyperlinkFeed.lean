import Condr.Foundation.Transition
import Condr.Terminal.HyperlinkPasses

/-!
# Budgets on both sides of a connection

The Server and a Client each hold a view of the same terminal with the budget for its links.
The Server takes the frames of the terminal, and the Client takes frames that bring it to
views the Server has held. Strings that no view holds may move between steps.
-/

namespace Condr

open Budget

/-- A view and the budget for its links, with the heap they lie on. -/
structure Holder where
  memory : Memory
  view : TerminalView SmolStr
  budget : TerminalHyperlinkBudget

abbrev TerminalView.read (memory : Memory) (view : TerminalView SmolStr) : TerminalView String :=
  view.map (SmolStr.read memory)

abbrev TerminalViewFrame.read (memory : Memory) (frame : TerminalViewFrame SmolStr) :
    TerminalViewFrame String :=
  frame.map (SmolStr.read memory)

namespace Holder

/-- The view with the texts of its links. -/
def text (holder : Holder) : TerminalView String := holder.view.read holder.memory

/-- The texts of the links in the view, cell by cell. -/
def links (holder : Holder) : List String := holder.text.cells.filterMap TerminalCell.hyperlink

/-- The heap still holds the links of the view. -/
def Keeps (holder : Holder) (memory : Memory) : Prop :=
  ∀ link ∈ linksOf holder.view.cells, link.read memory = link.read holder.memory

def start (memory : Memory) (view : TerminalView SmolStr) : Option Holder := do
  let (budget, view) ← TerminalHyperlinkBudget.new memory view
  return { memory := memory, view := view, budget := budget }

/-- Takes a frame, and returns it with the links that were kept. -/
def take (holder : Holder) (memory : Memory) :
    TerminalViewFrame SmolStr →
      Option (Except TerminalFrameError (Holder × TerminalViewFrame SmolStr))
  | .full view => do
      let next ← start memory view
      return .ok (next, .full next.view)
  | .delta update => do
      match ← holder.budget.applyDelta memory holder.view update with
      | .error error => return .error error
      | .ok (budget, view, update) =>
          return .ok ({ memory := memory, view := view, budget := budget }, .delta update)

/-- The budget's records are those counted anew from the cells of the view, and within the
limits. -/
structure Accounted (holder : Holder) : Prop where
  index : ∀ uri, uri ∈ holder.budget.byUri ↔ uri ∈ holder.links
  references : ∀ uri index, holder.budget.byUri.lookup uri = some index →
    ∃ entry, holder.budget.entryAt index = some entry ∧
      entry.uri.read holder.memory = uri ∧ entry.references = holder.links.count uri
  entries : ∀ index entry, holder.budget.entryAt index = some entry →
    holder.budget.byUri.lookup (entry.uri.read holder.memory) = some index
  bytes : holder.budget.bytes = ∑ uri ∈ holder.links.toFinset, uri.utf8ByteSize
  short : ∀ uri ∈ holder.links, uri.utf8ByteSize ≤ maxTerminalHyperlinkUriBytes
  bounded : holder.budget.bytes ≤ maxTerminalHyperlinkBytes
  few : holder.budget.byUri.keys.length ≤ maxTerminalHyperlinks

end Holder

/-- The Server's holder with every view it had, and the Client's. -/
structure Feed where
  sender : Holder
  held : List (TerminalView String)
  receiver : Option Holder

inductive Feed.Label where
  /-- The Server takes a frame of the terminal. -/
  | publish (memory : Memory) (frame : TerminalViewFrame SmolStr)
  /-- The Client takes a frame. -/
  | deliver (memory : Memory) (frame : TerminalViewFrame SmolStr)

namespace Feed

/-- The strings of views stay, and the Client is sent what brings it to a view the Server had. -/
def Enabled (state : Feed) : Label → Prop
  | .publish memory _ => state.sender.Keeps memory
  | .deliver memory frame =>
      match state.receiver with
      | none => ∃ view, frame.read memory = .full view ∧ view ∈ state.held
      | some receiver => receiver.Keeps memory ∧
          ∃ view ∈ state.held, receiver.text.applyFrame (frame.read memory) = .ok view

def perform (state : Feed) : Label → Option Feed
  | .publish memory frame => do
      match ← state.sender.take memory frame with
      | .error _ => return state
      | .ok (sender, _) =>
          return { state with sender := sender, held := sender.text :: state.held }
  | .deliver memory frame =>
      match state.receiver, frame with
      | none, .full view => do
          let receiver ← Holder.start memory view
          return { state with receiver := some receiver }
      | none, .delta _ => some state
      | some receiver, frame => do
          match ← receiver.take memory frame with
          | .error _ => return { state with receiver := none }
          | .ok (receiver, _) => return { state with receiver := some receiver }

end Feed

def feedSystem : Transition.System Feed Feed.Label where
  initial := fun state => state.receiver = none ∧ state.held = [state.sender.text] ∧
    ∃ memory view, Holder.start memory view = some state.sender
  step := fun state label next => state.Enabled label ∧ state.perform label = some next

namespace Holder

/-- The budget is that of the view. -/
def Valid (holder : Holder) : Prop :=
  holder.budget.Accounts holder.memory (linksOf holder.view.cells)

variable {holder : Holder} {memory : Memory} {frame : TerminalViewFrame SmolStr}

theorem Valid.uris_eq (valid : holder.Valid) :
    holder.budget.uris = linkTexts holder.text.cells := by
  rw [TerminalHyperlinkBudget.Accounts.uris_eq valid, linkTexts_eq, ← linksOf_map]
  rfl

theorem Valid.within (valid : holder.Valid) :
    Within hyperlinkLimits (linkTexts holder.text.cells) := by
  rw [← valid.uris_eq]
  exact TerminalHyperlinkBudget.Accounts.within valid

theorem coe_links : (holder.links : Multiset String) =
    (linksOf holder.view.cells).map (SmolStr.read holder.memory) := by
  rw [← linksOf_map]
  rfl

/-- A budget that is that of its view records what is counted in it. -/
theorem Valid.accounted (valid : holder.Valid) : holder.Accounted := by
  have uris : holder.budget.uris = holder.links.toFinset := by
    rw [TerminalHyperlinkBudget.Accounts.uris_eq valid, ← coe_links, List.toFinset_coe]
  -- links of one text are one string
  have canonical : Set.InjOn (SmolStr.read holder.memory)
      {link | link ∈ linksOf holder.view.cells} := by
    intro one oneHeld two twoHeld same
    rcases valid.held one oneHeld with ⟨index, oneAt⟩
    rcases valid.held two twoHeld with ⟨other, twoAt⟩
    have here : index = other := by
      apply TerminalHyperlinkBudget.Accounts.unique valid (one.read holder.memory)
      · rw [oneAt]
        rfl
      · rw [twoAt, same]
        rfl
    subst here
    exact Option.some.inj (oneAt.symm.trans twoAt)
  rcases TerminalHyperlinkBudget.Accounts.within valid with ⟨short, bounded, few⟩
  refine ⟨?_, ?_, ?_, ?_, ?_, ?_, ?_⟩
  · intro uri
    rw [← TerminalHyperlinkBudget.mem_uris, uris, List.mem_toFinset]
  · intro uri index found
    rcases Option.map_eq_some_iff.mp ((valid.indexed uri index).mp found)
      with ⟨link, linkAt, rfl⟩
    have member := TerminalHyperlinkBudget.Accounts.mem_of_uriAt valid linkAt
    rcases Option.map_eq_some_iff.mp linkAt with ⟨entry, entryAt, rfl⟩
    refine ⟨entry, entryAt, rfl, ?_⟩
    rw [(valid.counted index entry entryAt).1, ← Multiset.coe_count, coe_links,
      Multiset.count_map_eq_count _ _ canonical _ member]
  · intro index entry entryAt
    apply (valid.indexed _ index).mpr
    rw [TerminalHyperlinkBudget.uriAt, entryAt]
    rfl
  · rw [valid.bytes, uris]
  · intro uri member
    apply short uri
    rw [uris]
    exact List.mem_toFinset.mpr member
  · rw [valid.bytes]
    exact bounded
  · rw [← List.toFinset_card_of_nodup holder.budget.byUri.keys_nodup]
    exact few

theorem start_spec (memory : Memory) (view : TerminalView SmolStr) :
    ∃ holder, start memory view = some holder ∧ holder.memory = memory ∧ holder.Valid ∧
      holder.text = settleView ∅ (view.read memory) := by
  rcases TerminalHyperlinkBudget.new_spec memory view with ⟨budget, bounded, news, accounts, text⟩
  exact ⟨{ memory := memory, view := bounded, budget := budget }, by simp [start, news], rfl,
    accounts, text⟩

/-- What a holder keeps of a frame, by the texts of its links. -/
def settle (view : TerminalView String) : TerminalViewFrame String → TerminalViewFrame String
  | .full next => .full (settleView ∅ next)
  | .delta update => .delta (settleDelta (untouched view update) update)

theorem text_of_keeps (keeps : holder.Keeps memory) : holder.view.read memory = holder.text := by
  have cells : holder.view.cells.map (TerminalCell.read memory) =
      holder.view.cells.map (TerminalCell.read holder.memory) := by
    apply List.map_congr_left
    intro cell member
    cases present : cell.hyperlink with
    | none => simp [TerminalCell.map, present]
    | some link =>
        have same := keeps link (List.mem_filterMap.mpr ⟨cell, member, present⟩)
        simp [TerminalCell.map, present, same]
  simp only [text, TerminalView.map, cells]

theorem validateFrame_read (view : TerminalView SmolStr) (memory : Memory)
    (frame : TerminalViewFrame SmolStr) :
    (view.read memory).validateFrame (frame.read memory) = view.validateFrame frame := by
  cases frame with
  | full next => rfl
  | delta update => exact validateDelta_congr rfl (List.length_map _) rfl rfl shape_map

theorem validateFrame_settle (view : TerminalView String) (frame : TerminalViewFrame String) :
    view.validateFrame (settle view frame) = view.validateFrame frame := by
  cases frame with
  | full next => rfl
  | delta update => exact validateDelta_congr rfl rfl rfl rfl (shape_refill length_settleCells)

/-- A holder refuses the frames that do not apply. -/
theorem take_invalid {error : TerminalFrameError}
    (invalid : holder.view.validateFrame frame = .error error) :
    holder.take memory frame = some (.error error) := by
  cases frame with
  | full next => cases invalid
  | delta update =>
      have refused : holder.view.validateDelta update = .error error := invalid
      simp [take, TerminalHyperlinkBudget.applyDelta, refused]

/-- A holder takes every other frame, and its budget follows the view. -/
theorem Valid.take (valid : holder.Valid) (keeps : holder.Keeps memory)
    (applies : holder.view.validateFrame frame = .ok ()) :
    ∃ next sent, holder.take memory frame = some (.ok (next, sent)) ∧ next.memory = memory ∧
      next.Valid ∧ sent.read memory = settle holder.text (frame.read memory) ∧
      holder.text.applyFrame (sent.read memory) = .ok next.text := by
  have accounts : holder.budget.Accounts memory (linksOf holder.view.cells) :=
    TerminalHyperlinkBudget.Accounts.remember valid keeps
  cases frame with
  | full view =>
      rcases start_spec memory view with ⟨next, starts, rfl, nextValid, text⟩
      refine ⟨next, .full next.view, by simp [Holder.take, starts], rfl, nextValid, ?_, rfl⟩
      exact congrArg TerminalViewFrame.full text
  | delta update =>
      rcases TerminalHyperlinkBudget.applyDelta_spec accounts applies
        with ⟨budget, sent, applied, nextAccounts, text⟩
      have sentText : TerminalViewFrame.read memory (.delta sent) =
          settle holder.text (TerminalViewFrame.read memory (.delta update)) := by
        rw [← text_of_keeps keeps]
        exact congrArg TerminalViewFrame.delta text
      refine ⟨{ memory := memory, view := holder.view.applyValidatedDelta sent, budget := budget },
        .delta sent, by simp [Holder.take, applied], rfl, nextAccounts, sentText, ?_⟩
      have sentApplies : holder.text.validateFrame (TerminalViewFrame.read memory (.delta sent)) =
          .ok () := by
        rw [sentText, validateFrame_settle, ← text_of_keeps keeps, validateFrame_read]
        exact applies
      have result : holder.text.applyFrame (TerminalViewFrame.read memory (.delta sent)) =
          .ok (holder.text.applyValidatedDelta (sent.map (SmolStr.read memory))) := by
        simp only [TerminalView.applyFrame, sentApplies]
        rfl
      rw [result, ← text_of_keeps keeps, ← map_applyValidatedDelta]
      rfl

/-- A frame that leads to a view within the limits loses no link. -/
theorem settle_of_within {view result : TerminalView String} {frame : TerminalViewFrame String}
    (applied : view.applyFrame frame = .ok result)
    (within : Within hyperlinkLimits (linkTexts result.cells)) : settle view frame = frame := by
  cases frame with
  | full next =>
      cases applied
      apply congrArg TerminalViewFrame.full
      apply settleView_eq_self.mpr
      apply settleCells_of_within
      rwa [Finset.empty_union]
  | delta update =>
      cases valid : view.validateDelta update with
      | error error => simp [TerminalView.applyFrame, TerminalView.validateFrame, valid] at applied
      | ok done =>
          have same : view.applyValidatedDelta update = result := by
            simpa [TerminalView.applyFrame, TerminalView.validateFrame, valid] using applied
          apply congrArg TerminalViewFrame.delta
          exact settleDelta_of_within valid (same ▸ within)

/-- What a budget kept of a frame is within the limits of the wire. -/
theorem settleFrame_settle {view : TerminalView String} {frame : TerminalViewFrame String}
    (within : Within hyperlinkLimits (linkTexts view.cells))
    (valid : view.validateFrame frame = .ok ()) :
    settleFrame ∅ (settle view frame) = settle view frame := by
  cases frame with
  | full next =>
      exact settleFrame_settleFrame within_empty (Finset.Subset.refl _) (.full next)
  | delta update =>
      have kept : Within hyperlinkLimits (untouched view update) := by
        apply within.mono
        have split := linksOf_drop (validateRuns_of_validateDelta valid)
        rw [List.drop_zero] at split
        rw [untouched, linkTexts_eq, linkTexts_eq, split, Multiset.toFinset_add]
        exact Finset.subset_union_right
      exact settleFrame_settleFrame kept (Finset.empty_subset _) (.delta update)

end Holder

/-! ## Every step -/

/-- What every step of a feed keeps. -/
structure Feed.Valid (state : Feed) : Prop where
  sender : state.sender.Valid
  held : ∀ view ∈ state.held, Within hyperlinkLimits (linkTexts view.cells)
  receiver : ∀ receiver, state.receiver = some receiver → receiver.Valid

theorem Feed.Valid.perform {state next : Feed} {label : Feed.Label} (valid : state.Valid)
    (enabled : state.Enabled label) (performs : state.perform label = some next) :
    next.Valid := by
  cases label with
  | publish memory frame =>
      cases applies : state.sender.view.validateFrame frame with
      | error error =>
          have refused := @Holder.take_invalid _ memory _ _ applies
          simp only [Feed.perform, refused, Option.bind_eq_bind, Option.bind_some,
            Option.pure_def, Option.some.injEq] at performs
          exact performs ▸ valid
      | ok done =>
          rcases valid.sender.take enabled applies with ⟨sender, sent, takes, -, senderValid, -, -⟩
          simp only [Feed.perform, takes, Option.bind_eq_bind, Option.bind_some,
            Option.pure_def, Option.some.injEq] at performs
          subst performs
          refine ⟨senderValid, ?_, valid.receiver⟩
          intro view member
          rcases List.mem_cons.mp member with rfl | member
          · exact senderValid.within
          · exact valid.held view member
  | deliver memory frame =>
      cases holds : state.receiver with
      | none =>
          cases frame with
          | full view =>
              rcases Holder.start_spec memory view with ⟨holder, starts, -, holderValid, -⟩
              simp only [Feed.perform, holds, starts, Option.bind_eq_bind, Option.bind_some,
                Option.pure_def, Option.some.injEq] at performs
              subst performs
              exact ⟨valid.sender, valid.held, by rintro _ ⟨⟩; exact holderValid⟩
          | delta update =>
              simp only [Feed.perform, holds, Option.some.injEq] at performs
              exact performs ▸ valid
      | some receiver =>
          simp only [Feed.Enabled, holds] at enabled
          cases applies : receiver.view.validateFrame frame with
          | error error =>
              have refused := @Holder.take_invalid _ memory _ _ applies
              simp only [Feed.perform, holds, refused, Option.bind_eq_bind, Option.bind_some,
                Option.pure_def, Option.some.injEq] at performs
              subst performs
              exact ⟨valid.sender, valid.held, by simp⟩
          | ok done =>
              rcases (valid.receiver receiver holds).take enabled.1 applies
                with ⟨after, sent, takes, -, afterValid, -, -⟩
              simp only [Feed.perform, holds, takes, Option.bind_eq_bind, Option.bind_some,
                Option.pure_def, Option.some.injEq] at performs
              subst performs
              exact ⟨valid.sender, valid.held, by rintro _ ⟨⟩; exact afterValid⟩

theorem Feed.Valid.of_reachable {state : Feed} (reached : feedSystem.Reachable state) :
    state.Valid := by
  apply reached.invariant Feed.Valid
  · rintro state ⟨noReceiver, held, memory, view, starts⟩
    rcases Holder.start_spec memory view with ⟨holder, started, -, holderValid, -⟩
    have same : holder = state.sender := Option.some.inj (started.symm.trans starts)
    subst same
    refine ⟨holderValid, ?_, by simp [noReceiver]⟩
    intro view member
    rw [held, List.mem_singleton] at member
    rw [member]
    exact holderValid.within
  · rintro state label next valid ⟨enabled, performs⟩
    exact valid.perform enabled performs

/-- After any steps both budgets record what is in their views. The Server's budget takes every
frame that applies, sends it with links that the wire does not take away, and refuses the
others; the Client's drops no link of a frame that leads to a view the Server had. -/
theorem hyperlink_budgets_account {state : Feed} (reached : feedSystem.Reachable state) :
    state.sender.Accounted ∧
      (∀ receiver, state.receiver = some receiver → receiver.Accounted) ∧
      (∀ memory frame, state.sender.Keeps memory →
        (∃ error, state.sender.view.validateFrame frame = .error error ∧
          state.sender.take memory frame = some (.error error)) ∨
        ∃ next sent, state.sender.view.validateFrame frame = .ok () ∧
          state.sender.take memory frame = some (.ok (next, sent)) ∧ next.Accounted ∧
          state.sender.text.applyFrame (sent.read next.memory) = .ok next.text ∧
          ∃ normalized, sent.normalizeHyperlinksForWire next.memory = some (normalized, false)) ∧
      ∀ receiver memory frame view, state.receiver = some receiver → receiver.Keeps memory →
        receiver.text.applyFrame (frame.read memory) = .ok view → view ∈ state.held →
        ∃ next kept, receiver.take memory frame = some (.ok (next, kept)) ∧
          kept.read next.memory = frame.read memory ∧ next.text = view ∧ next.Accounted := by
  have valid := Feed.Valid.of_reachable reached
  refine ⟨valid.sender.accounted, ?_, ?_, ?_⟩
  · intro receiver holds
    exact (valid.receiver receiver holds).accounted
  · intro memory frame keeps
    cases applies : state.sender.view.validateFrame frame with
    | error error => exact Or.inl ⟨error, rfl, Holder.take_invalid applies⟩
    | ok done =>
        rcases valid.sender.take keeps applies
          with ⟨next, sent, takes, rfl, nextValid, text, result⟩
        refine Or.inr ⟨next, sent, rfl, takes, nextValid.accounted, result, ?_⟩
        rcases @TerminalViewFrame.normalizeHyperlinksForWire_spec next.memory sent
          with ⟨normalized, changed, runs, -, same⟩
        have unchanged : changed = false := by
          apply same.mpr
          rw [← TerminalViewFrame.read, text]
          apply Holder.settleFrame_settle valid.sender.within
          rw [← Holder.text_of_keeps keeps, Holder.validateFrame_read]
          exact applies
        exact ⟨normalized, unchanged ▸ runs⟩
  · intro receiver memory frame view holds keeps applied member
    have receiverValid := valid.receiver receiver holds
    have applies : receiver.view.validateFrame frame = .ok () := by
      rw [← Holder.validateFrame_read receiver.view memory frame, Holder.text_of_keeps keeps]
      cases checked : receiver.text.validateFrame (frame.read memory) with
      | error error => simp [TerminalView.applyFrame, checked] at applied
      | ok done => rfl
    rcases receiverValid.take keeps applies with ⟨next, kept, takes, rfl, nextValid, text, result⟩
    rw [Holder.settle_of_within applied (valid.held view member)] at text
    refine ⟨next, kept, takes, text, ?_, nextValid.accounted⟩
    rw [text, applied] at result
    exact (Except.ok.inj result).symm

def linkedCell (link : Option String) : TerminalCell SmolStr where
  text := "x"
  foreground := .default
  background := .indexed 4
  underlineColor := .default
  flags := 0
  hyperlink := link.map .inline

/-- Two cells, the first with a link. -/
def linkedView : TerminalView SmolStr where
  revision := 1
  size := { rows := 1, columns := 2, cellWidth := 8, cellHeight := 16 }
  displayOffset := 0
  mouseTracking := .none
  cells := [linkedCell (some "https://example"), linkedCell none]
  cursor := none
  selection := none

/-- Gives the second cell a link too. -/
def linkedUpdate : TerminalViewDelta SmolStr where
  baseRevision := 1
  revision := 2
  displayOffset := 0
  mouseTracking := .none
  cursor := none
  selection := none
  runs := [{ start := 1, cells := [linkedCell (some "https://other")] }]

def emptyMemory : Memory := fun _ => ""

def linkedFeed : Feed where
  sender := {
    memory := emptyMemory
    view := linkedView
    budget := {
      byUri := AList.singleton "https://example" 0
      byPointer := ∅
      entries := [some { uri := .inline "https://example", references := 1 }]
      freeEntries := []
      bytes := 15 } }
  held := [linkedView.read emptyMemory]
  receiver := none

/-- The Server takes the update, and the Client the view before it and then the update. -/
theorem hyperlink_budgets_account_example :
    ∃ (state : Feed) (receiver next : Holder) (kept : TerminalViewFrame SmolStr),
      state.receiver = some receiver ∧ state.sender.Accounted ∧ receiver.Accounted ∧
      receiver.take emptyMemory (.delta linkedUpdate) = some (.ok (next, kept)) ∧
      kept.read next.memory = TerminalViewFrame.read emptyMemory (.delta linkedUpdate) ∧
      next.links = ["https://example", "https://other"] ∧ next.Accounted := by
  obtain ⟨published, publishes, held, nobody⟩ : ∃ state,
      linkedFeed.perform (.publish emptyMemory (.delta linkedUpdate)) = some state ∧
      state.held = [(linkedView.applyValidatedDelta linkedUpdate).read emptyMemory,
        linkedView.read emptyMemory] ∧ state.receiver = none :=
    ⟨_, rfl, rfl, rfl⟩
  obtain ⟨receiver, starts, text⟩ : ∃ receiver,
      Holder.start emptyMemory linkedView = some receiver ∧
      receiver.text = linkedView.read emptyMemory :=
    ⟨_, rfl, rfl⟩
  have reached : feedSystem.Reachable { published with receiver := some receiver } := by
    have start : feedSystem.Reachable linkedFeed :=
      .start ⟨rfl, rfl, emptyMemory, linkedView, rfl⟩
    have enabled : linkedFeed.Enabled (.publish emptyMemory (.delta linkedUpdate)) :=
      fun _ _ => rfl
    have first := start.next (show feedSystem.step _ _ published from ⟨enabled, publishes⟩)
    refine first.next (show feedSystem.step _ (.deliver emptyMemory (.full linkedView)) _ from
      ⟨?_, ?_⟩)
    · simp only [Feed.Enabled, nobody, held]
      exact ⟨_, rfl, List.mem_cons_of_mem _ List.mem_cons_self⟩
    · simp only [Feed.perform, nobody, starts]
      rfl
  have accounts := hyperlink_budgets_account reached
  have applied : receiver.text.applyFrame
      (TerminalViewFrame.read emptyMemory (.delta linkedUpdate)) =
        .ok ((linkedView.applyValidatedDelta linkedUpdate).read emptyMemory) := by
    rw [text]
    rfl
  rcases accounts.2.2.2 receiver emptyMemory (.delta linkedUpdate) _ rfl
    (fun _ _ => by rcases Option.some.inj starts with rfl; rfl) applied
    (held ▸ List.mem_cons_self) with ⟨next, kept, takes, same, shows, nextAccounted⟩
  refine ⟨_, receiver, next, kept, rfl, accounts.1, accounts.2.1 receiver rfl, takes, same, ?_,
    nextAccounted⟩
  rw [Holder.links, shows]
  rfl

end Condr
