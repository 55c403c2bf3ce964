import Condr.Client.VisualSlotRuns

/-!
# Terminals of a client

A client applies a batch to the terminals it holds, all panes or none, and each terminal's
budget decides which links it retains. A pane without a terminal starts with a whole view.
-/

namespace Condr

open Budget

structure ClientTerminals where
  terminals : AList fun _ : PaneId => TerminalView SmolStr
  terminalHyperlinks : AList fun _ : PaneId => TerminalHyperlinkBudget

namespace ClientTerminals

def checkPane (client : ClientTerminals) (pane : PaneTerminalFrame SmolStr) : Except Unit Unit :=
  match client.terminals.lookup pane.paneId with
  | some view =>
      if (client.terminalHyperlinks.lookup pane.paneId).isNone then .error ()
      else (view.validateFrame pane.frame).mapError fun _ => ()
  | none =>
      match pane.frame with
      | .full _ => .ok ()
      | .delta _ => .error ()

def checkPanes (client : ClientTerminals) :
    List PaneId → List (PaneTerminalFrame SmolStr) → Except Unit Unit
  | _, [] => .ok ()
  | seen, pane :: panes =>
      if pane.paneId ∈ seen then .error ()
      else do
        client.checkPane pane
        client.checkPanes (pane.paneId :: seen) panes

/-- A `none` is a panic. -/
def applyPane (memory : Memory) (client : ClientTerminals) (pane : PaneTerminalFrame SmolStr) :
    Option ClientTerminals :=
  match pane.frame with
  | .full view => do
      let (budget, view) ← TerminalHyperlinkBudget.new memory view
      return {
        terminals := client.terminals.insert pane.paneId view
        terminalHyperlinks := client.terminalHyperlinks.insert pane.paneId budget }
  | .delta update => do
      let view ← client.terminals.lookup pane.paneId
      let budget ← client.terminalHyperlinks.lookup pane.paneId
      match ← budget.applyDelta memory view update with
      | .error _ => none
      | .ok (budget, view, _) =>
          return {
            terminals := client.terminals.insert pane.paneId view
            terminalHyperlinks := client.terminalHyperlinks.insert pane.paneId budget }

def applyTerminalFrameBatch (memory : Memory) (client : ClientTerminals)
    (panes : List (PaneTerminalFrame SmolStr)) :
    Option (Except Unit (ClientTerminals × List PaneId)) :=
  match client.checkPanes [] panes with
  | .error () => some (.error ())
  | .ok () => do
      let client ← panes.foldlM (applyPane memory) client
      return .ok (client, panes.map PaneTerminalFrame.paneId)

/-- Batches one by one, up to the first that does not apply. -/
def applyBatches (memory : Memory) :
    ClientTerminals → List (TerminalFrameBatch SmolStr) → Option (Except Unit ClientTerminals)
  | client, [] => some (.ok client)
  | client, batch :: batches => do
      match ← client.applyTerminalFrameBatch memory batch.panes with
      | .error () => return .error ()
      | .ok (client, _) => client.applyBatches memory batches

/-- Every terminal has a budget, and it is that of its view. -/
def Accounts (memory : Memory) (client : ClientTerminals) : Prop :=
  ∀ pane view, client.terminals.lookup pane = some view →
    ∃ budget, client.terminalHyperlinks.lookup pane = some budget ∧
      budget.Accounts memory (linksOf view.cells)

/-- The view of a pane with the texts of its links. -/
def text (memory : Memory) (client : ClientTerminals) (pane : PaneId) :
    Option (TerminalView String) :=
  (client.terminals.lookup pane).map (TerminalView.read memory)

end ClientTerminals

/-- What a holder of a view, or of none, has after a frame. -/
def receive : Option (TerminalView String) → TerminalViewFrame String →
    Option (TerminalView String)
  | none, .full whole => some (settleView ∅ whole)
  | none, .delta _ => none
  | some view, frame => (view.applyFrame (Holder.settle view frame)).toOption

def receiveStep (view : Option (TerminalView String)) (frame : TerminalViewFrame String) :
    Option (Option (TerminalView String)) :=
  (receive view frame).map some

namespace ClientTerminals

variable {memory : Memory} {client : ClientTerminals} {pane : PaneTerminalFrame SmolStr}
  {panes : List (PaneTerminalFrame SmolStr)}

theorem text_insert_same {id : PaneId} {view : TerminalView SmolStr}
    {budgets : AList fun _ : PaneId => TerminalHyperlinkBudget} :
    text memory ⟨client.terminals.insert id view, budgets⟩ id = some (view.read memory) := by
  simp [text]

theorem text_insert_other {id other : PaneId} {view : TerminalView SmolStr}
    {budgets : AList fun _ : PaneId => TerminalHyperlinkBudget} (apart : other ≠ id) :
    text memory ⟨client.terminals.insert id view, budgets⟩ other = client.text memory other := by
  simp [text, AList.lookup_insert_ne apart]

theorem Accounts.insert (accounts : client.Accounts memory) {id : PaneId}
    {view : TerminalView SmolStr} {budget : TerminalHyperlinkBudget}
    (own : budget.Accounts memory (linksOf view.cells)) :
    Accounts memory ⟨client.terminals.insert id view, client.terminalHyperlinks.insert id budget⟩ := by
  intro other held found
  by_cases same : other = id
  · subst same
    rw [AList.lookup_insert] at found
    cases Option.some.inj found
    exact ⟨budget, AList.lookup_insert _, own⟩
  · rw [AList.lookup_insert_ne same] at found
    rcases accounts other held found with ⟨budget, holds, owns⟩
    exact ⟨budget, (AList.lookup_insert_ne same).trans holds, owns⟩

/-- A pane is accepted exactly when its terminal can receive the frame. -/
theorem Accounts.checkPane (accounts : client.Accounts memory) :
    client.checkPane pane = .ok () ↔
      (receive (client.text memory pane.paneId) (pane.frame.read memory)).isSome := by
  cases found : client.terminals.lookup pane.paneId with
  | none =>
      cases frame : pane.frame with
      | full view => simp [ClientTerminals.checkPane, text, found, frame, receive,
          TerminalViewFrame.map]
      | delta update => simp [ClientTerminals.checkPane, text, found, frame, receive,
          TerminalViewFrame.map]
  | some view =>
      rcases accounts pane.paneId view found with ⟨budget, holds, -⟩
      have same : (view.read memory).validateFrame
          (Holder.settle (view.read memory) (pane.frame.read memory)) =
            view.validateFrame pane.frame := by
        rw [Holder.validateFrame_settle, Holder.validateFrame_read]
      simp only [ClientTerminals.checkPane, text, found, holds, Option.map_some, receive,
        TerminalView.applyFrame, same, Option.isNone_some, Bool.false_eq_true, if_false]
      cases view.validateFrame pane.frame with
      | error error => simp [Except.mapError, Except.toOption]
      | ok done =>
          cases Holder.settle (view.read memory) (pane.frame.read memory) <;>
            simp [Except.mapError, Except.toOption]

/-- A frame that a terminal can receive is applied, and changes that terminal only. -/
theorem Accounts.applyPane (accounts : client.Accounts memory)
    (accepts : (receive (client.text memory pane.paneId) (pane.frame.read memory)).isSome) :
    ∃ next, client.applyPane memory pane = some next ∧ next.Accounts memory ∧
      receive (client.text memory pane.paneId) (pane.frame.read memory) =
        next.text memory pane.paneId ∧
      ∀ other, other ≠ pane.paneId → next.text memory other = client.text memory other := by
  cases frame : pane.frame with
  | full view =>
      rcases TerminalHyperlinkBudget.new_spec memory view with ⟨budget, bounded, news, own, text⟩
      have applies : client.applyPane memory pane = some
          { terminals := client.terminals.insert pane.paneId bounded
            terminalHyperlinks := client.terminalHyperlinks.insert pane.paneId budget } := by
        simp [ClientTerminals.applyPane, frame, news]
      refine ⟨_, applies, accounts.insert own, ?_, ?_⟩
      · rw [text_insert_same, TerminalView.read, text]
        cases client.text memory pane.paneId <;> rfl
      · intro other apart
        exact text_insert_other apart
  | delta update =>
      rw [← accounts.checkPane] at accepts
      cases found : client.terminals.lookup pane.paneId with
      | none => simp [ClientTerminals.checkPane, found, frame] at accepts
      | some view =>
          rcases accounts pane.paneId view found with ⟨budget, holds, owns⟩
          have applies : view.validateFrame (.delta update) = .ok () := by
            simp only [ClientTerminals.checkPane, found, frame, holds, Option.isNone_some,
              Bool.false_eq_true, if_false] at accepts
            cases checked : view.validateFrame (.delta update) with
            | ok done => rfl
            | error error =>
                rw [checked] at accepts
                cases accepts
          rcases TerminalHyperlinkBudget.applyDelta_spec owns applies
            with ⟨next, sent, applied, nextOwns, text⟩
          have result : client.applyPane memory pane = some
              { terminals := client.terminals.insert pane.paneId (view.applyValidatedDelta sent)
                terminalHyperlinks := client.terminalHyperlinks.insert pane.paneId next } := by
            simp [ClientTerminals.applyPane, frame, found, holds, applied]
          refine ⟨_, result, accounts.insert nextOwns, ?_, ?_⟩
          · rw [text_insert_same, TerminalView.read, map_applyValidatedDelta, text]
            have valid : (view.read memory).validateFrame (Holder.settle (view.read memory)
                (TerminalViewFrame.read memory (.delta update))) = .ok () := by
              rw [Holder.validateFrame_settle, Holder.validateFrame_read]
              exact applies
            simp only [ClientTerminals.text, found, Option.map_some, receive,
              TerminalView.applyFrame, valid]
            rfl
          · intro other apart
            exact text_insert_other apart

theorem checkPanes_eq_ok {seen : List PaneId} :
    client.checkPanes seen panes = .ok () ↔
      (panes.map PaneTerminalFrame.paneId).Nodup ∧ (∀ pane ∈ panes, pane.paneId ∉ seen) ∧
        ∀ pane ∈ panes, client.checkPane pane = .ok () := by
  induction panes generalizing seen with
  | nil => simp [checkPanes]
  | cons head panes induction =>
      rw [checkPanes]
      split_ifs with twice
      · simp [twice]
      · cases checks : client.checkPane head with
        | error error =>
            constructor
            · intro accepts
              cases accepts
            · rintro ⟨-, -, all⟩
              rw [all head List.mem_cons_self] at checks
              cases checks
        | ok done =>
            refine Iff.trans (show _ ↔ client.checkPanes (head.paneId :: seen) panes = .ok () from
              Iff.rfl) ?_
            rw [induction, List.map_cons, List.nodup_cons, List.forall_mem_cons,
              List.forall_mem_cons, checks]
            simp only [List.mem_cons, not_or, List.mem_map, not_exists, not_and, twice,
              not_false_iff, true_and]
            constructor
            · rintro ⟨distinct, fresh, all⟩
              exact ⟨⟨fun other member => (fresh other member).1, distinct⟩,
                fun other member => (fresh other member).2, all⟩
            · rintro ⟨⟨absent, distinct⟩, fresh, all⟩
              exact ⟨distinct, fun other member => ⟨absent other member, fresh other member⟩, all⟩

/-- Every pane receives its frames, and the others stay. -/
theorem Accounts.foldlM_applyPane (accounts : client.Accounts memory)
    (distinct : (panes.map PaneTerminalFrame.paneId).Nodup)
    (accepts : ∀ pane ∈ panes,
      (receive (client.text memory pane.paneId) (pane.frame.read memory)).isSome) :
    ∃ next, panes.foldlM (ClientTerminals.applyPane memory) client = some next ∧
      next.Accounts memory ∧ ∀ id,
        ((framesOf id panes).map (TerminalViewFrame.read memory)).foldlM receiveStep
          (client.text memory id) = some (next.text memory id) := by
  induction panes generalizing client with
  | nil => exact ⟨client, rfl, accounts, fun _ => rfl⟩
  | cons head panes induction =>
      rw [List.map_cons, List.nodup_cons] at distinct
      rcases accounts.applyPane (accepts head List.mem_cons_self)
        with ⟨middle, applies, middleAccounts, received, others⟩
      have apart : ∀ pane ∈ panes, pane.paneId ≠ head.paneId := by
        intro pane member same
        exact distinct.1 (same ▸ List.mem_map_of_mem member)
      rcases induction middleAccounts distinct.2 (by
        intro pane member
        rw [others pane.paneId (apart pane member)]
        exact accepts pane (List.mem_cons_of_mem _ member)) with ⟨next, runs, nextAccounts, folds⟩
      refine ⟨next, ?_, nextAccounts, ?_⟩
      · rw [List.foldlM_cons, applies]
        exact runs
      · intro id
        by_cases same : head.paneId = id
        · subst same
          have present := accepts head List.mem_cons_self
          rw [received] at present
          rcases Option.isSome_iff_exists.mp present with ⟨view, holds⟩
          have step : receiveStep (client.text memory head.paneId) (head.frame.read memory) =
              some (middle.text memory head.paneId) := by
            rw [receiveStep, received, holds]
            rfl
          rw [framesOf_cons_same rfl, List.map_cons, List.foldlM_cons, step]
          exact folds head.paneId
        · rw [framesOf_cons_other same, ← others id (Ne.symm same)]
          exact folds id

theorem Accounts.applyTerminalFrameBatch (accounts : client.Accounts memory)
    (distinct : (panes.map PaneTerminalFrame.paneId).Nodup)
    (accepts : ∀ pane ∈ panes,
      (receive (client.text memory pane.paneId) (pane.frame.read memory)).isSome) :
    ∃ next ids, client.applyTerminalFrameBatch memory panes = some (.ok (next, ids)) ∧
      next.Accounts memory ∧ ∀ id,
        ((framesOf id panes).map (TerminalViewFrame.read memory)).foldlM receiveStep
          (client.text memory id) = some (next.text memory id) := by
  have checks : client.checkPanes [] panes = .ok () := by
    apply checkPanes_eq_ok.mpr
    refine ⟨distinct, fun _ _ => List.not_mem_nil, ?_⟩
    intro pane member
    exact accounts.checkPane.mpr (accepts pane member)
  rcases accounts.foldlM_applyPane distinct accepts with ⟨next, runs, nextAccounts, folds⟩
  refine ⟨next, panes.map PaneTerminalFrame.paneId, ?_, nextAccounts, folds⟩
  simp only [ClientTerminals.applyTerminalFrameBatch, checks, runs]
  rfl

/-- A batch that applied had one frame for each of its panes. -/
theorem Accounts.of_applyTerminalFrameBatch (accounts : client.Accounts memory)
    {next : ClientTerminals} {ids : List PaneId}
    (applies : client.applyTerminalFrameBatch memory panes = some (.ok (next, ids))) :
    next.Accounts memory ∧ ∀ id,
      ((framesOf id panes).map (TerminalViewFrame.read memory)).foldlM receiveStep
        (client.text memory id) = some (next.text memory id) := by
  cases checks : client.checkPanes [] panes with
  | error error =>
      rw [ClientTerminals.applyTerminalFrameBatch, checks] at applies
      cases applies
  | ok done =>
      rcases checkPanes_eq_ok.mp checks with ⟨distinct, -, all⟩
      rcases accounts.applyTerminalFrameBatch distinct
        (fun pane member => accounts.checkPane.mp (all pane member))
        with ⟨other, otherIds, same, otherAccounts, folds⟩
      cases applies.symm.trans same
      exact ⟨otherAccounts, folds⟩

theorem Accounts.of_applyBatches (accounts : client.Accounts memory)
    {batches : List (TerminalFrameBatch SmolStr)} {next : ClientTerminals}
    (applies : client.applyBatches memory batches = some (.ok next)) :
    next.Accounts memory ∧ ∀ id,
      ((batches.flatMap fun batch => framesOf id batch.panes).map
        (TerminalViewFrame.read memory)).foldlM receiveStep (client.text memory id) =
          some (next.text memory id) := by
  induction batches generalizing client with
  | nil =>
      cases applies
      exact ⟨accounts, fun _ => rfl⟩
  | cons batch batches induction =>
      rw [applyBatches] at applies
      cases outcome : client.applyTerminalFrameBatch memory batch.panes with
      | none =>
          rw [outcome] at applies
          cases applies
      | some result =>
          rw [outcome] at applies
          cases result with
          | error error => cases applies
          | ok reached =>
              rcases accounts.of_applyTerminalFrameBatch outcome with ⟨middleAccounts, folds⟩
              rcases induction middleAccounts applies with ⟨nextAccounts, later⟩
              refine ⟨nextAccounts, ?_⟩
              intro id
              rw [List.flatMap_cons, List.map_append, List.foldlM_append, folds id]
              exact later id

end ClientTerminals

end Condr
