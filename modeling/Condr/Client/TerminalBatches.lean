import Condr.Client.Terminals

/-!
# Whole batches

A batch is checked before it changes a terminal, and every place where the change of a
terminal may panic has a name. The terminals of a client are those of its last Bootstrap,
changed by batches and dropped with their panes.
-/

namespace Condr

open Budget

/-- Where a batch panics: at an expectation of its own, or inside a budget. -/
inductive BatchPanic where
  | terminalGone
  | hyperlinkBudgetGone
  | deltaInvalid
  | budget
deriving DecidableEq

namespace ClientTerminals

def changePane (memory : Memory) (client : ClientTerminals) (pane : PaneTerminalFrame SmolStr) :
    Except BatchPanic ClientTerminals :=
  match pane.frame with
  | .full view =>
      match TerminalHyperlinkBudget.new memory view with
      | none => .error .budget
      | some (budget, view) => .ok {
          terminals := client.terminals.insert pane.paneId view
          terminalHyperlinks := client.terminalHyperlinks.insert pane.paneId budget }
  | .delta update =>
      match client.terminals.lookup pane.paneId with
      | none => .error .terminalGone
      | some view =>
          match client.terminalHyperlinks.lookup pane.paneId with
          | none => .error .hyperlinkBudgetGone
          | some budget =>
              match budget.applyDelta memory view update with
              | none => .error .budget
              | some (.error _) => .error .deltaInvalid
              | some (.ok (budget, view, _)) => .ok {
                  terminals := client.terminals.insert pane.paneId view
                  terminalHyperlinks := client.terminalHyperlinks.insert pane.paneId budget }

/-- Changes terminal after terminal, and lists the panes. -/
def changePanes (memory : Memory) : ClientTerminals → List PaneId →
    List (PaneTerminalFrame SmolStr) → Except BatchPanic (ClientTerminals × List PaneId)
  | client, paneIds, [] => .ok (client, paneIds)
  | client, paneIds, pane :: panes => do
      let client ← client.changePane memory pane
      client.changePanes memory (paneIds ++ [pane.paneId]) panes

/-- What a batch returns, and the terminals it leaves. -/
def takeBatch (memory : Memory) (client : ClientTerminals)
    (panes : List (PaneTerminalFrame SmolStr)) :
    Except BatchPanic (ClientTerminals × Except Unit (List PaneId)) :=
  match client.checkPanes [] panes with
  | .error () => .ok (client, .error ())
  | .ok () => do
      let (client, paneIds) ← client.changePanes memory [] panes
      return (client, .ok paneIds)

/-- One frame alone: a whole view starts its terminal over, a delta moves the terminal there is.
A `none` is a panic inside the budget. -/
def takeFrame (memory : Memory) (client : ClientTerminals) (pane : PaneTerminalFrame SmolStr) :
    Option (Except Unit ClientTerminals) :=
  match client.terminals.lookup pane.paneId, client.terminalHyperlinks.lookup pane.paneId,
    pane.frame with
  | some _, none, _ => some (.error ())
  | none, _, .delta _ => some (.error ())
  | _, _, .full view => do
      let (budget, view) ← TerminalHyperlinkBudget.new memory view
      return .ok {
        terminals := client.terminals.insert pane.paneId view
        terminalHyperlinks := client.terminalHyperlinks.insert pane.paneId budget }
  | some view, some budget, .delta update => do
      match ← budget.applyDelta memory view update with
      | .error _ => return .error ()
      | .ok (budget, view, _) =>
          return .ok {
            terminals := client.terminals.insert pane.paneId view
            terminalHyperlinks := client.terminalHyperlinks.insert pane.paneId budget }

/-- Frame after frame, up to the first that is refused. -/
def takeFrames (memory : Memory) : ClientTerminals → List (PaneTerminalFrame SmolStr) →
    Option (Except Unit ClientTerminals)
  | client, [] => some (.ok client)
  | client, pane :: panes => do
      match ← client.takeFrame memory pane with
      | .error () => return .error ()
      | .ok client => client.takeFrames memory panes

/-- The terminals of a Bootstrap, those with a view that is wanted. -/
def restore (memory : Memory) (views : List (PaneId × TerminalView SmolStr)) :
    Option ClientTerminals :=
  views.foldlM (fun client shown => do
    let (budget, view) ← TerminalHyperlinkBudget.new memory shown.2
    return {
      terminals := client.terminals.insert shown.1 view
      terminalHyperlinks := client.terminalHyperlinks.insert shown.1 budget })
    { terminals := ∅, terminalHyperlinks := ∅ }

def retainEntries {Value : Type} (live : PaneId → Bool) (table : AList fun _ : PaneId => Value) :
    AList fun _ : PaneId => Value :=
  ⟨table.entries.filter fun entry => live entry.1,
    table.nodupKeys.sublist List.filter_sublist⟩

/-- Drops the terminals of other panes, as a new layout or a new set of watched panes does. -/
def retain (live : PaneId → Bool) (client : ClientTerminals) : ClientTerminals where
  terminals := retainEntries live client.terminals
  terminalHyperlinks := retainEntries live client.terminalHyperlinks

end ClientTerminals

/-- The terminals of a client, with the heap their links lie on. -/
structure TerminalStore where
  memory : Memory
  client : ClientTerminals

inductive TerminalStore.Label where
  | bootstrap (memory : Memory) (views : List (PaneId × TerminalView SmolStr))
  | retain (live : PaneId → Bool)
  | batch (memory : Memory) (panes : List (PaneTerminalFrame SmolStr))

namespace TerminalStore

/-- The heap still holds the links of the views. -/
def Keeps (store : TerminalStore) (memory : Memory) : Prop :=
  ∀ pane view, store.client.terminals.lookup pane = some view →
    ∀ link ∈ linksOf view.cells, link.read memory = link.read store.memory

/-- Strings that no view holds may move before a batch. -/
def Enabled (store : TerminalStore) : Label → Prop
  | .batch memory _ => store.Keeps memory
  | .bootstrap _ _ | .retain _ => True

def perform (store : TerminalStore) : Label → Option TerminalStore
  | .bootstrap memory views => (ClientTerminals.restore memory views).map (TerminalStore.mk memory)
  | .retain live => some { store with client := store.client.retain live }
  | .batch memory panes =>
      (store.client.takeBatch memory panes).toOption.map fun taken =>
        { memory := memory, client := taken.1 }

end TerminalStore

def terminalStoreSystem : Transition.System TerminalStore TerminalStore.Label where
  initial := fun store => store.client = { terminals := ∅, terminalHyperlinks := ∅ }
  step := fun store label next => store.Enabled label ∧ store.perform label = some next

namespace ClientTerminals

variable {memory : Memory} {client next : ClientTerminals} {pane : PaneTerminalFrame SmolStr}
  {panes : List (PaneTerminalFrame SmolStr)} {paneIds changed : List PaneId}
  {panic : BatchPanic}

/-! ## One pane -/

theorem toOption_changePane :
    (client.changePane memory pane).toOption = client.applyPane memory pane := by
  cases frame : pane.frame with
  | full view =>
      cases bounds : TerminalHyperlinkBudget.new memory view with
      | none => simp [changePane, applyPane, frame, bounds, Except.toOption]
      | some bounded => simp [changePane, applyPane, frame, bounds, Except.toOption]
  | delta update =>
      cases held : client.terminals.lookup pane.paneId with
      | none => simp [changePane, applyPane, frame, held, Except.toOption]
      | some view =>
          cases owned : client.terminalHyperlinks.lookup pane.paneId with
          | none => simp [changePane, applyPane, frame, held, owned, Except.toOption]
          | some budget =>
              rcases applied : budget.applyDelta memory view update with _ | _ | done <;>
                simp [changePane, applyPane, frame, held, owned, applied, Except.toOption]

/-- A delta is refused by its check, and by nothing after it. -/
theorem validateDelta_of_applyDelta {budget : TerminalHyperlinkBudget}
    {view : TerminalView SmolStr} {update : TerminalViewDelta SmolStr} {error : TerminalFrameError}
    (refused : budget.applyDelta memory view update = some (.error error)) :
    view.validateDelta update = .error error := by
  cases checked : view.validateDelta update with
  | error other =>
      simp only [TerminalHyperlinkBudget.applyDelta, checked, Option.some.injEq] at refused
      exact congrArg Except.error (Except.error.inj refused)
  | ok done =>
      simp only [TerminalHyperlinkBudget.applyDelta, checked] at refused
      split_ifs at refused with fast links
      · cases refused
      · rcases Option.bind_eq_some_iff.mp refused with ⟨released, -, rest⟩
        rcases Option.bind_eq_some_iff.mp rest with ⟨passed, -, last⟩
        cases last
      · rcases Option.bind_eq_some_iff.mp refused with ⟨released, -, last⟩
        cases last

/-- A pane that was checked meets every expectation of the code that changes it. -/
theorem changePane_of_checkPane (checks : client.checkPane pane = .ok ())
    (panics : client.changePane memory pane = .error panic) : panic = .budget := by
  cases frame : pane.frame with
  | full view =>
      cases bounds : TerminalHyperlinkBudget.new memory view with
      | none =>
          simp only [changePane, frame, bounds] at panics
          exact (Except.error.inj panics).symm
      | some bounded => simp [changePane, frame, bounds] at panics
  | delta update =>
      cases held : client.terminals.lookup pane.paneId with
      | none => simp [checkPane, held, frame] at checks
      | some view =>
          cases owned : client.terminalHyperlinks.lookup pane.paneId with
          | none => simp [checkPane, held, owned] at checks
          | some budget =>
              have valid : view.validateDelta update = .ok () := by
                simp only [checkPane, held, owned, frame, Option.isNone_some, Bool.false_eq_true,
                  if_false, TerminalView.validateFrame] at checks
                cases outcome : view.validateDelta update with
                | ok done => rfl
                | error error =>
                    rw [outcome] at checks
                    cases checks
              cases applied : budget.applyDelta memory view update with
              | none =>
                  simp only [changePane, frame, held, owned, applied] at panics
                  exact (Except.error.inj panics).symm
              | some outcome =>
                  cases outcome with
                  | error error =>
                      rw [validateDelta_of_applyDelta applied] at valid
                      cases valid
                  | ok done => simp [changePane, frame, held, owned, applied] at panics

theorem changePane_inserts (changes : client.changePane memory pane = .ok next) :
    ∃ view budget, next = {
      terminals := client.terminals.insert pane.paneId view
      terminalHyperlinks := client.terminalHyperlinks.insert pane.paneId budget } := by
  cases frame : pane.frame with
  | full view =>
      cases bounds : TerminalHyperlinkBudget.new memory view with
      | none => simp [changePane, frame, bounds] at changes
      | some bounded =>
          simp only [changePane, frame, bounds, Except.ok.injEq] at changes
          exact ⟨_, _, changes.symm⟩
  | delta update =>
      cases held : client.terminals.lookup pane.paneId with
      | none => simp [changePane, frame, held] at changes
      | some view =>
          cases owned : client.terminalHyperlinks.lookup pane.paneId with
          | none => simp [changePane, frame, held, owned] at changes
          | some budget =>
              rcases applied : budget.applyDelta memory view update with _ | _ | done
              · simp [changePane, frame, held, owned, applied] at changes
              · simp [changePane, frame, held, owned, applied] at changes
              · simp only [changePane, frame, held, owned, applied, Except.ok.injEq] at changes
                exact ⟨_, _, changes.symm⟩

/-- Another pane's terminal and budget are as they were. -/
theorem lookup_of_changePane (changes : client.changePane memory pane = .ok next) (id : PaneId)
    (apart : id ≠ pane.paneId) :
    next.terminals.lookup id = client.terminals.lookup id ∧
      next.terminalHyperlinks.lookup id = client.terminalHyperlinks.lookup id := by
  rcases changePane_inserts changes with ⟨view, budget, rfl⟩
  exact ⟨AList.lookup_insert_ne apart, AList.lookup_insert_ne apart⟩

theorem checkPane_congr {other : PaneTerminalFrame SmolStr}
    (terminals : next.terminals.lookup other.paneId = client.terminals.lookup other.paneId)
    (budgets : next.terminalHyperlinks.lookup other.paneId =
      client.terminalHyperlinks.lookup other.paneId) :
    next.checkPane other = client.checkPane other := by
  rw [checkPane, checkPane, terminals, budgets]

/-! ## Pane after pane -/

/-- A pane that the check refuses, its frame alone is refused. -/
theorem takeFrame_of_refused (refused : client.checkPane pane = .error ()) :
    client.takeFrame memory pane = some (.error ()) := by
  cases held : client.terminals.lookup pane.paneId with
  | none =>
      cases frame : pane.frame with
      | full view => simp [checkPane, held, frame] at refused
      | delta update => simp [takeFrame, held, frame]
  | some view =>
      cases owned : client.terminalHyperlinks.lookup pane.paneId with
      | none => simp [takeFrame, held, owned]
      | some budget =>
          simp only [checkPane, held, owned, Option.isNone_some, Bool.false_eq_true, if_false]
            at refused
          cases frame : pane.frame with
          | full next =>
              rw [frame] at refused
              cases refused
          | delta update =>
              rw [frame, TerminalView.validateFrame] at refused
              cases checked : view.validateDelta update with
              | ok done =>
                  rw [checked] at refused
                  cases refused
              | error error =>
                  simp [takeFrame, held, owned, frame, TerminalHyperlinkBudget.applyDelta, checked]

/-- A pane that was checked changes as by its frame alone. -/
theorem takeFrame_of_changePane (checks : client.checkPane pane = .ok ())
    (changes : client.changePane memory pane = .ok next) :
    client.takeFrame memory pane = some (.ok next) := by
  cases frame : pane.frame with
  | full view =>
      have owned : (client.terminals.lookup pane.paneId).isSome →
          (client.terminalHyperlinks.lookup pane.paneId).isSome := by
        intro held
        rcases Option.isSome_iff_exists.mp held with ⟨shown, found⟩
        by_contra missing
        have unowned : client.terminalHyperlinks.lookup pane.paneId = none := by
          simpa using missing
        simp [checkPane, found, unowned] at checks
      cases bounds : TerminalHyperlinkBudget.new memory view with
      | none => simp [changePane, frame, bounds] at changes
      | some bounded =>
          simp only [changePane, frame, bounds, Except.ok.injEq] at changes
          subst changes
          cases held : client.terminals.lookup pane.paneId with
          | none => simp [takeFrame, held, frame, bounds]
          | some shown =>
              rcases Option.isSome_iff_exists.mp (owned (by rw [held]; rfl)) with ⟨budget, found⟩
              simp [takeFrame, held, found, frame, bounds]
  | delta update =>
      cases held : client.terminals.lookup pane.paneId with
      | none => simp [changePane, frame, held] at changes
      | some view =>
          cases owned : client.terminalHyperlinks.lookup pane.paneId with
          | none => simp [changePane, frame, held, owned] at changes
          | some budget =>
              rcases applied : budget.applyDelta memory view update with _ | _ | done
              · simp [changePane, frame, held, owned, applied] at changes
              · simp [changePane, frame, held, owned, applied] at changes
              · simp only [changePane, frame, held, owned, applied, Except.ok.injEq] at changes
                subst changes
                simp [takeFrame, frame, held, owned, applied]

theorem toOption_changePanes :
    ((client.changePanes memory paneIds panes).map Prod.fst).toOption =
      panes.foldlM (applyPane memory) client := by
  induction panes generalizing client paneIds with
  | nil => rfl
  | cons pane panes induction =>
      rw [changePanes, List.foldlM_cons, ← toOption_changePane]
      cases changes : client.changePane memory pane with
      | error panic => rfl
      | ok middle => exact induction

/-- Panes that were all checked meet every expectation when they change in turn. -/
theorem changePanes_of_checkPane (distinct : (panes.map PaneTerminalFrame.paneId).Nodup)
    (checks : ∀ pane ∈ panes, client.checkPane pane = .ok ())
    (panics : client.changePanes memory paneIds panes = .error panic) : panic = .budget := by
  induction panes generalizing client paneIds with
  | nil => cases panics
  | cons pane panes induction =>
      rw [List.map_cons, List.nodup_cons] at distinct
      rw [changePanes] at panics
      cases changes : client.changePane memory pane with
      | error other =>
          rw [changes] at panics
          cases panics
          exact changePane_of_checkPane (checks pane List.mem_cons_self) changes
      | ok middle =>
          rw [changes] at panics
          refine induction distinct.2 ?_ panics
          intro other member
          rcases lookup_of_changePane changes other.paneId
            (fun same => distinct.1 (same ▸ List.mem_map_of_mem member)) with ⟨held, owned⟩
          rw [checkPane_congr held owned]
          exact checks other (List.mem_cons_of_mem _ member)

/-- Checked panes change in turn as they do frame after frame. -/
theorem takeFrames_of_changePanes (distinct : (panes.map PaneTerminalFrame.paneId).Nodup)
    (checks : ∀ pane ∈ panes, client.checkPane pane = .ok ())
    (changes : client.changePanes memory paneIds panes = .ok (next, changed)) :
    changed = paneIds ++ panes.map PaneTerminalFrame.paneId ∧
      client.takeFrames memory panes = some (.ok next) := by
  induction panes generalizing client paneIds with
  | nil =>
      cases changes
      exact ⟨(List.append_nil _).symm, rfl⟩
  | cons pane panes induction =>
      rw [List.map_cons, List.nodup_cons] at distinct
      rw [changePanes] at changes
      cases first : client.changePane memory pane with
      | error panic =>
          rw [first] at changes
          cases changes
      | ok middle =>
          rw [first] at changes
          have later : ∀ other ∈ panes, middle.checkPane other = .ok () := by
            intro other member
            rcases lookup_of_changePane first other.paneId
              (fun same => distinct.1 (same ▸ List.mem_map_of_mem member)) with ⟨held, owned⟩
            rw [checkPane_congr held owned]
            exact checks other (List.mem_cons_of_mem _ member)
          rcases induction distinct.2 later changes with ⟨rfl, rest⟩
          have alone := takeFrame_of_changePane (checks pane List.mem_cons_self) first
          refine ⟨by simp, ?_⟩
          rw [takeFrames, alone]
          exact rest

/-- The terminals threaded through the code's loops are those that a batch leaves. -/
theorem applyTerminalFrameBatch_eq :
    client.applyTerminalFrameBatch memory panes =
      (client.takeBatch memory panes).toOption.map fun taken =>
        taken.2.map fun paneIds => (taken.1, paneIds) := by
  cases checks : client.checkPanes [] panes with
  | error error => simp [applyTerminalFrameBatch, takeBatch, checks, Except.toOption, Except.map]
  | ok done =>
      rcases checkPanes_eq_ok.mp checks with ⟨distinct, -, all⟩
      have same := @toOption_changePanes memory client panes []
      simp only [applyTerminalFrameBatch, takeBatch, checks, ← same]
      cases changes : client.changePanes memory [] panes with
      | error panic => rfl
      | ok reached =>
          rcases reached with ⟨next, changed⟩
          rcases takeFrames_of_changePanes distinct all changes with ⟨rfl, -⟩
          rfl

/-! ## What a client can hold -/

theorem lookup_retainEntries {Value : Type} (live : PaneId → Bool)
    (table : AList fun _ : PaneId => Value) (id : PaneId) :
    (retainEntries live table).lookup id = if live id then table.lookup id else none := by
  rcases table with ⟨entries, distinct⟩
  change List.dlookup id (entries.filter fun entry => live entry.1) =
    if live id then List.dlookup id entries else none
  induction entries with
  | nil => simp
  | cons entry entries induction =>
      rcases entry with ⟨other, value⟩
      have rest := induction (List.nodupKeys_of_nodupKeys_cons distinct)
      by_cases same : id = other
      · subst same
        cases kept : live id with
        | true => simp [kept]
        | false => simpa [kept] using rest
      · rw [List.dlookup_cons_ne _ _ same, ← rest]
        cases kept : live other with
        | true => rw [List.filter_cons_of_pos (by simpa using kept), List.dlookup_cons_ne _ _ same]
        | false => rw [List.filter_cons_of_neg (by simpa using kept)]

theorem Accounts.retain (accounts : client.Accounts memory) (live : PaneId → Bool) :
    (client.retain live).Accounts memory := by
  intro pane view found
  simp only [ClientTerminals.retain, lookup_retainEntries] at found ⊢
  split_ifs at found with kept
  rw [if_pos kept]
  exact accounts pane view found

theorem accounts_empty : Accounts memory { terminals := ∅, terminalHyperlinks := ∅ } := by
  intro pane view found
  rw [AList.lookup_empty] at found
  cases found

theorem accounts_restore {views : List (PaneId × TerminalView SmolStr)}
    (restores : restore memory views = some next) : next.Accounts memory := by
  have keeps : ∀ client : ClientTerminals, client.Accounts memory →
      views.foldlM (fun client shown => do
        let (budget, view) ← TerminalHyperlinkBudget.new memory shown.2
        return {
          terminals := client.terminals.insert shown.1 view
          terminalHyperlinks := client.terminalHyperlinks.insert shown.1 budget }) client =
        some next → next.Accounts memory := by
    clear restores
    induction views with
    | nil =>
        intro client accounts same
        cases same
        exact accounts
    | cons shown views induction =>
        intro client accounts folds
        rcases TerminalHyperlinkBudget.new_spec memory shown.2
          with ⟨budget, bounded, news, own, -⟩
        rw [List.foldlM_cons, news] at folds
        exact induction _ (accounts.insert own) folds
  exact keeps _ accounts_empty restores

/-- A client whose budgets are those of its views takes a batch without a panic. -/
theorem Accounts.takeBatch (accounts : client.Accounts memory)
    (panes : List (PaneTerminalFrame SmolStr)) :
    ∃ next result, client.takeBatch memory panes = .ok (next, result) ∧ next.Accounts memory := by
  cases checks : client.checkPanes [] panes with
  | error error => exact ⟨client, .error (), by simp only [ClientTerminals.takeBatch, checks], accounts⟩
  | ok done =>
      rcases checkPanes_eq_ok.mp checks with ⟨distinct, -, all⟩
      rcases accounts.foldlM_applyPane distinct
        (fun pane member => accounts.checkPane.mp (all pane member)) with ⟨next, runs, kept, -⟩
      have same := @toOption_changePanes memory client panes []
      rw [runs] at same
      cases changes : client.changePanes memory [] panes with
      | error panic =>
          rw [changes] at same
          cases same
      | ok reached =>
          rw [changes] at same
          cases same
          exact ⟨reached.1, .ok reached.2,
            by simp only [ClientTerminals.takeBatch, checks, changes]; rfl, kept⟩

end ClientTerminals

namespace TerminalStore

variable {store next : TerminalStore} {memory : Memory} {label : TerminalStore.Label}

theorem accounts_of_keeps (accounts : store.client.Accounts store.memory)
    (keeps : store.Keeps memory) : store.client.Accounts memory := by
  intro pane view found
  rcases accounts pane view found with ⟨budget, owned, own⟩
  exact ⟨budget, owned, TerminalHyperlinkBudget.Accounts.remember own (keeps pane view found)⟩

theorem accounts_perform (accounts : store.client.Accounts store.memory)
    (enabled : store.Enabled label) (performs : store.perform label = some next) :
    next.client.Accounts next.memory := by
  cases label with
  | bootstrap memory views =>
      rcases Option.map_eq_some_iff.mp performs with ⟨client, restores, rfl⟩
      exact ClientTerminals.accounts_restore restores
  | retain live =>
      cases performs
      exact accounts.retain live
  | batch memory panes =>
      rcases (accounts_of_keeps accounts enabled).takeBatch panes
        with ⟨client, result, takes, kept⟩
      simp only [perform, takes] at performs
      cases performs
      exact kept

theorem accounts_of_reachable (reached : terminalStoreSystem.Reachable store) :
    store.client.Accounts store.memory := by
  refine reached.invariant (fun store => store.client.Accounts store.memory) ?_ ?_
  · rintro ⟨memory, client⟩ starts
    cases starts
    exact ClientTerminals.accounts_empty
  · intro store label next accounts steps
    exact accounts_perform accounts steps.1 steps.2

end TerminalStore

/-- A batch does to the terminals what its frames do one after the other, or it returns an error
and leaves them, since a pane comes twice or a frame alone is refused. Only a budget that is not
that of its view could panic, and no client has one. -/
theorem terminal_batches_atomic (memory : Memory) (client : ClientTerminals)
    (panes : List (PaneTerminalFrame SmolStr)) :
    (client.applyTerminalFrameBatch memory panes =
      (client.takeBatch memory panes).toOption.map fun taken =>
        taken.2.map fun paneIds => (taken.1, paneIds)) ∧
    ((∃ next, client.takeBatch memory panes =
          .ok (next, .ok (panes.map PaneTerminalFrame.paneId)) ∧
        (panes.map PaneTerminalFrame.paneId).Nodup ∧
        client.takeFrames memory panes = some (.ok next)) ∨
      (client.takeBatch memory panes = .ok (client, .error ()) ∧
        (¬ (panes.map PaneTerminalFrame.paneId).Nodup ∨
          ∃ pane ∈ panes, client.takeFrame memory pane = some (.error ()))) ∨
      (client.takeBatch memory panes = .error .budget ∧
        ∀ store : TerminalStore, terminalStoreSystem.Reachable store → store.client = client →
          ¬ store.Keeps memory)) := by
  refine ⟨ClientTerminals.applyTerminalFrameBatch_eq, ?_⟩
  cases checks : client.checkPanes [] panes with
  | error error =>
      right; left
      refine ⟨by simp only [ClientTerminals.takeBatch, checks], ?_⟩
      by_contra accepted
      push Not at accepted
      have passes : client.checkPanes [] panes = .ok () := by
        apply ClientTerminals.checkPanes_eq_ok.mpr
        refine ⟨accepted.1, fun _ _ => List.not_mem_nil, ?_⟩
        intro pane member
        cases alone : client.checkPane pane with
        | ok done => rfl
        | error error =>
            exact absurd (ClientTerminals.takeFrame_of_refused alone) (accepted.2 pane member)
      rw [passes] at checks
      cases checks
  | ok done =>
      rcases ClientTerminals.checkPanes_eq_ok.mp checks with ⟨distinct, -, all⟩
      cases changes : client.changePanes memory [] panes with
      | ok reached =>
          left
          rcases reached with ⟨next, changed⟩
          rcases ClientTerminals.takeFrames_of_changePanes distinct all changes with ⟨rfl, frames⟩
          exact ⟨next, by simp only [ClientTerminals.takeBatch, checks, changes]; rfl, distinct,
            frames⟩
      | error panic =>
          right; right
          have within := ClientTerminals.changePanes_of_checkPane distinct all changes
          have panics : client.takeBatch memory panes = .error panic := by
            simp only [ClientTerminals.takeBatch, checks, changes]
            rfl
          refine ⟨within ▸ panics, ?_⟩
          rintro store reached rfl keeps
          have accounts := TerminalStore.accounts_of_keeps
            (TerminalStore.accounts_of_reachable reached) keeps
          rcases accounts.takeBatch panes with ⟨next, result, takes, -⟩
          rw [panics] at takes
          cases takes

end Condr
