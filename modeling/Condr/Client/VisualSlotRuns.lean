import Condr.Client.VisualSlot

/-!
# Runs of the visual slot

What a publish can do, and what every run of the slot keeps: pending frames are those of the
batches held, merged in order, and the owner was told of them.
-/

namespace Condr

/-! ## Frames of one pane -/

/-- The frames that a batch has for a pane, in order. -/
def framesOf {Link : Type} (pane : PaneId) (panes : List (PaneTerminalFrame Link)) :
    List (TerminalViewFrame Link) :=
  panes.filterMap fun other => if other.paneId = pane then some other.frame else none

/-- The frames that batches have for a pane, in order. -/
def framesIn (pane : PaneId) (batches : List Published) : List (TerminalViewFrame String) :=
  batches.flatMap fun entry => framesOf pane entry.2.panes

def mergeStep (pending : Option (TerminalViewFrame String)) (frame : TerminalViewFrame String) :
    Except Unit (Option (TerminalViewFrame String)) :=
  match pending with
  | none => .ok (some frame)
  | some previous => (mergedTexts previous frame).map some

section

variable {Link : Type} {pane : PaneId} {head : PaneTerminalFrame Link}
  {panes : List (PaneTerminalFrame Link)}

theorem framesOf_cons_same (same : head.paneId = pane) :
    framesOf pane (head :: panes) = head.frame :: framesOf pane panes := by
  simp [framesOf, same]

theorem framesOf_cons_other (apart : head.paneId ≠ pane) :
    framesOf pane (head :: panes) = framesOf pane panes := by
  simp [framesOf, apart]

theorem framesOf_read {memory : Memory} {panes : List (PaneTerminalFrame SmolStr)} :
    framesOf pane (panes.map (PaneTerminalFrame.read memory)) =
      (framesOf pane panes).map (TerminalViewFrame.read memory) := by
  induction panes with
  | nil => rfl
  | cons head panes induction =>
      rw [List.map_cons]
      by_cases same : (head.read memory).paneId = pane
      · rw [framesOf_cons_same same, @framesOf_cons_same _ _ head _ same, List.map_cons, induction]
        rfl
      · rw [framesOf_cons_other same, @framesOf_cons_other _ _ head _ same, induction]

end

theorem framesIn_append {pane : PaneId} {batches : List Published} {entry : Published} :
    framesIn pane (batches ++ [entry]) = framesIn pane batches ++ framesOf pane entry.2.panes := by
  rw [framesIn, List.flatMap_append, List.flatMap_singleton, framesIn]

/-! ## What a publish can do -/

namespace TerminalVisualSlot

variable {memory : Memory} {slot : TerminalVisualSlot} {batch : TerminalFrameBatch SmolStr}
  {panes : List (PaneTerminalFrame SmolStr)}

/-- Merging never panics, and every pane then has its frames merged in order. -/
theorem mergePanes_spec (memory : Memory)
    (pending : AList fun _ : PaneId => TerminalViewFrame SmolStr)
    (panes : List (PaneTerminalFrame SmolStr)) :
    ∃ outcome, mergePanes memory pending panes = some outcome ∧
      ∀ next, outcome = .ok next → ∀ pane,
        ((framesOf pane panes).map (TerminalViewFrame.read memory)).foldlM mergeStep
            ((pending.lookup pane).map (TerminalViewFrame.read memory)) =
          .ok ((next.lookup pane).map (TerminalViewFrame.read memory)) := by
  induction panes generalizing pending with
  | nil =>
      refine ⟨.ok pending, rfl, ?_⟩
      rintro next ⟨⟩ pane
      rfl
  | cons head panes induction =>
      cases found : pending.lookup head.paneId with
      | none =>
          rcases induction (pending.insert head.paneId head.frame) with ⟨outcome, runs, folds⟩
          refine ⟨outcome, by simp only [mergePanes, found, runs], ?_⟩
          intro next ended pane
          have later := folds next ended pane
          by_cases same : head.paneId = pane
          · subst same
            rw [AList.lookup_insert] at later
            rw [framesOf_cons_same rfl, List.map_cons, List.foldlM_cons, found]
            exact later
          · rw [AList.lookup_insert_ne (Ne.symm same)] at later
            rw [framesOf_cons_other same]
            exact later
      | some previous =>
          rcases mergeTerminalFrames_read memory previous head.frame with ⟨result, merges, texts⟩
          cases result with
          | error error =>
              refine ⟨.error (), by simp [mergePanes, found, merges], ?_⟩
              rintro next ⟨⟩
          | ok frame =>
              rcases induction ((pending.erase head.paneId).insert head.paneId frame)
                with ⟨outcome, runs, folds⟩
              refine ⟨outcome, by simp [mergePanes, found, merges, runs], ?_⟩
              intro next ended pane
              have later := folds next ended pane
              by_cases same : head.paneId = pane
              · subst same
                rw [AList.lookup_insert] at later
                rw [framesOf_cons_same rfl, List.map_cons, List.foldlM_cons, found]
                have step : mergeStep (some (previous.read memory)) (head.frame.read memory) =
                    .ok (some (frame.read memory)) := by
                  rw [mergeStep, ← texts]
                  rfl
                exact (congrArg (· >>= _) step).trans later
              · rw [AList.lookup_insert_ne (Ne.symm same),
                  AList.lookup_erase_ne (Ne.symm same)] at later
                rw [framesOf_cons_other same]
                exact later

/-- What was checked merges, when the batch has one frame for each of its panes. -/
theorem mergePanes_of_checkPanes {original seen pending : AList fun _ : PaneId =>
      TerminalViewFrame SmolStr} (distinct : (panes.map PaneTerminalFrame.paneId).Nodup)
    (same : ∀ pane ∈ panes, pending.lookup pane.paneId = original.lookup pane.paneId)
    (fresh : ∀ pane ∈ panes, seen.lookup pane.paneId = none)
    (accepts : checkPanes original seen panes = .ok ()) :
    ∃ next, mergePanes memory pending panes = some (.ok next) := by
  induction panes generalizing seen pending with
  | nil => exact ⟨pending, rfl⟩
  | cons head panes induction =>
      rw [List.map_cons, List.nodup_cons] at distinct
      rcases distinct with ⟨absent, distinct⟩
      have apart : ∀ pane ∈ panes, pane.paneId ≠ head.paneId := by
        intro pane member equal
        exact absent (equal ▸ List.mem_map_of_mem member)
      have unseen : ∀ pane ∈ panes,
          (seen.insert head.paneId head.frame).lookup pane.paneId = none := by
        intro pane member
        rw [AList.lookup_insert_ne (apart pane member)]
        exact fresh pane (List.mem_cons_of_mem _ member)
      have here := same head List.mem_cons_self
      rw [checkPanes, fresh head List.mem_cons_self, Option.none_or, ← here] at accepts
      cases found : pending.lookup head.paneId with
      | none =>
          rw [found] at accepts
          simp only [mergePanes, found]
          apply induction distinct _ unseen accepts
          intro pane member
          rw [AList.lookup_insert_ne (apart pane member)]
          exact same pane (List.mem_cons_of_mem _ member)
      | some previous =>
          simp only [found] at accepts
          cases checks : checkTerminalFrameMerge previous head.frame with
          | error error =>
              rw [checks] at accepts
              cases accepts
          | ok done =>
              rw [checks] at accepts
              rcases @mergeTerminalFrames_of_ok memory _ _ checks with ⟨merged, merges, -⟩
              simp only [mergePanes, found, merges]
              apply induction distinct _ unseen accepts
              intro pane member
              rw [AList.lookup_insert_ne (apart pane member),
                AList.lookup_erase_ne (apart pane member)]
              exact same pane (List.mem_cons_of_mem _ member)

/-- Everything that a publish can do. -/
inductive Publishes (memory : Memory) (slot : TerminalVisualSlot)
    (batch : TerminalFrameBatch SmolStr) :
    TerminalVisualSlot → Except Unit (Option UInt64) → Prop where
  | rejects : Publishes memory slot batch slot (.error ())
  /-- The batch has two frames for one pane. -/
  | invalidates (twice : ¬(batch.panes.map PaneTerminalFrame.paneId).Nodup) :
      Publishes memory slot batch slot.advance (.error ())
  | merges (panes : AList fun _ : PaneId => TerminalViewFrame SmolStr)
      (identity : ∀ pending, slot.pending = some pending →
        pending.serverId = batch.serverId ∧ pending.sessionId = batch.sessionId)
      (folds : ∀ pane,
        ((framesOf pane batch.panes).map (TerminalViewFrame.read memory)).foldlM mergeStep
            ((slot.panes.lookup pane).map (TerminalViewFrame.read memory)) =
          .ok ((panes.lookup pane).map (TerminalViewFrame.read memory))) :
      Publishes memory slot batch
        { slot with
          pending := some { serverId := batch.serverId, sessionId := batch.sessionId, panes := panes }
          signaled := true }
        (.ok (if slot.signaled then none else some slot.generation))

theorem publish_spec (memory : Memory) (slot : TerminalVisualSlot)
    (batch : TerminalFrameBatch SmolStr) :
    ∃ next result, slot.publish memory batch = some (next, result) ∧
      Publishes memory slot batch next result := by
  by_cases foreign : (slot.pending.any fun pending =>
      pending.serverId ≠ batch.serverId || pending.sessionId ≠ batch.sessionId) = true
  · exact ⟨slot, .error (), by rw [publish, if_pos foreign], .rejects⟩
  · cases accepts : checkPanes slot.panes ∅ batch.panes with
    | error error =>
        exact ⟨slot, .error (), by simp only [publish, if_neg foreign, accepts], .rejects⟩
    | ok done =>
        rcases mergePanes_spec memory slot.panes batch.panes with ⟨outcome, merges, folds⟩
        cases outcome with
        | error error =>
            refine ⟨slot.advance, .error (), ?_, .invalidates ?_⟩
            · rw [publish, if_neg foreign]
              simp [accepts, merges]
            · intro distinct
              rcases @mergePanes_of_checkPanes memory _ _ _ _ distinct (fun _ _ => rfl)
                (fun _ _ => AList.lookup_empty _) accepts with ⟨next, other⟩
              cases merges.symm.trans other
        | ok panes =>
            refine ⟨_, _, by simp only [publish, if_neg foreign, accepts, merges]; rfl,
              .merges panes ?_ (folds panes rfl)⟩
            intro pending holds
            simpa [holds] using foreign

end TerminalVisualSlot

/-! ## What every run keeps -/

/-- What every run of a slot keeps. -/
structure SlotRun.Valid (run : SlotRun) : Prop where
  generation : run.slot.generation = UInt64.ofNat run.epoch
  signaled : run.slot.pending.isSome → run.slot.signaled = true
  wakeup : run.slot.signaled = true → run.slot.generation ∈ run.wakeups
  conserved : run.published = run.outcomes.flatMap SlotOutcome.batches ++ run.held
  current : ∀ entry ∈ run.held, entry.1 = run.epoch
  delivered : ∀ epoch batches, SlotOutcome.delivered epoch batches ∈ run.outcomes →
    ∀ entry ∈ batches, entry.1 = epoch
  nothing : run.slot.pending = none ↔ run.held = []
  identity : ∀ pending, run.slot.pending = some pending → ∀ entry ∈ run.held,
    entry.2.serverId = pending.serverId ∧ entry.2.sessionId = pending.sessionId
  folds : ∀ pane, (framesIn pane run.held).foldlM mergeStep none =
    .ok ((run.slot.panes.lookup pane).map (TerminalViewFrame.read run.memory))

namespace SlotRun

variable {run next : SlotRun}

theorem valid_start (memory : Memory) : (start memory).Valid where
  generation := rfl
  signaled := by
    intro pending
    cases pending
  wakeup := by
    intro signaled
    cases signaled
  conserved := rfl
  current := by
    intro entry member
    cases member
  delivered := by
    intro epoch batches member
    cases member
  nothing := ⟨fun _ => rfl, fun _ => rfl⟩
  identity := by
    intro pending holds
    cases holds
  folds := fun _ => rfl

/-- What left the slot joins the outcomes. -/
theorem Valid.left (valid : run.Valid) {outcome : SlotOutcome}
    (whole : outcome.batches = run.held) :
    run.published = (run.outcomes ++ [outcome]).flatMap SlotOutcome.batches ++ [] := by
  rw [List.flatMap_append, List.flatMap_singleton, whole, List.append_nil]
  exact valid.conserved

theorem Valid.discard (valid : run.Valid) : run.discard.Valid where
  generation := by
    show run.slot.generation + 1 = _
    rw [valid.generation]
    simp [SlotRun.discard]
  signaled := by
    intro pending
    cases pending
  wakeup := by
    intro signaled
    cases signaled
  conserved := valid.left rfl
  current := by
    intro entry member
    cases member
  delivered := by
    intro epoch batches member
    rcases List.mem_append.mp member with earlier | last
    · exact valid.delivered epoch batches earlier
    · cases List.mem_singleton.mp last
  nothing := ⟨fun _ => rfl, fun _ => rfl⟩
  identity := by
    intro pending holds
    cases holds
  folds := fun _ => rfl

theorem Valid.take (valid : run.Valid) {generation : UInt64}
    (performs : run.perform (.take generation) = some next) : next.Valid := by
  by_cases stale : run.slot.generation = generation
  · cases holds : run.slot.pending with
    | none =>
        have empty := valid.nothing.mp holds
        simp only [perform, TerminalVisualSlot.take, stale, holds, ne_eq, not_true, if_false,
          Option.map_none, Option.some.injEq] at performs
        subst performs
        exact {
          generation := stale ▸ valid.generation
          signaled := by
            intro pending
            cases pending
          wakeup := by
            intro signaled
            cases signaled
          conserved := valid.conserved
          current := valid.current
          delivered := valid.delivered
          nothing := ⟨fun _ => empty, fun _ => rfl⟩
          identity := by
            intro pending holds
            cases holds
          folds := by
            intro pane
            rw [empty]
            rfl }
    | some pending =>
        simp only [perform, TerminalVisualSlot.take, stale, holds, ne_eq, not_true, if_false,
          Option.map_some, Option.some.injEq] at performs
        subst performs
        exact {
          generation := stale ▸ valid.generation
          signaled := by
            intro pending
            cases pending
          wakeup := by
            intro signaled
            cases signaled
          conserved := valid.left rfl
          current := by
            intro entry member
            cases member
          delivered := by
            intro epoch batches member
            rcases List.mem_append.mp member with earlier | last
            · exact valid.delivered epoch batches earlier
            · cases List.mem_singleton.mp last
              exact valid.current
          nothing := ⟨fun _ => rfl, fun _ => rfl⟩
          identity := by
            intro pending holds
            cases holds
          folds := fun _ => rfl }
  · simp only [perform, TerminalVisualSlot.take, stale, ne_eq, not_false_iff, if_true,
      Option.some.injEq] at performs
    subst performs
    exact { valid with
      wakeup := fun signaled =>
        (List.mem_erase_of_ne stale).mpr (valid.wakeup signaled) }

theorem Valid.publish (valid : run.Valid) {memory : Memory} {batch : TerminalFrameBatch SmolStr}
    (keeps : run.Keeps memory) (performs : run.perform (.publish memory batch) = some next) :
    next.Valid := by
  rcases TerminalVisualSlot.publish_spec memory run.slot batch with ⟨slot, result, publishes, can⟩
  simp only [perform, publishes, Option.bind_eq_bind, Option.bind_some] at performs
  cases can with
  | rejects =>
      simp only [if_true, Option.pure_def, Option.some.injEq] at performs
      exact performs ▸ valid
  | invalidates twice =>
      have apart : run.slot.advance.generation ≠ run.slot.generation := by
        simp [TerminalVisualSlot.advance]
      rw [if_neg apart] at performs
      exact Option.some.inj performs ▸ valid.discard
  | merges panes identity folds =>
      simp only [Option.pure_def, Option.some.injEq] at performs
      subst performs
      exact {
        generation := valid.generation
        signaled := fun _ => rfl
        wakeup := by
          intro _
          by_cases told : run.slot.signaled = true
          · exact List.mem_append_left _ (valid.wakeup told)
          · simp [told]
        conserved := by
          rw [← List.append_assoc, ← valid.conserved]
        current := by
          intro entry member
          rcases List.mem_append.mp member with earlier | last
          · exact valid.current entry earlier
          · rw [List.mem_singleton.mp last]
        delivered := valid.delivered
        nothing := by
          constructor
          · intro none
            cases none
          · intro none
            exact absurd none (List.append_ne_nil_of_right_ne_nil _ (List.cons_ne_nil _ _))
        identity := by
          rintro pending ⟨⟩ entry member
          rcases List.mem_append.mp member with earlier | last
          · cases holds : run.slot.pending with
            | none =>
                rw [valid.nothing.mp holds] at earlier
                cases earlier
            | some pending =>
                rcases valid.identity pending holds entry earlier with ⟨server, session⟩
                rcases identity pending holds with ⟨sameServer, sameSession⟩
                exact ⟨server.trans sameServer, session.trans sameSession⟩
          · rw [List.mem_singleton.mp last]
            exact ⟨rfl, rfl⟩
        folds := by
          intro pane
          have kept : (run.slot.panes.lookup pane).map (TerminalViewFrame.read run.memory) =
              (run.slot.panes.lookup pane).map (TerminalViewFrame.read memory) := by
            cases found : run.slot.panes.lookup pane with
            | none => rfl
            | some frame => exact congrArg some (keeps pane frame found).symm
          rw [framesIn_append, List.foldlM_append, valid.folds pane, kept]
          refine Eq.trans ?_ (folds pane)
          exact congrArg (List.foldlM mergeStep _) framesOf_read }

theorem Valid.perform {label : Label} (valid : run.Valid) (enabled : run.Enabled label)
    (performs : run.perform label = some next) : next.Valid := by
  cases label with
  | publish memory batch => exact valid.publish enabled performs
  | take generation => exact valid.take performs
  | advance => exact Option.some.inj performs ▸ valid.discard

theorem Valid.of_reachable (reached : slotSystem.Reachable run) : run.Valid := by
  apply reached.invariant Valid
  · rintro _ ⟨memory, rfl⟩
    exact valid_start memory
  · intro state label next valid steps
    exact valid.perform steps.1 steps.2

end SlotRun

end Condr
