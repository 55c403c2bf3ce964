import Condr.Client.Terminals

/-!
# What taken frames do

The frames that a take returns lead a client to the terminals that it has after the published
batches, one by one, but for links that some limit had no room for.
-/

namespace Condr

open Budget

/-! ## A terminal without limits -/

/-- What a view, or none, is after a frame that keeps all of its links. -/
def plain : Option (TerminalView String) → TerminalViewFrame String → Option (TerminalView String)
  | none, .full whole => some whole
  | none, .delta _ => none
  | some view, frame => (view.applyFrame frame).toOption

def plainStep (view : Option (TerminalView String)) (frame : TerminalViewFrame String) :
    Option (Option (TerminalView String)) :=
  (plain view frame).map some

abbrev MissesLinks : Option (TerminalView String) → Option (TerminalView String) → Prop :=
  Option.Rel TerminalView.LosesLinks

/-- The distinct links that a terminal, if there is one, shows. -/
def shownLinks (view : Option (TerminalView String)) : Finset String :=
  view.elim ∅ fun view => linkTexts view.cells

variable {view other last : Option (TerminalView String)} {result : TerminalView String}
  {frame merged : TerminalViewFrame String} {frames : List (TerminalViewFrame String)}

theorem toOption_eq_some {outcome : Except TerminalFrameError (TerminalView String)} :
    outcome.toOption = some result ↔ outcome = .ok result := by
  cases outcome with
  | error error => simp [Except.toOption]
  | ok value => simp [Except.toOption]

theorem missesLinks_refl (view : Option (TerminalView String)) : MissesLinks view view := by
  cases view with
  | none => exact .none
  | some view => exact .some (.refl view)

theorem MissesLinks.trans (first : MissesLinks view other) (second : MissesLinks other last) :
    MissesLinks view last := by
  cases first with
  | none => exact second
  | some loses =>
      cases second with
      | some later => exact .some (loses.trans later)

/-- A frame applies to a view that misses links as to the one that has them. -/
theorem plain_of_misses (misses : MissesLinks view other) (applies : plain other frame = some result) :
    ∃ mine, plain view frame = some mine ∧ mine.LosesLinks result := by
  cases misses with
  | none => exact ⟨result, applies, .refl result⟩
  | some loses =>
      rcases loses.applyFrame (.refl frame) (toOption_eq_some.mp applies) with ⟨mine, same, less⟩
      exact ⟨mine, toOption_eq_some.mpr same, less⟩

theorem validateFrame_of_losesLinks {thin whole : TerminalView String}
    (loses : thin.LosesLinks whole) : thin.validateFrame frame = whole.validateFrame frame := by
  cases frame with
  | full next => rfl
  | delta update =>
      have same : thin.revision = whole.revision := by rw [loses.rest]
      exact validateDelta_congr same loses.cells.length_eq rfl rfl rfl

theorem validateFrame_of_applyFrame {thin : TerminalView String}
    (applies : thin.applyFrame frame = .ok result) : thin.validateFrame frame = .ok () := by
  cases checked : thin.validateFrame frame with
  | ok done => rfl
  | error error => simp [TerminalView.applyFrame, checked] at applies

theorem applyFrame_of_validateFrame {thin : TerminalView String}
    (valid : thin.validateFrame frame = .ok ()) : ∃ result, thin.applyFrame frame = .ok result := by
  cases frame with
  | full next => exact ⟨next, rfl⟩
  | delta update => exact ⟨_, applyFrame_delta_eq_ok.mpr ⟨valid, rfl⟩⟩

/-- What a holder receives, its view takes without limits. -/
theorem plain_of_receive (receives : receive view frame = some result) :
    ∃ whole, plain view frame = some whole ∧ result.LosesLinks whole := by
  cases view with
  | none =>
      cases frame with
      | delta update => cases receives
      | full next =>
          cases Option.some.inj receives
          exact ⟨next, rfl, settleView_losesLinks ∅ next⟩
  | some view =>
      have applied := toOption_eq_some.mp receives
      have valid := validateFrame_of_applyFrame applied
      rw [Holder.validateFrame_settle] at valid
      rcases applyFrame_of_validateFrame valid with ⟨whole, applies⟩
      rcases (TerminalView.LosesLinks.refl view).applyFrame (Holder.settle_losesLinks view frame)
        applies with ⟨thin, same, loses⟩
      cases Except.ok.inj (applied.symm.trans same)
      exact ⟨whole, toOption_eq_some.mpr applies, loses⟩

/-- What a view takes without limits, its holder receives. -/
theorem receive_of_plain (applies : plain view frame = some result) :
    ∃ mine, receive view frame = some mine ∧ mine.LosesLinks result := by
  cases view with
  | none =>
      cases frame with
      | delta update => cases applies
      | full next =>
          cases Option.some.inj applies
          exact ⟨_, rfl, settleView_losesLinks ∅ _⟩
  | some view =>
      rcases (TerminalView.LosesLinks.refl view).applyFrame (Holder.settle_losesLinks view frame)
        (toOption_eq_some.mp applies) with ⟨thin, same, loses⟩
      exact ⟨thin, toOption_eq_some.mpr same, loses⟩

/-- Frames that a holder receives one after the other, its view takes without limits. -/
theorem foldlM_plain_of_receive (misses : MissesLinks view other)
    (receives : frames.foldlM receiveStep view = some last) :
    ∃ whole, frames.foldlM plainStep other = some whole ∧ MissesLinks last whole := by
  induction frames generalizing view other with
  | nil =>
      cases Option.some.inj receives
      exact ⟨other, rfl, misses⟩
  | cons frame frames induction =>
      rw [List.foldlM_cons] at receives
      rcases Option.bind_eq_some_iff.mp receives with ⟨middle, step, later⟩
      rcases Option.map_eq_some_iff.mp step with ⟨result, received, rfl⟩
      rcases plain_of_receive received with ⟨whole, applies, loses⟩
      -- the other view is ahead by links only, so the frame applies to it too
      have ahead : ∃ next, plain other frame = some next ∧ whole.LosesLinks next := by
        cases misses with
        | none => exact ⟨whole, applies, .refl whole⟩
        | some less =>
            have valid := validateFrame_of_applyFrame (toOption_eq_some.mp applies)
            rw [validateFrame_of_losesLinks less] at valid
            rcases applyFrame_of_validateFrame valid with ⟨next, applied⟩
            rcases less.applyFrame (.refl frame) applied with ⟨mine, same, fewer⟩
            cases Except.ok.inj ((toOption_eq_some.mp applies).symm.trans same)
            exact ⟨next, toOption_eq_some.mpr applied, fewer⟩
      rcases ahead with ⟨next, applied, fewer⟩
      rcases @induction (some result) (some next) (.some (loses.trans fewer)) later
        with ⟨after, runs, less⟩
      refine ⟨after, ?_, less⟩
      rw [List.foldlM_cons, plainStep, applied]
      exact runs

/-! ## Merged frames -/

theorem mergedTexts_of_full {whole : TerminalView String}
    (merges : mergedTexts (.full whole) frame = .ok merged) : ∃ next, merged = .full next := by
  rcases mergedTexts_eq_ok merges with ⟨exact, composes, -, loses⟩
  have isFull : ∃ next, exact = .full next := by
    cases frame with
    | full next =>
        cases Except.ok.inj composes
        exact ⟨next, rfl⟩
    | delta update =>
        rw [composeTerminalFrames] at composes
        cases applies : whole.applyFrame (.delta update) with
        | error error =>
            rw [applies] at composes
            cases composes
        | ok next =>
            rw [applies] at composes
            cases Except.ok.inj composes
            exact ⟨next, rfl⟩
  rcases isFull with ⟨next, rfl⟩
  cases merged with
  | full thin => exact ⟨thin, rfl⟩
  | delta update => exact loses.elim

/-- One more frame merged does what it does after the others. -/
theorem plain_mergedTexts {later : TerminalViewFrame String} {first second : TerminalView String}
    (applies : plain view frame = some first) (laterApplies : first.applyFrame later = .ok second)
    (merges : mergedTexts frame later = .ok merged) :
    ∃ mine, plain view merged = some mine ∧ mine.LosesLinks second := by
  cases view with
  | none =>
      cases frame with
      | delta update => cases applies
      | full whole =>
          cases Option.some.inj applies
          rcases mergedTexts_of_full merges with ⟨next, rfl⟩
          rcases @mergedTexts_law first first second _ _ _ rfl laterApplies merges with ⟨mine, same, loses⟩
          cases Except.ok.inj same
          exact ⟨next, rfl, loses⟩
  | some view =>
      rcases mergedTexts_law (toOption_eq_some.mp applies) laterApplies merges
        with ⟨mine, same, loses⟩
      exact ⟨mine, toOption_eq_some.mpr same, loses⟩

/-- Frames merged behind one that is pending do what they do one after the other. -/
theorem plain_of_foldlM_merge {pending : TerminalViewFrame String} {mine : TerminalView String}
    (applies : plain view pending = some mine) (misses : MissesLinks (some mine) other)
    (runs : frames.foldlM plainStep other = some last)
    (merges : frames.foldlM mergeStep (some pending) = .ok (some merged)) :
    ∃ result, plain view merged = some result ∧ MissesLinks (some result) last := by
  induction frames generalizing pending mine other with
  | nil =>
      cases Option.some.inj runs
      cases Except.ok.inj merges
      exact ⟨mine, applies, misses⟩
  | cons frame frames induction =>
      rw [List.foldlM_cons] at runs merges
      rcases Option.bind_eq_some_iff.mp runs with ⟨middle, step, later⟩
      rcases Option.map_eq_some_iff.mp step with ⟨next, applied, rfl⟩
      cases merged : mergedTexts pending frame with
      | error error =>
          rw [mergeStep, merged] at merges
          cases merges
      | ok both =>
          rw [mergeStep, merged] at merges
          rcases plain_of_misses misses applied with ⟨after, takes, loses⟩
          rcases plain_mergedTexts applies (toOption_eq_some.mp takes) merged
            with ⟨result, bothApplies, fewer⟩
          exact induction bothApplies (.some (fewer.trans loses)) later merges

theorem plain_of_merged (runs : frames.foldlM plainStep view = some last)
    (merges : frames.foldlM mergeStep none = .ok (some merged)) :
    ∃ result, plain view merged = some result ∧ MissesLinks (some result) last := by
  cases frames with
  | nil => cases merges
  | cons frame frames =>
      rw [List.foldlM_cons] at runs merges
      rcases Option.bind_eq_some_iff.mp runs with ⟨middle, step, later⟩
      rcases Option.map_eq_some_iff.mp step with ⟨next, applied, rfl⟩
      exact plain_of_foldlM_merge applied (missesLinks_refl (some next)) later merges

/-! ## Links within the limits -/

theorem linkTexts_plain {room : Finset String} (shown : shownLinks view ⊆ room) (brings : frame.linkTexts ⊆ room)
    (applies : plain view frame = some result) : linkTexts result.cells ⊆ room := by
  cases view with
  | none =>
      cases frame with
      | delta update => cases applies
      | full whole =>
          cases Option.some.inj applies
          exact brings
  | some view =>
      exact (linkTexts_applyFrame (toOption_eq_some.mp applies)).trans
        (Finset.union_subset shown brings)

section

variable {room : Finset String} (within : Within hyperlinkLimits room)
include within

/-- Within the limits a holder receives what its view takes. -/
theorem receive_of_within (shown : shownLinks view ⊆ room) (brings : frame.linkTexts ⊆ room) :
    receive view frame = plain view frame := by
  cases view with
  | none =>
      cases frame with
      | delta update => rfl
      | full whole =>
          have same := @settleFrame_of_within (.full whole) (within.mono brings)
          exact congrArg some (TerminalViewFrame.full.inj same)
  | some view =>
      rw [receive, plain]
      cases applies : view.applyFrame frame with
      | error error =>
          cases refused : view.applyFrame (Holder.settle view frame) with
          | error other => rfl
          | ok result =>
              have valid := validateFrame_of_applyFrame refused
              rw [Holder.validateFrame_settle] at valid
              rcases applyFrame_of_validateFrame valid with ⟨result, other⟩
              cases applies.symm.trans other
      | ok result =>
          have inside := within.mono ((linkTexts_applyFrame applies).trans
            (Finset.union_subset shown brings))
          rw [Holder.settle_of_within applies inside, applies]

theorem foldlM_receive_of_within (shown : shownLinks view ⊆ room)
    (brings : ∀ frame ∈ frames, frame.linkTexts ⊆ room) :
    frames.foldlM receiveStep view = frames.foldlM plainStep view := by
  induction frames generalizing view with
  | nil => rfl
  | cons frame frames induction =>
      have here := brings frame List.mem_cons_self
      rw [List.foldlM_cons, List.foldlM_cons, receiveStep, plainStep,
        receive_of_within within shown here]
      cases applies : plain view frame with
      | none => rfl
      | some result =>
          apply @induction (some result) (linkTexts_plain shown here applies)
          intro other member
          exact brings other (List.mem_cons_of_mem _ member)

/-- Within the limits the merged frame does exactly what its frames do. -/
theorem foldlM_merge_of_within {pending : TerminalViewFrame String}
    (held : pending.linkTexts ⊆ room) (brings : ∀ frame ∈ frames, frame.linkTexts ⊆ room)
    (applies : plain view pending = some result)
    (runs : frames.foldlM plainStep (some result) = some last)
    (merges : frames.foldlM mergeStep (some pending) = .ok (some merged)) :
    merged.linkTexts ⊆ room ∧ plain view merged = last := by
  induction frames generalizing pending result with
  | nil =>
      cases Option.some.inj runs
      cases Except.ok.inj merges
      exact ⟨held, applies⟩
  | cons frame frames induction =>
      have here := brings frame List.mem_cons_self
      rw [List.foldlM_cons] at runs merges
      rcases Option.bind_eq_some_iff.mp runs with ⟨middle, step, later⟩
      rcases Option.map_eq_some_iff.mp step with ⟨next, applied, rfl⟩
      cases both : mergedTexts pending frame with
      | error error =>
          rw [mergeStep, both] at merges
          cases merges
      | ok exact =>
          rw [mergeStep, both] at merges
          have checked := check_of_mergedTexts both
          rw [mergedTexts_of_within (within.mono (Finset.union_subset held here))] at both
          have applied := toOption_eq_some.mp applied
          have together : plain view exact = some next := by
            cases view with
            | none =>
                cases pending with
                | delta update => cases applies
                | full whole =>
                    cases Option.some.inj applies
                    cases frame with
                    | full other =>
                        cases Except.ok.inj both
                        exact toOption_eq_some.mpr applied
                    | delta update =>
                        rw [composeTerminalFrames, applied] at both
                        cases Except.ok.inj both
                        rfl
            | some view =>
                rcases composeTerminalFrames_law (toOption_eq_some.mp applies) applied checked
                  with ⟨same, composes, law⟩
                cases Except.ok.inj (both.symm.trans composes)
                exact toOption_eq_some.mpr law
          apply induction ((linkTexts_composeTerminalFrames both).trans
            (Finset.union_subset held here)) _ together later merges
          intro other member
          exact brings other (List.mem_cons_of_mem _ member)

theorem plain_merged_of_within (brings : ∀ frame ∈ frames, frame.linkTexts ⊆ room)
    (runs : frames.foldlM plainStep view = some last)
    (merges : frames.foldlM mergeStep none = .ok (some merged)) :
    merged.linkTexts ⊆ room ∧ plain view merged = last := by
  cases frames with
  | nil => cases merges
  | cons frame frames =>
      rw [List.foldlM_cons] at runs merges
      rcases Option.bind_eq_some_iff.mp runs with ⟨middle, step, later⟩
      rcases Option.map_eq_some_iff.mp step with ⟨next, applied, rfl⟩
      exact foldlM_merge_of_within within (brings frame List.mem_cons_self)
        (fun other member => brings other (List.mem_cons_of_mem _ member)) applied later merges

end

/-! ## Batches taken together -/

/-- The distinct links that frames bring. -/
def broughtLinks : List (TerminalViewFrame String) → Finset String
  | [] => ∅
  | frame :: frames => frame.linkTexts ∪ broughtLinks frames

theorem linkTexts_subset_brought (member : frame ∈ frames) :
    frame.linkTexts ⊆ broughtLinks frames := by
  induction frames with
  | nil => cases member
  | cons head frames induction =>
      rcases List.mem_cons.mp member with rfl | later
      · exact Finset.subset_union_left
      · exact (induction later).trans Finset.subset_union_right

/-- What a take returns does to a client what the batches held do to it one by one. -/
def SlotRun.SameEffect (run : SlotRun) (batch : TerminalFrameBatch SmolStr) : Prop :=
  ∀ (memory : Memory) (client one : ClientTerminals) (batches : List (TerminalFrameBatch SmolStr))
    (panes : List (PaneTerminalFrame SmolStr)),
    run.Keeps memory → client.Accounts memory →
    batches.map (TerminalFrameBatch.read memory) = run.held.map Prod.snd →
    panes.Perm batch.panes → client.applyBatches memory batches = some (.ok one) →
    ∃ together ids, client.applyTerminalFrameBatch memory panes = some (.ok (together, ids)) ∧
      ∀ id, ∃ whole,
        (framesIn id run.held).foldlM plainStep (client.text memory id) = some whole ∧
        MissesLinks (one.text memory id) whole ∧ MissesLinks (together.text memory id) whole ∧
        (Within hyperlinkLimits
            (shownLinks (client.text memory id) ∪ broughtLinks (framesIn id run.held)) →
          together.text memory id = one.text memory id)

theorem framesOf_entries {entries : List (Sigma fun _ : PaneId => TerminalViewFrame SmolStr)}
    (distinct : entries.NodupKeys) (id : PaneId) :
    framesOf id (entries.map fun entry => ⟨entry.1, entry.2⟩) = (entries.dlookup id).toList := by
  induction entries with
  | nil => rfl
  | cons head entries induction =>
      rcases head with ⟨pane, frame⟩
      rcases List.nodupKeys_cons.mp distinct with ⟨absent, rest⟩
      rw [List.map_cons]
      by_cases same : pane = id
      · subst same
        rw [@framesOf_cons_same _ _ ⟨pane, frame⟩ _ rfl, induction rest,
          List.dlookup_eq_none.mpr absent, List.dlookup_cons_eq]
        rfl
      · rw [@framesOf_cons_other _ _ ⟨pane, frame⟩ _ same, induction rest,
          List.dlookup_cons_ne _ _ (Ne.symm same)]

/-- The frames of one pane do not depend on the order of the panes. -/
theorem framesOf_perm {panes given : List (PaneTerminalFrame SmolStr)} {id : PaneId}
    {held : Option (TerminalViewFrame SmolStr)} (order : given.Perm panes)
    (single : framesOf id panes = held.toList) : framesOf id given = held.toList := by
  have perm : (framesOf id given).Perm held.toList := by
    rw [← single]
    exact order.filterMap _
  cases held with
  | none => exact List.perm_nil.mp perm
  | some frame => exact List.perm_singleton.mp perm

theorem mem_framesOf {panes : List (PaneTerminalFrame SmolStr)}
    {pane : PaneTerminalFrame SmolStr} (member : pane ∈ panes) :
    pane.frame ∈ framesOf pane.paneId panes :=
  List.mem_filterMap.mpr ⟨pane, member, if_pos rfl⟩

theorem foldlM_merge_isSome {pending : Option (TerminalViewFrame String)}
    (merges : frames.foldlM mergeStep pending = .ok none) : frames = [] := by
  induction frames generalizing pending with
  | nil => rfl
  | cons frame frames induction =>
      rw [List.foldlM_cons] at merges
      have present : ∃ next, mergeStep pending frame = .ok (some next) := by
        cases step : mergeStep pending frame with
        | error error =>
            rw [step] at merges
            cases merges
        | ok next =>
            cases pending with
            | none =>
                cases Except.ok.inj step
                exact ⟨frame, rfl⟩
            | some previous =>
                rw [mergeStep] at step
                cases both : mergedTexts previous frame with
                | error error =>
                    rw [both] at step
                    cases step
                | ok merged =>
                    rw [both] at step
                    cases Except.ok.inj step
                    exact ⟨merged, rfl⟩
      rcases present with ⟨next, step⟩
      rw [step] at merges
      have none := induction merges
      subst none
      cases merges

theorem framesIn_of_batches {run : SlotRun} {memory : Memory} {id : PaneId}
    {batches : List (TerminalFrameBatch SmolStr)}
    (same : batches.map (TerminalFrameBatch.read memory) = run.held.map Prod.snd) :
    (batches.flatMap fun batch => framesOf id batch.panes).map (TerminalViewFrame.read memory) =
      framesIn id run.held := by
  have here : framesIn id run.held =
      (run.held.map Prod.snd).flatMap fun batch => framesOf id batch.panes := by
    rw [framesIn, List.flatMap_map]
  rw [here, ← same, List.map_flatMap, List.flatMap_map]
  congr 1
  funext batch
  exact framesOf_read.symm

theorem SlotRun.Valid.sameEffect {run : SlotRun} (valid : run.Valid)
    {pending : PendingTerminalVisual} (holds : run.slot.pending = some pending) :
    run.SameEffect {
      serverId := pending.serverId
      sessionId := pending.sessionId
      panes := pending.panes.entries.map fun entry => ⟨entry.1, entry.2⟩ } := by
  intro memory client one batches panes keeps accounts same order applies
  rcases accounts.of_applyBatches applies with ⟨-, folds⟩
  have pendingPanes : run.slot.panes = pending.panes := by
    rw [TerminalVisualSlot.panes, holds]
  -- each pane of the slot holds its frames merged
  have merges : ∀ id, (framesIn id run.held).foldlM mergeStep none =
      .ok ((pending.panes.lookup id).map (TerminalViewFrame.read memory)) := by
    intro id
    rw [valid.folds id, pendingPanes]
    cases found : pending.panes.lookup id with
    | none => rfl
    | some frame =>
        rw [Option.map_some, Option.map_some, keeps id frame (pendingPanes ▸ found)]
  have taken : ∀ id, framesOf id panes = (pending.panes.lookup id).toList := fun id =>
    framesOf_perm order (framesOf_entries pending.panes.nodupKeys id)
  have runs : ∀ id, ∃ whole,
      (framesIn id run.held).foldlM plainStep (client.text memory id) = some whole ∧
        MissesLinks (one.text memory id) whole := by
    intro id
    have received := folds id
    rw [framesIn_of_batches same] at received
    exact foldlM_plain_of_receive (missesLinks_refl _) received
  have distinct : (panes.map PaneTerminalFrame.paneId).Nodup := by
    apply (order.map PaneTerminalFrame.paneId).nodup_iff.mpr
    rw [List.map_map]
    exact pending.panes.keys_nodup
  have accepts : ∀ pane ∈ panes,
      (receive (client.text memory pane.paneId) (pane.frame.read memory)).isSome := by
    intro pane member
    have listed := mem_framesOf member
    rw [taken pane.paneId, Option.mem_toList] at listed
    rcases runs pane.paneId with ⟨whole, plainly, -⟩
    have merged := merges pane.paneId
    rw [listed] at merged
    rcases plain_of_merged plainly merged with ⟨result, applied, -⟩
    rcases receive_of_plain applied with ⟨mine, received, -⟩
    rw [received]
    rfl
  rcases accounts.applyTerminalFrameBatch distinct accepts with ⟨together, ids, done, -, texts⟩
  refine ⟨together, ids, done, ?_⟩
  intro id
  rcases runs id with ⟨whole, plainly, misses⟩
  have text := texts id
  have merged := merges id
  refine ⟨whole, plainly, misses, ?_⟩
  cases found : pending.panes.lookup id with
  | none =>
      rw [found] at merged
      have empty := foldlM_merge_isSome merged
      have kept : together.text memory id = client.text memory id := by
        rw [taken id, found] at text
        exact (Option.some.inj text).symm
      rw [empty] at plainly
      cases Option.some.inj plainly
      rw [kept]
      refine ⟨missesLinks_refl _, ?_⟩
      intro _
      have received := folds id
      rw [framesIn_of_batches same, empty] at received
      exact Option.some.inj received
  | some frame =>
      rw [found] at merged
      rw [taken id, found] at text
      have received : receive (client.text memory id) (frame.read memory) =
          together.text memory id := by
        rcases Option.bind_eq_some_iff.mp text with ⟨middle, step, ends⟩
        rcases Option.map_eq_some_iff.mp step with ⟨result, received, rfl⟩
        exact received.trans (Option.some.inj ends)
      rcases plain_of_merged plainly merged with ⟨result, applied, fewer⟩
      rcases receive_of_plain applied with ⟨mine, gets, loses⟩
      rw [← received, gets]
      refine ⟨MissesLinks.trans (.some loses) fewer, ?_⟩
      intro within
      have brings : ∀ other ∈ framesIn id run.held, other.linkTexts ⊆
          shownLinks (client.text memory id) ∪ broughtLinks (framesIn id run.held) := by
        intro other member
        exact (linkTexts_subset_brought member).trans Finset.subset_union_right
      rcases plain_merged_of_within within brings plainly merged with ⟨fits, exact⟩
      have whole := folds id
      rw [framesIn_of_batches same, foldlM_receive_of_within within Finset.subset_union_left
        brings, plainly] at whole
      rw [← Option.some.inj whole, ← exact, ← gets]
      exact receive_of_within within Finset.subset_union_left fits

end Condr
