import Condr.Server.TerminalStreamRenders

/-!
# A subscribed Client keeps up

The invariant over Bootstraps and what the writer and the Client do, and what follows in every
reachable state: no frame fails to apply, and where nothing is on its way the Client shows the
latest views.
-/

namespace Condr.TerminalStream

variable {state next : State} {subscriber after : ClientSubscriber} {pane : PaneId}

/-! ## Bootstraps -/

theorem Upheld.beginBootstrap (upheld : Upheld state) : Upheld state.beginBootstrap := by
  unfold State.beginBootstrap
  cases is_subscriber : state.subscriber with
  | none =>
      refine upheld.beside ⟨fun _ => rfl, rfl, rfl, rfl, rfl⟩ rfl upheld.fits ?_ upheld.halted
        (fun _ _ => rfl) upheld.counted ?_
      · intro _
        refine ⟨(upheld.idle is_subscriber).1, ?_⟩
        rintro ⟨views, captured⟩
        cases captured
      · intro subscriber is_some
        cases is_some
  | some subscriber =>
      dsimp only
      refine ⟨upheld.fits, upheld.alike, upheld.gap, upheld.requests, ?_, ?_, fun _ => rfl, ?_, ?_, ?_⟩
      · intro pane
        refine upheld.chain_of_prefix rfl ?_
        refine queue_prefix_of_slot ?_ ?_ ?_ pane
        all_goals rfl
      · intro nobody
        cases nobody
      · intro views captured
        cases captured
      · intro prepared count listed
        exact (upheld.counted prepared count listed).trans (Nat.le_succ _)
      · intro after is_after
        cases is_after
        refine ⟨List.nodup_nil, ?_, ?_, ?_, ?_, ?_, ?_, ?_, ?_⟩
        · intro pane base latest is_base
          cases is_base
        · intro _ pane base is_base
          cases is_base
        · intro _ pane base is_base
          cases is_base
        · intro unfenced
          cases unfenced
        · intro unfenced
          cases unfenced
        · exact ⟨fun _ => ⟨_, rfl⟩, fun _ => rfl⟩
        · intro views captured
          cases captured
          refine ⟨fun _ => rfl, ?_, ?_, ?_, ?_, ?_⟩
          · intro pane view listed
            split_ifs at listed with inside
            exact inside
          · intro pane view listed
            split_ifs at listed
            rcases Option.map_eq_some_iff.mp listed with ⟨latest, found, rfl⟩
            exact settleView_of_within (upheld.fits pane latest found).within
          · intro pane view latest listed found
            split_ifs at listed
            rcases Option.map_eq_some_iff.mp listed with ⟨given, is_given, rfl⟩
            cases is_given.symm.trans found
            exact follows_self (upheld.fits pane latest found)
          · intro pane latest inside found
            refine .inr ?_
            rw [if_pos inside]
            exact congrArg (Option.map LatestTerminalView.view) found
          · intro message contained
            cases contained
        · intro prepared listed
          exact upheld.uncounted listed

/-- Messages that come after all that is queued, where no render waits. -/
theorem queue_reliable {messages : List Message} (wire : next.wire = state.wire)
    (reliable : next.reliable = state.reliable ++ messages) (slot : next.slot = [])
    (pane : PaneId) :
    next.queue pane = (state.wire ++ state.reliable).filterMap (forPane pane) ++
      messages.filterMap (forPane pane) := by
  rw [queue_split, wire, reliable, State.slotMessages, slot, ← List.append_assoc,
    List.filterMap_append, List.map_nil, List.filterMap_nil, List.append_nil]

/-- What is in front of a render applies. -/
theorem Upheld.front (upheld : Upheld state) (pane : PaneId) :
    ∃ last, ((state.wire ++ state.reliable).filterMap (forPane pane)).foldlM hear
      (state.heard pane) = some last := by
  rcases upheld.chain pane with ⟨last, hears⟩
  refine TerminalStream.chain_of_prefix ⟨state.slotMessages.filterMap (forPane pane), ?_⟩ hears
  exact (queue_split state pane).symm

theorem Upheld.chain_bootstrap (upheld : Upheld state) (views : PaneId → Option View)
    (wire : next.wire = state.wire) (reliable : next.reliable = state.reliable ++ [.bootstrap views])
    (slot : next.slot = []) (heard : next.heard = state.heard) (pane : PaneId) :
    ∃ last, next.carries pane = some last := by
  rcases upheld.front pane with ⟨middle, hears⟩
  refine ⟨(views pane).map (settleView ∅), ?_⟩
  rw [State.carries, queue_reliable wire reliable slot, heard, List.foldlM_append, hears]
  rfl

theorem foldlM_hear_layouts {messages : List Message} {held : Option View}
    (layouts : ∀ message ∈ messages, ∃ closed, message = .layout closed) :
    ∃ last, (messages.filterMap (forPane pane)).foldlM hear held = some last := by
  induction messages generalizing held with
  | nil => exact ⟨held, rfl⟩
  | cons message messages induction =>
      rcases layouts message List.mem_cons_self with ⟨closed, rfl⟩
      have later : ∀ message ∈ messages, ∃ closed, message = .layout closed := by
        intro message contained
        exact layouts message (List.mem_cons_of_mem _ contained)
      by_cases gone : pane ∈ closed
      · rw [List.filterMap_cons, forPane, if_pos gone]
        exact induction later
      · rw [List.filterMap_cons, forPane, if_neg gone]
        exact induction later

theorem Fenced.framed {views : PaneId → Option View} (fenced : Fenced state subscriber views) :
    State.framed views = views := by
  funext pane
  rw [State.framed]
  cases listed : views pane with
  | none => rfl
  | some view => simp [fenced.fits pane view listed]

/-- The end of a fence: the Bootstrap, and the layouts that were kept back. -/
theorem Upheld.resumed {views : PaneId → Option View} (upheld : Upheld state)
    (reconciled : ClientSubscriber) (is_subscriber : state.subscriber = some subscriber)
    (captured : state.capture = some (views, true))
    (nodup : reconciled.pendingTerminals.Nodup)
    (based : ∀ pane base, reconciled.terminalBaselines pane = some base → views pane = some base)
    (outside : ∀ pane, watches state.watchedTerminals pane = false →
      reconciled.terminalBaselines pane = none ∧ pane ∉ reconciled.pendingTerminals)
    (fresh : ∀ pane, watches state.watchedTerminals pane = true →
      pane ∉ reconciled.pendingTerminals →
        pane ∉ subscriber.pendingTerminals ∧ reconciled.terminalBaselines pane = views pane)
    (subscribed : next.subscriber = some { reconciled with
      bootstrapPending := false
      renderGeneration := reconciled.renderGeneration + 1
      deferred := [] })
    (same : next = { state with
      subscriber := next.subscriber
      reliable := state.reliable ++ [.bootstrap (State.framed views)] ++ subscriber.deferred
      slot := []
      lagged := false
      capture := none
      changes := state.changes + 1 }) : Upheld next := by
  have fenced := (upheld.serves subscriber is_subscriber).fenced views captured
  have queue : ∀ pane, next.queue pane =
      (state.wire ++ state.reliable).filterMap (forPane pane) ++
        .reset (views pane) :: subscriber.deferred.filterMap (forPane pane) := by
    intro pane
    have reliable : next.reliable =
        state.reliable ++ .bootstrap views :: subscriber.deferred := by
      rw [same, fenced.framed, List.append_assoc]
      rfl
    exact queue_reliable (by rw [same]) reliable (by rw [same]) pane
  have settled : ∀ pane, (views pane).map (settleView ∅) = views pane := congrFun fenced.framed
  have quiet : ∀ pane, (state.terminalViews pane).isSome = true →
      subscriber.deferred.filterMap (forPane pane) = [] := by
    intro pane there
    apply List.filterMap_eq_nil_iff.mpr
    intro message contained
    rcases fenced.deferred message contained with ⟨closed, rfl, gone⟩
    rw [forPane, if_neg]
    intro listed
    rw [gone pane listed] at there
    cases there
  have heard : next.heard = state.heard := by rw [same]
  have client : next.client = state.client := by rw [same]
  have kept : next.terminalViews = state.terminalViews := by rw [same]
  have watched : next.watchedTerminals = state.watchedTerminals := by rw [same]
  have free : ∀ views fenced, next.capture ≠ some (views, fenced) := by
    intro views fenced is_captured
    rw [same] at is_captured
    cases is_captured
  have takes : ∀ pane, (state.terminalViews pane).isSome = true →
      next.carries pane = some (views pane) := by
    intro pane there
    rcases upheld.front pane with ⟨middle, hears⟩
    rw [State.carries, queue, heard, List.foldlM_append, hears, quiet pane there]
    exact congrArg some (settled pane)
  refine ⟨?_, ?_, ?_, ?_, ?_, ?_, ?_, ?_, ?_, ?_⟩
  · rw [kept]
    exact upheld.fits
  · rw [client, heard]
    exact upheld.alike
  · rw [client]
    exact upheld.gap
  · rw [same]
    exact upheld.requests
  · intro pane
    rcases upheld.front pane with ⟨middle, hears⟩
    rw [State.carries, queue, heard, List.foldlM_append, hears]
    apply foldlM_hear_layouts
    intro message contained
    rcases fenced.deferred message contained with ⟨closed, is_layout, -⟩
    exact ⟨closed, is_layout⟩
  · intro nobody
    cases subscribed.symm.trans nobody
  · intro _
    rw [same]
  · intro captured is_captured
    exact absurd is_captured (free captured false)
  · intro prepared count listed
    rw [same] at listed ⊢
    exact (upheld.counted prepared count listed).trans (Nat.le_succ _)
  · intro after is_after
    cases subscribed.symm.trans is_after
    refine ⟨nodup, ?_, ?_, ?_, ?_, ?_, ?_, ?_, ?_⟩
    · intro pane base latest is_base found
      rw [kept] at found
      exact fenced.follows pane base latest (based pane base is_base) found
    · intro _ pane base is_base there
      rw [kept] at there
      rw [takes pane there, based pane base is_base]
    · intro _ pane base is_base there steady
      rw [kept] at there
      rcases upheld.front pane with ⟨middle, hears⟩
      rcases (upheld.alike pane).foldlM_takes hears with ⟨mine, taking, -⟩
      have watching : watches state.client.watched pane = true := client ▸ steady.1
      rw [watching] at taking
      rw [State.clientCarries, queue, client, watching, List.foldlM_append, taking,
        quiet pane there, ← based pane base is_base]
      exact congrArg some (settled pane)
    · intro _ pane apart
      rw [watched] at apart
      exact outside pane apart
    · intro _ pane latest inside found absent
      rw [watched] at inside
      rw [kept] at found
      rcases fresh pane inside absent with ⟨unsent, same⟩
      rcases fenced.captured pane latest inside found with pending | listed
      · exact absurd pending unsent
      · exact ⟨latest.view, same.trans listed, rfl⟩
    · constructor
      · intro pending
        cases pending
      · rintro ⟨captured, is_captured⟩
        exact absurd is_captured (free captured true)
    · intro captured is_captured
      exact absurd is_captured (free captured true)
    · intro prepared listed
      rw [same] at listed
      exact upheld.uncounted listed

theorem Upheld.finishBootstrap (upheld : Upheld state) : Upheld state.finishBootstrap := by
  unfold State.finishBootstrap
  cases captured : state.capture with
  | none => exact upheld
  | some capture =>
      rcases capture with ⟨views, fence⟩
      cases fence with
      | false =>
          have nobody := upheld.alone views captured
          have empty := (upheld.idle nobody).1
          dsimp only
          refine ⟨upheld.fits, upheld.alike, upheld.gap, upheld.requests, ?_, ?_, ?_, ?_,
            upheld.counted, ?_⟩
          · intro pane
            refine upheld.chain_bootstrap (State.framed views) ?_ ?_ ?_ ?_ pane
            · rfl
            · rfl
            · rw [empty, ite_self]
            · rfl
          · intro _
            refine ⟨?_, ?_⟩
            · rw [empty, ite_self]
            · rintro ⟨captured, is_captured⟩
              cases is_captured
          · intro keeps
            cases keeps
          · intro captured is_captured
            cases is_captured
          · intro subscriber is_some
            cases nobody.symm.trans is_some
      | true =>
          cases is_subscriber : state.subscriber with
          | none => exact absurd ⟨views, captured⟩ (upheld.idle is_subscriber).2
          | some subscriber =>
              have serves := upheld.serves subscriber is_subscriber
              have fenced := serves.fenced views captured
              cases is_watched : state.watchedTerminals with
              | none =>
                  dsimp only
                  refine upheld.resumed { subscriber with terminalBaselines := State.framed views }
                    is_subscriber captured serves.nodup ?_ ?_ ?_ rfl (by rw [is_watched])
                  · intro pane base is_base
                    exact (congrFun fenced.framed pane).symm.trans is_base
                  · intro pane outside
                    rw [is_watched] at outside
                    cases outside
                  · intro pane _ absent
                    exact ⟨absent, congrFun fenced.framed pane⟩
              | some watched =>
                  dsimp only
                  let based := { subscriber with terminalBaselines := State.framed views }
                  refine upheld.resumed (based.reconcile watched state.terminalViews) is_subscriber
                    captured (nodup_reconcile serves.nodup) ?_ ?_ ?_ rfl (by rw [is_watched])
                  · intro pane base is_base
                    exact (congrFun fenced.framed pane).symm.trans (baseline_reconcile.mp is_base).2
                  · intro pane outside
                    rw [is_watched] at outside
                    have absent : pane ∉ watched := of_decide_eq_false outside
                    refine ⟨if_neg absent, ?_⟩
                    intro contained
                    exact absent (pending_reconcile.mp contained).1
                  · intro pane inside absent
                    rw [is_watched] at inside
                    have contained : pane ∈ watched := of_decide_eq_true inside
                    constructor
                    · intro pending
                      exact absent (pending_reconcile.mpr ⟨contained, .inl pending⟩)
                    · exact (if_pos contained).trans (congrFun fenced.framed pane)

/-! ## The writer and the Client -/

theorem Upheld.lag {removes : Bool} (upheld : Upheld state)
    (enabled : state.Enabled (.lag removes)) : Upheld (state.lag removes) := by
  refine ⟨upheld.fits, upheld.alike, upheld.gap, upheld.requests, ?_, ?_, fun _ => rfl, ?_,
    upheld.counted, ?_⟩
  · intro pane
    refine upheld.chain_of_prefix rfl ?_
    refine ⟨(state.reliable ++ state.slotMessages).filterMap (forPane pane), ?_⟩
    simp only [State.queue, State.lag, State.slotMessages, List.map_nil, List.append_nil,
      List.append_assoc, List.filterMap_append]
  · intro nobody
    refine ⟨rfl, ?_⟩
    cases removes with
    | true => exact enabled rfl
    | false => exact (upheld.idle nobody).2
  · intro views captured
    cases removes with
    | true => rfl
    | false => exact upheld.alone views captured
  · intro subscriber is_subscriber
    cases removes with
    | true => cases is_subscriber
    | false =>
        refine (upheld.serves subscriber is_subscriber).congr rfl rfl rfl (fun _ listed => listed)
          ?_ ?_ ?_
        all_goals
          intro keeps
          cases keeps

/-- A message goes on, and stays where it was among the others. -/
theorem Upheld.moved {wire reliable : List Message} {slot : List (PaneId × Frame)}
    (upheld : Upheld state)
    (queue : ∀ pane, { state with wire, reliable, slot }.queue pane = state.queue pane)
    (empty : state.slot = [] → slot = []) : Upheld { state with wire, reliable, slot } := by
  refine upheld.beside ⟨queue, rfl, rfl, rfl, rfl⟩ rfl upheld.fits ?_ ?_ upheld.alone
    upheld.counted ?_
  · intro nobody
    exact ⟨empty (upheld.idle nobody).1, (upheld.idle nobody).2⟩
  · intro keeps
    exact empty (upheld.halted keeps)
  · intro subscriber is_subscriber
    exact (upheld.serves subscriber is_subscriber).beside ⟨queue, rfl, rfl, rfl, rfl⟩ rfl rfl rfl
      (fun _ listed => listed)

theorem Upheld.write (upheld : Upheld state) : Upheld state.write := by
  unfold State.write
  split
  next message reliable queued =>
    refine upheld.moved ?_ id
    intro pane
    simp [State.queue, State.slotMessages, queued]
  next other frame slot queued waiting =>
    refine upheld.moved ?_ ?_
    · intro pane
      simp [State.queue, State.slotMessages, queued, waiting]
    · intro empty
      cases empty.symm.trans waiting
  next => exact upheld

theorem queue_of_wire {message : Message} {wire : List Message}
    (is_wire : state.wire = message :: wire) (pane : PaneId) :
    state.queue pane = (forPane pane message).toList ++ { state with wire }.queue pane := by
  simp only [State.queue, is_wire, List.cons_append, List.filterMap_cons]
  cases forPane pane message with
  | none => rfl
  | some part => rfl

theorem apply_eq {message : Message} {wire : List Message}
    (is_wire : state.wire = message :: wire) :
    state.apply = { state with
      wire
      client := state.client.apply message
      heard := state.apply.heard } ∧
    (∀ pane, forPane pane message = none → state.apply.heard pane = state.heard pane) ∧
      ∀ pane part last, forPane pane message = some part →
        hear (state.heard pane) part = some last → state.apply.heard pane = last := by
  simp only [State.apply, is_wire]
  refine ⟨trivial, ?_, ?_⟩
  · intro pane nothing
    rw [nothing]
  · intro pane part last is_part hears
    rw [is_part]
    exact congrArg (fun heard => Option.getD heard none) hears

/-- What the Client and one that takes everything have after the message. -/
theorem Upheld.applied {message : Message} {wire : List Message} (upheld : Upheld state)
    (is_wire : state.wire = message :: wire) :
    (state.client.apply message).gap = false ∧
      (state.client.apply message).watched = state.client.watched ∧
        ∀ pane, Alike state.client.watched.isSome (watches state.client.watched pane)
            ((state.client.apply message).terminals pane) (state.apply.heard pane) ∧
          state.apply.carries pane = state.carries pane ∧
            state.apply.clientCarries pane = state.clientCarries pane := by
  rcases apply_eq is_wire with ⟨same, quiet, spoken⟩
  have hears : ∀ pane part, forPane pane message = some part →
      ∃ next, hear (state.heard pane) part = some next := by
    intro pane part is_part
    rcases upheld.chain pane with ⟨last, whole⟩
    rw [State.carries, queue_of_wire is_wire, is_part, Option.toList_some,
      List.singleton_append, List.foldlM_cons] at whole
    rcases Option.bind_eq_some_iff.mp whole with ⟨next, first, -⟩
    exact ⟨next, first⟩
  have takes : ∀ pane part, forPane pane message = some part →
      ∃ mine, TerminalStream.takes state.client.watched.isSome (watches state.client.watched pane)
        (state.client.terminals pane) part = some mine := by
    intro pane part is_part
    rcases hears pane part is_part with ⟨next, heard⟩
    rcases (upheld.alike pane).takes heard with ⟨mine, taken, -⟩
    exact ⟨mine, taken⟩
  rcases state.client.apply_spec message takes with ⟨gap, watched, terminals⟩
  refine ⟨gap.trans upheld.gap, watched, ?_⟩
  intro pane
  have alike := upheld.alike pane
  have rest : state.apply.queue pane = { state with wire }.queue pane := by
    rw [same]
    rfl
  have client : state.apply.client = state.client.apply message := by rw [same]
  have shown := terminals pane
  rw [State.carries, State.carries, State.clientCarries, State.clientCarries,
    queue_of_wire is_wire, rest, client, watched]
  cases is_part : forPane pane message with
  | none =>
      rw [is_part] at shown
      rw [shown, quiet pane is_part]
      exact ⟨alike, rfl, rfl⟩
  | some part =>
      rcases hears pane part is_part with ⟨last, heard⟩
      rcases alike.takes heard with ⟨mine, taken, together⟩
      rw [is_part] at shown
      simp only [taken, Option.getD_some] at shown
      rw [shown, spoken pane part last is_part heard, Option.toList_some, List.singleton_append,
        List.foldlM_cons, List.foldlM_cons, heard, taken]
      exact ⟨together, rfl, rfl⟩

theorem Upheld.apply (upheld : Upheld state) : Upheld state.apply := by
  cases is_wire : state.wire with
  | nil =>
      have same : state.apply = state := by simp only [State.apply, is_wire]
      rw [same]
      exact upheld
  | cons message wire =>
      rcases upheld.applied is_wire with ⟨gap, watched, panes⟩
      have same := (apply_eq is_wire).1
      have client : state.apply.client = state.client.apply message := by rw [same]
      refine ⟨?_, ?_, ?_, ?_, ?_, ?_, ?_, ?_, ?_, ?_⟩
      · rw [same]
        exact upheld.fits
      · intro pane
        rw [client, watched]
        exact (panes pane).1
      · rw [client]
        exact gap
      · rw [client, watched, same]
        exact upheld.requests
      · intro pane
        rw [(panes pane).2.1]
        exact upheld.chain pane
      · rw [same]
        exact upheld.idle
      · rw [same]
        exact upheld.halted
      · rw [same]
        exact upheld.alone
      · rw [same]
        exact upheld.counted
      · intro subscriber is_subscriber
        have before : state.subscriber = some subscriber := by
          rw [same] at is_subscriber
          exact is_subscriber
        have serves := upheld.serves subscriber before
        refine serves.congr (by rw [same]) (by rw [same]) (by rw [same]) ?_ ?_ ?_ ?_
        · rw [same]
          exact fun _ listed => listed
        · rw [same]
          exact id
        · intro _ pane
          exact (panes pane).2.1
        · intro keeps pane base is_base there steady
          rw [(panes pane).2.2]
          have still : state.lagged = false := by
            rw [same] at keeps
            exact keeps
          apply serves.shown still pane base is_base there
          rcases steady with ⟨watching, server, requests⟩
          rw [client, watched] at watching
          rw [same] at server requests
          exact ⟨watching, server, requests⟩

/-! ## Runs -/

theorem upheld_of_starts (starts : Starts state) : Upheld state := by
  have queue : ∀ pane, state.queue pane = [] := by
    intro pane
    rw [State.queue, State.slotMessages, starts.wire, starts.reliable, starts.slot]
    rfl
  refine ⟨starts.fits, ?_, starts.gap, ?_, ?_, ?_, fun _ => starts.slot, ?_, ?_, ?_⟩
  · intro pane
    rw [starts.watched, starts.heard]
    refine ⟨fun _ => rfl, .inl rfl, ?_⟩
    intro unwatched
    cases unwatched
  · rw [starts.watched, starts.requests, starts.watchedTerminals]
    rfl
  · intro pane
    refine ⟨state.heard pane, ?_⟩
    rw [State.carries, queue]
    rfl
  · intro _
    refine ⟨starts.slot, ?_⟩
    rintro ⟨views, captured⟩
    cases starts.capture.symm.trans captured
  · intro _ _
    exact starts.subscriber
  · intro prepared count listed
    rw [starts.renders] at listed
    cases listed
  · intro subscriber is_subscriber
    cases starts.subscriber.symm.trans is_subscriber

theorem Upheld.perform {label : Label} (upheld : Upheld state) (enabled : state.Enabled label)
    (heeds : Heeds state label) : Upheld (state.perform label) := by
  cases label with
  | publish pane frame => exact upheld.publish enabled heeds
  | install pane view => exact upheld.install heeds
  | close closed => exact upheld.close heeds
  | subscribe panes => exact upheld.subscribe enabled
  | unsubscribe => exact upheld.unsubscribe enabled
  | watch panes => exact upheld.watch
  | takeWatch => exact upheld.takeWatch enabled
  | beginBootstrap => exact upheld.beginBootstrap
  | finishBootstrap => exact upheld.finishBootstrap
  | prepare => exact upheld.prepareRender
  | commit index => exact upheld.commit heeds
  | drop index =>
      apply upheld.fewer
      intro entry contained
      exact List.mem_of_mem_eraseIdx contained
  | lag removes => exact upheld.lag enabled
  | write => exact upheld.write
  | apply => exact upheld.apply

theorem upheld_of_reachable (reached : heedingSystem.Reachable state) : Upheld state := by
  refine reached.invariant Upheld ?_ ?_
  · intro state starts
    exact upheld_of_starts starts
  · intro state label next upheld steps
    rcases steps with ⟨⟨enabled, rfl⟩, heeds⟩
    exact upheld.perform enabled heeds

/-! ## Runs of two terminals -/

def cellOf (text : String) : TerminalCell String :=
  ⟨text, .indexed 7, .indexed 0, .indexed 7, 0, none⟩

/-- A row of four cells. -/
def typed (revision : ℕ) (text : List String) : View where
  revision
  size := ⟨1, 4, 8, 16⟩
  displayOffset := 0
  mouseTracking := .none
  cells := text.map cellOf
  cursor := none
  selection := none

/-- A Server without terminals. -/
def fresh : State where
  terminalViews := fun _ => none
  watchedTerminals := none
  subscriber := none
  reliable := []
  slot := []
  lagged := false
  wire := []
  client := { watched := none, terminals := fun _ => none, gap := false }
  requests := []
  capture := none
  renders := []
  changes := 0
  heard := fun _ => none

theorem starts_fresh : Starts fresh where
  fits := by
    intro pane latest found
    cases found
  watchedTerminals := rfl
  subscriber := rfl
  reliable := rfl
  slot := rfl
  wire := rfl
  requests := rfl
  capture := rfl
  renders := rfl
  watched := rfl
  gap := rfl
  heard := rfl

theorem reached_subscribed : heedingSystem.Reachable (fresh.subscribe []) :=
  .next (.start starts_fresh)
    ⟨⟨show fresh.Enabled (.subscribe []) from ⟨rfl, List.nodup_nil, by simp [fresh]⟩, rfl⟩, trivial⟩

/-- Whether a step of some kind may be taken. -/
def allowed (state : State) : Label → Bool
  | .publish pane (.delta update) => (state.terminalViews pane).isSome &&
      (publishTerminal (state.terminalViews pane) (.delta update)).isSome
  | .install pane _ => watches state.watchedTerminals pane && state.capture.isNone
  | .close closed => state.slot.all fun sent => sent.1 ∉ closed
  | .takeWatch | .beginBootstrap => state.capture.isNone
  | .commit index => (state.renders[index]?).all fun render => render.2 = state.changes &&
      render.1.frames.all fun sent => (state.terminalViews sent.1).isSome
  | .watch _ | .finishBootstrap | .prepare | .lag false | .write | .apply => true
  | _ => false

def attempt (state : State) (label : Label) : Option State :=
  if allowed state label then some (state.perform label) else none

theorem step_of_attempt (state : State) (label : Label) (next : State)
    (performed : attempt state label = some next) : heedingSystem.step state label next := by
  rcases Option.ite_none_right_eq_some.mp performed with ⟨allows, same⟩
  cases same
  unfold allowed at allows
  split at allows
  next pane update => exact ⟨⟨by simpa [State.Enabled] using allows, rfl⟩, trivial⟩
  next pane view =>
    rw [Bool.and_eq_true, Option.isNone_iff_eq_none] at allows
    refine ⟨⟨trivial, rfl⟩, allows.1, ?_⟩
    rintro ⟨views, captured⟩
    cases allows.2.symm.trans captured
  next closed => exact ⟨⟨trivial, rfl⟩, by simpa [Heeds] using allows⟩
  next => exact ⟨⟨Option.isNone_iff_eq_none.mp allows, rfl⟩, trivial⟩
  next => exact ⟨⟨Option.isNone_iff_eq_none.mp allows, rfl⟩, trivial⟩
  next index =>
    refine ⟨⟨trivial, rfl⟩, ?_⟩
    intro prepared count subscriber is_render _ _
    rw [is_render] at allows
    simpa [PreparedTerminalRender.Open] using allows
  all_goals first
    | exact ⟨⟨trivial, rfl⟩, trivial⟩
    | exact ⟨⟨fun removes => Bool.noConfusion removes, rfl⟩, trivial⟩
    | cases allows

def delta (base : ℕ) (start : UInt32) (text : List String) : Frame :=
  .delta {
    baseRevision := base
    revision := base + 1
    displayOffset := 0
    mouseTracking := .none
    cursor := none
    selection := none
    runs := [⟨start, text.map cellOf⟩] }

/-- Two terminals start and are shown, and the Client limits its frames to one. -/
def limited : List Label :=
  [.install ⟨1⟩ (typed 1 ["a", "b", " ", " "]), .install ⟨2⟩ (typed 1 ["x", " ", " ", " "]),
    .prepare, .commit 0, .write, .write, .apply, .apply, .watch [⟨1⟩], .takeWatch]

/-- A queue that overflows with a delta, a Bootstrap with another meanwhile, and a Pane that closes
while the frame of the other is made. -/
def resumed : List Label :=
  [.publish ⟨1⟩ (delta 1 2 ["c"]), .publish ⟨2⟩ (delta 1 1 ["y"]), .prepare, .commit 0, .lag false,
    .beginBootstrap, .publish ⟨1⟩ (delta 2 3 ["d"]), .finishBootstrap, .write, .apply,
    .prepare, .close [⟨2⟩], .commit 0, .write, .write, .apply, .apply]

/-! ## What the Client sees -/

/-- No frame fails to apply. Of a Pane that both sides watch, the Server's baseline is what the
Client holds after all that is on its way; where nothing is, and the Pane is not pending, the
Client shows the latest view. -/
theorem client_keeps_up (reached : heedingSystem.Reachable state) :
    state.client.gap = false ∧
      ∀ subscriber, state.subscriber = some subscriber → subscriber.bootstrapPending = false →
        state.lagged = false → ∀ pane latest, state.terminalViews pane = some latest →
          state.Steady pane →
            (∀ base, subscriber.terminalBaselines pane = some base →
              state.clientCarries pane = some (some base)) ∧
            (pane ∉ subscriber.pendingTerminals → state.wire = [] → state.reliable = [] →
              state.slot = [] → ∃ view, state.client.terminals pane = some view ∧
                view.content = latest.view.content) := by
  have upheld := upheld_of_reachable reached
  refine ⟨upheld.gap, ?_⟩
  intro subscriber is_subscriber unfenced keeps pane latest found steady
  have serves := upheld.serves subscriber is_subscriber
  have there : (state.terminalViews pane).isSome = true :=
    Option.isSome_iff_exists.mpr ⟨latest, found⟩
  have carried : ∀ base, subscriber.terminalBaselines pane = some base →
      state.clientCarries pane = some (some base) := by
    intro base is_base
    exact serves.shown keeps pane base is_base there steady
  refine ⟨carried, ?_⟩
  intro sent wire reliable slot
  rcases serves.fresh unfenced pane latest steady.2.1 found sent with ⟨base, is_base, same⟩
  have held := carried base is_base
  rw [State.clientCarries, State.queue, State.slotMessages, wire, reliable, slot] at held
  exact ⟨base, Option.some.inj held, same⟩

theorem client_keeps_up_example : ∃ state view,
    Transition.System.runLabels attempt (fresh.subscribe []) (limited ++ resumed) = some state ∧
      state.client.gap = false ∧ state.client.watched = some [⟨1⟩] ∧
        state.client.terminals ⟨1⟩ = some view ∧ view.cells = ["a", "b", "c", "d"].map cellOf := by
  have runs : ∃ state,
      Transition.System.runLabels attempt (fresh.subscribe []) (limited ++ resumed) = some state ∧
      (∃ subscriber, state.subscriber = some subscriber ∧ subscriber.bootstrapPending = false ∧
        subscriber.pendingTerminals = []) ∧
      (∃ latest, state.terminalViews ⟨1⟩ = some latest ∧
        latest.view.cells = ["a", "b", "c", "d"].map cellOf) ∧
      state.lagged = false ∧ state.client.watched = some [⟨1⟩] ∧
        state.watchedTerminals = some [⟨1⟩] ∧ state.requests = [] ∧ state.wire = [] ∧
          state.reliable = [] ∧ state.slot = [] :=
    ⟨_, rfl, ⟨_, rfl, rfl, rfl⟩, ⟨_, rfl, rfl⟩, rfl, rfl, rfl, rfl, rfl, rfl, rfl⟩
  rcases runs with ⟨state, runs, ⟨subscriber, subscribed, unfenced, sent⟩, ⟨latest, found, shown⟩,
    keeps, client, server, requests, wire, reliable, slot⟩
  have reached : heedingSystem.Reachable state :=
    .of_runLabels step_of_attempt reached_subscribed runs
  rcases client_keeps_up reached with ⟨gap, panes⟩
  have steady : state.Steady ⟨1⟩ := by
    rw [State.Steady, client, server, requests]
    exact ⟨rfl, rfl, fun _ contained => by cases contained⟩
  rcases (panes subscriber subscribed unfenced keeps ⟨1⟩ latest found steady).2
    (by simp [sent]) wire reliable slot with ⟨view, there, same⟩
  refine ⟨state, view, runs, gap, client, there, ?_⟩
  exact (congrArg TerminalView.cells same).trans shown

/-- What a commit adds to the slot leads the baseline of its Pane to the latest view, and is the
whole view where there is no baseline. A Pane that the Server does not watch has no baseline, is
not pending, and is sent nothing. -/
theorem sends_watched (reached : heedingSystem.Reachable state) :
    (∀ subscriber, state.subscriber = some subscriber → subscriber.bootstrapPending = false →
      ∀ pane, watches state.watchedTerminals pane = false →
        subscriber.terminalBaselines pane = none ∧ pane ∉ subscriber.pendingTerminals) ∧
    ∀ index next, heedingSystem.step state (.commit index) next → ∀ pane frame,
      (pane, frame) ∈ next.slot → (pane, frame) ∈ state.slot ∨
        ∃ subscriber latest, state.subscriber = some subscriber ∧
          state.terminalViews pane = some latest ∧
            watches state.watchedTerminals pane = true ∧
              (subscriber.terminalBaselines pane = none → isFull frame = true) ∧
                receive (subscriber.terminalBaselines pane) frame = some latest.view := by
  have upheld := upheld_of_reachable reached
  constructor
  · intro subscriber is_subscriber
    exact (upheld.serves subscriber is_subscriber).outside
  · rintro index next ⟨⟨-, rfl⟩, heeds⟩ pane frame listed
    simp only [State.perform] at listed
    cases is_render : state.renders[index]? with
    | none =>
        rw [is_render] at listed
        exact .inl listed
    | some render =>
        rcases render with ⟨prepared, count⟩
        rw [is_render] at listed
        simp only [State.commitRender] at listed
        cases is_subscriber : state.subscriber with
        | none =>
            rw [is_subscriber] at listed
            exact .inl listed
        | some subscriber =>
            rw [is_subscriber] at listed
            dsimp only at listed
            split_ifs at listed with other nothing lagged full
            · exact .inl listed
            · exact .inl listed
            · exact .inl listed
            · exact .inl listed
            · have ready := upheld.current heeds is_render is_subscriber (not_not.mp other)
              rcases List.mem_filterMap.mp listed with ⟨⟨pane, sent⟩, contained, made⟩
              rcases Option.map_eq_some_iff.mp made with ⟨⟨frame, left⟩, rfl, same⟩
              cases same
              rcases ready.sends contained with ⟨inside, latest, found, sends⟩
              refine .inr ⟨subscriber, latest, rfl, found, inside, ?_, ?_⟩
              · intro bare
                rcases sends.whole with whole | based
                · exact whole
                · rw [bare] at based
                  cases based
              · rw [sends.received _ (.inr rfl), sends.leaves]

/-- What a commit sends of a watched Pane is the delta from its baseline to the latest view. -/
theorem sends_watched_example : ∃ state next frame,
    Transition.System.runLabels attempt (fresh.subscribe [])
      (limited ++ resumed.take 3) = some state ∧
    attempt state (.commit 0) = some next ∧ next.slot = [(⟨1⟩, frame)] ∧ isFull frame = false ∧
      ∃ subscriber base latest, state.subscriber = some subscriber ∧
        state.terminalViews ⟨1⟩ = some latest ∧ subscriber.terminalBaselines ⟨1⟩ = some base ∧
          receive (some base) frame = some latest.view ∧
            subscriber.terminalBaselines ⟨2⟩ = none ∧ ⟨2⟩ ∉ subscriber.pendingTerminals := by
  have runs : ∃ state next frame, Transition.System.runLabels attempt (fresh.subscribe [])
      (limited ++ resumed.take 3) = some state ∧
      attempt state (.commit 0) = some next ∧ next.slot = [(⟨1⟩, frame)] ∧ isFull frame = false ∧
        state.slot = [] ∧ ∃ subscriber base, state.subscriber = some subscriber ∧
          subscriber.bootstrapPending = false ∧ subscriber.terminalBaselines ⟨1⟩ = some base ∧
            watches state.watchedTerminals ⟨2⟩ = false :=
    ⟨_, _, _, rfl, rfl, rfl, rfl, rfl, _, _, rfl, rfl, rfl, rfl⟩
  rcases runs with ⟨state, next, frame, runs, commits, slot, part, empty, subscriber, base, subscribed,
    unfenced, based, unwatched⟩
  have reached : heedingSystem.Reachable state :=
    .of_runLabels step_of_attempt reached_subscribed runs
  rcases sends_watched reached with ⟨outside, sends⟩
  rcases sends 0 next (step_of_attempt _ _ _ commits) ⟨1⟩ frame (by simp [slot])
    with before | ⟨given, latest, is_given, found, -, -, leads⟩
  · rw [empty] at before
    cases before
  · cases subscribed.symm.trans is_given
    rw [based] at leads
    exact ⟨state, next, frame, runs, commits, slot, part, subscriber, base, latest, subscribed,
      found, based, leads, outside subscriber subscribed unfenced ⟨2⟩ unwatched⟩

end Condr.TerminalStream
