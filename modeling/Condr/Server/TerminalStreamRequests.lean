import Condr.Server.TerminalStreamInvariant

/-!
# Subscriptions, layouts and watched sets

The invariant over what the Client asks for and over layouts that close Panes. A watched set takes
the baselines of the other Panes away, and the Panes that are new to it become pending; so a
baseline is of a Pane that the Server watches.
-/

namespace Condr.TerminalStream

variable {state next : State} {subscriber after : ClientSubscriber} {pane : PaneId}

/-! ## Subscriptions -/

/-- The same Client and Server, with what is still on its way and a subscriber, or none. -/
theorem Upheld.narrowed (upheld : Upheld state)
    (fewer : ∀ pane latest, next.terminalViews pane = some latest →
      state.terminalViews pane = some latest)
    (watched : next.watchedTerminals = state.watchedTerminals)
    (client : next.client = state.client) (heard : next.heard = state.heard)
    (requests : next.requests = state.requests) (capture : next.capture = state.capture)
    (queue : ∀ pane, next.queue pane <+: state.queue pane)
    (slot : next.slot = []) (nobody : next.subscriber = none) (unfenced : ¬state.fenced)
    (renders : next.renders = state.renders) (changes : state.changes ≤ next.changes) :
    Upheld next := by
  refine ⟨?_, ?_, ?_, ?_, ?_, ?_, fun _ => slot, fun _ _ => nobody, ?_, ?_⟩
  · intro pane latest found
    exact upheld.fits pane latest (fewer pane latest found)
  · rw [client, heard]
    exact upheld.alike
  · rw [client]
    exact upheld.gap
  · rw [client, requests, watched]
    exact upheld.requests
  · intro pane
    exact upheld.chain_of_prefix heard (queue pane)
  · intro _
    refine ⟨slot, ?_⟩
    simpa only [State.fenced, capture] using unfenced
  · intro prepared count listed
    rw [renders] at listed
    exact (upheld.counted prepared count listed).trans changes
  · intro subscriber is_subscriber
    rw [nobody] at is_subscriber
    cases is_subscriber

theorem queue_split (state : State) (pane : PaneId) :
    state.queue pane = (state.wire ++ state.reliable).filterMap (forPane pane) ++
      state.slotMessages.filterMap (forPane pane) := by
  rw [State.queue, List.filterMap_append]

theorem queue_prefix_of_slot (wire : next.wire = state.wire)
    (reliable : next.reliable = state.reliable) (slot : next.slot = []) (pane : PaneId) :
    next.queue pane <+: state.queue pane := by
  refine ⟨state.slotMessages.filterMap (forPane pane), ?_⟩
  rw [queue_split state, State.queue, wire, reliable, State.slotMessages, slot, List.map_nil,
    List.append_nil]

theorem Upheld.unsubscribe (upheld : Upheld state) (enabled : state.Enabled .unsubscribe) :
    Upheld state.unsubscribe := by
  unfold State.unsubscribe
  cases is_subscriber : state.subscriber with
  | none => exact upheld
  | some subscriber =>
      refine upheld.narrowed (fun _ _ found => found) rfl rfl rfl rfl rfl
        (queue_prefix_of_slot rfl rfl rfl) rfl rfl ?_ rfl le_rfl
      rintro ⟨views, captured⟩
      rw [enabled] at captured
      cases captured

theorem Upheld.subscribe {panes : List PaneId} (upheld : Upheld state)
    (enabled : state.Enabled (.subscribe panes)) : Upheld (state.subscribe panes) := by
  rcases enabled with ⟨free, nodup, everyPane⟩
  unfold State.subscribe
  cases is_subscriber : state.subscriber with
  | some subscriber => exact upheld
  | none =>
      have empty := (upheld.idle is_subscriber).1
      refine upheld.beside ⟨fun _ => rfl, rfl, rfl, rfl, rfl⟩ rfl upheld.fits ?_
        (fun _ => empty) ?_ ?_ ?_
      · intro nobody
        cases nobody
      · intro views captured
        rw [free] at captured
        cases captured
      · intro prepared count listed
        exact (upheld.counted prepared count listed).trans (Nat.le_succ _)
      · intro subscriber is_new
        cases is_new
        refine ⟨nodup.filter _, ?_, ?_, ?_, ?_, ?_, ?_, ?_, ?_⟩
        · intro pane base latest is_base
          cases is_base
        · intro _ pane base is_base
          cases is_base
        · intro _ pane base is_base
          cases is_base
        · intro _ pane outside
          refine ⟨rfl, ?_⟩
          intro contained
          exact Bool.false_ne_true (outside.symm.trans (List.mem_filter.mp contained).2)
        · intro _ pane latest inside found absent
          refine absurd (List.mem_filter.mpr ⟨?_, inside⟩) absent
          rw [everyPane, found]
          rfl
        · constructor
          · intro pending
            cases pending
          · rintro ⟨views, captured⟩
            rw [free] at captured
            cases captured
        · intro views captured
          rw [free] at captured
          cases captured
        · intro prepared listed
          exact upheld.uncounted listed

/-! ## Layouts -/

theorem slotMessages_silent (silent : ∀ sent ∈ state.slot, sent.1 ≠ pane) :
    state.slotMessages.filterMap (forPane pane) = [] := by
  apply List.filterMap_eq_nil_iff.mpr
  intro message contained
  rcases List.mem_map.mp contained with ⟨sent, listed, rfl⟩
  rw [forPane, if_neg (silent sent listed)]

/-- A layout comes before the frames of a render. -/
theorem queue_layout {closed : List PaneId} (wire : next.wire = state.wire)
    (reliable : next.reliable = state.reliable ++ [.layout closed])
    (slot : next.slot = state.slot) (clear : ∀ sent ∈ state.slot, sent.1 ∉ closed)
    (pane : PaneId) :
    next.queue pane = state.queue pane ++ if pane ∈ closed then [.reset none] else [] := by
  rw [queue_split, queue_split state, wire, reliable, State.slotMessages, slot, ← State.slotMessages,
    ← List.append_assoc, List.filterMap_append]
  split_ifs with gone
  · have silent : state.slotMessages.filterMap (forPane pane) = [] := by
      apply slotMessages_silent
      intro sent listed same
      exact clear sent listed (same ▸ gone)
    simp [silent, forPane, gone]
  · simp [forPane, gone]

/-- A subscriber of the Panes that stay. -/
theorem Serves.closed {closed : List PaneId} (serves : Serves state subscriber)
    (views : next.terminalViews = fun pane =>
      if pane ∈ closed then none else state.terminalViews pane)
    (watched : next.watchedTerminals = state.watchedTerminals)
    (capture : next.capture = state.capture) (lagged : next.lagged = state.lagged)
    (carries : ∀ pane, pane ∉ closed → next.carries pane = state.carries pane)
    (clientCarries : ∀ pane, pane ∉ closed → next.clientCarries pane = state.clientCarries pane)
    (steady : ∀ pane, next.Steady pane → state.Steady pane)
    (baselines : after.terminalBaselines = subscriber.terminalBaselines)
    (pending : after.pendingTerminals = subscriber.pendingTerminals)
    (fence : after.bootstrapPending = subscriber.bootstrapPending)
    (deferred : ∀ message ∈ after.deferred,
      message ∈ subscriber.deferred ∨ message = .layout closed)
    (renders : ∀ prepared, (prepared, next.changes) ∈ next.renders →
      (prepared, state.changes) ∈ state.renders) :
    Serves next after := by
  have stays : ∀ pane latest, next.terminalViews pane = some latest →
      pane ∉ closed ∧ state.terminalViews pane = some latest := by
    intro pane latest found
    simp only [views] at found
    split_ifs at found with gone
    exact ⟨gone, found⟩
  refine ⟨pending ▸ serves.nodup, ?_, ?_, ?_, ?_, ?_, ?_, ?_, ?_⟩
  · intro pane base latest is_base found
    rw [baselines] at is_base
    exact serves.follows pane base latest is_base (stays pane latest found).2
  · intro keeps pane base is_base there
    rw [baselines] at is_base
    rcases Option.isSome_iff_exists.mp there with ⟨latest, found⟩
    rcases stays pane latest found with ⟨kept, before⟩
    rw [carries pane kept]
    exact serves.sent (lagged ▸ keeps) pane base is_base (by rw [before]; rfl)
  · intro keeps pane base is_base there is_steady
    rw [baselines] at is_base
    rcases Option.isSome_iff_exists.mp there with ⟨latest, found⟩
    rcases stays pane latest found with ⟨kept, before⟩
    rw [clientCarries pane kept]
    exact serves.shown (lagged ▸ keeps) pane base is_base (by rw [before]; rfl)
      (steady pane is_steady)
  · rw [fence, watched, baselines, pending]
    exact serves.outside
  · intro unfenced pane latest inside found absent
    rw [watched] at inside
    rw [pending] at absent
    rw [baselines]
    exact serves.fresh (fence ▸ unfenced) pane latest inside (stays pane latest found).2 absent
  · rw [fence, serves.fence]
    simp only [State.fenced, capture]
  · intro captured is_captured
    rw [capture] at is_captured
    have fenced := serves.fenced captured is_captured
    refine ⟨?_, ?_, fenced.fits, ?_, ?_, ?_⟩
    · rw [baselines]
      exact fenced.bare
    · rw [watched]
      exact fenced.watched
    · intro pane view latest listed found
      exact fenced.follows pane view latest listed (stays pane latest found).2
    · intro pane latest inside found
      rw [watched] at inside
      rw [pending]
      exact fenced.captured pane latest inside (stays pane latest found).2
    · intro message contained
      rcases deferred message contained with before | rfl
      · rcases fenced.deferred message before with ⟨others, same, gone⟩
        refine ⟨others, same, ?_⟩
        intro pane listed
        rw [views]
        simp only [gone pane listed, ite_self]
      · refine ⟨closed, rfl, ?_⟩
        intro pane listed
        rw [views]
        exact if_pos listed
  · intro prepared listed
    have ready := serves.renders prepared (renders prepared listed)
    refine ⟨fence ▸ ready.unfenced, ready.nodup, ?_⟩
    intro pane sent contained
    rcases ready.panes pane sent contained with ⟨inside, ways⟩
    rw [watched, baselines]
    refine ⟨inside, ?_⟩
    intro latest found
    exact ways latest (stays pane latest found).2

/-- The layout takes the closed Panes away, and what else is on its way stays. -/
theorem Upheld.announce {closed : List PaneId} (upheld : Upheld state)
    (clear : ∀ sent ∈ state.slot, sent.1 ∉ closed)
    (is_subscriber : state.subscriber = some subscriber)
    (views : next.terminalViews = fun pane =>
      if pane ∈ closed then none else state.terminalViews pane)
    (same : next = { state with
      terminalViews := next.terminalViews
      reliable := state.reliable ++ [.layout closed] }) : Upheld next := by
  have serves := upheld.serves subscriber is_subscriber
  have reliable : next.reliable = state.reliable ++ [.layout closed] := by rw [same]
  have queue := queue_layout (by rw [same]) reliable (by rw [same]) clear
  have heard : next.heard = state.heard := by rw [same]
  have client : next.client = state.client := by rw [same]
  have carries : ∀ pane, pane ∉ closed → next.carries pane = state.carries pane := by
    intro pane kept
    rw [State.carries, State.carries, queue, if_neg kept, List.append_nil, heard]
  have clientCarries : ∀ pane, pane ∉ closed →
      next.clientCarries pane = state.clientCarries pane := by
    intro pane kept
    rw [State.clientCarries, State.clientCarries, queue, if_neg kept, List.append_nil, client]
  refine ⟨?_, ?_, ?_, ?_, ?_, ?_, ?_, ?_, ?_, ?_⟩
  · intro pane latest found
    simp only [views] at found
    split_ifs at found
    exact upheld.fits pane latest found
  · rw [client, heard]
    exact upheld.alike
  · rw [client]
    exact upheld.gap
  · rw [same]
    exact upheld.requests
  · intro pane
    rcases upheld.chain pane with ⟨last, hears⟩
    by_cases gone : pane ∈ closed
    · refine ⟨none, ?_⟩
      rw [State.carries, queue, if_pos gone, List.foldlM_append, heard, ← State.carries, hears]
      rfl
    · exact ⟨last, (carries pane gone).trans hears⟩
  · intro nobody
    rw [same] at nobody
    cases is_subscriber.symm.trans nobody
  · rw [same]
    exact upheld.halted
  · rw [same]
    exact upheld.alone
  · rw [same]
    exact upheld.counted
  · intro after is_after
    rw [same] at is_after
    cases is_subscriber.symm.trans is_after
    refine serves.closed views (by rw [same]) (by rw [same]) (by rw [same]) carries clientCarries ?_
      rfl rfl rfl (fun _ contained => .inl contained) ?_
    · intro pane
      rw [same]
      exact id
    · intro prepared listed
      rw [same] at listed
      exact listed

theorem Upheld.close {closed : List PaneId} (upheld : Upheld state)
    (heeds : Heeds state (.close closed)) : Upheld (state.close closed) := by
  have fewer : ∀ pane latest,
      (if pane ∈ closed then none else state.terminalViews pane) = some latest →
        state.terminalViews pane = some latest := by
    intro pane latest found
    split_ifs at found
    exact found
  have fits : ∀ pane latest,
      (if pane ∈ closed then none else state.terminalViews pane) = some latest → latest.Fits := by
    intro pane latest found
    exact upheld.fits pane latest (fewer pane latest found)
  unfold State.close
  cases is_subscriber : state.subscriber with
  | none =>
      refine upheld.views ⟨fun _ => rfl, rfl, rfl, rfl, rfl⟩ rfl rfl rfl rfl le_rfl ?_ fits ?_
      · simp [is_subscriber]
      · intro subscriber is_some
        cases is_some
  | some subscriber =>
      have serves := upheld.serves subscriber is_subscriber
      dsimp only
      split_ifs with pending lagged
      · refine upheld.views ⟨fun _ => rfl, rfl, rfl, rfl, rfl⟩ rfl rfl rfl rfl le_rfl ?_
          fits ?_
        · simp [is_subscriber]
        · intro after is_after
          cases is_after
          refine serves.closed rfl rfl rfl rfl (fun _ _ => rfl) (fun _ _ => rfl)
            (fun _ steady => steady) rfl rfl rfl ?_ (fun _ listed => listed)
          intro message contained
          rcases List.mem_append.mp contained with before | new
          · exact .inl before
          · exact .inr (List.mem_singleton.mp new)
      · refine upheld.narrowed fewer rfl rfl rfl rfl rfl ?_ (upheld.halted lagged) rfl ?_ rfl
          le_rfl
        · exact queue_prefix_of_slot rfl rfl (upheld.halted lagged)
        · rw [← serves.fence]
          exact pending
      · exact upheld.announce heeds is_subscriber rfl (by rw [is_subscriber])

/-! ## Watched sets -/

/-- A Pane that every set on its way has is watched by the Client. -/
theorem Upheld.watching (upheld : Upheld state)
    (watched : watches state.watchedTerminals pane = true)
    (requests : ∀ panes ∈ state.requests, pane ∈ panes) :
    watches state.client.watched pane = true := by
  rw [upheld.requests]
  cases is_last : state.requests.getLast? with
  | none => exact watched
  | some panes => exact decide_eq_true (requests panes (List.mem_of_getLast? is_last))

theorem Upheld.watch {panes : List PaneId} (upheld : Upheld state) :
    Upheld (state.perform (.watch panes)) := by
  refine ⟨upheld.fits, ?_, upheld.gap, ?_, upheld.chain, upheld.idle, upheld.halted, upheld.alone,
    upheld.counted, ?_⟩
  · intro pane
    have alike := upheld.alike pane
    simp only [State.perform, Client.watchTerminals, watches, Option.all_some, Option.isSome_some]
    by_cases inside : pane ∈ panes
    · rw [if_pos inside, decide_eq_true inside]
      refine ⟨fun _ => rfl, ?_, ?_⟩
      · rcases alike.same with same | ⟨-, nothing⟩
        · exact .inl same
        · exact .inr ⟨rfl, nothing⟩
      · intro unwatched
        cases unwatched
    · rw [if_neg inside]
      refine ⟨?_, .inr ⟨rfl, rfl⟩, fun _ => rfl⟩
      intro limited
      cases limited
  · simp only [State.perform, Client.watchTerminals, List.getLast?_concat, Option.map_some,
      Option.getD_some]
  · intro subscriber is_subscriber
    have serves := upheld.serves subscriber is_subscriber
    refine serves.congr rfl rfl rfl (fun _ listed => listed) id (fun _ _ => rfl) ?_
    intro keeps pane base is_base there steady
    rcases steady with ⟨client, server, requests⟩
    have before : ∀ others ∈ state.requests, pane ∈ others := by
      intro others contained
      exact requests others (List.mem_append_left _ contained)
    have watching := upheld.watching server before
    have inside : pane ∈ panes := requests panes (List.mem_append_right _ (List.mem_singleton_self _))
    have was := serves.shown keeps pane base is_base there ⟨watching, server, before⟩
    have held : (state.perform (.watch panes)).client.terminals pane = state.client.terminals pane :=
      if_pos inside
    rw [State.clientCarries, client, held]
    rw [State.clientCarries, watching] at was
    cases limited : state.client.watched.isSome with
    | true =>
        rw [limited] at was
        exact was
    | false =>
        have alike := upheld.alike pane
        rw [limited] at alike
        rcases alike.same with same | ⟨nothing, -⟩
        · rw [same]
          exact foldlM_takes_eq_hear (serves.sent keeps pane base is_base there)
        · cases nothing

theorem mem_foldl_insert {panes pending : List PaneId} :
    pane ∈ panes.foldl (fun pending pane => pending.insert pane) pending ↔
      pane ∈ panes ∨ pane ∈ pending := by
  induction panes generalizing pending with
  | nil => simp
  | cons first panes induction =>
      rw [List.foldl_cons, induction, List.mem_insert_iff, List.mem_cons]
      tauto

theorem nodup_foldl_insert {panes pending : List PaneId} (nodup : pending.Nodup) :
    (panes.foldl (fun pending pane => pending.insert pane) pending).Nodup := by
  induction panes generalizing pending with
  | nil => exact nodup
  | cons first panes induction => exact induction nodup.insert

section Reconcile

variable {watched : List PaneId} {views : PaneId → Option LatestTerminalView}

theorem baseline_reconcile {base : View} :
    (subscriber.reconcile watched views).terminalBaselines pane = some base ↔
      pane ∈ watched ∧ subscriber.terminalBaselines pane = some base := by
  simp only [ClientSubscriber.reconcile]
  split_ifs with inside
  · simp [inside]
  · simp [inside]

theorem pending_reconcile :
    pane ∈ (subscriber.reconcile watched views).pendingTerminals ↔
      pane ∈ watched ∧ (pane ∈ subscriber.pendingTerminals ∨
        (views pane).isSome = true ∧ subscriber.terminalBaselines pane = none) := by
  simp only [ClientSubscriber.reconcile, mem_foldl_insert, List.mem_filter, decide_eq_true_eq,
    Bool.and_eq_true, Option.isNone_iff_eq_none]
  constructor
  · rintro (⟨inside, there, absent⟩ | ⟨contained, inside⟩)
    · rw [if_pos inside] at absent
      exact ⟨inside, .inr ⟨there, absent⟩⟩
    · exact ⟨inside, .inl contained⟩
  · rintro ⟨inside, contained | ⟨there, absent⟩⟩
    · exact .inr ⟨contained, inside⟩
    · refine .inl ⟨inside, there, ?_⟩
      rw [if_pos inside]
      exact absent

theorem nodup_reconcile (nodup : subscriber.pendingTerminals.Nodup) :
    (subscriber.reconcile watched views).pendingTerminals.Nodup :=
  nodup_foldl_insert (nodup.filter _)

end Reconcile

theorem Upheld.takeWatch (upheld : Upheld state) (enabled : state.Enabled .takeWatch) :
    Upheld (state.perform .takeWatch) := by
  simp only [State.perform]
  cases is_requests : state.requests with
  | nil => exact upheld
  | cons panes requests =>
      have free : ∀ views fenced, state.capture ≠ some (views, fenced) := by
        intro views fenced captured
        cases enabled.symm.trans captured
      refine ⟨upheld.fits, upheld.alike, upheld.gap, ?_, upheld.chain, ?_, upheld.halted, ?_, ?_, ?_⟩
      · have last := upheld.requests
        rw [is_requests] at last
        cases requests with
        | nil => exact last
        | cons first rest =>
            rw [List.getLast?_cons_cons] at last
            exact last
      · intro nobody
        exact upheld.idle (Option.map_eq_none_iff.mp nobody)
      · intro views captured
        exact absurd captured (free views false)
      · intro prepared count listed
        exact (upheld.counted prepared count listed).trans (Nat.le_succ _)
      · intro after is_after
        rcases Option.map_eq_some_iff.mp is_after with ⟨subscriber, is_subscriber, rfl⟩
        have serves := upheld.serves subscriber is_subscriber
        have unfenced : subscriber.bootstrapPending = false := by
          apply Bool.eq_false_iff.mpr
          intro pending
          rcases serves.fence.mp pending with ⟨views, captured⟩
          exact free views true captured
        have watched : ∀ pane base, subscriber.terminalBaselines pane = some base →
            watches state.watchedTerminals pane = true := by
          intro pane base is_base
          by_contra outside
          rw [(serves.outside unfenced pane (by simpa using outside)).1] at is_base
          cases is_base
        rw [if_neg (by simp [unfenced])]
        refine ⟨nodup_reconcile serves.nodup, ?_, ?_, ?_, ?_, ?_, ?_, ?_, ?_⟩
        · intro pane base latest is_base found
          exact serves.follows pane base latest (baseline_reconcile.mp is_base).2 found
        · intro keeps pane base is_base there
          exact serves.sent keeps pane base (baseline_reconcile.mp is_base).2 there
        · intro keeps pane base is_base there steady
          rcases baseline_reconcile.mp is_base with ⟨inside, before⟩
          refine serves.shown keeps pane base before there
            ⟨steady.1, watched pane base before, ?_⟩
          intro others contained
          rw [is_requests] at contained
          rcases List.mem_cons.mp contained with rfl | later
          · exact inside
          · exact steady.2.2 others later
        · intro _ pane outside
          have absent : pane ∉ panes := of_decide_eq_false outside
          refine ⟨if_neg absent, ?_⟩
          intro contained
          exact absent (pending_reconcile.mp contained).1
        · intro _ pane latest inside found absent
          have contained : pane ∈ panes := of_decide_eq_true inside
          have based : subscriber.terminalBaselines pane ≠ none := by
            intro nothing
            exact absent (pending_reconcile.mpr
              ⟨contained, .inr ⟨Option.isSome_iff_exists.mpr ⟨latest, found⟩, nothing⟩⟩)
          rcases Option.ne_none_iff_exists'.mp based with ⟨base, is_base⟩
          rcases serves.fresh unfenced pane latest (watched pane base is_base) found
            (fun pending => absent (pending_reconcile.mpr ⟨contained, .inl pending⟩))
            with ⟨shown, is_shown, same⟩
          exact ⟨shown, baseline_reconcile.mpr ⟨contained, is_shown⟩, same⟩
        · exact serves.fence
        · intro views captured
          exact absurd captured (free views true)
        · intro prepared listed
          exact upheld.uncounted listed

end Condr.TerminalStream
