import Condr.Server.TerminalStreamRequests

/-!
# Renders that are committed

A render is prepared from the baselines, and committed while its generation is still that of the
subscriber. Its frames come last of all that is on its way, so each takes whoever took the rest
from the baseline to the view that becomes the next one.
-/

namespace Condr.TerminalStream

variable {state next : State} {subscriber after : ClientSubscriber} {pane : PaneId}

/-! ## Renders -/

theorem prepare_spec {views : PaneId → Option LatestTerminalView}
    {prepared : PreparedTerminalRender} (prepares : subscriber.prepare views = some prepared) :
    prepared.pending = subscriber.pendingTerminals ∧
      ∀ pane sent, (pane, sent) ∈ prepared.panes → pane ∈ subscriber.pendingTerminals ∧
        ∃ latest, views pane = some latest ∧
          renderPane (subscriber.terminalBaselines pane) latest = some sent := by
  simp only [ClientSubscriber.prepare, Option.bind_eq_bind, Option.pure_def,
    Option.bind_eq_some_iff, Option.some.injEq] at prepares
  rcases prepares with ⟨panes, mapped, rfl⟩
  constructor
  · have same : panes.map Prod.fst = subscriber.pendingTerminals.map id := by
      apply Lists.map_eq_of_mapM mapped
      intro pane value made
      rcases Option.bind_eq_some_iff.mp made with ⟨latest, -, rest⟩
      rcases Option.bind_eq_some_iff.mp rest with ⟨sent, -, made⟩
      cases made
      rfl
    rw [PreparedTerminalRender.pending, same, List.map_id]
  · intro pane sent listed
    rcases Lists.exists_of_mem_mapM mapped listed with ⟨other, contained, made⟩
    rcases Option.bind_eq_some_iff.mp made with ⟨latest, found, rest⟩
    rcases Option.bind_eq_some_iff.mp rest with ⟨answered, renders, made⟩
    cases made
    exact ⟨contained, latest, found, renders⟩

section Retain

variable {views : PaneId → Option LatestTerminalView}

theorem baseline_retain {base : View} :
    (subscriber.retain views).terminalBaselines pane = some base ↔
      (views pane).isSome = true ∧ subscriber.terminalBaselines pane = some base := by
  simp only [ClientSubscriber.retain]
  split_ifs with there
  · simp [there]
  · simp [there]

theorem pending_retain : pane ∈ (subscriber.retain views).pendingTerminals ↔
    pane ∈ subscriber.pendingTerminals ∧ (views pane).isSome = true :=
  List.mem_filter

end Retain

/-- A render that is just prepared may be committed. -/
theorem Serves.prepared {prepared : PreparedTerminalRender} (serves : Serves state subscriber)
    (fits : ∀ pane latest, state.terminalViews pane = some latest → latest.Fits)
    (unfenced : subscriber.bootstrapPending = false)
    (prepares : subscriber.prepare state.terminalViews = some prepared) :
    Ready state subscriber prepared := by
  rcases prepare_spec prepares with ⟨pending, panes⟩
  refine ⟨unfenced, ?_, ?_⟩
  · rw [← PreparedTerminalRender.pending, pending]
    exact serves.nodup
  · intro pane sent listed
    rcases panes pane sent listed with ⟨contained, latest, found, renders⟩
    constructor
    · by_contra outside
      exact (serves.outside unfenced pane (by simpa using outside)).2 contained
    · intro given is_given
      cases found.symm.trans is_given
      refine renderPane_spec (fits pane latest found) ?_ renders
      intro base is_base
      exact serves.follows pane base latest is_base found

theorem Serves.retained (serves : Serves state subscriber)
    (unfenced : subscriber.bootstrapPending = false)
    (same : next = { state with subscriber := next.subscriber, renders := state.renders }) :
    Serves next (subscriber.retain state.terminalViews) := by
  have views : next.terminalViews = state.terminalViews := by rw [same]
  have beside : Beside state next := by
    constructor
    · intro pane
      rw [same]
      rfl
    all_goals rw [same]
  refine ⟨serves.nodup.filter _, ?_, ?_, ?_, ?_, ?_, ?_, ?_, ?_⟩
  · intro pane base latest is_base found
    rw [views] at found
    exact serves.follows pane base latest (baseline_retain.mp is_base).2 found
  · intro keeps pane base is_base there
    rw [views] at there
    rw [beside.carries]
    exact serves.sent (beside.lagged ▸ keeps) pane base (baseline_retain.mp is_base).2 there
  · intro keeps pane base is_base there steady
    rw [views] at there
    rw [beside.clientCarries]
    exact serves.shown (beside.lagged ▸ keeps) pane base (baseline_retain.mp is_base).2 there
      ((beside.steady (by rw [same]) pane).mp steady)
  · intro _ pane outside
    have watched : next.watchedTerminals = state.watchedTerminals := by rw [same]
    rw [watched] at outside
    rcases serves.outside unfenced pane outside with ⟨bare, absent⟩
    refine ⟨?_, ?_⟩
    · simp only [ClientSubscriber.retain, bare, ite_self]
    · intro contained
      exact absent (pending_retain.mp contained).1
  · intro _ pane latest inside found absent
    rw [views] at found
    have watched : next.watchedTerminals = state.watchedTerminals := by rw [same]
    rw [watched] at inside
    have there : (state.terminalViews pane).isSome = true :=
      Option.isSome_iff_exists.mpr ⟨latest, found⟩
    rcases serves.fresh unfenced pane latest inside found
      (fun pending => absent (pending_retain.mpr ⟨pending, there⟩)) with ⟨base, is_base, shown⟩
    exact ⟨base, baseline_retain.mpr ⟨there, is_base⟩, shown⟩
  · have fence := serves.fence
    rw [same]
    exact fence
  · intro captured is_captured
    rw [same] at is_captured
    have pending := serves.fence.mpr ⟨captured, is_captured⟩
    rw [unfenced] at pending
    cases pending
  · intro prepared listed
    rw [same] at listed
    have ready := serves.renders prepared listed
    refine ⟨unfenced, ready.nodup, ?_⟩
    intro pane sent contained
    rcases ready.panes pane sent contained with ⟨inside, ways⟩
    rw [same]
    refine ⟨inside, ?_⟩
    intro latest found
    have kept : (subscriber.retain state.terminalViews).terminalBaselines pane =
        subscriber.terminalBaselines pane := by
      apply if_pos
      exact Option.isSome_iff_exists.mpr ⟨latest, found⟩
    rw [kept]
    exact ways latest found

theorem Upheld.framing {prepared : PreparedTerminalRender} (upheld : Upheld state)
    (is_subscriber : state.subscriber = some subscriber)
    (ready : Ready state subscriber prepared) :
    Upheld { state with renders := state.renders ++ [(prepared, state.changes)] } := by
  refine upheld.beside ⟨fun _ => rfl, rfl, rfl, rfl, rfl⟩ rfl upheld.fits upheld.idle upheld.halted
    upheld.alone ?_ ?_
  · intro other count listed
    rcases List.mem_append.mp listed with before | new
    · exact upheld.counted other count before
    · cases List.mem_singleton.mp new
      exact le_rfl
  · intro others is_others
    cases is_subscriber.symm.trans is_others
    have serves := upheld.serves subscriber is_subscriber
    refine ⟨serves.nodup, serves.follows, serves.sent, serves.shown, serves.outside, serves.fresh,
      serves.fence, ?_, ?_⟩
    · intro captured is_captured
      exact (serves.fenced captured is_captured).congr rfl rfl
    · intro other listed
      rcases List.mem_append.mp listed with before | new
      · exact (serves.renders other before).congr rfl rfl
      · cases List.mem_singleton.mp new
        exact ready.congr rfl rfl

theorem Upheld.prepareRender (upheld : Upheld state) : Upheld state.prepareRender := by
  unfold State.prepareRender
  cases is_subscriber : state.subscriber with
  | none => exact upheld
  | some subscriber =>
      have serves := upheld.serves subscriber is_subscriber
      dsimp only
      split_ifs with pending
      · exact upheld
      · have unfenced : subscriber.bootstrapPending = false := by simpa using pending
        have retained : Upheld { state with
            subscriber := some (subscriber.retain state.terminalViews) } := by
          refine upheld.beside ⟨fun _ => rfl, rfl, rfl, rfl, rfl⟩ rfl upheld.fits ?_ upheld.halted
            ?_ upheld.counted ?_
          · intro nobody
            cases nobody
          · intro views captured
            cases is_subscriber.symm.trans (upheld.alone views captured)
          · intro after is_after
            cases is_after
            exact serves.retained unfenced rfl
        cases prepares : (subscriber.retain state.terminalViews).prepare state.terminalViews with
        | none => exact retained
        | some prepared =>
            dsimp only
            split_ifs with nothing
            · exact retained
            · apply retained.framing rfl
              exact (retained.serves _ rfl).prepared retained.fits unfenced prepares

/-! ## Commits -/

/-- What a render sends of one Pane. -/
def PreparedTerminalRender.sent (prepared : PreparedTerminalRender) (pane : PaneId) :
    Option (Frame × View) :=
  (Entries.get pane prepared.panes).join

theorem filterMap_frames {panes : List (PaneId × Option (Frame × View))}
    (nodup : (panes.map Prod.fst).Nodup) (pane : PaneId) :
    (panes.filterMap fun entry => entry.2.map fun sent => (entry.1, sent.1)).filterMap
        (fun sent => forPane pane (.frame sent.1 sent.2)) =
      ((Entries.get pane panes).join.map fun sent => PaneMessage.frame sent.1).toList := by
  induction panes with
  | nil => rfl
  | cons entry rest induction =>
      rcases entry with ⟨other, sent⟩
      rw [List.map_cons, List.nodup_cons] at nodup
      have later := induction nodup.2
      by_cases here : other = pane
      · have absent : Entries.get pane rest = none := Entries.get_eq_none.mpr (here ▸ nodup.1)
        rw [absent] at later
        cases sent with
        | none =>
            rw [Entries.get, if_pos here]
            exact later
        | some sent =>
            rw [Entries.get, if_pos here]
            simp only [List.filterMap_cons, Option.map_some, forPane, if_pos here]
            simp only [forPane] at later
            rw [later]
            rfl
      · rw [Entries.get, if_neg here]
        cases sent with
        | none => exact later
        | some sent =>
            simp only [List.filterMap_cons, Option.map_some, forPane, if_neg here]
            simp only [forPane] at later
            exact later

section Committed

variable {prepared : PreparedTerminalRender}

theorem baseline_committed : (subscriber.committed prepared).terminalBaselines pane =
    ((prepared.sent pane).map Prod.snd).or (subscriber.terminalBaselines pane) := by
  simp only [ClientSubscriber.committed, PreparedTerminalRender.baseline,
    PreparedTerminalRender.sent]
  cases found : Entries.get pane prepared.panes with
  | none => rfl
  | some sent =>
      cases sent with
      | none => rfl
      | some sent => rfl

/-- A render that may be committed now. -/
structure Current (state : State) (subscriber : ClientSubscriber)
    (prepared : PreparedTerminalRender) : Prop extends Ready state subscriber prepared where
  opened : prepared.Open state

theorem Current.sends (ready : Current state subscriber prepared) {frame : Frame} {left : View}
    (listed : (pane, some (frame, left)) ∈ prepared.panes) :
    watches state.watchedTerminals pane = true ∧
      ∃ latest, state.terminalViews pane = some latest ∧
        Sends (subscriber.terminalBaselines pane) latest frame left := by
  have there := ready.opened (pane, frame) (List.mem_filterMap.mpr ⟨_, listed, rfl⟩)
  rcases Option.isSome_iff_exists.mp there with ⟨latest, found⟩
  rcases ready.panes pane _ listed with ⟨inside, ways⟩
  rcases ways latest found with ⟨nothing, -⟩ | ⟨frame, left, same, sends⟩
  · cases nothing
  · cases same
    exact ⟨inside, latest, found, sends⟩

theorem PreparedTerminalRender.mem_of_sent {sending : Frame × View}
    (is_sent : prepared.sent pane = some sending) : (pane, some sending) ∈ prepared.panes :=
  Entries.mem_of_get (Option.join_eq_some_iff.mp is_sent)

theorem Ready.silent (ready : Ready state subscriber prepared) {latest : LatestTerminalView}
    (found : state.terminalViews pane = some latest) (contained : pane ∈ prepared.pending)
    (nothing : prepared.sent pane = none) :
    ∃ base, subscriber.terminalBaselines pane = some base ∧
      base.content = latest.view.content := by
  rcases List.mem_map.mp contained with ⟨⟨other, sent⟩, listed, rfl⟩
  have got := Entries.get_of_mem ready.nodup listed
  rcases (ready.panes other sent listed).2 latest found with ⟨-, base, is_base, same⟩ |
    ⟨frame, left, rfl, -⟩
  · exact ⟨base, is_base, same⟩
  · rw [PreparedTerminalRender.sent, got] at nothing
    cases nothing

/-- Whoever takes everything, and a Client that watches, takes what is sent. -/
theorem Sends.hears {latest : LatestTerminalView} {frame : Frame} {left : View}
    {baseline held : Option View} (sends : Sends baseline latest frame left)
    (has : ∀ base, baseline = some base → held = some base) :
    hear held (.frame frame) = some (some left) := by
  rw [hear, sends.received held]
  · rfl
  · rcases sends.whole with whole | based
    · exact .inl whole
    · rcases Option.isSome_iff_exists.mp based with ⟨base, rfl⟩
      exact .inr (has base rfl)

theorem Sends.takes {latest : LatestTerminalView} {frame : Frame} {left : View}
    {baseline held : Option View} {limited : Bool} (sends : Sends baseline latest frame left)
    (has : ∀ base, baseline = some base → held = some base) :
    TerminalStream.takes limited true held (.frame frame) = some (some left) :=
  takes_eq_hear (sends.hears has)

/-- What the frames of a render are after the queue of each Pane. -/
structure Sent (state next : State) (prepared : PreparedTerminalRender) : Prop where
  queue : ∀ pane, next.queue pane = state.queue pane ++
    ((prepared.sent pane).map fun sent => PaneMessage.frame sent.1).toList
  client : next.client = state.client
  heard : next.heard = state.heard

theorem Sent.carries (sent : Sent state next prepared) (upheld : Upheld state)
    (ready : Current state subscriber prepared) (serves : Serves state subscriber)
    (keeps : state.lagged = false) (pane : PaneId) :
    next.carries pane = match prepared.sent pane with
      | none => state.carries pane
      | some (_, left) => some (some left) := by
  rw [State.carries, sent.queue, sent.heard, List.foldlM_append, ← State.carries]
  rcases upheld.chain pane with ⟨last, hears⟩
  cases is_sent : prepared.sent pane with
  | none =>
      rw [hears]
      rfl
  | some sending =>
      rcases sending with ⟨frame, left⟩
      rcases ready.sends (PreparedTerminalRender.mem_of_sent is_sent) with ⟨-, latest, found, sends⟩
      have taken : hear last (.frame frame) = some (some left) := by
        apply sends.hears
        intro base is_base
        have was := serves.sent keeps pane base is_base (by rw [found]; rfl)
        exact Option.some.inj (hears.symm.trans was)
      rw [hears]
      exact congrArg (fun result => result >>= fun value => some value) taken

theorem Sent.clientCarries (sent : Sent state next prepared) (upheld : Upheld state)
    (ready : Current state subscriber prepared) (serves : Serves state subscriber)
    (keeps : state.lagged = false) (steady : state.Steady pane) :
    next.clientCarries pane = match prepared.sent pane with
      | none => state.clientCarries pane
      | some (_, left) => some (some left) := by
  rw [State.clientCarries, sent.queue, sent.client, List.foldlM_append, ← State.clientCarries]
  rcases upheld.chain pane with ⟨last, hears⟩
  rcases (upheld.alike pane).foldlM_takes hears with ⟨mine, taking, -⟩
  have was : state.clientCarries pane = some mine := taking
  rw [was]
  cases is_sent : prepared.sent pane with
  | none => rfl
  | some sending =>
      rcases sending with ⟨frame, left⟩
      rcases ready.sends (PreparedTerminalRender.mem_of_sent is_sent) with ⟨-, latest, found, sends⟩
      have taken : takes state.client.watched.isSome (watches state.client.watched pane) mine
          (.frame frame) = some (some left) := by
        rw [steady.1]
        apply sends.takes
        intro base is_base
        have shown := serves.shown keeps pane base is_base (by rw [found]; rfl) steady
        exact Option.some.inj (was.symm.trans shown)
      exact congrArg (fun result => result >>= fun value => some value) taken

theorem Serves.committed (sent : Sent state next prepared) (upheld : Upheld state)
    (ready : Current state subscriber prepared) (serves : Serves state subscriber)
    (views : next.terminalViews = state.terminalViews)
    (watched : next.watchedTerminals = state.watchedTerminals)
    (requests : next.requests = state.requests) (capture : next.capture = state.capture)
    (lagged : next.lagged = state.lagged)
    (renders : ∀ other, (other, next.changes) ∉ next.renders) :
    Serves next (subscriber.committed prepared) := by
  have based : ∀ pane base,
      (subscriber.committed prepared).terminalBaselines pane = some base →
        (∃ frame, prepared.sent pane = some (frame, base)) ∨
          prepared.sent pane = none ∧ subscriber.terminalBaselines pane = some base := by
    intro pane base is_base
    rw [baseline_committed] at is_base
    cases is_sent : prepared.sent pane with
    | none =>
        rw [is_sent] at is_base
        exact .inr ⟨rfl, is_base⟩
    | some sending =>
        rw [is_sent] at is_base
        cases is_base
        exact .inl ⟨sending.1, rfl⟩
  refine ⟨serves.nodup.filter _, ?_, ?_, ?_, ?_, ?_, ?_, ?_, ?_⟩
  · intro pane base latest is_base found
    rw [views] at found
    rcases based pane base is_base with ⟨frame, is_sent⟩ | ⟨-, before⟩
    · rcases ready.sends (PreparedTerminalRender.mem_of_sent is_sent) with ⟨-, given, is_given, sends⟩
      cases found.symm.trans is_given
      rw [sends.leaves]
      exact follows_self (upheld.fits pane latest found)
    · exact serves.follows pane base latest before found
  · intro keeps pane base is_base there
    rw [lagged] at keeps
    rw [views] at there
    rw [sent.carries upheld ready serves keeps]
    rcases based pane base is_base with ⟨frame, is_sent⟩ | ⟨nothing, before⟩
    · rw [is_sent]
    · rw [nothing]
      exact serves.sent keeps pane base before there
  · intro keeps pane base is_base there steady
    rw [lagged] at keeps
    rw [views] at there
    have is_steady : state.Steady pane := by
      simpa only [State.Steady, sent.client, watched, requests] using steady
    rw [sent.clientCarries upheld ready serves keeps is_steady]
    rcases based pane base is_base with ⟨frame, is_sent⟩ | ⟨nothing, before⟩
    · rw [is_sent]
    · rw [nothing]
      exact serves.shown keeps pane base before there is_steady
  · intro _ pane outside
    rw [watched] at outside
    rcases serves.outside ready.unfenced pane outside with ⟨bare, absent⟩
    constructor
    · rw [baseline_committed, bare]
      cases is_sent : prepared.sent pane with
      | none => rfl
      | some sending =>
          rcases sending with ⟨frame, left⟩
          cases outside.symm.trans (ready.sends (PreparedTerminalRender.mem_of_sent is_sent)).1
    · intro contained
      exact absent (List.mem_filter.mp contained).1
  · intro _ pane latest inside found absent
    rw [watched] at inside
    rw [views] at found
    rw [baseline_committed]
    cases is_sent : prepared.sent pane with
    | some sending =>
        rcases sending with ⟨frame, left⟩
        rcases ready.sends (PreparedTerminalRender.mem_of_sent is_sent) with ⟨-, given, is_given, sends⟩
        cases found.symm.trans is_given
        exact ⟨left, rfl, congrArg TerminalView.content sends.leaves⟩
    | none =>
        by_cases contained : pane ∈ prepared.pending
        · exact ready.silent found contained is_sent
        · apply serves.fresh ready.unfenced pane latest inside found
          intro pending
          exact absent (List.mem_filter.mpr ⟨pending, decide_eq_true contained⟩)
  · simp only [State.fenced, capture]
    exact serves.fence
  · intro captured is_captured
    rw [capture] at is_captured
    have pending := serves.fence.mpr ⟨captured, is_captured⟩
    rw [ready.unfenced] at pending
    cases pending
  · intro other listed
    exact absurd listed (renders other)

/-- A render whose generation is still that of the subscriber. -/
theorem Upheld.committed (upheld : Upheld state)
    (is_subscriber : state.subscriber = some subscriber)
    (ready : Current state subscriber prepared) (sent : Sent state next prepared)
    (views : next.terminalViews = state.terminalViews)
    (watched : next.watchedTerminals = state.watchedTerminals)
    (subscribed : next.subscriber = some (subscriber.committed prepared))
    (requests : next.requests = state.requests) (capture : next.capture = state.capture)
    (lagged : next.lagged = state.lagged) (halted : next.lagged = true → next.slot = [])
    (renders : next.renders = state.renders) (changes : next.changes = state.changes + 1)
    (silent : state.lagged = true → ∀ pane, prepared.sent pane = none) : Upheld next := by
  have serves := upheld.serves subscriber is_subscriber
  refine ⟨?_, ?_, ?_, ?_, ?_, ?_, halted, ?_, ?_, ?_⟩
  · rw [views]
    exact upheld.fits
  · rw [sent.client, sent.heard]
    exact upheld.alike
  · rw [sent.client]
    exact upheld.gap
  · rw [sent.client, requests, watched]
    exact upheld.requests
  · intro pane
    rcases upheld.chain pane with ⟨last, hears⟩
    cases keeps : state.lagged with
    | true =>
        refine ⟨last, ?_⟩
        rw [State.carries, sent.queue, silent keeps pane, sent.heard, Option.map_none,
          Option.toList_none, List.append_nil]
        exact hears
    | false =>
        rw [sent.carries upheld ready serves keeps]
        cases prepared.sent pane with
        | none => exact ⟨last, hears⟩
        | some sending => exact ⟨some sending.2, rfl⟩
  · intro nobody
    cases subscribed.symm.trans nobody
  · intro captured is_captured
    cases is_subscriber.symm.trans (upheld.alone captured (capture ▸ is_captured))
  · intro other count listed
    rw [renders] at listed
    rw [changes]
    exact (upheld.counted other count listed).trans (Nat.le_succ _)
  · intro others is_others
    cases subscribed.symm.trans is_others
    apply serves.committed sent upheld ready views watched requests capture lagged
    intro other listed
    rw [renders, changes] at listed
    exact upheld.uncounted listed

end Committed

theorem Upheld.fewer {renders : List (PreparedTerminalRender × ℕ)} (upheld : Upheld state)
    (fewer : ∀ entry ∈ renders, entry ∈ state.renders) : Upheld { state with renders } := by
  refine upheld.beside ⟨fun _ => rfl, rfl, rfl, rfl, rfl⟩ rfl upheld.fits upheld.idle upheld.halted
    upheld.alone ?_ ?_
  · intro prepared count listed
    exact upheld.counted prepared count (fewer _ listed)
  · intro subscriber is_subscriber
    refine (upheld.serves subscriber is_subscriber).beside ⟨fun _ => rfl, rfl, rfl, rfl, rfl⟩ rfl rfl
      rfl ?_
    intro prepared listed
    exact fewer _ listed

theorem Ready.frames {prepared : PreparedTerminalRender} (ready : Ready state subscriber prepared)
    (pane : PaneId) :
    prepared.frames.filterMap (fun sent => forPane pane (.frame sent.1 sent.2)) =
      ((prepared.sent pane).map fun sent => PaneMessage.frame sent.1).toList :=
  filterMap_frames ready.nodup pane

theorem Upheld.commitRender {prepared : PreparedTerminalRender} (upheld : Upheld state)
    (ready : ∀ subscriber, state.subscriber = some subscriber →
      subscriber.renderGeneration = prepared.generation → Current state subscriber prepared) :
    Upheld (state.commitRender prepared) := by
  unfold State.commitRender
  cases is_subscriber : state.subscriber with
  | none => exact upheld
  | some subscriber =>
      dsimp only
      split_ifs with other nothing lagged full
      · exact upheld
      · have ready := ready subscriber is_subscriber (not_not.mp other)
        have silent : ∀ pane, prepared.sent pane = none := by
          intro pane
          have frames := ready.frames pane
          rw [nothing] at frames
          cases is_sent : prepared.sent pane with
          | none => rfl
          | some sending =>
              rw [is_sent] at frames
              cases frames
        refine upheld.committed is_subscriber ready ⟨?_, rfl, rfl⟩ rfl rfl ?_ rfl rfl rfl
          upheld.halted rfl rfl (fun _ => silent)
        · intro pane
          rw [silent pane]
          exact (List.append_nil _).symm
        · rw [State.update, is_subscriber]
          rfl
      · refine upheld.narrowed (fun _ _ found => found) rfl rfl rfl rfl rfl ?_
          (upheld.halted lagged) rfl ?_ rfl le_rfl
        · exact queue_prefix_of_slot rfl rfl (upheld.halted lagged)
        · rw [← (upheld.serves subscriber is_subscriber).fence]
          have ready := ready subscriber is_subscriber (not_not.mp other)
          rw [ready.unfenced]
          exact Bool.false_ne_true
      · exact upheld
      · have ready := ready subscriber is_subscriber (not_not.mp other)
        have empty : state.slot = [] := not_not.mp full
        refine upheld.committed is_subscriber ready ⟨?_, rfl, rfl⟩ rfl rfl ?_ rfl rfl rfl
          ?_ rfl rfl ?_
        · intro pane
          rw [queue_split, queue_split state, State.slotMessages, State.slotMessages, empty,
            List.map_nil, List.filterMap_nil, List.append_nil, List.filterMap_map]
          exact congrArg _ (ready.frames pane)
        · rw [State.update, is_subscriber]
          rfl
        · intro keeps
          exact absurd keeps lagged
        · intro keeps
          exact absurd keeps lagged

theorem Upheld.current {index count : ℕ} {prepared : PreparedTerminalRender} (upheld : Upheld state)
    (heeds : Heeds state (.commit index)) (is_render : state.renders[index]? = some (prepared, count))
    (is_subscriber : state.subscriber = some subscriber)
    (same : subscriber.renderGeneration = prepared.generation) :
    Current state subscriber prepared := by
  rcases heeds prepared count subscriber is_render is_subscriber same with ⟨rfl, opened⟩
  have listed := List.mem_of_getElem? is_render
  exact ⟨(upheld.serves subscriber is_subscriber).renders prepared listed, opened⟩

theorem Upheld.commit {index : ℕ} (upheld : Upheld state) (heeds : Heeds state (.commit index)) :
    Upheld (state.perform (.commit index)) := by
  simp only [State.perform]
  cases is_render : state.renders[index]? with
  | none => exact upheld
  | some render =>
      rcases render with ⟨prepared, count⟩
      have kept : Upheld (state.commitRender prepared) := by
        apply upheld.commitRender
        intro subscriber is_subscriber same
        exact upheld.current heeds is_render is_subscriber same
      have renders : (state.commitRender prepared).renders = state.renders := by
        unfold State.commitRender
        cases state.subscriber with
        | none => rfl
        | some subscriber =>
            dsimp only
            split_ifs <;> rfl
      apply kept.fewer
      intro entry contained
      rw [renders]
      exact List.mem_of_mem_eraseIdx contained

end Condr.TerminalStream
