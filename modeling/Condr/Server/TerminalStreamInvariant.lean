import Condr.Server.TerminalStreamSteps

/-!
# What a subscriber has

Of each Pane, the messages on their way are taken one after the other by whoever takes everything,
and a baseline of the Server is what is held after the last. The Client holds the same, or nothing
where it has limited its frames; then it ignores deltas until a whole view comes. So no frame fails
to apply, and where nothing is on its way the Client shows the latest views.
-/

namespace Condr.TerminalStream

/-! ## What is on its way -/

namespace State

def slotMessages (state : State) : List Message :=
  state.slot.map fun sent => .frame sent.1 sent.2

/-- What is on its way of one Pane. -/
def queue (state : State) (pane : PaneId) : List PaneMessage :=
  (state.wire ++ state.reliable ++ state.slotMessages).filterMap (forPane pane)

/-- What one that takes everything has after all that is on its way. -/
def carries (state : State) (pane : PaneId) : Option (Option View) :=
  (state.queue pane).foldlM hear (state.heard pane)

def clientCarries (state : State) (pane : PaneId) : Option (Option View) :=
  (state.queue pane).foldlM
    (takes state.client.watched.isSome (watches state.client.watched pane))
    (state.client.terminals pane)

/-- The Client and the Server watch the Pane, and will after the sets on their way. -/
def Steady (state : State) (pane : PaneId) : Prop :=
  watches state.client.watched pane = true ∧ watches state.watchedTerminals pane = true ∧
    ∀ panes ∈ state.requests, pane ∈ panes

end State

/-! ## The invariant -/

/-- A render that may still be committed, where its Panes are open. -/
structure Ready (state : State) (subscriber : ClientSubscriber)
    (prepared : PreparedTerminalRender) : Prop where
  unfenced : subscriber.bootstrapPending = false
  nodup : (prepared.panes.map Prod.fst).Nodup
  panes : ∀ pane sent, (pane, sent) ∈ prepared.panes →
    watches state.watchedTerminals pane = true ∧
      ∀ latest, state.terminalViews pane = some latest →
        (sent = none ∧ ∃ base ∈ subscriber.terminalBaselines pane,
            base.content = latest.view.content) ∨
          ∃ frame left, sent = some (frame, left) ∧
            Sends (subscriber.terminalBaselines pane) latest frame left

/-- The frames of a render are of Panes that are open. -/
def PreparedTerminalRender.Open (prepared : PreparedTerminalRender) (state : State) : Prop :=
  ∀ sent ∈ prepared.frames, (state.terminalViews sent.1).isSome = true

/-- A fenced subscriber, with the views that its Bootstrap captured. -/
structure Fenced (state : State) (subscriber : ClientSubscriber) (views : PaneId → Option View) :
    Prop where
  bare : ∀ pane, subscriber.terminalBaselines pane = none
  watched : ∀ pane view, views pane = some view → watches state.watchedTerminals pane = true
  fits : ∀ pane view, views pane = some view → settleView ∅ view = view
  follows : ∀ pane view latest, views pane = some view →
    state.terminalViews pane = some latest → Follows view latest
  captured : ∀ pane latest, watches state.watchedTerminals pane = true →
    state.terminalViews pane = some latest →
      pane ∈ subscriber.pendingTerminals ∨ views pane = some latest.view
  deferred : ∀ message ∈ subscriber.deferred, ∃ closed, message = .layout closed ∧
    ∀ pane ∈ closed, state.terminalViews pane = none

structure Serves (state : State) (subscriber : ClientSubscriber) : Prop where
  nodup : subscriber.pendingTerminals.Nodup
  follows : ∀ pane base latest, subscriber.terminalBaselines pane = some base →
    state.terminalViews pane = some latest → Follows base latest
  sent : state.lagged = false → ∀ pane base, subscriber.terminalBaselines pane = some base →
    (state.terminalViews pane).isSome = true → state.carries pane = some (some base)
  shown : state.lagged = false → ∀ pane base, subscriber.terminalBaselines pane = some base →
    (state.terminalViews pane).isSome = true → state.Steady pane →
      state.clientCarries pane = some (some base)
  outside : subscriber.bootstrapPending = false → ∀ pane,
    watches state.watchedTerminals pane = false →
      subscriber.terminalBaselines pane = none ∧ pane ∉ subscriber.pendingTerminals
  fresh : subscriber.bootstrapPending = false → ∀ pane latest,
    watches state.watchedTerminals pane = true → state.terminalViews pane = some latest →
      pane ∉ subscriber.pendingTerminals →
        ∃ base, subscriber.terminalBaselines pane = some base ∧
          base.content = latest.view.content
  fence : subscriber.bootstrapPending = true ↔ state.fenced
  fenced : ∀ views, state.capture = some (views, true) → Fenced state subscriber views
  renders : ∀ prepared, (prepared, state.changes) ∈ state.renders →
    Ready state subscriber prepared

structure Upheld (state : State) : Prop where
  fits : ∀ pane latest, state.terminalViews pane = some latest → latest.Fits
  alike : ∀ pane, Alike state.client.watched.isSome (watches state.client.watched pane)
    (state.client.terminals pane) (state.heard pane)
  gap : state.client.gap = false
  requests : state.client.watched =
    (state.requests.getLast?.map some).getD state.watchedTerminals
  chain : ∀ pane, ∃ last, state.carries pane = some last
  idle : state.subscriber = none → state.slot = [] ∧ ¬state.fenced
  halted : state.lagged = true → state.slot = []
  alone : ∀ views, state.capture = some (views, false) → state.subscriber = none
  counted : ∀ prepared count, (prepared, count) ∈ state.renders → count ≤ state.changes
  serves : ∀ subscriber, state.subscriber = some subscriber → Serves state subscriber

/-- A step that stays clear of what the code leaves open: a whole view has a later revision or is
the one that was there, a terminal starts in a Pane that is watched and while no Bootstrap is made,
no frame of a Pane waits in the slot when it closes or is committed after that, and a generation
does not come back while a render of it is framed. -/
def Heeds (state : State) : Label → Prop
  | .publish pane (.full view) => ∀ latest, state.terminalViews pane = some latest →
      latest.view.revision < view.revision ∨ settleView ∅ view = latest.view
  | .install pane _ => watches state.watchedTerminals pane = true ∧ ¬state.fenced
  | .close closed => ∀ sent ∈ state.slot, sent.1 ∉ closed
  | .commit index => ∀ prepared count subscriber, state.renders[index]? = some (prepared, count) →
      state.subscriber = some subscriber → subscriber.renderGeneration = prepared.generation →
        count = state.changes ∧ prepared.Open state
  | _ => True

def heedingSystem : Transition.System State Label where
  initial := Starts
  step := fun state label next => streamSystem.step state label next ∧ Heeds state label

variable {state next : State} {subscriber after : ClientSubscriber} {pane : PaneId}

/-! ## Moves that leave the queue -/

/-- What of the queue stays in front still applies. -/
theorem chain_of_prefix {front whole : List PaneMessage} {held last : Option View}
    (before : front <+: whole) (hears : whole.foldlM hear held = some last) :
    ∃ middle, front.foldlM hear held = some middle := by
  rcases before with ⟨back, rfl⟩
  rw [List.foldlM_append] at hears
  rcases Option.bind_eq_some_iff.mp hears with ⟨middle, first, -⟩
  exact ⟨middle, first⟩

theorem Upheld.chain_of_prefix (upheld : Upheld state) (heard : next.heard = state.heard)
    (queue : next.queue pane <+: state.queue pane) : ∃ last, next.carries pane = some last := by
  rcases upheld.chain pane with ⟨last, hears⟩
  rw [State.carries, heard]
  exact TerminalStream.chain_of_prefix queue hears

/-- Nothing of what is on its way changed, and nobody moved at the other end. -/
structure Beside (state next : State) : Prop where
  queue : ∀ pane, next.queue pane = state.queue pane
  client : next.client = state.client
  heard : next.heard = state.heard
  requests : next.requests = state.requests
  lagged : next.lagged = state.lagged

theorem Beside.carries (beside : Beside state next) (pane : PaneId) :
    next.carries pane = state.carries pane := by
  rw [State.carries, State.carries, beside.queue, beside.heard]

theorem Beside.clientCarries (beside : Beside state next) (pane : PaneId) :
    next.clientCarries pane = state.clientCarries pane := by
  rw [State.clientCarries, State.clientCarries, beside.queue, beside.client]

theorem Beside.steady (beside : Beside state next)
    (watched : next.watchedTerminals = state.watchedTerminals) (pane : PaneId) :
    next.Steady pane ↔ state.Steady pane := by
  simp only [State.Steady, beside.client, beside.requests, watched]

/-- The parts that are about the Client stay. -/
theorem Upheld.beside (upheld : Upheld state) (beside : Beside state next)
    (watched : next.watchedTerminals = state.watchedTerminals)
    (fits : ∀ pane latest, next.terminalViews pane = some latest → latest.Fits)
    (idle : next.subscriber = none → next.slot = [] ∧ ¬next.fenced)
    (halted : next.lagged = true → next.slot = [])
    (alone : ∀ views, next.capture = some (views, false) → next.subscriber = none)
    (counted : ∀ prepared count, (prepared, count) ∈ next.renders → count ≤ next.changes)
    (serves : ∀ subscriber, next.subscriber = some subscriber → Serves next subscriber) :
    Upheld next := by
  refine ⟨fits, ?_, ?_, ?_, ?_, idle, halted, alone, counted, serves⟩
  · rw [beside.client, beside.heard]
    exact upheld.alike
  · rw [beside.client]
    exact upheld.gap
  · rw [beside.client, beside.requests, watched]
    exact upheld.requests
  · intro pane
    rw [beside.carries]
    exact upheld.chain pane

theorem Ready.congr {prepared : PreparedTerminalRender} (ready : Ready state subscriber prepared)
    (views : next.terminalViews = state.terminalViews)
    (watched : next.watchedTerminals = state.watchedTerminals) :
    Ready next subscriber prepared := by
  refine ⟨ready.unfenced, ready.nodup, ?_⟩
  rw [views, watched]
  exact ready.panes

theorem Fenced.congr {captured : PaneId → Option View} (fenced : Fenced state subscriber captured)
    (views : next.terminalViews = state.terminalViews)
    (watched : next.watchedTerminals = state.watchedTerminals) :
    Fenced next subscriber captured := by
  refine ⟨fenced.bare, ?_, fenced.fits, ?_, ?_, ?_⟩
  · rw [watched]
    exact fenced.watched
  · rw [views]
    exact fenced.follows
  · rw [views, watched]
    exact fenced.captured
  · rw [views]
    exact fenced.deferred

/-- The subscriber does not see what moves on its way to the Client. -/
theorem Serves.congr (serves : Serves state subscriber)
    (views : next.terminalViews = state.terminalViews)
    (watched : next.watchedTerminals = state.watchedTerminals)
    (capture : next.capture = state.capture)
    (renders : ∀ prepared, (prepared, next.changes) ∈ next.renders →
      (prepared, state.changes) ∈ state.renders)
    (lagged : next.lagged = false → state.lagged = false)
    (carries : next.lagged = false → ∀ pane, next.carries pane = state.carries pane)
    (shown : next.lagged = false → ∀ pane base, subscriber.terminalBaselines pane = some base →
      (state.terminalViews pane).isSome = true → next.Steady pane →
        next.clientCarries pane = some (some base)) :
    Serves next subscriber := by
  refine ⟨serves.nodup, ?_, ?_, ?_, ?_, ?_, ?_, ?_, ?_⟩
  · rw [views]
    exact serves.follows
  · intro keeps pane base is_base there
    rw [views] at there
    rw [carries keeps]
    exact serves.sent (lagged keeps) pane base is_base there
  · rw [views]
    exact shown
  · rw [watched]
    exact serves.outside
  · rw [views, watched]
    exact serves.fresh
  · rw [serves.fence]
    simp only [State.fenced, capture]
  · intro captured is_captured
    rw [capture] at is_captured
    exact (serves.fenced captured is_captured).congr views watched
  · intro prepared listed
    exact (serves.renders prepared (renders prepared listed)).congr views watched

theorem Serves.beside (serves : Serves state subscriber) (beside : Beside state next)
    (views : next.terminalViews = state.terminalViews)
    (watched : next.watchedTerminals = state.watchedTerminals)
    (capture : next.capture = state.capture)
    (renders : ∀ prepared, (prepared, next.changes) ∈ next.renders →
      (prepared, state.changes) ∈ state.renders) :
    Serves next subscriber := by
  apply serves.congr views watched capture renders
  · intro keeps
    rw [← beside.lagged]
    exact keeps
  · intro _
    exact beside.carries
  · intro keeps pane base is_base there steady
    rw [beside.clientCarries]
    exact serves.shown (beside.lagged ▸ keeps) pane base is_base there
      ((beside.steady watched pane).mp steady)

/-! ## Views that change -/

theorem Upheld.uncounted (upheld : Upheld state) {prepared : PreparedTerminalRender} {Goal : Prop}
    (listed : (prepared, state.changes + 1) ∈ state.renders) : Goal := by
  have bounded := upheld.counted prepared _ listed
  omega

theorem mem_insert_of_mem {panes : List PaneId} {other : PaneId} (contained : other ∈ panes) :
    other ∈ panes.insert pane :=
  List.mem_insert_iff.mpr (.inr contained)

/-- A subscriber whose Pane is marked, with a later view of it. -/
theorem Serves.marked {latest later : LatestTerminalView} (serves : Serves state subscriber)
    (beside : Beside state next) (watched : next.watchedTerminals = state.watchedTerminals)
    (capture : next.capture = state.capture)
    (views : next.terminalViews = Function.update state.terminalViews pane (some later))
    (found : state.terminalViews pane = some latest)
    (follows : ∀ base, Follows base latest → Follows base later)
    (baselines : after.terminalBaselines = subscriber.terminalBaselines)
    (nodup : after.pendingTerminals.Nodup)
    (fewer : ∀ other ∈ subscriber.pendingTerminals, other ∈ after.pendingTerminals)
    (marks : ∀ other ∈ after.pendingTerminals, other ∈ subscriber.pendingTerminals ∨
      watches state.watchedTerminals other = true)
    (marked : watches state.watchedTerminals pane = true → pane ∈ after.pendingTerminals)
    (pending : after.bootstrapPending = subscriber.bootstrapPending)
    (deferred : after.deferred = subscriber.deferred)
    (renders : ∀ prepared, (prepared, next.changes) ∈ next.renders →
      watches state.watchedTerminals pane = false ∧ Ready state subscriber prepared) :
    Serves next after := by
  have there : ∀ other, (next.terminalViews other).isSome = (state.terminalViews other).isSome := by
    intro other
    rw [views]
    by_cases here : other = pane
    · subst here
      rw [Function.update_self, found]
      rfl
    · rw [Function.update_of_ne here]
  have older : ∀ base other given, (∀ found, state.terminalViews other = some found →
      Follows base found) → next.terminalViews other = some given → Follows base given := by
    intro base other given before is_given
    rw [views] at is_given
    by_cases here : other = pane
    · subst here
      rw [Function.update_self] at is_given
      cases is_given
      exact follows base (before latest found)
    · rw [Function.update_of_ne here] at is_given
      exact before given is_given
  refine ⟨nodup, ?_, ?_, ?_, ?_, ?_, ?_, ?_, ?_⟩
  · intro other base given is_base is_given
    rw [baselines] at is_base
    exact older base other given (fun found => serves.follows other base found is_base) is_given
  · intro lagged other base is_base some
    rw [baselines] at is_base
    rw [beside.carries]
    exact serves.sent (beside.lagged ▸ lagged) other base is_base (there other ▸ some)
  · intro lagged other base is_base some steady
    rw [baselines] at is_base
    rw [beside.clientCarries]
    exact serves.shown (beside.lagged ▸ lagged) other base is_base (there other ▸ some)
      ((beside.steady watched other).mp steady)
  · intro unfenced other outside
    rw [watched] at outside
    rcases serves.outside (pending ▸ unfenced) other outside with ⟨bare, absent⟩
    refine ⟨by rw [baselines]; exact bare, ?_⟩
    intro contained
    rcases marks other contained with before | watched
    · exact absent before
    · rw [outside] at watched
      cases watched
  · intro unfenced other given inside is_given absent
    rw [watched] at inside
    rw [views] at is_given
    by_cases here : other = pane
    · subst here
      exact absurd (marked inside) absent
    · rw [Function.update_of_ne here] at is_given
      rw [baselines]
      exact serves.fresh (pending ▸ unfenced) other given inside is_given
        (fun contained => absent (fewer other contained))
  · rw [pending, serves.fence]
    simp only [State.fenced, capture]
  · intro captured is_captured
    rw [capture] at is_captured
    have fenced := serves.fenced captured is_captured
    refine ⟨?_, ?_, fenced.fits, ?_, ?_, ?_⟩
    · intro other
      rw [baselines]
      exact fenced.bare other
    · intro other view listed
      rw [watched]
      exact fenced.watched other view listed
    · intro other view given listed is_given
      exact older view other given (fun found => fenced.follows other view found listed) is_given
    · intro other given inside is_given
      rw [watched] at inside
      rw [views] at is_given
      by_cases here : other = pane
      · subst here
        exact .inl (marked inside)
      · rw [Function.update_of_ne here] at is_given
        rcases fenced.captured other given inside is_given with contained | same
        · exact .inl (fewer other contained)
        · exact .inr same
    · intro message contained
      rw [deferred] at contained
      rcases fenced.deferred message contained with ⟨closed, same, gone⟩
      refine ⟨closed, same, ?_⟩
      intro other listed
      have absent := gone other listed
      by_cases here : other = pane
      · rw [here, found] at absent
        cases absent
      · rw [views, Function.update_of_ne here]
        exact absent
  · intro prepared listed
    rcases renders prepared listed with ⟨outside, ready⟩
    refine ⟨pending ▸ ready.unfenced, ready.nodup, ?_⟩
    intro other sent contained
    rcases ready.panes other sent contained with ⟨inside, ways⟩
    have apart : other ≠ pane := by
      rintro rfl
      rw [outside] at inside
      cases inside
    rw [watched, baselines, views, Function.update_of_ne apart]
    exact ⟨inside, ways⟩

/-- The parts that a change of views does not touch. -/
theorem Upheld.views (upheld : Upheld state) (beside : Beside state next)
    (watched : next.watchedTerminals = state.watchedTerminals) (slot : next.slot = state.slot)
    (capture : next.capture = state.capture) (renders : next.renders = state.renders)
    (changes : state.changes ≤ next.changes)
    (subscriber : next.subscriber = none ↔ state.subscriber = none)
    (fits : ∀ pane latest, next.terminalViews pane = some latest → latest.Fits)
    (serves : ∀ subscriber, next.subscriber = some subscriber → Serves next subscriber) :
    Upheld next := by
  apply upheld.beside beside watched fits
  · intro nobody
    rcases upheld.idle (subscriber.mp nobody) with ⟨empty, unfenced⟩
    refine ⟨slot.trans empty, ?_⟩
    simpa only [State.fenced, capture] using unfenced
  · intro lagged
    rw [slot]
    exact upheld.halted (beside.lagged ▸ lagged)
  · intro views captured
    exact subscriber.mpr (upheld.alone views (capture ▸ captured))
  · intro prepared count listed
    rw [renders] at listed
    exact (upheld.counted prepared count listed).trans changes
  · exact serves

theorem Upheld.publish {frame : Frame} (upheld : Upheld state)
    (enabled : state.Enabled (.publish pane frame)) (heeds : Heeds state (.publish pane frame)) :
    Upheld (state.perform (.publish pane frame)) := by
  rcases enabled with ⟨there, applies⟩
  rcases Option.isSome_iff_exists.mp there with ⟨latest, found⟩
  rcases Option.isSome_iff_exists.mp applies with ⟨later, published⟩
  have given := published
  rw [found] at given
  have fitsLatest := upheld.fits pane latest found
  have fits : ∀ other given,
      Function.update state.terminalViews pane (some later) other = some given → given.Fits := by
    intro other given is_given
    by_cases here : other = pane
    · subst here
      rw [Function.update_self] at is_given
      cases is_given
      exact fits_publish fitsLatest ‹_›
    · rw [Function.update_of_ne here] at is_given
      exact upheld.fits other given is_given
  have follows : ∀ base, Follows base latest → Follows base later := by
    intro base follows
    apply follows.publish fitsLatest given
    intro view whole
    subst whole
    exact heeds latest found
  simp only [State.perform, published, State.publish]
  split_ifs with inside
  · refine upheld.views ⟨fun _ => rfl, rfl, rfl, rfl, rfl⟩ rfl rfl rfl rfl (Nat.le_succ _) ?_ fits ?_
    · simp [State.update]
    · intro after is_after
      rcases Option.map_eq_some_iff.mp is_after with ⟨subscriber, is_subscriber, rfl⟩
      refine (upheld.serves subscriber is_subscriber).marked ⟨fun _ => rfl, rfl, rfl, rfl, rfl⟩ rfl
        rfl rfl found follows rfl ?_ ?_ ?_ ?_ rfl rfl ?_
      · exact (upheld.serves subscriber is_subscriber).nodup.insert
      · intro other contained
        exact mem_insert_of_mem contained
      · intro other contained
        rcases List.mem_insert_iff.mp contained with rfl | before
        · exact .inr inside
        · exact .inl before
      · intro _
        exact List.mem_insert_self
      · intro prepared listed
        exact upheld.uncounted listed
  · refine upheld.views ⟨fun _ => rfl, rfl, rfl, rfl, rfl⟩ rfl rfl rfl rfl le_rfl Iff.rfl fits ?_
    intro subscriber is_subscriber
    have serves := upheld.serves subscriber is_subscriber
    refine serves.marked ⟨fun _ => rfl, rfl, rfl, rfl, rfl⟩ rfl rfl rfl found follows rfl
      serves.nodup ?_ ?_ ?_ rfl rfl ?_
    · intro other contained
      exact contained
    · intro other contained
      exact .inl contained
    · intro watched
      exact absurd watched inside
    · intro prepared listed
      exact ⟨by simpa using inside, serves.renders prepared listed⟩

theorem Upheld.install {view : View} (upheld : Upheld state)
    (heeds : Heeds state (.install pane view)) : Upheld (state.install pane view) := by
  rcases heeds with ⟨inside, unfenced⟩
  refine upheld.views ⟨fun _ => rfl, rfl, rfl, rfl, rfl⟩ rfl rfl rfl rfl (Nat.le_succ _) ?_ ?_ ?_
  · simp [State.install, State.update]
  · intro other given is_given
    by_cases here : other = pane
    · subst here
      simp only [State.install, Function.update_self, Option.some.injEq] at is_given
      subst is_given
      exact fits_settled view
    · simp only [State.install, Function.update_of_ne here] at is_given
      exact upheld.fits other given is_given
  · intro after is_after
    rcases Option.map_eq_some_iff.mp is_after with ⟨subscriber, is_subscriber, rfl⟩
    have serves := upheld.serves subscriber is_subscriber
    have based : ∀ other base, Function.update subscriber.terminalBaselines pane none other =
        some base → other ≠ pane ∧ subscriber.terminalBaselines other = some base := by
      intro other base is_base
      by_cases here : other = pane
      · subst here
        rw [Function.update_self] at is_base
        cases is_base
      · rw [Function.update_of_ne here] at is_base
        exact ⟨here, is_base⟩
    have views : ∀ other, other ≠ pane →
        (state.install pane view).terminalViews other = state.terminalViews other := by
      intro other apart
      exact Function.update_of_ne apart _ _
    refine ⟨serves.nodup.insert, ?_, ?_, ?_, ?_, ?_, serves.fence, ?_, ?_⟩
    · intro other base given is_base is_given
      rcases based other base is_base with ⟨apart, before⟩
      rw [views other apart] at is_given
      exact serves.follows other base given before is_given
    · intro lagged other base is_base some
      rcases based other base is_base with ⟨apart, before⟩
      rw [views other apart] at some
      exact serves.sent lagged other base before some
    · intro lagged other base is_base some steady
      rcases based other base is_base with ⟨apart, before⟩
      rw [views other apart] at some
      exact serves.shown lagged other base before some steady
    · intro running other outside
      rcases serves.outside running other outside with ⟨bare, absent⟩
      have apart : other ≠ pane := by
        rintro rfl
        exact absurd (inside.symm.trans outside) (by decide)
      refine ⟨(Function.update_of_ne apart _ _).trans bare, ?_⟩
      intro contained
      rcases List.mem_insert_iff.mp contained with here | before
      · exact apart here
      · exact absent before
    · intro running other given watched is_given absent
      have apart : other ≠ pane := by
        rintro rfl
        exact absent List.mem_insert_self
      rw [views other apart] at is_given
      rcases serves.fresh running other given watched is_given
        (fun contained => absent (mem_insert_of_mem contained)) with ⟨base, is_base, same⟩
      exact ⟨base, (Function.update_of_ne apart _ _).trans is_base, same⟩
    · intro captured is_captured
      exact absurd ⟨captured, is_captured⟩ unfenced
    · intro prepared listed
      exact upheld.uncounted listed

end Condr.TerminalStream
