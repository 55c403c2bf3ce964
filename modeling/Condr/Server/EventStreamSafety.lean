import Condr.Server.EventStreamRequests

/-!
# No event is lost

The invariant over every step, and what follows in every reachable state: what a Device shows
stands for the events up to its number, and where nothing is on its way either way the Device is
subscribed and has all of them.
-/

namespace Condr.EventStream

open NumberedLog

variable {Event : Type} {state next : State Event}

/-! ## Bootstraps -/

/-- After a Bootstrap the Device is at its number, and asks to go on from there. -/
theorem take_bootstrap (track : Track Event) (sequence : ℕ) (snapshot : List Event) :
    (track.take (.bootstrap sequence snapshot)).sequence = sequence ∧
      (track.take (.bootstrap sequence snapshot)).snapshotPending = false ∧
      (track.take (.bootstrap sequence snapshot)).subscription ≠ .none ∧
      ((track.take (.bootstrap sequence snapshot)).subscription = .pending →
        track.subscription = .pending ∨ .subscribe sequence ∈
          (track.take (.bootstrap sequence snapshot)).asked) ∧
      ((track.take (.bootstrap sequence snapshot)).subscription = .active →
        track.subscription = .active) ∧
      ∀ request ∈ track.asked, request ∈ (track.take (.bootstrap sequence snapshot)).asked := by
  simp only [Track.take]
  split_ifs with nothing
  · refine ⟨rfl, rfl, ?_, ?_, ?_, ?_⟩
    · intro same
      cases same
    · intro _
      exact .inr (List.mem_append_right _ List.mem_cons_self)
    · intro active
      cases active
    · intro request contained
      exact List.mem_append_left _ contained
  · exact ⟨rfl, rfl, nothing, .inl, id, fun _ => id⟩

theorem Believes.bootstrap {sequence count : ℕ} {snapshot content : List Event}
    (believes : Believes state)
    (last : next.last = { state.last.take (.bootstrap sequence snapshot) with
      sequence := count, content })
    (lagged : next.lagged = false)
    (active : state.subscriber.isSome = true → next.subscriber.isSome = true)
    (current : next.subscriber.isSome = true → count = next.sequence) : Believes next := by
  rcases take_bootstrap state.last sequence snapshot with
    ⟨-, settled, not_none, is_pending, is_active, kept⟩
  refine ⟨?_, ?_, ?_, ?_, ?_, ?_⟩
  · rw [last]
    intro nothing
    exact absurd nothing not_none
  · rw [last]
    intro pending
    cases settled.symm.trans pending
  · rw [last]
    intro pending
    rcases is_pending pending with was | asked
    · rcases believes.pending was with ⟨afterSequence, contained⟩
      exact ⟨afterSequence, kept _ contained⟩
    · exact ⟨_, asked⟩
  · rw [last]
    intro is_now
    exact active (believes.active (is_active is_now))
  · intro is_lagged
    cases lagged.symm.trans is_lagged
  · intro subscriber is_subscriber _ _
    rw [last]
    exact .inl (current (by rw [is_subscriber]; rfl))

/-- The Bootstrap and what waited for it. -/
theorem Upheld.bootstrapped {capture : Capture Event} {resumed : Option (ClientSubscriber Event)}
    {sent : Bool} {content : List Event} (upheld : Upheld state)
    (captured : state.capture = some capture) (deferred : List (Message Event))
    (each : ∀ message ∈ deferred, Valid state.log message ∧
      ∀ sequence snapshot, message ≠ .bootstrap sequence snapshot)
    (reaches : (state.last.take (.bootstrap capture.sequence capture.snapshot)).follow deferred =
      { state.last.take (.bootstrap capture.sequence capture.snapshot) with
        sequence := if resumed.isSome then state.log.length else capture.sequence
        content })
    (unfenced : ∀ subscriber, resumed = some subscriber → subscriber.bootstrapPending = false)
    (active : state.subscriber.isSome = true → resumed.isSome = true)
    (ways : Sends { state.resumeAfterLag with capture := none }
      (.bootstrap capture.sequence capture.snapshot :: deferred) next sent) :
    Upheld { next with subscriber := if sent then resumed else none } := by
  rcases upheld.fences.capture capture captured with ⟨past, snapshot, before, -⟩
  have freed : Sound { state.resumeAfterLag with capture := none } :=
    upheld.sound.same ⟨rfl, rfl, rfl, rfl, rfl, rfl, rfl⟩ rfl
  cases ways with
  | refused lagged => cases lagged
  | sent lagged =>
      rw [if_pos rfl]
      have valid : ∀ message ∈ .bootstrap capture.sequence capture.snapshot :: deferred,
          Valid state.log message := by
        intro message contained
        cases contained with
        | head => exact ⟨past, snapshot⟩
        | tail _ later => exact (each message later).1
      have rising : state.last.Rising
          (.bootstrap capture.sequence capture.snapshot :: deferred) :=
        ⟨before, rising_of_events fun message contained => (each message contained).2⟩
      rcases freed.pushed { state.resumeAfterLag with
          capture := none
          subscriber := resumed
          reliable := state.reliable ++
            .bootstrap capture.sequence capture.snapshot :: deferred }
        ⟨rfl, rfl, rfl, rfl, rfl, rfl, rfl⟩ (List.append_assoc ..).symm valid rising
        with ⟨pushed, last⟩
      refine ⟨pushed, .free rfl unfenced, ?_⟩
      apply upheld.believes.bootstrap (last.trans reaches) rfl active
      intro is_some
      rw [if_pos is_some]
      exact upheld.sound.sequence.symm
  | overflowed lagged =>
      rw [if_neg Bool.false_ne_true]
      rcases freed.overflowed { state.resumeAfterLag with
          capture := none
          subscriber := none
          reliable := [.subscriptionRejected]
          lagged := true } ⟨rfl, rfl, rfl, rfl, rfl, rfl, rfl⟩ rfl rfl
        with ⟨overflowed, -, _, last⟩
      refine ⟨overflowed, .free rfl ?_, believes_of_rejected last⟩
      intro subscriber is_subscriber
      cases is_subscriber

theorem Upheld.finishBootstrap {room : Bool} (upheld : Upheld state) :
    Upheld (state.finishBootstrap room) := by
  cases captured : state.capture with
  | none =>
      rw [State.finishBootstrap, captured]
      exact upheld
  | some capture =>
      rcases upheld.fences.capture capture captured with ⟨past, snapshot, before, fenced⟩
      rcases take_bootstrap state.last capture.sequence capture.snapshot with ⟨there, -⟩
      cases is_subscriber : state.subscriber with
      | none =>
          rw [is_subscriber] at fenced
          have ways := sends { state.resumeAfterLag with capture := none }
            [.bootstrap capture.sequence capture.snapshot] room
          generalize is_sending : State.sendReliable { state.resumeAfterLag with capture := none }
            [.bootstrap capture.sequence capture.snapshot] room = sending at ways
          have finishes : state.finishBootstrap room =
              { sending.1 with subscriber := if sending.2 then none else none } := by
            have nobody : sending.1.subscriber = none := by
              rcases sending with ⟨sending, sent⟩
              cases ways <;> exact is_subscriber
            simp only [State.finishBootstrap, captured, fenced, Option.isSome_none,
              Bool.false_eq_true, if_false, is_sending, ite_self]
            rw [← nobody]
          rw [finishes]
          refine upheld.bootstrapped captured [] ?_ (congrArg (fun sequence =>
            { state.last.take (.bootstrap capture.sequence capture.snapshot) with sequence }) there)
            ?_ ?_ ways
          · intro message contained
            cases contained
          · intro subscriber is_some
            cases is_some
          · rw [is_subscriber]
            exact id
      | some subscriber =>
          rw [is_subscriber] at fenced
          rcases upheld.fences.deferred subscriber is_subscriber
            (upheld.fences.pending capture subscriber captured is_subscriber) with
            ⟨same, is_same, deferred⟩
          cases captured.symm.trans is_same
          have ways := sends { state.resumeAfterLag with capture := none }
            (.bootstrap capture.sequence capture.snapshot :: subscriber.deferredReliable) room
          generalize is_sending : State.sendReliable { state.resumeAfterLag with capture := none }
            (.bootstrap capture.sequence capture.snapshot :: subscriber.deferredReliable) room =
            sending at ways
          have finishes : state.finishBootstrap room =
              { sending.1 with subscriber := if sending.2 then some ⟨false, []⟩ else none } := by
            rw [← is_sending]
            simp only [State.finishBootstrap, captured, fenced, State.resumeAfterLag, is_subscriber,
              Option.isSome_some, if_true]
          rw [finishes]
          rcases Track.follow_after there.ge (there.le.trans past) with ⟨content, follows⟩
          have reaches := (congrArg (Track.follow _) deferred).trans follows
          refine upheld.bootstrapped captured subscriber.deferredReliable ?_ reaches ?_ (fun _ => rfl) ways
          · rw [deferred]
            exact fun _ => valid_after
          · intro resumed is_resumed
            cases is_resumed
            rfl

theorem Upheld.failBootstrap {room : Bool} (upheld : Upheld state) :
    Upheld (state.failBootstrap room) := by
  unfold State.failBootstrap
  cases captured : state.capture with
  | none => exact upheld
  | some capture =>
      have fenced := (upheld.fences.capture capture captured).2.2.2
      apply Sound.rejecting
      · exact upheld.sound.same ⟨rfl, rfl, rfl, rfl, rfl, rfl, rfl⟩ rfl
      · rfl
      · intro subscriber is_subscriber
        cases was : state.subscriber with
        | none => simp [State.resumeAfterLag, was] at is_subscriber
        | some before =>
            rw [was] at fenced
            simp only [State.resumeAfterLag, show capture.fenced = true from fenced, if_true, was,
              Option.map_some] at is_subscriber
            cases is_subscriber
            rfl
      · exact .inr rfl
      · intro lagged
        cases lagged

/-! ## What is on its way -/

theorem Fences.same (fences : Fences state) (capture : next.capture = state.capture)
    (subscriber : next.subscriber = state.subscriber) (log : next.log = state.log)
    (before : next.last.sequence ≤ state.last.sequence) : Fences next := by
  refine ⟨?_, ?_, ?_⟩
  · rw [capture, log, subscriber]
    intro captured is_captured
    rcases fences.capture captured is_captured with ⟨past, snapshot, earlier, fenced⟩
    exact ⟨past, snapshot, before.trans earlier, fenced⟩
  · rw [capture, subscriber]
    exact fences.pending
  · rw [capture, subscriber, log]
    exact fences.deferred

theorem beside_write (state : State Event) :
    Beside state state.write ∧ state.write.queued = state.queued := by
  unfold State.write
  cases is_reliable : state.reliable with
  | nil => exact ⟨⟨rfl, rfl, rfl, rfl, rfl, rfl, rfl⟩, rfl⟩
  | cons message reliable =>
      refine ⟨⟨rfl, rfl, rfl, rfl, rfl, rfl, rfl⟩, ?_⟩
      simp [State.queued, is_reliable]

theorem Upheld.write (upheld : Upheld state) : Upheld state.write := by
  rcases beside_write state with ⟨beside, queued⟩
  have last := last_of_queued beside queued
  have same : state.write.capture = state.capture ∧ state.write.lagged = state.lagged ∧
      state.write.subscriber = state.subscriber := by
    unfold State.write
    cases state.reliable <;> exact ⟨rfl, rfl, rfl⟩
  rcases same with ⟨capture, lagged, subscriber⟩
  refine ⟨upheld.sound.same beside queued,
    upheld.fences.same capture subscriber beside.log (congrArg Track.sequence last).le,
    upheld.believes.same last ?_ lagged ?_ ?_⟩
  · rw [capture]
    exact id
  · rw [subscriber]
    exact id
  · rw [subscriber, lagged, last, beside.sequence]
    exact upheld.believes.current

theorem Sound.takes (sound : Sound state) (shown : Option PaneId) (message : Message Event) :
    track (state.device.apply shown (state.incoming message)) =
        (track state.device).take message ∧
      Tuned state (state.device.apply shown (state.incoming message)) :=
  apply_spec sound.tuned (Nat.lt_of_le_of_lt (Nat.succ_le_succ sound.knows.past) sound.room) shown
    message

theorem Sound.last_apply (sound : Sound state) (shown : Option PaneId) :
    (state.apply shown).last = state.last := by
  unfold State.apply
  cases is_wire : state.wire with
  | nil => rfl
  | cons message wire =>
      rw [State.last, State.last, (sound.takes shown message).1, State.queued, State.queued, is_wire]
      rfl

theorem Upheld.apply {shown : Option PaneId} (upheld : Upheld state) :
    Upheld (state.apply shown) := by
  have last := upheld.sound.last_apply shown
  unfold State.apply at last ⊢
  cases is_wire : state.wire with
  | nil => exact upheld
  | cons message wire =>
      rcases upheld.sound.takes shown message with ⟨takes, still⟩
      rcases upheld.sound with ⟨sequence, room, events, tuned, knows, valid, rising, asks⟩
      rw [State.queued, is_wire, List.cons_append] at valid rising
      rw [is_wire] at last
      have sound : Sound { state with
          wire, device := state.device.apply shown (state.incoming message) } := by
        refine ⟨sequence, room, events, still.beside rfl rfl rfl, ?_, ?_, ?_, ?_⟩
        · rw [takes]
          exact knows.take (valid message List.mem_cons_self)
        · intro other contained
          exact valid other (List.mem_cons_of_mem _ contained)
        · rw [takes]
          exact rising.2
        · rw [takes]
          exact asks.take rising.1
      refine ⟨sound, upheld.fences.same rfl rfl rfl (congrArg Track.sequence last).le,
        upheld.believes.same last id rfl id ?_⟩
      rw [last]
      exact upheld.believes.current

theorem Upheld.overflow (upheld : Upheld state) :
    Upheld { state with reliable := [.subscriptionRejected], lagged := true } := by
  rcases upheld.sound.overflowed { state with reliable := [.subscriptionRejected], lagged := true }
    ⟨rfl, rfl, rfl, rfl, rfl, rfl, rfl⟩ rfl rfl with ⟨overflowed, before, _, last⟩
  exact ⟨overflowed, upheld.fences.same rfl rfl rfl before, believes_of_rejected last⟩

theorem Upheld.removeLagged (upheld : Upheld state) (enabled : state.Enabled .removeLagged) :
    Upheld { state with subscriber := none } := by
  rcases enabled with ⟨lagged, unfenced⟩
  refine ⟨upheld.sound.same ⟨rfl, rfl, rfl, rfl, rfl, rfl, rfl⟩ rfl, ⟨?_, ?_, ?_⟩,
    upheld.believes.refused lagged lagged rfl rfl id rfl⟩
  · intro capture captured
    rcases upheld.fences.capture capture captured with ⟨past, snapshot, before, fenced⟩
    refine ⟨past, snapshot, before, ?_⟩
    cases is_subscriber : state.subscriber with
    | none =>
        rw [fenced, is_subscriber]
    | some subscriber =>
        have pending := upheld.fences.pending capture subscriber captured is_subscriber
        simp [is_subscriber, pending] at unfenced
  · intro capture subscriber _ is_subscriber
    cases is_subscriber
  · intro subscriber is_subscriber
    cases is_subscriber

/-! ## What the Device sends of itself -/

namespace Track

/-- The same place, with a Bootstrap asked for as well. -/
structure Urged (track urged : Track Event) : Prop where
  sequence : urged.sequence = track.sequence
  content : urged.content = track.content
  subscription : urged.subscription = track.subscription
  pending : track.snapshotPending = true → urged.snapshotPending = true
  asked : .snapshot ∈ track.asked → .snapshot ∈ urged.asked
  urges : urged.snapshotPending = true → track.snapshotPending = true ∨ .snapshot ∈ urged.asked
  subscribes : ∀ afterSequence,
    .subscribe afterSequence ∈ urged.asked ↔ .subscribe afterSequence ∈ track.asked

theorem urged_requestSnapshot (track : Track Event) : Urged track track.requestSnapshot := by
  unfold requestSnapshot
  split_ifs with pending
  · exact ⟨rfl, rfl, rfl, id, id, .inl, fun _ => Iff.rfl⟩
  · refine ⟨rfl, rfl, rfl, fun _ => rfl, List.mem_append_left _, ?_, ?_⟩
    · intro _
      exact .inr (List.mem_append_right _ List.mem_cons_self)
    · intro afterSequence
      simp

theorem subscribe_mem_requestSnapshot (track : Track Event) (afterSequence : ℕ) :
    .subscribe afterSequence ∈ track.requestSnapshot.asked ↔
      .subscribe afterSequence ∈ track.asked := by
  unfold requestSnapshot
  split_ifs <;> simp

variable {track urged : Track Event}

theorem Urged.requestSnapshot (urges : Urged track urged) :
    Urged track.requestSnapshot urged.requestSnapshot := by
  refine ⟨?_, ?_, ?_, ?_, ?_, ?_, ?_⟩
  · rw [sequence_requestSnapshot, sequence_requestSnapshot]
    exact urges.sequence
  · rw [content_requestSnapshot, content_requestSnapshot]
    exact urges.content
  · rw [subscription_requestSnapshot, subscription_requestSnapshot]
    exact urges.subscription
  · intro _
    exact snapshotPending_requestSnapshot urged
  · unfold Track.requestSnapshot
    split_ifs with before now
    · exact urges.asked
    · exact absurd (urges.pending before) now
    · intro _
      exact (urges.urges (by assumption)).resolve_left before
    · intro _
      exact List.mem_append_right _ List.mem_cons_self
  · intro _
    exact .inl (snapshotPending_requestSnapshot track)
  · intro afterSequence
    rw [subscribe_mem_requestSnapshot, subscribe_mem_requestSnapshot]
    exact urges.subscribes afterSequence

theorem Urged.take (urges : Urged track urged) (message : Message Event) :
    Urged (track.take message) (urged.take message) := by
  rcases urges with ⟨sequence, content, subscription, pending, asked, urged_asked, subscribes⟩
  cases message with
  | event number event =>
      simp only [Track.take, sequence, content]
      split_ifs
      · apply Urged.requestSnapshot
        exact ⟨rfl, rfl, rfl, pending, asked, urged_asked, subscribes⟩
      · exact ⟨sequence, content, subscription, pending, asked, urged_asked, subscribes⟩
      · exact ⟨rfl, rfl, subscription, pending, asked, urged_asked, subscribes⟩
  | subscribed => exact ⟨sequence, content, rfl, pending, asked, urged_asked, subscribes⟩
  | subscriptionRejected =>
      apply Urged.requestSnapshot
      exact ⟨sequence, content, rfl, id, asked, .inl, subscribes⟩
  | snapshotRejected =>
      apply Urged.requestSnapshot
      exact ⟨sequence, content, rfl, id, asked, .inl, subscribes⟩
  | bootstrap number snapshot =>
      simp only [Track.take, subscription]
      split_ifs
      · refine ⟨rfl, rfl, rfl, id, ?_, .inl, ?_⟩
        · intro contained
          simp only [List.mem_append, List.mem_singleton, reduceCtorEq, or_false] at contained ⊢
          exact asked contained
        · intro afterSequence
          simp only [List.mem_append, subscribes]
      · exact ⟨rfl, rfl, rfl, id, asked, .inl, subscribes⟩

theorem Urged.follow (urges : Urged track urged) (messages : List (Message Event)) :
    Urged (track.follow messages) (urged.follow messages) := by
  induction messages generalizing track urged with
  | nil => exact urges
  | cons message messages induction => exact induction (urges.take message)

theorem Urged.rising (urges : Urged track urged) {messages : List (Message Event)}
    (rising : track.Rising messages) : urged.Rising messages := by
  induction messages generalizing track urged with
  | nil => trivial
  | cons message messages induction =>
      refine ⟨?_, induction (urges.take message) rising.2⟩
      cases message with
      | bootstrap sequence snapshot => exact urges.sequence.le.trans rising.1
      | event sequence event => trivial
      | subscribed => trivial
      | subscriptionRejected => trivial
      | snapshotRejected => trivial

end Track

theorem Believes.urged (believes : Believes state) (urges : Track.Urged state.last next.last)
    (capture : next.capture = state.capture) (subscriber : next.subscriber = state.subscriber)
    (lagged : next.lagged = state.lagged) (sequence : next.sequence = state.sequence) :
    Believes next := by
  refine ⟨?_, ?_, ?_, ?_, ?_, ?_⟩
  · rw [urges.subscription]
    intro nothing
    exact urges.pending (believes.nothing nothing)
  · rw [capture]
    intro pending
    rcases urges.urges pending with before | asked
    · rcases believes.asked before with contained | captured
      · exact .inl (urges.asked contained)
      · exact .inr captured
    · exact .inl asked
  · rw [urges.subscription]
    intro pending
    rcases believes.pending pending with ⟨afterSequence, contained⟩
    exact ⟨afterSequence, (urges.subscribes afterSequence).mpr contained⟩
  · rw [urges.subscription, subscriber]
    exact believes.active
  · rw [urges.subscription, lagged]
    exact believes.lagged
  · rw [subscriber, lagged, sequence, urges.sequence]
    intro after is_after unfenced unlagged
    rcases believes.current after is_after unfenced unlagged with here | pending
    · exact .inl here
    · exact .inr (urges.pending pending)

/-- The Device asks for something, and stays where it is. -/
theorem Upheld.urged {device : Device (historyContent Event)} (upheld : Upheld state)
    (tuned : Tuned state device) (urges : Track.Urged (track state.device) (track device)) :
    Upheld { state with device } := by
  have last : Track.Urged state.last (State.last { state with device }) := urges.follow state.queued
  have sound := upheld.sound
  refine ⟨⟨sound.sequence, sound.room, sound.events, tuned.beside rfl rfl rfl, ⟨?_, ?_⟩, sound.valid,
    urges.rising sound.rising, ?_⟩, upheld.fences.same rfl rfl rfl last.sequence.le,
    upheld.believes.urged last rfl rfl rfl rfl⟩
  · rw [urges.sequence]
    exact sound.knows.past
  · rw [urges.content, urges.sequence]
    exact sound.knows.content
  · intro afterSequence contained
    rw [urges.sequence]
    exact sound.asks afterSequence ((urges.subscribes afterSequence).mp contained)

theorem Upheld.resync (upheld : Upheld state) :
    Upheld { state with device := state.device.apply none .terminalResync } := by
  rcases requestSnapshot_spec upheld.sound.tuned with ⟨tracks, tuned⟩
  apply upheld.urged tuned
  show Track.Urged _ (track state.device.requestSnapshot)
  rw [tracks]
  exact Track.urged_requestSnapshot _

theorem Upheld.send {message : ClientMessage} (upheld : Upheld state)
    (enabled : state.Enabled (.send message)) :
    Upheld { state with device := state.device.send message } := by
  have other : asks message = false := enabled
  have session : ∀ sessionId, askedSession message = some sessionId →
      sessionId = state.sessionId := by
    intro sessionId asked
    cases (askedSession_of_not_asks other).symm.trans asked
  rcases track_send upheld.sound.tuned message session with ⟨tracks, tuned⟩
  apply upheld.urged tuned
  rw [tracks, request_of_not_asks other, Option.toList_none, List.append_nil]
  exact ⟨rfl, rfl, rfl, id, id, .inl, fun _ => Iff.rfl⟩

/-! ## Runs -/

theorem filterMap_request {messages : List ClientMessage}
    (others : messages.all (fun message => !asks message) = true) :
    messages.filterMap request = [] := by
  apply List.filterMap_eq_nil_iff.mpr
  intro message contained
  apply request_of_not_asks
  simpa using List.all_eq_true.mp others message contained

theorem upheld_of_starts (starts : Starts state) : Upheld state := by
  rcases starts.outgoing with ⟨attempt, before, later, is_io, others⟩
  rw [List.all_append, Bool.and_eq_true] at others
  have queued : state.queued = [] := by
    rw [State.queued, starts.wire, starts.reliable]
    rfl
  have asked : (track state.device).asked = [.subscribe state.device.model.sequence] := by
    simp only [track, is_io, Option.elim_some, List.filterMap_append, List.filterMap_cons,
      filterMap_request others.1, filterMap_request others.2]
    rfl
  have last : state.last = track state.device := by
    rw [State.last, queued]
    rfl
  have pending : state.last.subscription = .pending := by
    rw [last]
    exact starts.subscription
  have settled : state.last.snapshotPending = false := by
    rw [last]
    exact starts.snapshotPending
  have nobody : ∀ subscriber, state.subscriber = some subscriber →
      subscriber.bootstrapPending = false := by
    intro subscriber is_subscriber
    cases starts.subscriber.symm.trans is_subscriber
  refine ⟨⟨starts.sequence, starts.room, starts.events, ?_, ⟨starts.past, starts.content⟩, ?_, ?_, ?_⟩,
    .free starts.capture nobody, ?_, ?_, ?_, ?_, ?_, ?_⟩
  · refine ⟨starts.serverId, starts.runtimeEpoch, starts.sessionId, _, is_io, ?_⟩
    intro message contained sessionId asks_of
    have other : ∀ messages : List ClientMessage,
        messages.all (fun message => !asks message) = true → message ∈ messages →
        sessionId = state.sessionId := by
      intro messages all among
      have silent : asks message = false := by simpa using List.all_eq_true.mp all message among
      cases (askedSession_of_not_asks silent).symm.trans asks_of
    rcases List.mem_append.mp contained with early | rest
    · exact other before others.1 early
    · cases rest with
      | head =>
          cases asks_of
          rfl
      | tail _ late => exact other later others.2 late
  · rw [queued]
    intro message contained
    cases contained
  · rw [queued]
    trivial
  · intro afterSequence contained
    rw [asked] at contained
    cases List.mem_singleton.mp contained
    exact le_rfl
  · rw [pending]
    intro nothing
    cases nothing
  · rw [settled]
    intro is_pending
    cases is_pending
  · intro _
    rw [last, asked]
    exact ⟨_, List.mem_cons_self⟩
  · rw [pending]
    intro active
    cases active
  · rw [starts.lagged]
    intro lagged
    cases lagged
  · intro subscriber is_subscriber
    cases starts.subscriber.symm.trans is_subscriber

theorem Upheld.perform {label : Label Event} (upheld : Upheld state) (enabled : state.Enabled label)
    (heeds : Heeds state label) : Upheld (state.perform label) := by
  cases label with
  | publish event origin room => exact upheld.publish enabled heeds
  | overflow => exact upheld.overflow
  | removeLagged => exact upheld.removeLagged enabled
  | read room => exact upheld.read enabled
  | finishBootstrap room => exact upheld.finishBootstrap
  | failBootstrap room => exact upheld.failBootstrap
  | write => exact upheld.write
  | apply shown => exact upheld.apply
  | resync => exact upheld.resync
  | send message => exact upheld.send enabled

theorem upheld_of_reachable (reached : heedingSystem.Reachable state) : Upheld state := by
  apply reached.invariant Upheld
  · intro state starts
    exact upheld_of_starts starts
  · rintro state label next upheld ⟨⟨enabled, rfl⟩, heeds⟩
    exact upheld.perform enabled heeds

/-! ## What follows -/

/-- The log and the Device's model stay. -/
structure Stays (state next : State Event) : Prop where
  log : next.log = state.log
  model : next.device.model = state.device.model

theorem Stays.trans {last : State Event} (first : Stays state next) (second : Stays next last) :
    Stays state last :=
  ⟨second.log.trans first.log, second.model.trans first.model⟩

theorem stays_sendReliable (state : State Event) (messages : List (Message Event)) (room : Bool) :
    Stays state (state.sendReliable messages room).1 := by
  unfold State.sendReliable
  split_ifs <;> exact ⟨rfl, rfl⟩

theorem stays_sends (state : State Event) (messages : List (Message Event)) (room : Bool) :
    Stays state (
      let sending := state.sendReliable messages room
      if sending.2 then sending.1 else { sending.1 with subscriber := none }) := by
  have stays := stays_sendReliable state messages room
  dsimp only
  split_ifs
  · exact stays
  · exact ⟨stays.log, stays.model⟩

theorem log_publishEvent (state : State Event) (event : Event) (origin room : Bool) :
    (state.publishEvent event origin room).log = state.log ++ [event] ∧
      (state.publishEvent event origin room).device.model = state.device.model := by
  have sends : ∀ logged sent : State Event, Stays logged sent → logged.log = state.log ++ [event] →
      logged.device = state.device →
        sent.log = state.log ++ [event] ∧ sent.device.model = state.device.model := by
    intro logged sent stays log device
    refine ⟨stays.log.trans log, ?_⟩
    rw [stays.model, device]
  unfold State.publishEvent
  dsimp only
  cases origin with
  | true =>
      rw [if_pos rfl]
      exact sends _ _ (stays_sends _ _ room) rfl rfl
  | false =>
      rw [if_neg Bool.false_ne_true]
      cases state.subscriber with
      | none => exact ⟨rfl, rfl⟩
      | some subscriber =>
          dsimp only
          by_cases pending : subscriber.bootstrapPending = true
          · rw [if_pos pending]
            exact ⟨rfl, rfl⟩
          · rw [if_neg pending]
            exact sends _ _ (stays_sends _ _ room) rfl rfl

theorem stays_subscribe (state : State Event) (sessionId : SessionId) (afterSequence : ℕ)
    (room : Bool) : Stays state (state.subscribe sessionId afterSequence room) := by
  unfold State.subscribe State.sendReliable
  dsimp only
  split_ifs <;> exact ⟨rfl, rfl⟩

theorem stays_beginBootstrap (state : State Event) (sessionId : SessionId) (room : Bool) :
    Stays state (state.beginBootstrap sessionId room) := by
  unfold State.beginBootstrap State.sendReliable
  split_ifs <;> exact ⟨rfl, rfl⟩

theorem stays_read (state : State Event) (room : Bool) : Stays state (state.read room) := by
  unfold State.read
  split
  · rename_i attempt message outgoing is_io
    have popped : Stays state { state with
        device := { state.device with io := some ⟨attempt, outgoing⟩ } } := ⟨rfl, rfl⟩
    cases message with
    | subscribe sessionId afterSequence => exact popped.trans (stays_subscribe _ _ _ room)
    | snapshotRequest sessionId => exact popped.trans (stays_beginBootstrap _ _ room)
    | _ => exact popped
  · exact ⟨rfl, rfl⟩

theorem stays_finishBootstrap (state : State Event) (room : Bool) :
    Stays state (state.finishBootstrap room) := by
  unfold State.finishBootstrap State.sendReliable
  cases state.capture with
  | none => exact ⟨rfl, rfl⟩
  | some capture =>
      dsimp only
      cases state.resumeAfterLag.subscriber with
      | none => split_ifs <;> exact ⟨rfl, rfl⟩
      | some subscriber =>
          dsimp only
          split_ifs <;> exact ⟨rfl, rfl⟩

theorem stays_failBootstrap (state : State Event) (room : Bool) :
    Stays state (state.failBootstrap room) := by
  unfold State.failBootstrap
  cases state.capture with
  | none => exact ⟨rfl, rfl⟩
  | some capture =>
      dsimp only
      refine Stays.trans ?_ (stays_sendReliable _ _ room)
      exact ⟨rfl, rfl⟩

theorem model_requestSnapshot (device : Device (historyContent Event)) :
    device.requestSnapshot.model = device.model := by
  unfold Device.requestSnapshot
  split_ifs
  · rfl
  · cases device.model.sessionId <;> rfl

theorem log_apply (state : State Event) (shown : Option PaneId) :
    (state.apply shown).log = state.log := by
  unfold State.apply
  cases state.wire <;> rfl

theorem Sound.sequence_apply (sound : Sound state) (shown : Option PaneId) :
    state.device.model.sequence ≤ (state.apply shown).device.model.sequence := by
  unfold State.apply
  cases is_wire : state.wire with
  | nil => exact le_rfl
  | cons message wire =>
      have takes := congrArg Track.sequence (sound.takes shown message).1
      have rising := sound.rising
      rw [State.queued, is_wire] at rising
      exact (Track.sequence_le_take rising.1).trans takes.ge

theorem Upheld.grows {label : Label Event} (upheld : Upheld state) :
    state.log <+: (state.perform label).log ∧
      state.device.model.sequence ≤ (state.perform label).device.model.sequence := by
  have stays : Stays state (state.perform label) → state.log <+: (state.perform label).log ∧
      state.device.model.sequence ≤ (state.perform label).device.model.sequence := by
    intro stays
    rw [stays.log, stays.model]
    exact ⟨List.prefix_rfl, le_rfl⟩
  cases label with
  | publish event origin room =>
      rcases log_publishEvent state event origin room with ⟨log, model⟩
      rw [State.perform, log, model]
      exact ⟨List.prefix_append _ _, le_rfl⟩
  | overflow => exact stays ⟨rfl, rfl⟩
  | removeLagged => exact stays ⟨rfl, rfl⟩
  | read room => exact stays (stays_read state room)
  | finishBootstrap room => exact stays (stays_finishBootstrap state room)
  | failBootstrap room => exact stays (stays_failBootstrap state room)
  | write =>
      rcases beside_write state with ⟨beside, -⟩
      exact stays ⟨beside.log, congrArg Device.model beside.device⟩
  | apply shown =>
      rw [State.perform, log_apply]
      exact ⟨List.prefix_rfl, upheld.sound.sequence_apply shown⟩
  | resync => exact stays ⟨rfl, model_requestSnapshot state.device⟩
  | send message => exact stays ⟨rfl, rfl⟩

/-- What the Device shows is always the first events, up to its number, and no step takes any of
them back. -/
theorem content_grows (reached : heedingSystem.Reachable state) :
    state.device.model.content = state.log.take state.device.model.sequence ∧
      ∀ label next, heedingSystem.step state label next →
        state.device.model.sequence ≤ next.device.model.sequence ∧
          state.device.model.content <+: next.device.model.content := by
  have upheld := upheld_of_reachable reached
  have knows := upheld.sound.knows
  refine ⟨knows.content, ?_⟩
  rintro label next ⟨⟨enabled, rfl⟩, heeds⟩
  have later := (upheld.perform enabled heeds).sound.knows
  rcases upheld.grows with ⟨⟨more, grown⟩, rises⟩
  refine ⟨rises, ?_⟩
  have before : state.device.model.content =
      (state.perform label).log.take state.device.model.sequence := by
    rw [← grown]
    exact knows.content.trans (List.take_append_of_le_length knows.past).symm
  rw [before, show (state.perform label).device.model.content = _ from later.content]
  exact List.take_prefix_take_left rises

/-- A Session without events, and a Device that asks for them. -/
def fresh : State ℕ where
  serverId := ⟨1⟩
  runtimeEpoch := ⟨0⟩
  sessionId := ⟨1⟩
  log := []
  sequence := 0
  events := []
  subscriber := none
  reliable := []
  lagged := false
  wire := []
  device := {
    label := ""
    status := .connected
    model := ⟨some ⟨1⟩, some ⟨0⟩, some ⟨1⟩, 0, none, []⟩
    generation := 1
    io := some ⟨1, [.subscribe ⟨1⟩ 0]⟩
    subscription := .pending
    snapshotPending := false }
  capture := none

theorem starts_fresh : Starts fresh :=
  ⟨rfl, (after_of_le (Nat.zero_le _)).symm, rfl, rfl, rfl, rfl, rfl, rfl, rfl, rfl, Nat.zero_le _,
    rfl, ⟨1, [], [], rfl, rfl⟩, rfl, rfl, by decide⟩

/-- One step, of a kind that may be taken while no Bootstrap is made. -/
def attempt (state : State ℕ) (label : Label ℕ) : Option (State ℕ) :=
  match label with
  | .publish _ false _ =>
      if state.log.length + 2 < 2 ^ 64 then some (state.perform label) else none
  | .read _ => if state.capture.isNone then some (state.perform label) else none
  | .finishBootstrap _ | .write | .apply _ => some (state.perform label)
  | _ => none

theorem step_of_attempt (state : State ℕ) (label : Label ℕ) (next : State ℕ)
    (performed : attempt state label = some next) : heedingSystem.step state label next := by
  unfold attempt at performed
  split at performed
  · rcases Option.ite_none_right_eq_some.mp performed with ⟨heeds, same⟩
    cases same
    refine ⟨⟨?_, rfl⟩, heeds⟩
    intro origin
    cases origin
  · rcases Option.ite_none_right_eq_some.mp performed with ⟨free, same⟩
    cases same
    exact ⟨⟨Option.isNone_iff_eq_none.mp free, rfl⟩, trivial⟩
  all_goals
    cases performed
  all_goals exact ⟨⟨trivial, rfl⟩, trivial⟩

/-- Two events are taken, and the third does not fit. The Device asks for a Bootstrap of all three,
and there is a fourth while that is made. -/
def missedEvent : List (Label ℕ) :=
  [.read true, .publish 7 false true, .publish 8 false true, .write, .write, .write, .apply none,
    .apply none, .apply none, .publish 9 false false, .write, .apply none, .read true,
    .publish 10 false true, .finishBootstrap true, .write]

/-- The Bootstrap brings the event that was missed. -/
theorem content_grows_example : ∃ state next,
    Transition.System.runLabels attempt fresh missedEvent = some state ∧
      attempt state (.apply none) = some next ∧ state.device.model.content = [7, 8] ∧
        state.log = [7, 8, 9, 10] ∧ next.device.model.sequence = 3 ∧
          next.device.model.content = [7, 8, 9] ∧
            state.device.model.content <+: next.device.model.content := by
  have runs : ∃ state next, Transition.System.runLabels attempt fresh missedEvent = some state ∧
      attempt state (.apply none) = some next ∧ state.device.model.sequence = 2 ∧
        state.log = [7, 8, 9, 10] ∧ next.log = [7, 8, 9, 10] ∧ next.device.model.sequence = 3 :=
    ⟨_, _, rfl, rfl, rfl, rfl, rfl, rfl⟩
  rcases runs with ⟨state, next, runs, applies, taken, log, later, brought⟩
  have reached : heedingSystem.Reachable state :=
    .of_runLabels step_of_attempt (.start starts_fresh) runs
  have steps := step_of_attempt _ _ _ applies
  rcases content_grows reached with ⟨before, grows⟩
  have after := (content_grows (reached.next steps)).1
  rw [log, taken] at before
  rw [later, brought] at after
  exact ⟨state, next, runs, applies, before, log, brought, after,
    (grows (.apply none) next steps).2⟩

end Condr.EventStream
