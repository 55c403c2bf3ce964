import Condr.Server.EventStreamInvariant

/-!
# Events and requests

An event is sent where no Bootstrap is made, and waits for it otherwise. A Device that subscribes
is sent the end of the log that it has not, and is then at its end.
-/

namespace Condr.EventStream

open NumberedLog

variable {Event : Type} {state next : State Event}

theorem Fences.free (free : next.capture = none)
    (unfenced : ∀ subscriber, next.subscriber = some subscriber →
      subscriber.bootstrapPending = false) : Fences next := by
  refine ⟨?_, ?_, ?_⟩
  · intro capture captured
    cases free.symm.trans captured
  · intro capture subscriber captured
    cases free.symm.trans captured
  · intro subscriber is_subscriber pending
    cases (unfenced subscriber is_subscriber).symm.trans pending

theorem Believes.same (believes : Believes state) (last : next.last = state.last)
    (capture : state.capture.isSome = true → next.capture.isSome = true)
    (lagged : next.lagged = state.lagged)
    (subscriber : state.subscriber.isSome = true → next.subscriber.isSome = true)
    (current : ∀ subscriber, next.subscriber = some subscriber →
      subscriber.bootstrapPending = false → next.lagged = false →
        next.last.sequence = next.sequence ∨ next.last.snapshotPending = true) :
    Believes next := by
  refine ⟨?_, ?_, ?_, ?_, ?_, current⟩
  · rw [last]
    exact believes.nothing
  · rw [last]
    intro pending
    rcases believes.asked pending with contained | captured
    · exact .inl contained
    · exact .inr (capture captured)
  · rw [last]
    exact believes.pending
  · rw [last]
    intro is_active
    exact subscriber (believes.active is_active)
  · rw [last, lagged]
    exact believes.lagged

/-! ## Events -/

/-- The log with one more event. -/
def State.logged (state : State Event) (event : Event) : State Event :=
  { state with
    log := state.log ++ [event]
    sequence := state.log.length + 1
    events := after (state.log ++ [event]) (state.log.length + 1 - eventHistoryLimit) }

theorem Sound.logged (sound : Sound state) (heeds : state.log.length + 2 < 2 ^ 64)
    (event : Event) : Sound (state.logged event) := by
  refine ⟨?_, ?_, ?_, ?_, sound.knows.concat event, ?_, sound.rising, sound.asks⟩
  · simp [State.logged]
  · simpa [State.logged] using heeds
  · simp [State.logged]
  · exact sound.tuned.beside rfl rfl rfl
  · intro message contained
    exact (sound.valid message contained).concat event

/-- What `publish_event` keeps is the end of the log. -/
theorem Sound.publishEvent (sound : Sound state) (event : Event) :
    nextSequence state.sequence = state.log.length + 1 ∧
      (state.events ++ [(state.log.length + 1, event)]).drop
          ((state.events ++ [(state.log.length + 1, event)]).length - eventHistoryLimit) =
        after (state.log ++ [event]) (state.log.length + 1 - eventHistoryLimit) := by
  have room := sound.room
  constructor
  · rw [sound.sequence, nextSequence_of_lt room]
  · rw [sound.events, ← after_concat (Nat.sub_le _ _), drop_after, length_after,
      List.length_append, List.length_singleton]
    congr 1
    omega

/-- The event after the last one, at a Device that is there or before. -/
theorem take_next {track : Track Event} {count : ℕ} (past : track.sequence ≤ count)
    (event : Event) :
    track.take (.event (count + 1) event) =
      if track.sequence = count then
        { track with sequence := count + 1, content := track.content ++ [event] }
      else { track with subscription := .none }.requestSnapshot := by
  rw [Track.take]
  by_cases here : track.sequence = count
  · rw [if_neg (by omega), if_pos here]
  · rw [if_pos (by omega), if_neg here, if_pos (by omega)]

theorem Believes.event {count : ℕ} {event : Event} (believes : Believes state)
    (past : state.last.sequence ≤ count)
    (last : next.last = state.last.take (.event (count + 1) event))
    (sequence : next.sequence = count + 1) (capture : next.capture = state.capture)
    (lagged : next.lagged = state.lagged) (subscriber : next.subscriber = state.subscriber) :
    Believes next := by
  rw [take_next past event] at last
  by_cases here : state.last.sequence = count
  · rw [if_pos here] at last
    refine ⟨?_, ?_, ?_, ?_, ?_, ?_⟩
    · rw [last]
      exact believes.nothing
    · rw [last, capture]
      exact believes.asked
    · rw [last]
      exact believes.pending
    · rw [last, subscriber]
      exact believes.active
    · rw [last, lagged]
      exact believes.lagged
    · intro subscriber _ _ _
      rw [last, sequence]
      exact .inl rfl
  · rw [if_neg here] at last
    have nothing : next.last.subscription = .none := by
      rw [last, Track.subscription_requestSnapshot]
    have pending : next.last.snapshotPending = true := by
      rw [last, Track.snapshotPending_requestSnapshot]
    refine ⟨fun _ => pending, ?_, ?_, ?_, fun _ => nothing, fun _ _ _ _ => .inr pending⟩
    · intro _
      rw [last, capture]
      unfold Track.requestSnapshot
      split_ifs with before
      · exact believes.asked before
      · exact .inl (by simp)
    · intro is_pending
      cases nothing.symm.trans is_pending
    · intro is_active
      cases nothing.symm.trans is_active

theorem Upheld.sentEvent (upheld : Upheld state) (heeds : state.log.length + 2 < 2 ^ 64)
    (free : state.capture = none) (event : Event) (room : Bool) :
    Upheld (
      let sending := (state.logged event).sendReliable [.event (state.log.length + 1) event] room
      if sending.2 then sending.1 else { sending.1 with subscriber := none }) := by
  have sound := upheld.sound.logged heeds event
  have past := upheld.sound.knows_last.past
  dsimp only
  generalize is_sending :
    (state.logged event).sendReliable [.event (state.log.length + 1) event] room = sending
  have ways := sends (state.logged event) [.event (state.log.length + 1) event] room
  rw [is_sending] at ways
  rcases sending with ⟨sending, sent⟩
  cases ways with
  | refused lagged =>
      rw [if_neg Bool.false_ne_true]
      refine ⟨sound.same ⟨rfl, rfl, rfl, rfl, rfl, rfl, rfl⟩ rfl, .free free ?_, ?_⟩
      · intro subscriber is_subscriber
        cases is_subscriber
      · exact upheld.believes.refused lagged lagged rfl rfl id rfl
  | sent lagged =>
      rw [if_pos rfl]
      have valid : ∀ message ∈ [Message.event (state.log.length + 1) event],
          Valid (state.logged event).log message := by
        intro message contained
        cases List.mem_singleton.mp contained
        refine ⟨Nat.succ_pos _, ?_⟩
        simp [State.logged]
      rcases sound.pushed { state.logged event with
          reliable := state.reliable ++ [.event (state.log.length + 1) event] }
        ⟨rfl, rfl, rfl, rfl, rfl, rfl, rfl⟩ (List.append_assoc ..).symm valid ⟨trivial, trivial⟩
        with ⟨pushed, last⟩
      refine ⟨pushed, .free free (fun _ => upheld.unfenced free), ?_⟩
      exact upheld.believes.event past last rfl rfl rfl rfl
  | overflowed lagged =>
      rw [if_neg Bool.false_ne_true]
      rcases sound.overflowed { state.logged event with
          subscriber := none
          reliable := [.subscriptionRejected]
          lagged := true } ⟨rfl, rfl, rfl, rfl, rfl, rfl, rfl⟩ rfl rfl with ⟨overflowed, -, before, last⟩
      refine ⟨overflowed, .free free ?_, believes_of_rejected last⟩
      intro subscriber is_subscriber
      cases is_subscriber

theorem Upheld.publish {event : Event} {origin room : Bool} (upheld : Upheld state)
    (enabled : state.Enabled (.publish event origin room))
    (heeds : Heeds state (.publish event origin room)) :
    Upheld (state.publishEvent event origin room) := by
  rcases upheld.sound.publishEvent event with ⟨sequence, events⟩
  have sound := upheld.sound.logged heeds event
  unfold State.publishEvent
  simp only [sequence, events]
  cases origin with
  | true => exact upheld.sentEvent heeds (enabled rfl) event room
  | false =>
      rw [if_neg Bool.false_ne_true]
      have free : ∀ subscriber, state.subscriber = some subscriber →
          subscriber.bootstrapPending = false → state.capture = none := by
        intro subscriber is_subscriber unfenced
        by_contra captured
        rcases Option.ne_none_iff_exists'.mp captured with ⟨capture, is_capture⟩
        have pending := upheld.fences.pending capture subscriber is_capture is_subscriber
        cases unfenced.symm.trans pending
      cases is_subscriber : state.subscriber with
      | none =>
          dsimp only
          refine ⟨sound.same ⟨rfl, rfl, rfl, rfl, rfl, rfl, rfl⟩ rfl, ⟨?_, ?_, ?_⟩, ?_⟩
          · intro capture captured
            rcases upheld.fences.capture capture captured with ⟨past, snapshot, before, fenced⟩
            refine ⟨?_, ?_, before, by rw [fenced, is_subscriber]⟩
            · rw [List.length_append]
              exact past.trans (Nat.le_add_right _ _)
            · rw [List.take_append_of_le_length past]
              exact snapshot
          · intro capture subscriber _ is_some
            cases is_some
          · intro subscriber is_some
            cases is_some
          · refine upheld.believes.same rfl id rfl ?_ ?_
            · rw [is_subscriber]
              exact id
            · intro subscriber is_some
              cases is_some
      | some subscriber =>
          dsimp only
          by_cases pending : subscriber.bootstrapPending = true
          · rw [if_pos pending]
            refine ⟨sound.same ⟨rfl, rfl, rfl, rfl, rfl, rfl, rfl⟩ rfl, ⟨?_, ?_, ?_⟩, ?_⟩
            · intro capture captured
              rcases upheld.fences.capture capture captured with ⟨past, snapshot, before, fenced⟩
              refine ⟨?_, ?_, before, by rw [fenced, is_subscriber]; rfl⟩
              · rw [List.length_append]
                exact past.trans (Nat.le_add_right _ _)
              · rw [List.take_append_of_le_length past]
                exact snapshot
            · intro capture after _ is_after
              cases is_after
              exact pending
            · intro after is_after _
              cases is_after
              rcases upheld.fences.deferred subscriber is_subscriber pending with
                ⟨capture, captured, deferred⟩
              have past := (upheld.fences.capture capture captured).1
              refine ⟨capture, captured, ?_⟩
              dsimp only
              rw [deferred, after_concat past, List.map_append]
              rfl
            · refine upheld.believes.same rfl id rfl (fun _ => rfl) ?_
              intro after is_after unfenced
              cases is_after
              cases pending.symm.trans unfenced
          · rw [if_neg pending, ← is_subscriber]
            exact upheld.sentEvent heeds (free subscriber is_subscriber (by simpa using pending))
              event room

/-! ## Requests -/

/-- The Server takes a message off. -/
theorem Sound.popped {attempt : ℕ} {message : ClientMessage} {outgoing : List ClientMessage}
    (sound : Sound state) (is_io : state.device.io = some ⟨attempt, message :: outgoing⟩)
    (same : next = { state with device := { state.device with io := some ⟨attempt, outgoing⟩ } }) :
    Sound next ∧ ∃ rest, state.last.asked = (request message).toList ++ rest ∧
      next.last = { state.last with asked := rest } := by
  have tracks : track next.device =
      { track state.device with asked := outgoing.filterMap request } := by
    rw [same]
    rfl
  have asked : (track state.device).asked =
      (request message).toList ++ outgoing.filterMap request := by
    simp only [track, is_io, Option.elim_some, List.filterMap_cons]
    cases request message <;> rfl
  have queued : next.queued = state.queued := by
    rw [same]
    rfl
  constructor
  · subst same
    refine ⟨sound.sequence, sound.room, sound.events, ?_, ⟨sound.knows.past, sound.knows.content⟩,
      sound.valid, ?_, ?_⟩
    · rcases sound.tuned.sessions with ⟨io, connected, sessions⟩
      cases is_io.symm.trans connected
      refine ⟨sound.tuned.serverId, sound.tuned.runtimeEpoch, sound.tuned.sessionId, _, rfl, ?_⟩
      intro other contained
      exact sessions other (List.mem_cons_of_mem _ contained)
    · rw [tracks]
      exact (Track.rising_asked _).mpr sound.rising
    · intro afterSequence contained
      apply sound.asks
      rw [asked]
      exact List.mem_append_right _ contained
  · rcases Track.follow_asked (track state.device) state.queued with ⟨extra, follows⟩
    refine ⟨outgoing.filterMap request ++ extra, ?_, ?_⟩
    · rw [← List.append_assoc, ← asked]
      exact congrArg Track.asked (follows (track state.device).asked)
    · rw [State.last, tracks, queued, follows]
      rfl

/-- A rejection is sent. -/
theorem Sound.rejecting {message : Message Event} {room : Bool} (sound : Sound state)
    (free : state.capture = none)
    (unfenced : ∀ subscriber, state.subscriber = some subscriber →
      subscriber.bootstrapPending = false)
    (rejection : message = .subscriptionRejected ∨ message = .snapshotRejected)
    (refused : state.lagged = true → Believes state) :
    Upheld (state.sendReliable [message] room).1 := by
  have ways := sends state [message] room
  generalize state.sendReliable [message] room = sending at ways ⊢
  rcases sending with ⟨sending, sent⟩
  cases ways with
  | refused lagged => exact ⟨sound, .free free unfenced, refused lagged⟩
  | sent lagged =>
      have valid : ∀ given ∈ [message], Valid state.log given := by
        intro given contained
        cases List.mem_singleton.mp contained
        rcases rejection with rfl | rfl <;> trivial
      have rising : state.last.Rising [message] := by
        rcases rejection with rfl | rfl <;> exact ⟨trivial, trivial⟩
      rcases sound.pushed { state with reliable := state.reliable ++ [message] }
        ⟨rfl, rfl, rfl, rfl, rfl, rfl, rfl⟩ (List.append_assoc ..).symm valid rising
        with ⟨pushed, last⟩
      refine ⟨pushed, .free free unfenced, ?_⟩
      rcases rejection with rfl | rfl
      · exact believes_of_rejected last
      · exact believes_of_rejected last
  | overflowed lagged =>
      rcases sound.overflowed { state with reliable := [.subscriptionRejected], lagged := true }
        ⟨rfl, rfl, rfl, rfl, rfl, rfl, rfl⟩ rfl rfl with ⟨overflowed, -, before, last⟩
      exact ⟨overflowed, .free free unfenced, believes_of_rejected last⟩

/-- What a Device asks for that it may have missed is what comes after in the log. -/
theorem Sound.missed {afterSequence : ℕ} (sound : Sound state) (past : afterSequence ≤ state.log.length)
    (kept : ¬(state.events.head?.any fun event => nextSequence afterSequence < event.1) = true) :
    (state.events.filter fun event => afterSequence < event.1) = after state.log afterSequence := by
  have room := sound.room
  have limit : 0 < eventHistoryLimit := by
    rw [eventHistoryLimit]
    exact Nat.succ_pos _
  rw [sound.events, head?_after, nextSequence_of_lt (by omega)] at kept
  have within : state.log.length - eventHistoryLimit ≤ afterSequence := by
    cases found : state.log[state.log.length - eventHistoryLimit]? with
    | none =>
        have all := List.getElem?_eq_none_iff.mp found
        omega
    | some event =>
        rw [found] at kept
        simp only [Option.map_some, Option.any_some, decide_eq_true_eq, not_lt] at kept
        omega
  rcases Nat.exists_eq_add_of_le within with ⟨more, same⟩
  rw [sound.events, same]
  exact filter_after state.log _ more

theorem valid_after {count : ℕ} {message : Message Event}
    (contained : message ∈ (after state.log count).map fun event => .event event.1 event.2) :
    Valid state.log message ∧ ∀ sequence snapshot, message ≠ .bootstrap sequence snapshot := by
  rcases List.mem_map.mp contained with ⟨⟨number, event⟩, listed, rfl⟩
  rcases getElem?_of_mem_after listed with ⟨past, -, found⟩
  refine ⟨⟨Nat.zero_lt_of_lt past, found⟩, ?_⟩
  intro sequence snapshot same
  cases same

/-- The missed events are sent, and that it is subscribed. -/
theorem Sound.answered {afterSequence : ℕ} {subscriber : ClientSubscriber Event} {room : Bool}
    (sound : Sound state) (free : state.capture = none)
    (place : afterSequence ≤ state.last.sequence) (unfenced : subscriber.bootstrapPending = false)
    (asked : state.last.snapshotPending = true → .snapshot ∈ state.last.asked)
    (refused : state.lagged = true → Believes { state with subscriber := none }) :
    Upheld (
      let sending := { state with subscriber := some subscriber }.sendReliable
        ((after state.log afterSequence).map (fun event : ℕ × Event =>
          Message.event event.1 event.2) ++ [Message.subscribed]) room
      if sending.2 then sending.1 else { sending.1 with subscriber := none }) := by
  have ensured : Sound { state with subscriber := some subscriber } :=
    sound.same ⟨rfl, rfl, rfl, rfl, rfl, rfl, rfl⟩ rfl
  dsimp only
  generalize are_responses :
    (after state.log afterSequence).map (fun event => Message.event event.1 event.2) ++
      [.subscribed] = responses
  have ways := sends { state with subscriber := some subscriber } responses room
  generalize { state with subscriber := some subscriber }.sendReliable responses room = sending
    at ways ⊢
  rcases sending with ⟨sending, was_sent⟩
  cases ways with
  | refused lagged =>
      rw [if_neg Bool.false_ne_true]
      refine ⟨sound.same ⟨rfl, rfl, rfl, rfl, rfl, rfl, rfl⟩ rfl, .free free ?_, refused lagged⟩
      intro other is_other
      cases is_other
  | sent lagged =>
      rw [if_pos rfl]
      have each : ∀ message ∈ responses, Valid state.log message ∧
          ∀ sequence snapshot, message ≠ .bootstrap sequence snapshot := by
        intro message contained
        rw [← are_responses] at contained
        rcases List.mem_append.mp contained with event | told
        · exact valid_after event
        · cases List.mem_singleton.mp told
          refine ⟨trivial, ?_⟩
          intro sequence snapshot same
          cases same
      rcases ensured.pushed { state with
          subscriber := some subscriber
          reliable := state.reliable ++ responses } ⟨rfl, rfl, rfl, rfl, rfl, rfl, rfl⟩
        (List.append_assoc ..).symm (fun message contained => (each message contained).1)
        (rising_of_events fun message contained => (each message contained).2)
        with ⟨pushed, last⟩
      rcases Track.follow_after place sound.knows_last.past with ⟨content, follows⟩
      have is_last : State.last { state with
          subscriber := some subscriber
          reliable := state.reliable ++ responses } =
          { state.last with
            sequence := state.log.length, content, subscription := .active } := by
        rw [last, ← are_responses, Track.follow_append]
        exact congrArg (Track.take · .subscribed) follows
      refine ⟨pushed, .free free ?_, ?_, ?_, ?_, fun _ => rfl, ?_, ?_⟩
      · intro other is_other
        cases is_other
        exact unfenced
      · rw [is_last]
        intro nothing
        cases nothing
      · rw [is_last]
        intro pending
        exact .inl (asked pending)
      · rw [is_last]
        intro pending
        cases pending
      · intro is_lagged
        cases lagged.symm.trans is_lagged
      · intro other _ _ _
        rw [is_last]
        exact .inl sound.sequence.symm
  | overflowed lagged =>
      rw [if_neg Bool.false_ne_true]
      rcases ensured.overflowed { state with
          subscriber := none
          reliable := [.subscriptionRejected]
          lagged := true } ⟨rfl, rfl, rfl, rfl, rfl, rfl, rfl⟩ rfl rfl
        with ⟨overflowed, -, before, last⟩
      refine ⟨overflowed, .free free ?_, believes_of_rejected last⟩
      intro other is_other
      cases is_other

theorem Upheld.subscribe {sessionId : SessionId} {afterSequence : ℕ} {popped : State Event}
    {rest : List Request} {room : Bool} (upheld : Upheld state) (free : state.capture = none)
    (sound : Sound popped) (asked : state.last.asked = .subscribe afterSequence :: rest)
    (last : popped.last = { state.last with asked := rest })
    (same : popped = { state with device := popped.device }) :
    Upheld (popped.subscribe sessionId afterSequence room) := by
  have popped_free : popped.capture = none := by
    rw [same]
    exact free
  have subscriber : popped.subscriber = state.subscriber := by rw [same]
  have lagged : popped.lagged = state.lagged := by rw [same]
  have place : afterSequence ≤ popped.last.sequence := by
    rw [last]
    apply upheld.sound.asks_last
    rw [asked]
    exact List.mem_cons_self
  have kept : .snapshot ∈ state.last.asked → .snapshot ∈ popped.last.asked := by
    rw [last, asked]
    intro contained
    simpa using contained
  have refused : popped.lagged = true → Believes { popped with subscriber := none } := by
    intro was
    refine upheld.believes.refused (lagged.symm.trans was) was ?_ ?_ kept
      (popped_free.trans free.symm)
    · show popped.last.subscription = state.last.subscription
      rw [last]
    · show popped.last.snapshotPending = state.last.snapshotPending
      rw [last]
  have past : afterSequence ≤ popped.log.length := place.trans sound.knows_last.past
  unfold State.subscribe
  dsimp only
  by_cases rejected : sessionId ≠ popped.sessionId ∨ popped.sequence < afterSequence ∨
      (popped.events.head?.any fun event => nextSequence afterSequence < event.1) = true
  · rw [if_pos rejected]
    have removed : Sound { popped with subscriber := none } :=
      sound.same ⟨rfl, rfl, rfl, rfl, rfl, rfl, rfl⟩ rfl
    apply removed.rejecting popped_free ?_ (.inl rfl) refused
    intro other is_other
    cases is_other
  · rw [if_neg rejected]
    simp only [not_or] at rejected
    rw [sound.missed past rejected.2.2]
    apply sound.answered popped_free place ?_ ?_ refused
    · cases was : popped.subscriber with
      | none => rfl
      | some before => exact upheld.unfenced free (subscriber.symm.trans was)
    · rw [last]
      intro pending
      rcases upheld.believes.asked pending with contained | captured
      · rw [last] at kept
        exact kept contained
      · rw [free] at captured
        cases captured

/-- A Bootstrap begins. -/
theorem Upheld.beginBootstrap {sessionId : SessionId} {popped : State Event}
    {rest : List Request} {room : Bool} (upheld : Upheld state) (sound : Sound popped)
    (asked : state.last.asked = .snapshot :: rest)
    (last : popped.last = { state.last with asked := rest })
    (same : popped = { state with device := popped.device }) (own : sessionId = state.sessionId) :
    Upheld (popped.beginBootstrap sessionId room) := by
  have subscriber : popped.subscriber = state.subscriber := by rw [same]
  have lagged : popped.lagged = state.lagged := by rw [same]
  have session : popped.sessionId = state.sessionId := by rw [same]
  unfold State.beginBootstrap
  rw [if_neg (not_not.mpr (own.trans session.symm))]
  have is_last : State.last { popped with
      subscriber := popped.subscriber.map fun _ => ⟨true, []⟩
      capture := some ⟨popped.sequence, popped.log, popped.subscriber.isSome⟩ } =
      { state.last with asked := rest } := last
  refine ⟨sound.same ⟨rfl, rfl, rfl, rfl, rfl, rfl, rfl⟩ rfl, ⟨?_, ?_, ?_⟩, ?_, ?_, ?_, ?_, ?_, ?_⟩
  · intro capture captured
    cases captured
    refine ⟨sound.sequence.le, ?_, ?_, (Option.isSome_map ..).symm⟩
    · rw [sound.sequence, List.take_length]
    · rw [sound.sequence]
      exact sound.knows_last.past
  · intro capture other _ is_other
    rcases Option.map_eq_some_iff.mp is_other with ⟨before, -, rfl⟩
    rfl
  · intro other is_other _
    rcases Option.map_eq_some_iff.mp is_other with ⟨before, -, rfl⟩
    refine ⟨_, rfl, ?_⟩
    rw [after_of_le sound.sequence.ge]
    rfl
  · rw [is_last]
    exact upheld.believes.nothing
  · intro _
    exact .inr rfl
  · rw [is_last]
    intro pending
    rcases upheld.believes.pending pending with ⟨afterSequence, contained⟩
    rw [asked] at contained
    exact ⟨afterSequence, by simpa using contained⟩
  · rw [is_last]
    intro is_active
    rw [Option.isSome_map, subscriber]
    exact upheld.believes.active is_active
  · rw [is_last]
    intro is_lagged
    exact upheld.believes.lagged (lagged.symm.trans is_lagged)
  · intro other is_other unfenced
    rcases Option.map_eq_some_iff.mp is_other with ⟨before, -, rfl⟩
    cases unfenced

theorem Upheld.read {room : Bool} (upheld : Upheld state) (free : state.capture = none) :
    Upheld (state.read room) := by
  rcases upheld.sound.tuned.sessions with ⟨⟨attempt, outgoing⟩, is_io, sessions⟩
  unfold State.read
  rw [is_io]
  cases outgoing with
  | nil => exact upheld
  | cons message outgoing =>
      dsimp only
      generalize is_popped : { state with device :=
        { state.device with io := some ⟨attempt, outgoing⟩ } } = popped
      rcases upheld.sound.popped is_io is_popped.symm with ⟨sound, rest, asked, last⟩
      have same : popped = { state with device := popped.device } := by rw [← is_popped]
      have session := sessions message List.mem_cons_self
      have other : request message = none → Upheld popped := by
        intro other
        rw [other] at asked
        have is_last : popped.last = state.last := by
          rw [last, ← show state.last.asked = rest from asked]
        have is_free : popped.capture = none := by
          rw [same]
          exact free
        have subscriber : popped.subscriber = state.subscriber := by rw [same]
        have lagged : popped.lagged = state.lagged := by rw [same]
        refine ⟨sound, .free is_free ?_, upheld.believes.same is_last ?_ lagged ?_ ?_⟩
        · rw [subscriber]
          exact fun _ => upheld.unfenced free
        · rw [same]
          exact id
        · rw [subscriber]
          exact id
        · rw [subscriber, lagged, is_last]
          intro other is_other unfenced unlagged
          rw [show popped.sequence = state.sequence by rw [same]]
          exact upheld.believes.current other is_other unfenced unlagged
      cases message with
      | subscribe sessionId afterSequence => exact upheld.subscribe free sound asked last same
      | snapshotRequest sessionId =>
          exact upheld.beginBootstrap sound asked last same (session sessionId rfl)
      | _ => exact other rfl

end Condr.EventStream
