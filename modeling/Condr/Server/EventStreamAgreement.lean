import Condr.Server.EventStreamSafety

/-!
# A Device catches up

Once no more events come and nothing overflows, what is asked and what is on its way comes to an
end, in whatever order it is handled. The Device has all events then.
-/

namespace Condr.EventStream

open NumberedLog

variable {Event : Type} {state next : State Event}

/-- Where nothing is on its way either way, the Device is subscribed and has every event. -/
theorem agrees_of_quiet (reached : heedingSystem.Reachable state) (wire : state.wire = [])
    (reliable : state.reliable = []) (capture : state.capture = none)
    (silent : ∀ io, state.device.io = some io → ∀ message ∈ io.outgoing, asks message = false) :
    state.device.subscription = .active ∧ state.subscriber.isSome = true ∧ state.lagged = false ∧
      state.device.model.sequence = state.sequence ∧ state.device.model.content = state.log := by
  have upheld := upheld_of_reachable reached
  have believes := upheld.believes
  have last : state.last = track state.device := by
    rw [State.last, State.queued, wire, reliable]
    rfl
  have asked : (track state.device).asked = [] := by
    rcases upheld.sound.tuned.sessions with ⟨io, is_io, -⟩
    simp only [track, is_io, Option.elim_some]
    apply filterMap_request
    apply List.all_eq_true.mpr
    intro message contained
    simp [silent io is_io message contained]
  have settled : ¬state.last.snapshotPending = true := by
    intro pending
    rcases believes.asked pending with contained | captured
    · rw [last, asked] at contained
      cases contained
    · rw [capture] at captured
      cases captured
  have active : state.last.subscription = .active := by
    cases subscription : state.last.subscription with
    | none => exact absurd (believes.nothing subscription) settled
    | pending =>
        rcases believes.pending subscription with ⟨afterSequence, contained⟩
        rw [last, asked] at contained
        cases contained
    | active => rfl
  have subscribed := believes.active active
  have unlagged : state.lagged = false := by
    apply Bool.eq_false_iff.mpr
    intro lagged
    cases active.symm.trans (believes.lagged lagged)
  rcases Option.isSome_iff_exists.mp subscribed with ⟨subscriber, is_subscriber⟩
  have here : state.last.sequence = state.sequence :=
    (believes.current subscriber is_subscriber (upheld.unfenced capture is_subscriber)
      unlagged).resolve_right settled
  rw [last] at active here
  refine ⟨active, subscribed, unlagged, here, ?_⟩
  rw [show state.device.model.content = _ from upheld.sound.knows.content,
    show (track state.device).sequence = _ from here, upheld.sound.sequence, List.take_length]

/-! ## What is left to do -/

namespace State

/-- What there is to hand on: a request to read, a Bootstrap to send, a message to write or to
take. Everything fits in the queue. -/
def Awaits (state : State Event) : Label Event → Prop
  | .read room => room = true ∧ state.capture = none ∧
      ∃ io, state.device.io = some io ∧ io.outgoing ≠ []
  | .finishBootstrap room => room = true ∧ state.capture.isSome = true
  | .write => state.reliable ≠ []
  | .apply _ => state.wire ≠ []
  | _ => False

def Delivers (state next : State Event) : Prop :=
  ∃ label, state.Awaits label ∧ next = state.perform label

/-- A place that is no longer kept leads to a rejection, a Bootstrap and another subscription. -/
def weight (state : State Event) : Request → ℕ
  | .snapshot => 4
  | .subscribe afterSequence =>
      if afterSequence + eventHistoryLimit < state.log.length then 7 else 2

/-- What is asked, and what will be by what is on its way. -/
def work (state : State Event) : ℕ :=
  (state.last.asked.map state.weight).sum +
    state.capture.elim 0 fun capture => state.weight (.subscribe capture.sequence) + 1

/-- How far there is to go. -/
def rank (state : State Event) : ℕ × ℕ × ℕ :=
  (state.work, 2 * state.reliable.length + state.wire.length,
    state.device.io.elim 0 fun io => io.outgoing.length)

def Lower : ℕ × ℕ × ℕ → ℕ × ℕ × ℕ → Prop :=
  Prod.Lex (· < ·) (Prod.Lex (· < ·) (· < ·))

end State

theorem weight_of_log (log : next.log = state.log) : next.weight = state.weight := by
  funext request
  cases request with
  | snapshot => rfl
  | subscribe afterSequence => rw [State.weight, State.weight, log]

theorem work_of_last (log : next.log = state.log) (asked : next.last.asked = state.last.asked)
    (capture : next.capture = state.capture) : next.work = state.work := by
  rw [State.work, State.work, asked, capture, weight_of_log log]

theorem lower_of_work (less : next.work < state.work) : State.Lower next.rank state.rank :=
  .left _ _ less

theorem lower_of_queue (work : next.work = state.work)
    (less : 2 * next.reliable.length + next.wire.length <
      2 * state.reliable.length + state.wire.length) : State.Lower next.rank state.rank := by
  rw [State.rank, work]
  exact .right _ (.left _ _ less)

theorem lower_write (waits : state.reliable ≠ []) : State.Lower state.write.rank state.rank := by
  rcases beside_write state with ⟨beside, queued⟩
  have last := last_of_queued beside queued
  have same : state.write.capture = state.capture ∧
      2 * state.write.reliable.length + state.write.wire.length <
        2 * state.reliable.length + state.wire.length := by
    unfold State.write
    cases is_reliable : state.reliable with
    | nil => exact absurd is_reliable waits
    | cons message reliable =>
        refine ⟨rfl, ?_⟩
        simp only [List.length_append, List.length_cons, List.length_nil]
        omega
  apply lower_of_queue
  · exact work_of_last beside.log (congrArg Track.asked last) same.1
  · exact same.2

theorem Sound.lower_apply (sound : Sound state) (waits : state.wire ≠ []) (shown : Option PaneId) :
    State.Lower (state.apply shown).rank state.rank := by
  have last := sound.last_apply shown
  have same : (state.apply shown).reliable = state.reliable ∧
      (state.apply shown).capture = state.capture ∧
      (state.apply shown).wire.length < state.wire.length := by
    unfold State.apply
    cases is_wire : state.wire with
    | nil => exact absurd is_wire waits
    | cons message wire => exact ⟨rfl, rfl, Nat.lt_succ_self _⟩
  apply lower_of_queue
  · exact work_of_last (log_apply state shown) (congrArg Track.asked last) same.2.1
  · rw [same.1]
    exact Nat.add_lt_add_left same.2.2 _

/-! ### Requests -/

/-- What a request leads to. -/
theorem Sound.asked_subscribe {sessionId : SessionId} {afterSequence : ℕ} (sound : Sound state)
    (place : afterSequence ≤ state.last.sequence) (own : sessionId = state.sessionId) :
    (state.subscribe sessionId afterSequence true).last.asked = state.last.asked ∨
      afterSequence + eventHistoryLimit < state.log.length ∧
        (state.subscribe sessionId afterSequence true).last.asked =
          state.last.asked ++ [.snapshot] := by
  have past : afterSequence ≤ state.log.length := place.trans sound.knows_last.past
  have room := sound.room
  unfold State.subscribe State.sendReliable
  dsimp only
  by_cases expired : (state.events.head?.any fun event => nextSequence afterSequence < event.1) =
      true
  · rw [if_pos (.inr (.inr expired))]
    by_cases lagged : state.lagged = true
    · rw [if_pos lagged]
      exact .inl rfl
    · rw [if_neg lagged, if_pos rfl]
      refine .inr ⟨?_, ?_⟩
      · rw [sound.events, head?_after, nextSequence_of_lt (by omega)] at expired
        cases found : state.log[state.log.length - eventHistoryLimit]? with
        | none =>
            rw [found] at expired
            cases expired
        | some event =>
            rw [found] at expired
            simp only [Option.map_some, Option.any_some, decide_eq_true_eq] at expired
            omega
      · have beside : Beside state { state with
            subscriber := none, reliable := state.reliable ++ [.subscriptionRejected] } :=
          ⟨rfl, rfl, rfl, rfl, rfl, rfl, rfl⟩
        have last := last_of_pushed beside (List.append_assoc ..).symm
        rw [last]
        simp [Track.follow, Track.take, Track.requestSnapshot]
  · rw [if_neg (by simp [own, expired, sound.sequence, past]), sound.missed past expired]
    by_cases lagged : state.lagged = true
    · rw [if_pos lagged]
      exact .inl rfl
    · rw [if_neg lagged, if_pos rfl, if_pos rfl]
      have beside : Beside state { state with
          subscriber := some (state.subscriber.getD ⟨false, []⟩)
          reliable := state.reliable ++ ((after state.log afterSequence).map
            (fun event => .event event.1 event.2) ++ [.subscribed]) } :=
        ⟨rfl, rfl, rfl, rfl, rfl, rfl, rfl⟩
      have last := last_of_pushed beside (List.append_assoc ..).symm
      rcases Track.follow_after place sound.knows_last.past with ⟨content, follows⟩
      rw [Track.follow_append, follows] at last
      rw [last]
      exact .inl rfl

theorem capture_subscribe (state : State Event) (sessionId : SessionId) (afterSequence : ℕ)
    (room : Bool) :
    (state.subscribe sessionId afterSequence room).capture = state.capture := by
  unfold State.subscribe State.sendReliable
  dsimp only
  split_ifs <;> rfl

theorem Upheld.lower_read {attempt : ℕ} {message : ClientMessage} {outgoing : List ClientMessage}
    (upheld : Upheld state) (free : state.capture = none)
    (is_io : state.device.io = some ⟨attempt, message :: outgoing⟩) :
    State.Lower (state.read true).rank state.rank := by
  have session : ∀ sessionId, askedSession message = some sessionId →
      sessionId = state.sessionId := by
    rcases upheld.sound.tuned.sessions with ⟨io, connected, sessions⟩
    cases is_io.symm.trans connected
    exact sessions message List.mem_cons_self
  unfold State.read
  rw [is_io]
  dsimp only
  generalize is_popped : { state with device :=
    { state.device with io := some ⟨attempt, outgoing⟩ } } = popped
  rcases upheld.sound.popped is_io is_popped.symm with ⟨sound, rest, asked, last⟩
  have weight : popped.weight = state.weight := by
    rw [← is_popped]
    exact weight_of_log rfl
  have popped_free : popped.capture = none := by
    rw [← is_popped]
    exact free
  have work : state.work = ((request message).toList.map state.weight).sum +
      (rest.map state.weight).sum := by
    rw [State.work, free, asked, List.map_append, List.sum_append]
    rfl
  have other : request message = none → State.Lower popped.rank state.rank := by
    intro other
    rw [other] at asked
    have same : popped.work = state.work := by
      apply work_of_last
      · rw [← is_popped]
      · rw [last]
        exact asked.symm
      · exact popped_free.trans free.symm
    rw [State.rank, State.rank, same, ← is_popped, is_io]
    exact .right _ (.right _ (Nat.lt_succ_self _))
  cases message with
  | subscribe sessionId afterSequence =>
      have place : afterSequence ≤ popped.last.sequence := by
        rw [last]
        apply upheld.sound.asks_last
        rw [asked]
        exact List.mem_cons_self
      have own : sessionId = popped.sessionId := by
        rw [← is_popped]
        exact session sessionId rfl
      have answered := weight_of_log (stays_subscribe popped sessionId afterSequence true).log
      apply lower_of_work
      rw [work, State.work, capture_subscribe, popped_free, answered, weight]
      simp only [Option.elim_none, Nat.add_zero, request, Option.toList_some, List.map_cons,
        List.map_nil, List.sum_cons, List.sum_nil]
      have positive : 0 < state.weight (.subscribe afterSequence) := by
        rw [State.weight]
        split_ifs <;> exact Nat.succ_pos _
      rcases sound.asked_subscribe place own with asked_now | ⟨stale, asked_now⟩
      · rw [asked_now, last]
        exact Nat.lt_add_of_pos_left positive
      · rw [asked_now, last]
        rw [show popped.log = state.log by rw [← is_popped]] at stale
        simp only [List.map_append, List.map_cons, List.map_nil, List.sum_append, List.sum_cons,
          List.sum_nil, State.weight, if_pos stale]
        omega
  | snapshotRequest sessionId =>
      have own : sessionId = popped.sessionId := by
        rw [← is_popped]
        exact session sessionId rfl
      have fresh : ¬popped.sequence + eventHistoryLimit < state.log.length := by
        rw [← is_popped]
        show ¬state.sequence + eventHistoryLimit < state.log.length
        rw [upheld.sound.sequence]
        omega
      have begun := weight_of_log (stays_beginBootstrap popped sessionId true).log
      apply lower_of_work
      dsimp only
      rw [work, State.work, begun, weight, State.beginBootstrap, if_neg (not_not.mpr own)]
      have same : State.last { popped with
          subscriber := popped.subscriber.map fun _ => ⟨true, []⟩
          capture := some ⟨popped.sequence, popped.log, popped.subscriber.isSome⟩ } =
          { state.last with asked := rest } := last
      rw [same]
      simp only [Option.elim_some, State.weight, if_neg fresh, request, Option.toList_some,
        List.map_cons, List.map_nil, List.sum_cons, List.sum_nil]
      omega
  | _ => exact other rfl

theorem asked_take_bootstrap (track : Track Event) (sequence : ℕ) (snapshot : List Event) :
    (track.take (.bootstrap sequence snapshot)).asked = track.asked ∨
      (track.take (.bootstrap sequence snapshot)).asked = track.asked ++ [.subscribe sequence] := by
  simp only [Track.take]
  split_ifs
  · exact .inr rfl
  · exact .inl rfl

theorem Upheld.lower_finishBootstrap (upheld : Upheld state)
    (waits : state.capture.isSome = true) :
    State.Lower (state.finishBootstrap true).rank state.rank := by
  rcases Option.isSome_iff_exists.mp waits with ⟨capture, captured⟩
  rcases upheld.fences.capture capture captured with ⟨past, snapshot, before, fenced⟩
  rcases take_bootstrap state.last capture.sequence capture.snapshot with ⟨there, -⟩
  have finished : (state.finishBootstrap true).capture = none ∧
      (state.finishBootstrap true).last.asked =
        (state.last.take (.bootstrap capture.sequence capture.snapshot)).asked := by
    cases is_subscriber : state.subscriber with
    | none =>
        rw [is_subscriber] at fenced
        have finishes : state.finishBootstrap true = { state.resumeAfterLag with
            capture := none
            reliable := state.reliable ++ [.bootstrap capture.sequence capture.snapshot] } := by
          simp [State.finishBootstrap, captured, fenced, State.resumeAfterLag, State.sendReliable]
        have beside : Beside state (state.finishBootstrap true) := by
          rw [finishes]
          exact ⟨rfl, rfl, rfl, rfl, rfl, rfl, rfl⟩
        have queued : (state.finishBootstrap true).queued =
            state.queued ++ [.bootstrap capture.sequence capture.snapshot] := by
          rw [finishes]
          exact (List.append_assoc ..).symm
        refine ⟨by rw [finishes], ?_⟩
        rw [last_of_pushed beside queued]
        rfl
    | some subscriber =>
        rw [is_subscriber] at fenced
        rcases upheld.fences.deferred subscriber is_subscriber
          (upheld.fences.pending capture subscriber captured is_subscriber) with
          ⟨same, is_same, deferred⟩
        cases captured.symm.trans is_same
        have finishes : state.finishBootstrap true = { state.resumeAfterLag with
            capture := none
            subscriber := some ⟨false, []⟩
            reliable := state.reliable ++
              .bootstrap capture.sequence capture.snapshot :: subscriber.deferredReliable } := by
          simp [State.finishBootstrap, captured, fenced, State.resumeAfterLag, State.sendReliable,
            is_subscriber]
        have beside : Beside state (state.finishBootstrap true) := by
          rw [finishes]
          exact ⟨rfl, rfl, rfl, rfl, rfl, rfl, rfl⟩
        have queued : (state.finishBootstrap true).queued = state.queued ++
            .bootstrap capture.sequence capture.snapshot :: subscriber.deferredReliable := by
          rw [finishes]
          exact (List.append_assoc ..).symm
        refine ⟨by rw [finishes], ?_⟩
        rcases Track.follow_after there.ge (there.le.trans past) with ⟨content, follows⟩
        rw [last_of_pushed beside queued, Track.follow_cons, deferred, follows]
  have weight := weight_of_log (stays_finishBootstrap state true).log
  apply lower_of_work
  rw [State.work, State.work, finished.1, finished.2, weight, captured, Option.elim_none,
    Option.elim_some]
  rcases asked_take_bootstrap state.last capture.sequence capture.snapshot with asked | asked
  · rw [asked]
    omega
  · rw [asked, List.map_append, List.sum_append, List.map_cons, List.map_nil, List.sum_cons,
      List.sum_nil]
    omega

/-! ## Catching up -/

theorem step_of_awaits {label : Label Event} (awaits : state.Awaits label) :
    heedingSystem.step state label (state.perform label) ∧
      (state.perform label).log = state.log := by
  cases label with
  | read room =>
      rcases awaits with ⟨-, free, -⟩
      exact ⟨⟨⟨free, rfl⟩, trivial⟩, (stays_read state room).log⟩
  | finishBootstrap room =>
      exact ⟨⟨⟨trivial, rfl⟩, trivial⟩, (stays_finishBootstrap state room).log⟩
  | write => exact ⟨⟨⟨trivial, rfl⟩, trivial⟩, (beside_write state).1.log⟩
  | apply shown => exact ⟨⟨⟨trivial, rfl⟩, trivial⟩, log_apply state shown⟩
  | publish event origin room => exact awaits.elim
  | overflow => exact awaits.elim
  | removeLagged => exact awaits.elim
  | failBootstrap room => exact awaits.elim
  | resync => exact awaits.elim
  | send message => exact awaits.elim

theorem reachable_of_delivers (reached : heedingSystem.Reachable state)
    (delivered : Relation.ReflTransGen State.Delivers state next) :
    heedingSystem.Reachable next ∧ next.log = state.log := by
  induction delivered with
  | refl => exact ⟨reached, rfl⟩
  | tail _ delivers induction =>
      rcases delivers with ⟨label, awaits, rfl⟩
      rcases step_of_awaits awaits with ⟨step, log⟩
      exact ⟨induction.1.next step, log.trans induction.2⟩

theorem Upheld.lower_delivers (upheld : Upheld state) (delivers : state.Delivers next) :
    Upheld next ∧ State.Lower next.rank state.rank := by
  rcases delivers with ⟨label, awaits, rfl⟩
  rcases (step_of_awaits awaits).1 with ⟨⟨enabled, -⟩, heeds⟩
  refine ⟨upheld.perform enabled heeds, ?_⟩
  cases label with
  | read room =>
      rcases awaits with ⟨rfl, free, ⟨attempt, outgoing⟩, is_io, waits⟩
      cases outgoing with
      | nil => exact absurd rfl waits
      | cons message outgoing => exact upheld.lower_read free is_io
  | finishBootstrap room =>
      rcases awaits with ⟨rfl, waits⟩
      exact upheld.lower_finishBootstrap waits
  | write => exact lower_write awaits
  | apply shown => exact upheld.sound.lower_apply awaits shown
  | publish event origin room => exact awaits.elim
  | overflow => exact awaits.elim
  | removeLagged => exact awaits.elim
  | failBootstrap room => exact awaits.elim
  | resync => exact awaits.elim
  | send message => exact awaits.elim

/-- Handing on comes to an end in every order, and once nothing is left the Device is subscribed and
has every event. -/
theorem catches_up (reached : heedingSystem.Reachable state) :
    Acc (fun next state => State.Delivers state next) state ∧
      ∀ last, Relation.ReflTransGen State.Delivers state last →
        (∀ next, ¬State.Delivers last next) →
          last.device.subscription = .active ∧ last.subscriber.isSome = true ∧
            last.device.model.content = state.log := by
  have descends : WellFounded State.Lower :=
    wellFounded_lt.prod_lex (wellFounded_lt.prod_lex wellFounded_lt)
  constructor
  · apply Transition.acc_of_rank descends State.rank Upheld
    · intro state next upheld delivers
      exact upheld.lower_delivers delivers
    · exact upheld_of_reachable reached
  · intro last delivered settled
    have stuck : ∀ label, ¬last.Awaits label := by
      intro label awaits
      exact settled _ ⟨label, awaits, rfl⟩
    rcases reachable_of_delivers reached delivered with ⟨reached, log⟩
    have free : last.capture = none := by
      by_contra captured
      exact stuck (.finishBootstrap true) ⟨rfl, Option.isSome_iff_ne_none.mpr captured⟩
    have silent : ∀ io, last.device.io = some io → ∀ message ∈ io.outgoing,
        asks message = false := by
      intro io is_io message contained
      exact absurd ⟨rfl, free, io, is_io, List.ne_nil_of_mem contained⟩ (stuck (.read true))
    rcases agrees_of_quiet reached (not_not.mp (stuck (.apply none))) (not_not.mp (stuck .write)) free
      silent with ⟨active, subscribed, -, -, content⟩
    exact ⟨active, subscribed, content.trans log⟩

/-- The Device subscribes, and the event that follows does not fit. It is told so, and has the event
in the end. -/
theorem catches_up_example : ∃ state last,
    Transition.System.runLabels attempt fresh [.read true, .publish 7 false false] = some state ∧
    state.lagged = true ∧ state.device.model.content = [] ∧
    Relation.ReflTransGen State.Delivers state last ∧ last.device.model.content = [7] := by
  have runs : ∃ state,
      Transition.System.runLabels attempt fresh [.read true, .publish 7 false false] = some state ∧
      state.lagged = true ∧ state.device.model.content = [] ∧ state.log = [7] :=
    ⟨_, rfl, rfl, rfl, rfl⟩
  rcases runs with ⟨state, runs, lagged, content, log⟩
  have reached : heedingSystem.Reachable state :=
    .of_runLabels step_of_attempt (.start starts_fresh) runs
  rcases catches_up reached with ⟨ends, agrees⟩
  rcases Transition.exists_last_of_acc ends with ⟨last, delivered, settled⟩
  refine ⟨state, last, runs, lagged, content, delivered, ?_⟩
  rw [← log]
  exact (agrees last delivered settled).2.2

end Condr.EventStream
