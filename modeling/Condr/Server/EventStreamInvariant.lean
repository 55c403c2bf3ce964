import Condr.Server.EventStreamSteps

/-!
# What a Device will know

A Device that took all that is on its way is where the Server has it: it is subscribed and at the
last event, or it has asked for a Bootstrap. A notice puts it where it asks for one.
-/

namespace Condr.EventStream

open NumberedLog

variable {Event : Type} {state next : State Event}

namespace State

/-- What is on its way to the Device. -/
def queued (state : State Event) : List (Message Event) := state.wire ++ state.reliable

/-- Where the Device is once it took what is on its way. -/
def last (state : State Event) : Track Event := (track state.device).follow state.queued

end State

/-! ## The invariant -/

/-- The log, what is kept of it, and what is said of it. -/
structure Sound (state : State Event) : Prop where
  sequence : state.sequence = state.log.length
  room : state.log.length + 1 < 2 ^ 64
  events : state.events = after state.log (state.log.length - eventHistoryLimit)
  tuned : Tuned state state.device
  knows : (track state.device).Knows state.log
  valid : ∀ message ∈ state.queued, Valid state.log message
  rising : (track state.device).Rising state.queued
  asks : (track state.device).Asks

/-- A Bootstrap that is made, and the events that wait for it. -/
structure Fences (state : State Event) : Prop where
  capture : ∀ capture, state.capture = some capture → capture.sequence ≤ state.log.length ∧
    capture.snapshot = state.log.take capture.sequence ∧
      state.last.sequence ≤ capture.sequence ∧ capture.fenced = state.subscriber.isSome
  pending : ∀ capture subscriber, state.capture = some capture →
    state.subscriber = some subscriber → subscriber.bootstrapPending = true
  deferred : ∀ subscriber, state.subscriber = some subscriber →
    subscriber.bootstrapPending = true → ∃ capture, state.capture = some capture ∧
      subscriber.deferredReliable =
        (after state.log capture.sequence).map fun event => .event event.1 event.2

structure Believes (state : State Event) : Prop where
  nothing : state.last.subscription = .none → state.last.snapshotPending = true
  asked : state.last.snapshotPending = true →
    .snapshot ∈ state.last.asked ∨ state.capture.isSome = true
  pending : state.last.subscription = .pending →
    ∃ afterSequence, .subscribe afterSequence ∈ state.last.asked
  active : state.last.subscription = .active → state.subscriber.isSome = true
  lagged : state.lagged = true → state.last.subscription = .none
  current : ∀ subscriber, state.subscriber = some subscriber →
    subscriber.bootstrapPending = false → state.lagged = false →
      state.last.sequence = state.sequence ∨ state.last.snapshotPending = true

structure Upheld (state : State Event) : Prop where
  sound : Sound state
  fences : Fences state
  believes : Believes state

/-- The numbers do not come to their end. -/
def Heeds (state : State Event) : Label Event → Prop
  | .publish .. => state.log.length + 2 < 2 ^ 64
  | _ => True

def heedingSystem : Transition.System (State Event) (Label Event) where
  initial := Starts
  step := fun state label next => eventSystem.step state label next ∧ Heeds state label

theorem Sound.knows_last (sound : Sound state) : state.last.Knows state.log :=
  sound.knows.follow sound.valid

theorem Sound.asks_last (sound : Sound state) : state.last.Asks :=
  sound.asks.follow sound.rising

theorem Upheld.unfenced {subscriber : ClientSubscriber Event} (upheld : Upheld state)
    (free : state.capture = none) (is_subscriber : state.subscriber = some subscriber) :
    subscriber.bootstrapPending = false := by
  apply Bool.eq_false_iff.mpr
  intro pending
  rcases upheld.fences.deferred subscriber is_subscriber pending with ⟨capture, captured, -⟩
  cases free.symm.trans captured

/-! ## What is sent -/

/-- The log and the Device stay. -/
structure Beside (state next : State Event) : Prop where
  serverId : next.serverId = state.serverId
  runtimeEpoch : next.runtimeEpoch = state.runtimeEpoch
  sessionId : next.sessionId = state.sessionId
  log : next.log = state.log
  sequence : next.sequence = state.sequence
  events : next.events = state.events
  device : next.device = state.device

theorem Tuned.beside {device : Device (historyContent Event)} (tuned : Tuned state device)
    (serverId : next.serverId = state.serverId)
    (runtimeEpoch : next.runtimeEpoch = state.runtimeEpoch)
    (sessionId : next.sessionId = state.sessionId) : Tuned next device := by
  refine ⟨?_, ?_, ?_, ?_⟩
  · rw [serverId]
    exact tuned.serverId
  · rw [runtimeEpoch]
    exact tuned.runtimeEpoch
  · rw [sessionId]
    exact tuned.sessionId
  · rw [sessionId]
    exact tuned.sessions

theorem Sound.beside (sound : Sound state) (beside : Beside state next)
    (valid : ∀ message ∈ next.queued, Valid state.log message)
    (rising : (track state.device).Rising next.queued) : Sound next := by
  refine ⟨?_, ?_, ?_, ?_, ?_, ?_, ?_, ?_⟩
  · rw [beside.sequence, beside.log]
    exact sound.sequence
  · rw [beside.log]
    exact sound.room
  · rw [beside.events, beside.log]
    exact sound.events
  · rw [beside.device]
    exact sound.tuned.beside beside.serverId beside.runtimeEpoch beside.sessionId
  · rw [beside.device, beside.log]
    exact sound.knows
  · rw [beside.log]
    exact valid
  · rw [beside.device]
    exact rising
  · rw [beside.device]
    exact sound.asks

theorem Sound.same (sound : Sound state) (beside : Beside state next)
    (queued : next.queued = state.queued) : Sound next := by
  apply sound.beside beside
  · rw [queued]
    exact sound.valid
  · rw [queued]
    exact sound.rising

theorem last_of_queued (beside : Beside state next) (queued : next.queued = state.queued) :
    next.last = state.last := by
  rw [State.last, State.last, beside.device, queued]

theorem last_of_pushed {messages : List (Message Event)} (beside : Beside state next)
    (queued : next.queued = state.queued ++ messages) :
    next.last = state.last.follow messages := by
  rw [State.last, beside.device, queued, Track.follow_append]
  rfl

/-- More is sent after what is on its way. -/
theorem Sound.pushed {messages : List (Message Event)} (sound : Sound state) (next : State Event)
    (beside : Beside state next) (queued : next.queued = state.queued ++ messages)
    (valid : ∀ message ∈ messages, Valid state.log message)
    (rising : state.last.Rising messages) :
    Sound next ∧ next.last = state.last.follow messages := by
  refine ⟨?_, last_of_pushed beside queued⟩
  apply sound.beside beside
  · intro message contained
    rw [queued] at contained
    rcases List.mem_append.mp contained with before | new
    · exact sound.valid message before
    · exact valid message new
  · rw [queued]
    exact Track.rising_append.mpr ⟨sound.rising, rising⟩

/-- The queue overflows: what was written stays, and a notice follows. -/
theorem Sound.overflowed (sound : Sound state) (next : State Event) (beside : Beside state next)
    (wire : next.wire = state.wire) (reliable : next.reliable = [.subscriptionRejected]) :
    Sound next ∧ next.last.sequence ≤ state.last.sequence ∧
      ∃ before : Track Event, next.last = before.take .subscriptionRejected := by
  have split := sound.rising
  rw [State.queued, Track.rising_append] at split
  have is_last : next.last =
      ((track state.device).follow state.wire).take .subscriptionRejected := by
    rw [State.last, State.queued, beside.device, wire, reliable, Track.follow_append]
    rfl
  refine ⟨?_, ?_, _, is_last⟩
  · apply sound.beside beside
    · intro message contained
      rw [State.queued, wire, reliable] at contained
      rcases List.mem_append.mp contained with before | new
      · exact sound.valid message (List.mem_append_left _ before)
      · cases List.mem_singleton.mp new
        trivial
    · rw [State.queued, wire, reliable]
      exact Track.rising_append.mpr ⟨split.1, trivial, trivial⟩
  · rw [is_last, Track.take, Track.sequence_requestSnapshot, State.last, State.queued,
      Track.follow_append]
    exact Track.sequence_le_follow split.2

/-- After a rejection the Device asks for a Bootstrap. -/
theorem believes_of_rejected {before : Track Event}
    (is_last : next.last = before.take .subscriptionRejected) : Believes next := by
  have subscription : next.last.subscription = .none := by
    rw [is_last, Track.take, Track.subscription_requestSnapshot]
  have pending : next.last.snapshotPending = true := by
    rw [is_last, Track.take, Track.snapshotPending_requestSnapshot]
  refine ⟨fun _ => pending, ?_, ?_, ?_, fun _ => subscription, fun _ _ _ _ => .inr pending⟩
  · intro _
    refine .inl ?_
    rw [is_last]
    simp [Track.take, Track.requestSnapshot]
  · intro is_pending
    rw [subscription] at is_pending
    cases is_pending
  · intro is_active
    rw [subscription] at is_active
    cases is_active

/-- A lagged writer takes nothing. -/
theorem Believes.refused (believes : Believes state) (was : state.lagged = true)
    (lagged : next.lagged = true) (subscription : next.last.subscription = state.last.subscription)
    (snapshotPending : next.last.snapshotPending = state.last.snapshotPending)
    (asked : .snapshot ∈ state.last.asked → .snapshot ∈ next.last.asked)
    (capture : next.capture = state.capture) : Believes next := by
  have nothing : next.last.subscription = .none := subscription.trans (believes.lagged was)
  refine ⟨?_, ?_, ?_, ?_, fun _ => nothing, ?_⟩
  · intro _
    rw [snapshotPending]
    exact believes.nothing (believes.lagged was)
  · rw [snapshotPending, capture]
    intro pending
    rcases believes.asked pending with contained | captured
    · exact .inl (asked contained)
    · exact .inr captured
  · intro is_pending
    rw [nothing] at is_pending
    cases is_pending
  · intro is_active
    rw [nothing] at is_active
    cases is_active
  · intro _ _ _ unlagged
    rw [lagged] at unlagged
    cases unlagged

/-- What a send does. -/
inductive Sends (state : State Event) (messages : List (Message Event)) :
    State Event → Bool → Prop where
  | refused (lagged : state.lagged = true) : Sends state messages state false
  | sent (lagged : state.lagged = false) :
      Sends state messages { state with reliable := state.reliable ++ messages } true
  | overflowed (lagged : state.lagged = false) :
      Sends state messages
        { state with reliable := [.subscriptionRejected], lagged := true } false

theorem sends (state : State Event) (messages : List (Message Event)) (room : Bool) :
    Sends state messages (state.sendReliable messages room).1
      (state.sendReliable messages room).2 := by
  unfold State.sendReliable
  by_cases lagged : state.lagged = true
  · rw [if_pos lagged]
    exact .refused lagged
  · rw [if_neg lagged]
    cases room with
    | true =>
        rw [if_pos rfl]
        exact .sent (by simpa using lagged)
    | false =>
        rw [if_neg Bool.false_ne_true]
        exact .overflowed (by simpa using lagged)

/-- Messages without a Bootstrap. -/
theorem rising_of_events {track : Track Event} {messages : List (Message Event)}
    (events : ∀ message ∈ messages, ∀ sequence snapshot, message ≠ .bootstrap sequence snapshot) :
    track.Rising messages := by
  induction messages generalizing track with
  | nil => trivial
  | cons message messages induction =>
      refine ⟨?_, ?_⟩
      · cases message with
        | bootstrap sequence snapshot =>
            exact absurd rfl (events _ List.mem_cons_self sequence snapshot)
        | event sequence event => trivial
        | subscribed => trivial
        | subscriptionRejected => trivial
        | snapshotRejected => trivial
      · apply induction
        intro other contained
        exact events other (List.mem_cons_of_mem _ contained)

end Condr.EventStream
