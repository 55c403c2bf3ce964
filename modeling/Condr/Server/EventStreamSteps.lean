import Condr.Server.EventStream

/-!
# What a Device makes of what it is sent

Where a Device is in the events follows from the numbers alone. Reading on from any earlier place
in the log it comes to the end, since what it has already is ignored and what comes next is taken.
-/

namespace Condr.EventStream

open NumberedLog

variable {Event : Type}

/-! ## A Device's place in the events -/

/-- What a Device asks of the Session. -/
inductive Request where
  | subscribe (afterSequence : ℕ)
  | snapshot
deriving DecidableEq

def request : ClientMessage → Option Request
  | .subscribe _ afterSequence => some (.subscribe afterSequence)
  | .snapshotRequest _ => some .snapshot
  | _ => none

theorem request_of_not_asks {message : ClientMessage} (other : asks message = false) :
    request message = none := by
  cases message <;> first | rfl | cases other

/-- What of a Device changes with the events. -/
structure Track (Event : Type) where
  sequence : ℕ
  content : List Event
  subscription : Subscription
  snapshotPending : Bool
  asked : List Request

namespace Track

def requestSnapshot (track : Track Event) : Track Event :=
  if track.snapshotPending then track
  else { track with snapshotPending := true, asked := track.asked ++ [.snapshot] }

def take (track : Track Event) : Message Event → Track Event
  | .event sequence event =>
      if sequence ≠ track.sequence + 1 then
        if track.sequence < sequence then { track with subscription := .none }.requestSnapshot
        else track
      else { track with sequence, content := track.content ++ [event] }
  | .subscribed => { track with subscription := .active }
  | .subscriptionRejected | .snapshotRejected =>
      { track with subscription := .none, snapshotPending := false }.requestSnapshot
  | .bootstrap sequence snapshot =>
      let track := { track with sequence, content := snapshot, snapshotPending := false }
      if track.subscription = .none then
        { track with
          subscription := .pending
          asked := track.asked ++ [.subscribe sequence] }
      else track

def follow (track : Track Event) (messages : List (Message Event)) : Track Event :=
  messages.foldl take track

theorem follow_cons (track : Track Event) (message : Message Event)
    (messages : List (Message Event)) :
    track.follow (message :: messages) = (track.take message).follow messages := rfl

theorem follow_append (track : Track Event) (front back : List (Message Event)) :
    track.follow (front ++ back) = (track.follow front).follow back :=
  List.foldl_append

/-- The next event may come, but no Bootstrap of an earlier time. -/
def Rises (track : Track Event) : Message Event → Prop
  | .bootstrap sequence _ => track.sequence ≤ sequence
  | _ => True

def Rising (track : Track Event) : List (Message Event) → Prop
  | [] => True
  | message :: messages => track.Rises message ∧ (track.take message).Rising messages

theorem rising_append {track : Track Event} {front back : List (Message Event)} :
    track.Rising (front ++ back) ↔ track.Rising front ∧ (track.follow front).Rising back := by
  induction front generalizing track with
  | nil => simp [Rising, follow]
  | cons message front induction =>
      rw [List.cons_append, Rising, Rising, induction, follow_cons, and_assoc]

theorem sequence_requestSnapshot (track : Track Event) :
    track.requestSnapshot.sequence = track.sequence := by
  unfold requestSnapshot
  split_ifs <;> rfl

theorem subscription_requestSnapshot (track : Track Event) :
    track.requestSnapshot.subscription = track.subscription := by
  unfold requestSnapshot
  split_ifs <;> rfl

theorem content_requestSnapshot (track : Track Event) :
    track.requestSnapshot.content = track.content := by
  unfold requestSnapshot
  split_ifs <;> rfl

theorem snapshotPending_requestSnapshot (track : Track Event) :
    track.requestSnapshot.snapshotPending = true := by
  unfold requestSnapshot
  split_ifs with pending
  · exact pending
  · rfl

theorem sequence_le_take {track : Track Event} {message : Message Event}
    (rises : track.Rises message) : track.sequence ≤ (track.take message).sequence := by
  cases message with
  | event sequence event =>
      simp only [take]
      split_ifs with apart later
      · rw [sequence_requestSnapshot]
      · exact le_rfl
      · rw [not_not] at apart
        show track.sequence ≤ sequence
        omega
  | subscribed => exact le_rfl
  | subscriptionRejected =>
      rw [take, sequence_requestSnapshot]
  | snapshotRejected =>
      rw [take, sequence_requestSnapshot]
  | bootstrap sequence snapshot =>
      simp only [take]
      split_ifs <;> exact rises

theorem sequence_le_follow {track : Track Event} {messages : List (Message Event)}
    (rising : track.Rising messages) : track.sequence ≤ (track.follow messages).sequence := by
  induction messages generalizing track with
  | nil => exact le_rfl
  | cons message messages induction =>
      exact (sequence_le_take rising.1).trans (induction rising.2)

/-! ### What it asks -/

/-- What is asked already changes nothing but what is asked then. -/
theorem take_asked (track : Track Event) (message : Message Event) : ∃ extra, ∀ asked,
    { track with asked }.take message =
      { track.take message with asked := asked ++ extra } := by
  have snapshot : ∀ track : Track Event, ∃ extra, ∀ asked, { track with asked }.requestSnapshot =
      { track.requestSnapshot with asked := asked ++ extra } := by
    intro track
    cases pending : track.snapshotPending with
    | true =>
        refine ⟨[], ?_⟩
        intro asked
        simp [requestSnapshot, pending]
    | false =>
        refine ⟨[.snapshot], ?_⟩
        intro asked
        simp [requestSnapshot, pending]
  cases message with
  | event sequence event =>
      simp only [take]
      split_ifs with apart later
      · exact snapshot { track with subscription := .none }
      · exact ⟨[], by simp⟩
      · exact ⟨[], by simp⟩
  | subscribed => exact ⟨[], by simp [take]⟩
  | subscriptionRejected =>
      exact snapshot { track with subscription := .none, snapshotPending := false }
  | snapshotRejected =>
      exact snapshot { track with subscription := .none, snapshotPending := false }
  | bootstrap sequence snapshot =>
      simp only [take]
      split_ifs
      · exact ⟨[.subscribe sequence], fun _ => rfl⟩
      · exact ⟨[], by simp⟩

theorem follow_asked (track : Track Event) (messages : List (Message Event)) : ∃ extra, ∀ asked,
    { track with asked }.follow messages =
      { track.follow messages with asked := asked ++ extra } := by
  induction messages generalizing track with
  | nil => exact ⟨[], by simp [follow]⟩
  | cons message messages induction =>
      rcases take_asked track message with ⟨first, takes⟩
      rcases induction (track.take message) with ⟨rest, follows⟩
      refine ⟨first ++ rest, ?_⟩
      intro asked
      rw [follow_cons, takes, follows, ← List.append_assoc]
      rfl

theorem rising_asked {track : Track Event} {messages : List (Message Event)}
    (asked : List Request) : { track with asked }.Rising messages ↔ track.Rising messages := by
  induction messages generalizing track asked with
  | nil => exact Iff.rfl
  | cons message messages induction =>
      rcases take_asked track message with ⟨extra, takes⟩
      rw [Rising, Rising, takes, induction]
      cases message <;> exact Iff.rfl

/-- It subscribes from where it is, or from before. -/
def Asks (track : Track Event) : Prop :=
  ∀ afterSequence, .subscribe afterSequence ∈ track.asked → afterSequence ≤ track.sequence

theorem Asks.take {track : Track Event} {message : Message Event} (asks : track.Asks)
    (rises : track.Rises message) : (track.take message).Asks := by
  intro afterSequence contained
  have snapshot : ∀ track : Track Event, .subscribe afterSequence ∈ track.requestSnapshot.asked →
      .subscribe afterSequence ∈ track.asked := by
    intro track contained
    unfold requestSnapshot at contained
    split_ifs at contained
    · exact contained
    · simpa using contained
  have kept : .subscribe afterSequence ∈ track.asked →
      afterSequence ≤ (track.take message).sequence := by
    intro contained
    exact (asks afterSequence contained).trans (sequence_le_take rises)
  cases message with
  | event sequence event =>
      simp only [Track.take] at contained
      split_ifs at contained
      · exact kept (snapshot { track with subscription := .none } contained)
      · exact kept contained
      · exact kept contained
  | subscribed => exact kept contained
  | subscriptionRejected =>
      exact kept (snapshot { track with subscription := .none, snapshotPending := false } contained)
  | snapshotRejected =>
      exact kept (snapshot { track with subscription := .none, snapshotPending := false } contained)
  | bootstrap sequence given =>
      simp only [Track.take] at contained
      split_ifs at contained with nothing
      · rcases List.mem_append.mp contained with before | new
        · exact kept before
        · cases List.mem_singleton.mp new
          simp [Track.take, nothing]
      · exact kept contained

theorem Asks.follow {track : Track Event} {messages : List (Message Event)} (asks : track.Asks)
    (rising : track.Rising messages) : (track.follow messages).Asks := by
  induction messages generalizing track with
  | nil => exact asks
  | cons message messages induction => exact induction (asks.take rising.1) rising.2

/-! ### What it knows -/

/-- It stands for the events up to its number. -/
structure Knows (log : List Event) (track : Track Event) : Prop where
  past : track.sequence ≤ log.length
  content : track.content = log.take track.sequence

end Track

/-- A message that says what is in the log. -/
def Valid (log : List Event) : Message Event → Prop
  | .event sequence event => 0 < sequence ∧ log[sequence - 1]? = some event
  | .bootstrap sequence snapshot => sequence ≤ log.length ∧ snapshot = log.take sequence
  | _ => True

theorem Valid.concat {log : List Event} {message : Message Event} (valid : Valid log message)
    (event : Event) : Valid (log ++ [event]) message := by
  cases message with
  | event sequence given =>
      refine ⟨valid.1, ?_⟩
      have bound := (List.getElem?_eq_some_iff.mp valid.2).1
      rw [List.getElem?_append_left bound]
      exact valid.2
  | bootstrap sequence snapshot =>
      rcases valid with ⟨bound, rfl⟩
      refine ⟨?_, (List.take_append_of_le_length bound).symm⟩
      rw [List.length_append]
      omega
  | subscribed => trivial
  | subscriptionRejected => trivial
  | snapshotRejected => trivial

namespace Track

theorem Knows.concat {log : List Event} {track : Track Event} (knows : Knows log track)
    (event : Event) : Knows (log ++ [event]) track where
  past := by
    rw [List.length_append]
    exact knows.past.trans (Nat.le_add_right _ _)
  content := by
    rw [knows.content, List.take_append_of_le_length knows.past]

theorem Knows.take {log : List Event} {track : Track Event} {message : Message Event}
    (knows : Knows log track) (valid : Valid log message) : Knows log (track.take message) := by
  have snapshot : ∀ track : Track Event, Knows log track → Knows log track.requestSnapshot := by
    intro track knows
    refine ⟨?_, ?_⟩
    · rw [sequence_requestSnapshot]
      exact knows.past
    · rw [content_requestSnapshot, sequence_requestSnapshot]
      exact knows.content
  cases message with
  | event sequence event =>
      simp only [Track.take]
      split_ifs with apart later
      · exact snapshot _ ⟨knows.past, knows.content⟩
      · exact knows
      · rw [not_not] at apart
        subst apart
        have found := valid.2
        rw [Nat.add_sub_cancel] at found
        refine ⟨(List.getElem?_eq_some_iff.mp found).1, ?_⟩
        rw [List.take_add_one, found, knows.content]
        rfl
  | subscribed => exact ⟨knows.past, knows.content⟩
  | subscriptionRejected => exact snapshot _ ⟨knows.past, knows.content⟩
  | snapshotRejected => exact snapshot _ ⟨knows.past, knows.content⟩
  | bootstrap sequence given =>
      simp only [Track.take]
      split_ifs
      · exact ⟨valid.1, valid.2⟩
      · exact ⟨valid.1, valid.2⟩

theorem Knows.follow {log : List Event} {track : Track Event} {messages : List (Message Event)}
    (knows : Knows log track) (valid : ∀ message ∈ messages, Valid log message) :
    Knows log (track.follow messages) := by
  induction messages generalizing track with
  | nil => exact knows
  | cons message messages induction =>
      apply induction (knows.take (valid message List.mem_cons_self))
      intro other contained
      exact valid other (List.mem_cons_of_mem _ contained)

/-- Reading on from where it is or from before, it comes to the end of the log. -/
theorem follow_after {log : List Event} {track : Track Event} {count : ℕ}
    (from_before : count ≤ track.sequence) (past : track.sequence ≤ log.length) :
    ∃ content, track.follow ((after log count).map fun event => .event event.1 event.2) =
      { track with sequence := log.length, content } := by
  generalize is_rest : log.length - count = rest
  induction rest generalizing count track with
  | zero =>
      have isEnd : track.sequence = log.length := by omega
      rw [after_of_le (by omega), ← isEnd]
      exact ⟨track.content, rfl⟩
  | succ rest induction =>
      have bound : count < log.length := by omega
      rw [after_cons (List.getElem?_eq_getElem bound), List.map_cons, follow_cons, take]
      split_ifs with apart later
      · simp only at apart later
        omega
      · simp only at apart later
        exact induction (by omega) past (by omega)
      · simp only [not_not] at apart
        rcases @induction { track with
          sequence := count + 1
          content := track.content ++ [log[count]] } (count + 1) le_rfl bound (by omega)
          with ⟨content, follows⟩
        exact ⟨content, follows⟩

end Track

/-! ## A Device -/

def track (device : Device (historyContent Event)) : Track Event where
  sequence := device.model.sequence
  content := device.model.content
  subscription := device.subscription
  snapshotPending := device.snapshotPending
  asked := (device.io.elim [] ConnectionIo.outgoing).filterMap request

/-- The Session that a message asks of. -/
def askedSession : ClientMessage → Option SessionId
  | .subscribe sessionId _ | .snapshotRequest sessionId => some sessionId
  | _ => none

theorem askedSession_of_not_asks {message : ClientMessage} (other : asks message = false) :
    askedSession message = none := by
  cases message <;> first | rfl | cases other

/-- A Device is connected to the Server and knows its Session. -/
structure Tuned (state : State Event) (device : Device (historyContent Event)) : Prop where
  serverId : device.model.serverId = some state.serverId
  runtimeEpoch : device.model.runtimeEpoch = some state.runtimeEpoch
  sessionId : device.model.sessionId = some state.sessionId
  sessions : ∃ io, device.io = some io ∧ ∀ message ∈ io.outgoing, ∀ sessionId,
    askedSession message = some sessionId → sessionId = state.sessionId

section Device

variable {state : State Event} {device : Device (historyContent Event)}

theorem track_send (tuned : Tuned state device) (message : ClientMessage)
    (session : ∀ sessionId, askedSession message = some sessionId → sessionId = state.sessionId) :
    track (device.send message) =
        { track device with asked := (track device).asked ++ (request message).toList } ∧
      Tuned state (device.send message) := by
  rcases tuned.sessions with ⟨io, connected, sessions⟩
  constructor
  · simp only [track, Device.send, connected, Option.map_some, Option.elim_some,
      List.filterMap_append]
    cases asked : request message with
    | none => simp [asked]
    | some asking => simp [asked]
  · refine ⟨tuned.serverId, tuned.runtimeEpoch, tuned.sessionId,
      { io with outgoing := io.outgoing ++ [message] }, ?_, ?_⟩
    · simp only [Device.send, connected, Option.map_some]
    · intro other contained
      rcases List.mem_append.mp contained with before | new
      · exact sessions other before
      · cases List.mem_singleton.mp new
        exact session

theorem requestSnapshot_spec (tuned : Tuned state device) :
    track device.requestSnapshot = (track device).requestSnapshot ∧
      Tuned state device.requestSnapshot := by
  have own : ∀ sessionId, askedSession (.snapshotRequest state.sessionId) = some sessionId →
      sessionId = state.sessionId := by
    intro sessionId same
    exact (Option.some.inj same).symm
  rcases track_send tuned (.snapshotRequest state.sessionId) own with ⟨sent, still⟩
  unfold Device.requestSnapshot Track.requestSnapshot
  cases pending : device.snapshotPending with
  | true =>
      rw [if_pos rfl, if_pos (show (track device).snapshotPending = true from pending)]
      exact ⟨rfl, tuned⟩
  | false =>
      rw [if_neg (by simp), if_neg (by simp [track, pending]), tuned.sessionId]
      refine ⟨?_, still.serverId, still.runtimeEpoch, still.sessionId, still.sessions⟩
      exact congrArg (fun track => { track with snapshotPending := true }) sent

theorem subscribe_spec (tuned : Tuned state device) :
    track device.subscribe =
        (if device.subscription = .none then
          { track device with
            subscription := .pending
            asked := (track device).asked ++ [.subscribe device.model.sequence] }
        else track device) ∧
      Tuned state device.subscribe := by
  have own : ∀ sessionId, askedSession (.subscribe state.sessionId device.model.sequence) =
      some sessionId → sessionId = state.sessionId := by
    intro sessionId same
    exact (Option.some.inj same).symm
  rcases track_send tuned (.subscribe state.sessionId device.model.sequence) own with ⟨sent, still⟩
  unfold Device.subscribe
  by_cases nothing : device.subscription = .none
  · rw [if_neg (not_not.mpr nothing), if_pos nothing, tuned.sessionId]
    refine ⟨?_, still.serverId, still.runtimeEpoch, still.sessionId, still.sessions⟩
    exact congrArg (fun track => { track with subscription := Subscription.pending }) sent
  · rw [if_pos nothing, if_neg nothing]
    exact ⟨rfl, tuned⟩

theorem nextSequence_of_lt {sequence : ℕ} (bounded : sequence + 1 < 2 ^ 64) :
    nextSequence sequence = sequence + 1 := by
  unfold nextSequence
  omega

/-- A message of the Server. -/
theorem apply_spec (tuned : Tuned state device) (bounded : device.model.sequence + 1 < 2 ^ 64)
    (shown : Option PaneId) (message : Message Event) :
    track (device.apply shown (state.incoming message)) = (track device).take message ∧
      Tuned state (device.apply shown (state.incoming message)) := by
  cases message with
  | event sequence event =>
      have taken : device.apply shown (state.incoming (.event sequence event)) =
          if sequence ≠ device.model.sequence + 1 then
            if device.model.sequence < sequence then
              { device with subscription := .none }.requestSnapshot
            else device
          else
            { device with model := { device.model with
                sequence
                content := device.model.content ++ [event] } } := by
        simp only [State.incoming, Device.apply, Device.applyMessage, Device.applyEvent,
          tuned.serverId, tuned.sessionId, ne_eq, not_true_eq_false, or_self, if_false,
          nextSequence_of_lt bounded]
      rw [taken, Track.take]
      by_cases next : sequence = device.model.sequence + 1
      · rw [if_neg (not_not.mpr next),
          if_neg (show ¬sequence ≠ (track device).sequence + 1 from not_not.mpr next)]
        exact ⟨rfl, tuned.serverId, tuned.runtimeEpoch, tuned.sessionId, tuned.sessions⟩
      · rw [if_pos next, if_pos (show sequence ≠ (track device).sequence + 1 from next)]
        by_cases later : device.model.sequence < sequence
        · rw [if_pos later, if_pos (show (track device).sequence < sequence from later)]
          apply requestSnapshot_spec
          exact ⟨tuned.serverId, tuned.runtimeEpoch, tuned.sessionId, tuned.sessions⟩
        · rw [if_neg later, if_neg (show ¬(track device).sequence < sequence from later)]
          exact ⟨rfl, tuned⟩
  | subscribed => exact ⟨rfl, tuned.serverId, tuned.runtimeEpoch, tuned.sessionId, tuned.sessions⟩
  | subscriptionRejected =>
      apply requestSnapshot_spec
      exact ⟨tuned.serverId, tuned.runtimeEpoch, tuned.sessionId, tuned.sessions⟩
  | snapshotRejected =>
      apply requestSnapshot_spec
      exact ⟨tuned.serverId, tuned.runtimeEpoch, tuned.sessionId, tuned.sessions⟩
  | bootstrap sequence snapshot =>
      let restored : Device (historyContent Event) := { device with
        model := { device.model with sequence, content := snapshot }
        snapshotPending := false }
      have taken : device.apply shown (state.incoming (.bootstrap sequence snapshot)) =
          restored.subscribe := by
        have same : device.model.applyBootstrap ⟨state.serverId, state.runtimeEpoch, state.sessionId,
            sequence, snapshot⟩ = .ok ({ device.model with sequence, content := snapshot }, false) := by
          simp [SessionModel.applyBootstrap, tuned.serverId, tuned.runtimeEpoch, tuned.sessionId,
            bind, Except.bind]
        simp only [State.incoming, Device.apply, Device.applyBootstrap, same]
        cases shown <;> rfl
      have still : Tuned state restored :=
        ⟨tuned.serverId, tuned.runtimeEpoch, tuned.sessionId, tuned.sessions⟩
      rw [taken]
      exact subscribe_spec still

end Device

end Condr.EventStream
