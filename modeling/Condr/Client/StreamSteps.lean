import Condr.Client.StreamMoves

/-!
# The steps of one end

Every operation, the writer's choice and every frame from the peer touch one
Stream of the end, and move the two lanes of that Stream.
-/

namespace Condr.Streams

open State

/-- The Stream still has its entry, and a thread holds its handle. -/
def Alive (entry : Option Entry) : Prop :=
  ∃ held, entry = some held ∧ held.handleAlive = true

/-- What an end sends about the Streams opened so far, apart from `Open`. -/
def Side.Sends (side : Side) (highest : ℕ) (message : StreamMessage) : Prop :=
  match message with
  | .opened stream _ | .openFailed stream .. => side = .server ∧ 0 < stream ∧ stream ≤ highest
  | .data stream _ | .credit stream _ | .finish stream | .reset stream .. =>
      0 < stream ∧ stream ≤ highest
  | .ping => side = .client
  | .pong => side = .server
  | .open .. | .close | .unknown => False

/-- A step of an end on one Stream: `taken` came from the peer, `sent` waits for the writer,
`written` and `read` went through the handle. -/
structure Steps (side : Side) (stream : ℕ) (after : Option Entry) (ended endedAfter : Bool)
    (taken sent : List StreamMessage) (written read : List UInt8) (state next : State) : Prop where
  touches : Touches stream after sent state next
  sender : SenderMoves stream (state.entryAt stream) after taken sent written
  receiver : ReceiverMoves stream (state.entryAt stream) after ended endedAfter taken sent read
  about : ∀ message ∈ sent, message.stream? = some stream
  sends : 0 < stream ∧ stream ≤ state.highest → ∀ message ∈ sent, side.Sends state.highest message

section Operations

variable {side : Side} {state next : State} {stream : ℕ} {entry : Entry} {ended : Bool}

theorem Steps.refl (keys : state.KeysOpened) {endedAfter : Bool}
    (later : endedAfter = false → ended = false) :
    Steps side stream (state.entryAt stream) ended endedAfter [] [] [] [] state state where
  touches := .refl keys
  sender := .stay rfl rfl fun _ _ sends => sends
  receiver := .stay later rfl rfl fun _ _ receives => receives
  about := by simp
  sends := by simp

theorem accept_steps (keys : state.KeysOpened) (running : state.closed = none)
    (size : Option ℕ) :
    Steps .server stream (state.entryAt stream) ended ended [] [.opened stream size] [] [] state
      (state.accept stream size) := by
  have accepted : state.accept stream size = state.pushControl (.opened stream size) := by
    simp [accept, running]
  rw [accepted]
  exact {
    touches := .pushControl keys _
    sender := .stay rfl rfl fun _ _ sends => sends
    receiver := .stay id rfl rfl fun _ _ receives => receives
    about := by simp [StreamMessage.stream?]
    sends := by simp [Side.Sends] }

theorem refuse_steps (keys : state.KeysOpened) (running : state.closed = none)
    (found : state.get stream = some entry) (error : StreamError) (detail : String) :
    Steps .server stream (some { entry with outgoing := [], failure := some ⟨error, detail⟩ }.unlined)
      ended true [] [.openFailed stream error detail] [] [] state
      (state.refuse stream error detail) := by
  have refused : state.refuse stream error detail =
      (state.put stream { entry with
        outgoing := [], failure := some ⟨error, detail⟩ }).pushControl
          (.openFailed stream error detail) := by
    simp only [refuse, running, Option.isSome_none, Bool.false_eq_true, if_false,
      get_pushControl, found]
    rfl
  rw [refused]
  have entryAt := entryAt_of_get keys found
  exact {
    touches := .putAndPush keys found _ _
    sender := by
      rw [entryAt]
      exact .end (by simp [StreamMessage.item?]) rfl rfl rfl rfl rfl
    receiver := by
      rw [entryAt]
      exact .end (by simp [StreamMessage.return?]) rfl rfl rfl rfl rfl rfl
    about := by simp [StreamMessage.stream?]
    sends := by simp [Side.Sends] }

/-- A round of `write` that took bytes. -/
theorem write_steps (keys : state.KeysOpened) (running : state.closed = none)
    {rest : List UInt8} {take : ℕ} (written : state.write stream rest = (.took take, next)) :
    ∃ after, (Alive (state.entryAt stream) → Alive after) ∧
      Steps side stream after ended ended [] [] (rest.take take) [] state next := by
  simp only [write] at written
  split at written
  next => simp at written
  next noFailure =>
    split at written
    next => simp at written
    next entry found =>
      have entryAt := entryAt_of_get keys found
      have entryRunning : entry.failure = none := by
        simpa [State.failure, running, found] using noFailure
      split at written
      next => simp at written
      next unfinished =>
        split at written
        next => simp at written
        next available =>
          simp only [Prod.mk.injEq, WriteResult.took.injEq] at written
          rcases written with ⟨taken, rfl⟩
          have takenLength : (rest.take take).length = take := by
            simp only [List.length_take]
            omega
          refine ⟨_, ?_, .pushOutgoing keys found _ _, ?_, ?_, by simp, by simp⟩
          · rw [entryAt]
            rintro ⟨held, isHeld, alive⟩
            cases isHeld
            exact ⟨_, rfl, alive⟩
          · rw [entryAt]
            have room : take ≤ entry.limit - entry.sent := by omega
            have moves : SenderMoves stream (some entry.unlined) _ [] [] _ :=
              .write entryRunning (Bool.eq_false_of_not_eq_true unfinished) (rest.take take)
                (takenLength.trans_le room) (Nat.pos_of_ne_zero available)
            rw [takenLength] at moves
            rw [taken]
            exact moves
          · rw [entryAt]
            exact .stay id rfl rfl fun _ _ receives => receives

/-- A round of `write` that took nothing leaves the end alone. -/
theorem write_eq_self {rest : List UInt8} {result : WriteResult}
    (written : state.write stream rest = (result, next)) (notTaken : ∀ take, result ≠ .took take) :
    next = state := by
  simp only [write] at written
  split at written
  next => simp_all
  next =>
    split at written
    next => simp_all
    next =>
      split at written
      next => simp_all
      next =>
        split at written
        next => simp_all
        next =>
          simp only [Prod.mk.injEq] at written
          exact absurd written.1.symm (notTaken _)

/-- A round of `read` that took a chunk. -/
theorem read_steps (keys : state.KeysOpened) {data : List UInt8}
    (taken : state.read stream = (.chunk data, next)) :
    ∃ after sent, (Alive (state.entryAt stream) → Alive after) ∧
      Steps side stream after ended ended [] sent [] data state next := by
  simp only [State.read] at taken
  split at taken
  next => simp at taken
  next entry found =>
    have entryAt := entryAt_of_get keys found
    split at taken
    next chunk inbound buffered =>
      have moves : ReceiverMoves stream (some entry.unlined) _ ended ended [] _ chunk :=
        .read (show entry.unlined.inbound = _ from buffered)
      simp only [Entry.afterRead, Entry.unlined] at moves
      split at taken
      next due =>
        simp only [Prod.mk.injEq, ReadResult.chunk.injEq] at taken
        rcases taken with ⟨rfl, rfl⟩
        replace moves := (if_pos due).subst (motive := fun result : Entry × List StreamMessage =>
          ReceiverMoves stream _ (some result.1) ended ended [] result.2 chunk) moves
        refine ⟨_, _, ?_, .putAndPush keys found _ _, ?_, ?_, by simp [StreamMessage.stream?],
          fun opened => by simpa [Side.Sends] using opened⟩
        · rw [entryAt]
          rintro ⟨held, isHeld, alive⟩
          cases isHeld
          exact ⟨_, rfl, alive⟩
        · rw [entryAt]
          exact .stay rfl rfl fun _ _ sends => sends
        · rw [entryAt]
          exact moves
      next early =>
        simp only [Prod.mk.injEq, ReadResult.chunk.injEq] at taken
        rcases taken with ⟨rfl, rfl⟩
        replace moves := (if_neg early).subst (motive := fun result : Entry × List StreamMessage =>
          ReceiverMoves stream _ (some result.1) ended ended [] result.2 chunk) moves
        refine ⟨_, _, ?_, .put keys found _, ?_, ?_, by simp, by simp⟩
        · rw [entryAt]
          rintro ⟨held, isHeld, alive⟩
          cases isHeld
          exact ⟨_, rfl, alive⟩
        · rw [entryAt]
          exact .stay rfl rfl fun _ _ sends => sends
        · rw [entryAt]
          exact moves
    next =>
      split at taken
      next => simp at taken
      next =>
        split at taken
        next => simp at taken
        next => simp at taken

/-- A round of `read` that took nothing leaves the end alone. -/
theorem read_eq_self {result : ReadResult} (taken : state.read stream = (result, next))
    (notTaken : ∀ data, result ≠ .chunk data) : next = state := by
  simp only [State.read] at taken
  split at taken
  next => simp_all
  next =>
    split at taken
    next =>
      split at taken
      next =>
        simp only [Prod.mk.injEq] at taken
        exact absurd taken.1.symm (notTaken _)
      next =>
        simp only [Prod.mk.injEq] at taken
        exact absurd taken.1.symm (notTaken _)
    next =>
      split at taken
      next => simp_all
      next =>
        split at taken
        next => simp_all
        next => simp_all

theorem finish_steps (keys : state.KeysOpened) :
    ∃ after, (Alive (state.entryAt stream) → Alive after) ∧
      Steps side stream after ended ended [] [] [] [] state (state.finish stream) := by
  simp only [finish]
  split
  next => exact ⟨_, id, .refl keys id⟩
  next entry found =>
    have entryAt := entryAt_of_get keys found
    split
    next => exact ⟨_, id, .refl keys id⟩
    next running =>
      simp only [Bool.or_eq_true, not_or, Bool.not_eq_true, Option.isSome_eq_false_iff,
        Option.isNone_iff_eq_none] at running
      refine ⟨_, ?_, .pushOutgoing keys found _ _, ?_, ?_, by simp, by simp⟩
      · rw [entryAt]
        rintro ⟨held, isHeld, alive⟩
        cases isHeld
        exact ⟨_, rfl, alive⟩
      · rw [entryAt]
        exact .finish running.2 running.1
      · rw [entryAt]
        exact .stay id rfl rfl fun _ _ receives => receives

/-- `reset` on a running Stream. -/
theorem reset_steps_of_running (keys : state.KeysOpened) (running : state.closed = none)
    (found : state.get stream = some entry) (notFailed : entry.failure = none)
    (error : StreamError) (detail : String) :
    Steps side stream (some { entry with outgoing := [], failure := some ⟨error, detail⟩ }.unlined)
      ended true [] [.reset stream error detail] [] [] state (state.reset stream error detail) := by
  have wasReset : state.reset stream error detail =
      (state.put stream { entry with
        outgoing := [], failure := some ⟨error, detail⟩ }).pushControl
          (.reset stream error detail) := by
    simp [reset, found, notFailed, running]
  rw [wasReset]
  have entryAt := entryAt_of_get keys found
  exact {
    touches := .putAndPush keys found _ _
    sender := by
      rw [entryAt]
      exact .end (by simp [StreamMessage.item?]) rfl rfl rfl rfl rfl
    receiver := by
      rw [entryAt]
      exact .end (by simp [StreamMessage.return?]) rfl rfl rfl rfl rfl rfl
    about := by simp [StreamMessage.stream?]
    sends := fun opened => by simpa [Side.Sends] using opened }

theorem reset_steps (keys : state.KeysOpened) (running : state.closed = none)
    (error : StreamError) (detail : String) :
    ∃ after sent, (Alive (state.entryAt stream) → Alive after) ∧
      Steps side stream after ended true [] sent [] [] state (state.reset stream error detail) := by
  cases found : state.get stream with
  | none =>
      have same : state.reset stream error detail = state := by simp [reset, found]
      rw [same]
      exact ⟨_, _, id, .refl keys (by simp)⟩
  | some entry =>
      cases failure : entry.failure with
      | some failure =>
          have same : state.reset stream error detail = state := by simp [reset, found, failure]
          rw [same]
          exact ⟨_, _, id, .refl keys (by simp)⟩
      | none =>
          refine ⟨_, _, ?_, reset_steps_of_running keys running found failure error detail⟩
          rw [entryAt_of_get keys found]
          rintro ⟨held, isHeld, alive⟩
          cases isHeld
          exact ⟨_, rfl, alive⟩

/-- The handle goes once the Stream failed or both directions finished. -/
theorem release_steps (keys : state.KeysOpened) (found : state.get stream = some entry)
    (isDone : entry.failure.isSome = true ∨
      (entry.finishQueued = true ∧ entry.peerFinished = true)) {endedAfter : Bool} :
    Steps side stream { entry with handleAlive := false, inbound := [] }.unlessFinished ended endedAfter
      [] [] [] [] state
      ((state.put stream { entry with handleAlive := false, inbound := [] }).removeIfFinished
        stream) := by
  have entryAt := entryAt_of_get keys found
  have stored := Touches.put keys found { entry with handleAlive := false, inbound := [] }
  exact {
    touches := stored.trans (.removeIfFinished stored.keys (get_put_self ..))
    sender := by
      rw [entryAt]
      exact .release (isDone.imp_right And.left)
    receiver := by
      rw [entryAt]
      exact .release (isDone.imp_right And.right)
    about := by simp
    sends := by simp }

theorem drop_steps (keys : state.KeysOpened) (running : state.closed = none)
    (found : state.get stream = some entry) :
    ∃ after sent, Steps side stream after ended ended [] sent [] [] state (state.drop stream) := by
  simp only [State.drop, found]
  cases incomplete : !(entry.finishQueued && entry.peerFinished) && entry.failure.isNone with
  | false =>
      simp only [Bool.false_eq_true, if_false, found]
      refine ⟨_, _, release_steps keys found ?_⟩
      simp only [Bool.and_eq_false_iff, Bool.not_eq_false', Bool.and_eq_true,
        Option.isNone_eq_false_iff] at incomplete
      exact incomplete.symm
  | true =>
      simp only [if_true]
      simp only [Bool.and_eq_true, Option.isNone_iff_eq_none] at incomplete
      have resets : Steps side stream _ ended true [] _ [] [] state _ :=
        reset_steps_of_running keys running found incomplete.2 .cancelled ""
      have wasReset : state.reset stream .cancelled "" =
          (state.put stream { entry with
            outgoing := [], failure := some ⟨.cancelled, ""⟩ }).pushControl
              (.reset stream .cancelled "") := by
        simp [reset, found, incomplete.2, running]
      have foundAfter : (state.reset stream .cancelled "").get stream =
          some { entry with outgoing := [], failure := some ⟨.cancelled, ""⟩ } := by
        simp [wasReset]
      have releases : Steps side stream _ true ended [] [] [] [] (state.reset stream .cancelled "") _ :=
        release_steps resets.touches.keys foundAfter (Or.inl rfl)
      simp only [foundAfter]
      refine ⟨_, _, resets.touches.trans releases.touches, ?_, ?_, by simp [StreamMessage.stream?],
          fun opened => by simpa [Side.Sends] using opened⟩
      · have moves := releases.sender
        rw [resets.touches.entry] at moves
        exact resets.sender.trans moves
      · have moves := releases.receiver
        rw [resets.touches.entry] at moves
        exact resets.receiver.trans moves

end Operations

/-! ## The writer -/

/-- A step that shows on no Stream. -/
structure Hides (state next : State) : Prop where
  keys : next.KeysOpened
  entryAt : next.entryAt = state.entryAt
  control : next.control = state.control
  highest : next.highest = state.highest
  closed : next.closed = state.closed

namespace Hides

variable {state middle next : State} {stream : ℕ} {entry : Entry}

theorem trans (first : Hides state middle) (second : Hides middle next) : Hides state next where
  keys := second.keys
  entryAt := second.entryAt.trans first.entryAt
  control := second.control.trans first.control
  highest := second.highest.trans first.highest
  closed := second.closed.trans first.closed

/-- Leaving the line does not show. -/
theorem unline (keys : state.KeysOpened) (found : state.get stream = some entry) :
    Hides state (state.put stream { entry with queued := false }) := by
  have touches := Touches.put keys found { entry with queued := false }
  refine ⟨touches.keys, ?_, rfl, rfl, rfl⟩
  funext other
  by_cases same : other = stream
  · rw [same, touches.entry, entryAt_of_get keys found]
    rfl
  · exact touches.others other same

end Hides

/-- The writer took an item of a Stream for the channel. -/
structure Forwards (message : StreamMessage) (stream : ℕ) (after : Option Entry)
    (state next : State) : Prop where
  about : message.stream? = some stream
  data : ∃ item, message = State.message stream item
  touches : Touches stream after [] state next
  sender : SenderMoves stream (state.entryAt stream) after [] [message] []
  receiver (ended : Bool) :
    ReceiverMoves stream (state.entryAt stream) after ended ended [] [message] []
  alive : Alive (state.entryAt stream) → Alive after
  opened : 0 < stream ∧ stream ≤ state.highest

theorem Forwards.of_hides {message : StreamMessage} {stream : ℕ} {after : Option Entry}
    {state middle next : State} (hides : Hides state middle)
    (forwards : Forwards message stream after middle next) :
    Forwards message stream after state next where
  about := forwards.about
  data := forwards.data
  touches := {
    keys := forwards.touches.keys
    entry := forwards.touches.entry
    others := fun other different => by
      rw [forwards.touches.others other different, hides.entryAt]
    control := by rw [forwards.touches.control, hides.control]
    highest := forwards.touches.highest.trans hides.highest
    closed := forwards.touches.closed.trans hides.closed }
  sender := hides.entryAt ▸ forwards.sender
  receiver := hides.entryAt ▸ forwards.receiver
  alive := hides.entryAt ▸ forwards.alive
  opened := hides.highest ▸ forwards.opened

theorem forwards_of_popped {state : State} {stream : ℕ} {entry : Entry} {item : Outgoing}
    {outgoing : List Outgoing} (keys : state.KeysOpened) (found : state.get stream = some entry)
    (popped : entry.outgoing = item :: outgoing) (queued : Bool) (ready : List ℕ) :
    Forwards (State.message stream item) stream { entry with outgoing }.unlessFinished state
      (({ state.put stream { entry with outgoing, queued } with ready }).removeIfFinished
        stream) := by
  have entryAt := entryAt_of_get keys found
  have stored := Touches.put keys found { entry with outgoing, queued }
  have storedReady := stored.withReady ready
  have removed : Touches stream { entry with outgoing, queued }.unlessFinished [] _ _ :=
    .removeIfFinished storedReady.keys (get_put_self ..)
  exact {
    about := by cases item <;> rfl
    data := ⟨item, rfl⟩
    touches := storedReady.trans removed
    sender := by
      rw [entryAt]
      exact .forward popped
    receiver := fun ended => by
      rw [entryAt]
      refine .stay id rfl (by cases item <;> rfl) ?_
      intro lane run receives
      simp only [Entry.unlessFinished]
      split
      next isFinished =>
        simp only [Entry.finished, Bool.and_eq_true, Bool.not_eq_true'] at isFinished
        rcases receives with ⟨_, _, _, _, finished, failure, alive, _⟩
        exact (alive isFinished.1).imp (fun failed => failure ▸ failed) (fun isDone => finished ▸ isDone)
      next => exact receives
    alive := by
      rw [entryAt]
      rintro ⟨held, isHeld, alive⟩
      cases isHeld
      have notFinished : ¬ ({ entry with outgoing } : Entry).finished = true := by
        simp [Entry.finished, show entry.handleAlive = true from alive]
      exact ⟨({ entry with outgoing } : Entry).unlined, if_neg notFinished, alive⟩
    opened := keys stream entry found }

theorem nextDataFrom_steps {state next : State} {result : Option StreamMessage}
    (keys : state.KeysOpened) (ready : List ℕ)
    (chosen : state.nextDataFrom ready = (result, next)) :
    (result = none → Hides state next) ∧
      ∀ message, result = some message → ∃ stream after,
        Forwards message stream after state next := by
  induction ready generalizing state with
  | nil =>
      simp only [nextDataFrom, Prod.mk.injEq] at chosen
      rcases chosen with ⟨rfl, rfl⟩
      exact ⟨fun _ => ⟨keys, rfl, rfl, rfl, rfl⟩, by simp⟩
  | cons stream ready hypothesis =>
      cases found : state.get stream with
      | none =>
          simp only [nextDataFrom, found] at chosen
          exact hypothesis keys chosen
      | some entry =>
          cases popped : entry.outgoing with
          | nil =>
              simp only [nextDataFrom, found, popped] at chosen
              have hides := Hides.unline keys found
              rw [popped] at hides
              rcases hypothesis hides.keys chosen with ⟨nothing, something⟩
              refine ⟨fun none => hides.trans (nothing none), fun message some => ?_⟩
              rcases something message some with ⟨other, after, forwards⟩
              exact ⟨other, after, forwards.of_hides hides⟩
          | cons item outgoing =>
              simp only [nextDataFrom, found, popped, Prod.mk.injEq] at chosen
              rcases chosen with ⟨rfl, rfl⟩
              refine ⟨by simp, fun message chosen => ?_⟩
              rcases Option.some.inj chosen with rfl
              exact ⟨stream, _, forwards_of_popped keys found popped _ _⟩

/-! ## Frames from the peer -/

/-- The entry of a Stream once a frame about it arrived. -/
def afterFrame (message : StreamMessage) (before : Option Entry) : Option Entry :=
  match message with
  | .opened _ size => before.map fun entry => { entry with opened := some size }
  | .openFailed _ error detail | .reset _ error detail =>
      before.bind fun entry => (entry.fail ⟨error, detail⟩).unlessFinished
  | .data _ data => before.map fun entry => entry.take data
  | .credit _ maxOffset =>
      before.map fun entry => { entry with limit := max entry.limit maxOffset }
  | .finish _ => before.map fun entry => { entry with peerFinished := true }
  | _ => before

section Receive

variable {state : State} {stream : ℕ} {entry : Entry} {side : Side}

theorem onLive_of_opened (opened : 0 < stream ∧ stream ≤ state.highest)
    (update : Entry → Except String State) :
    state.onLive stream update =
      match state.get stream with
      | none => .ok state
      | some entry => update entry := by
  have live : state.liveEntry stream = .ok (state.get stream) := by
    simp only [liveEntry]
    rw [if_neg]
    omega
  simp only [onLive, live]
  cases state.get stream <;> rfl

/-- A frame that updates the entry of its Stream. -/
theorem onLive_touches (keys : state.KeysOpened) (opened : 0 < stream ∧ stream ≤ state.highest)
    {update : Entry → Except String State} (change : Option Entry → Option Entry)
    (gone : change none = none)
    (live : ∀ entry, state.get stream = some entry → ∃ next, update entry = .ok next ∧
      Touches stream (change (some entry.unlined)) [] state next) :
    ∃ next, state.onLive stream update = .ok next ∧
      Touches stream (change (state.entryAt stream)) [] state next := by
  rw [onLive_of_opened opened]
  cases found : state.get stream with
  | none =>
      have absent : state.entryAt stream = none := by simp [entryAt, opened, found]
      have touches : Touches stream _ [] state state := .refl keys
      rw [absent] at touches ⊢
      exact ⟨state, rfl, gone.symm ▸ touches⟩
  | some entry =>
      rw [entryAt_of_get keys found]
      exact live entry found

/-- A frame about an opened Stream is taken: the data it carries fits the credit given. -/
theorem receive_touches {message : StreamMessage} (keys : state.KeysOpened)
    (sends : side.peer.Sends state.highest message) (about : message.stream? = some stream)
    (fits : ∀ data entry, message = .data stream data → state.entryAt stream = some entry →
      entry.failure = none → entry.peerFinished = false →
      entry.received + data.length ≤ entry.announced) :
    ∃ next, state.receive side message = .ok (next, none) ∧
      Touches stream (afterFrame message (state.entryAt stream)) [] state next := by
  -- A frame that changes one field of the entry.
  have put (change : Entry → Entry) (sameUnlined : ∀ entry : Entry,
      (change entry).unlined = change entry.unlined)
      (opened : 0 < stream ∧ stream ≤ state.highest) :
      ∃ next, state.onLive stream (fun entry => .ok (state.put stream (change entry))) = .ok next ∧
        Touches stream ((state.entryAt stream).map change) [] state next := by
    refine onLive_touches keys opened (Option.map change) rfl fun entry found => ⟨_, rfl, ?_⟩
    have touches := Touches.put keys found (change entry)
    rw [sameUnlined] at touches
    exact touches
  -- A frame that ends the Stream.
  have fail (failure : StreamFailure) (opened : 0 < stream ∧ stream ≤ state.highest) :
      ∃ next, state.receiveFailure stream failure = .ok next ∧
        Touches stream ((state.entryAt stream).bind fun entry =>
          (entry.fail failure).unlessFinished) [] state next := by
    refine onLive_touches keys opened
      (fun before => before.bind fun entry => (entry.fail failure).unlessFinished) rfl
      fun entry found => ⟨_, rfl, ?_⟩
    have stored := Touches.put keys found (entry.fail failure)
    have removed : Touches stream (entry.fail failure).unlessFinished [] _ _ :=
      .removeIfFinished stored.keys (get_put_self ..)
    exact stored.trans removed
  cases message with
  | «open» | close | unknown => exact absurd sends id
  | ping | pong => simp [StreamMessage.stream?] at about
  | opened other size =>
      rcases Option.some.inj about with rfl
      rcases sends with ⟨fromServer, opened⟩
      have isClient : side = .client := by cases side <;> simp_all [Side.peer]
      subst isClient
      rcases put (fun entry => { entry with opened := some size }) (fun _ => rfl) opened
        with ⟨next, taken, touches⟩
      exact ⟨next, by simp [receive, taken, Except.map], touches⟩
  | openFailed other error detail =>
      rcases Option.some.inj about with rfl
      rcases sends with ⟨fromServer, opened⟩
      have isClient : side = .client := by cases side <;> simp_all [Side.peer]
      subst isClient
      rcases fail ⟨error, detail⟩ opened with ⟨next, taken, touches⟩
      exact ⟨next, by simp [receive, taken, Except.map], touches⟩
  | data other data =>
      rcases Option.some.inj about with rfl
      have arrives : ∃ next, state.receiveData other data = .ok next ∧
          Touches other ((state.entryAt other).map fun entry => entry.take data) [] state next := by
        refine onLive_touches keys sends (Option.map fun entry => entry.take data) rfl
          fun entry found => ?_
        have entryAt := entryAt_of_get keys found
        simp only [Option.map_some, Entry.take]
        split
        next dropped =>
          rw [if_pos (show entry.unlined.failure.isSome || entry.unlined.peerFinished from dropped)]
          exact ⟨_, rfl, entryAt ▸ .refl keys⟩
        next kept =>
          rw [if_neg (show ¬ (entry.unlined.failure.isSome || entry.unlined.peerFinished) = true
            from kept)]
          simp only [Bool.or_eq_true, not_or, Bool.not_eq_true, Option.isSome_eq_false_iff,
            Option.isNone_iff_eq_none] at kept
          have room := fits data _ rfl entryAt kept.1 kept.2
          rw [if_neg (show ¬ entry.announced < entry.received + data.length from Nat.not_lt.mpr room)]
          have touches := Touches.put keys found { entry with
            received := entry.received + data.length
            inbound := if entry.handleAlive then entry.inbound ++ [data] else entry.inbound }
          exact ⟨_, rfl, touches⟩
      rcases arrives with ⟨next, taken, touches⟩
      exact ⟨next, by cases side <;> simp [receive, taken, Except.map], touches⟩
  | credit other maxOffset =>
      rcases Option.some.inj about with rfl
      rcases put (fun entry => { entry with limit := max entry.limit maxOffset })
        (fun _ => rfl) sends with ⟨next, taken, touches⟩
      exact ⟨next, by cases side <;> simp [receive, taken, Except.map], touches⟩
  | finish other =>
      rcases Option.some.inj about with rfl
      rcases put (fun entry => { entry with peerFinished := true }) (fun _ => rfl) sends
        with ⟨next, taken, touches⟩
      exact ⟨next, by cases side <;> simp [receive, taken, Except.map], touches⟩
  | reset other error detail =>
      rcases Option.some.inj about with rfl
      rcases fail ⟨error, detail⟩ sends with ⟨next, taken, touches⟩
      exact ⟨next, by cases side <;> simp [receive, taken, Except.map], touches⟩

theorem afterFrame_sender {message : StreamMessage} {before : Option Entry} {highest : ℕ}
    (sends : side.Sends highest message) (about : message.stream? = some stream) :
    SenderMoves stream before (afterFrame message before) [message] [] [] := by
  have same (change : Entry → Entry)
      (keeps : ∀ lane entry, SendsAs lane (some entry) → SendsAs lane (some (change entry)))
      (lane : CreditLane.Lane UInt8) (sends : SendsAs lane before) :
      SendsAs lane (before.map change) := by
    cases before with
    | none => exact sends
    | some entry => exact keeps lane entry sends
  cases message with
  | «open» | close | unknown => exact absurd sends id
  | ping | pong => simp [StreamMessage.stream?] at about
  | opened other size =>
      exact .stay rfl rfl fun lane _ => same (fun entry => { entry with opened := some size })
        (fun _ _ sends => sends) lane
  | openFailed other error detail | reset other error detail =>
      rcases Option.some.inj about with rfl
      exact .aborted (by simp [StreamMessage.return?]) ⟨error, detail⟩
  | data other data =>
      refine .stay rfl rfl fun lane _ => same _ (fun lane entry sends => ?_) lane
      simp only [Entry.take]
      split
      · exact sends
      · exact sends
  | credit other maxOffset =>
      rcases Option.some.inj about with rfl
      exact .credit maxOffset
  | finish other =>
      exact .stay rfl rfl fun lane _ => same (fun entry => { entry with peerFinished := true })
        (fun _ _ sends => sends) lane

theorem afterFrame_receiver {message : StreamMessage} {before : Option Entry} {highest : ℕ}
    {ended : Bool} (sends : side.Sends highest message) (about : message.stream? = some stream) :
    ReceiverMoves stream before (afterFrame message before) ended ended [message] [] [] := by
  have same (change : Entry → Entry)
      (keeps : ∀ lane entry, ReceivesAs ended lane (some entry) →
        ReceivesAs ended lane (some (change entry)))
      (lane : CreditLane.Lane UInt8) (receives : ReceivesAs ended lane before) :
      ReceivesAs ended lane (before.map change) := by
    cases before with
    | none => exact receives
    | some entry => exact keeps lane entry receives
  cases message with
  | «open» | close | unknown => exact absurd sends id
  | ping | pong => simp [StreamMessage.stream?] at about
  | opened other size =>
      exact .stay id rfl rfl fun lane _ => same (fun entry => { entry with opened := some size })
        (fun _ _ receives => receives) lane
  | openFailed other error detail | reset other error detail =>
      rcases Option.some.inj about with rfl
      exact .aborted (by simp [StreamMessage.item?]) ⟨error, detail⟩
  | data other data =>
      rcases Option.some.inj about with rfl
      exact .data data
  | credit other maxOffset =>
      exact .stay id rfl rfl fun lane _ =>
        same (fun entry => { entry with limit := max entry.limit maxOffset })
        (fun _ _ receives => receives) lane
  | finish other =>
      rcases Option.some.inj about with rfl
      exact .finish

/-- A frame leaves the entry of a held Stream where it is. -/
theorem afterFrame_alive {message : StreamMessage} {before : Option Entry}
    (alive : Alive before) : Alive (afterFrame message before) := by
  rcases alive with ⟨entry, rfl, held⟩
  cases message with
  | openFailed other error detail | reset other error detail =>
      have notFinished : ¬ (entry.fail ⟨error, detail⟩).finished = true := by
        simp [Entry.finished, Entry.fail, held]
      exact ⟨(entry.fail ⟨error, detail⟩).unlined, if_neg notFinished, held⟩
  | data other data =>
      refine ⟨_, rfl, ?_⟩
      simp only [Entry.take]
      split
      · exact held
      · exact held
  | opened | credit | finish => exact ⟨_, rfl, held⟩
  | «open» | ping | pong | close | unknown => exact ⟨_, rfl, held⟩

end Receive

end Condr.Streams
