import Condr.Client.StreamLanes

/-!
# What the steps of an end do to the lanes

An end is the sender of one lane of a Stream and the receiver of the other. For
each kind of step, one lemma says how the lane it sends on moves, and one how the
lane it receives from does.
-/

namespace Condr.Streams

open CreditLane

/-- The lanes that can occur. -/
abbrev LaneRun (lane : Lane UInt8) : Prop :=
  (laneSystem UInt8 streamFlow).Reachable lane

theorem LaneRun.perform {lane : Lane UInt8} (run : LaneRun lane) (action : LaneAction UInt8)
    (enabled : lane.Enabled action) : LaneRun (lane.perform streamFlow action) :=
  .next run (show (laneSystem UInt8 streamFlow).step lane action _ from ⟨enabled, rfl⟩)

theorem LaneRun.holds {lane : Lane UInt8} (run : LaneRun lane) : lane.Invariant streamFlow :=
  Lane.invariant_of_reachable run

/-- The entry of the sending end, as far as it concerns the lane. -/
def SendsAs (lane : Lane UInt8) : Option Entry → Prop
  | some entry =>
      entry.limit = lane.limit ∧ entry.sent = lane.written.length ∧
      entry.outgoing.map Outgoing.item = lane.queue ∧ entry.finishQueued = lane.finished ∧
      entry.failure.isSome = lane.senderOver ∧
      (entry.handleAlive = false → entry.failure.isSome = true ∨ entry.finishQueued = true)
  | none => lane.queue = [] ∧ (lane.senderOver = true ∨ lane.finished = true)

/-- The entry of the receiving end, as far as it concerns the lane. -/
def ReceivesAs (ended : Bool) (lane : Lane UInt8) : Option Entry → Prop
  | some entry =>
      entry.inbound = lane.inbound ∧ entry.received = lane.received ∧
      entry.consumed = lane.read.length ∧ entry.announced = lane.announced ∧
      entry.peerFinished = lane.peerFinished ∧ entry.failure.isSome = lane.receiverOver ∧
      (entry.handleAlive = false → entry.failure.isSome = true ∨ entry.peerFinished = true) ∧
      (ended = false → entry.handleAlive = true → lane.abandoned = false)
  | none => lane.receiverOver = true ∨ lane.peerFinished = true

/-- How a step of the sending end moves its lane: `taken` came from the peer, `sent` goes to it,
and `bytes` were written. -/
def SenderMoves (stream : ℕ) (before after : Option Entry) (taken sent : List StreamMessage)
    (bytes : List UInt8) : Prop :=
  ∀ lane rest, LaneRun lane → SendsAs lane before →
    lane.returns = taken.filterMap (StreamMessage.return? stream) ++ rest →
    ∃ next, LaneRun next ∧ SendsAs next after ∧ next.written = lane.written ++ bytes ∧
      next.channel = lane.channel ++ sent.filterMap (StreamMessage.item? stream) ∧
      next.returns = rest ∧ next.read = lane.read ∧
      ∀ ended entry, ReceivesAs ended lane entry → ReceivesAs ended next entry

/-- How a step of the receiving end moves its lane: `bytes` were read. -/
def ReceiverMoves (stream : ℕ) (before after : Option Entry) (ended endedAfter : Bool)
    (taken sent : List StreamMessage) (bytes : List UInt8) : Prop :=
  ∀ lane rest, LaneRun lane → ReceivesAs ended lane before →
    lane.channel = taken.filterMap (StreamMessage.item? stream) ++ rest →
    ∃ next, LaneRun next ∧ ReceivesAs endedAfter next after ∧ next.read = lane.read ++ bytes ∧
      next.returns = lane.returns ++ sent.filterMap (StreamMessage.return? stream) ∧
      next.channel = rest ∧ next.written = lane.written ∧
      ∀ entry, SendsAs lane entry → SendsAs next entry

section Sender

variable {stream : ℕ} {entry : Entry} {before after : Option Entry}
  {taken sent : List StreamMessage}

/-- A step that leaves the lane alone. -/
theorem SenderMoves.stay
    (takenNone : taken.filterMap (StreamMessage.return? stream) = [])
    (sentNone : sent.filterMap (StreamMessage.item? stream) = [])
    (same : ∀ lane, LaneRun lane → SendsAs lane before → SendsAs lane after) :
    SenderMoves stream before after taken sent [] := by
  intro lane rest run sends returns
  refine ⟨lane, run, same lane run sends, by simp, by simp [sentNone], ?_, rfl, fun _ _ r => r⟩
  simpa [takenNone] using returns

theorem SenderMoves.write (running : entry.failure = none) (unfinished : entry.finishQueued = false)
    (chunk : List UInt8) (fits : chunk.length ≤ entry.limit - entry.sent)
    (room : 0 < entry.limit - entry.sent) :
    SenderMoves stream (some entry)
      (some { entry with
        sent := entry.sent + chunk.length
        outgoing := entry.outgoing ++ [.data chunk] }) [] [] chunk := by
  intro lane rest run sends returns
  rcases sends with ⟨limit, sent, outgoing, finished, failure, alive⟩
  have sending : lane.senderOver = false := by simp [← failure, running]
  have laneUnfinished : lane.finished = false := by simp [← finished, unfinished]
  refine ⟨_, run.perform (.write chunk) ⟨sending, laneUnfinished, by omega⟩,
    ⟨limit, ?_, ?_, finished, failure, alive⟩, rfl, by simp [Lane.perform], ?_, rfl, fun _ _ r => r⟩
  · simp [Lane.perform, sent]
  · simp [Lane.perform, ← outgoing, Outgoing.item]
  · simpa [Lane.perform] using returns

theorem SenderMoves.finish (running : entry.failure = none)
    (unfinished : entry.finishQueued = false) :
    SenderMoves stream (some entry)
      (some { entry with finishQueued := true, outgoing := entry.outgoing ++ [.finish] })
      [] [] [] := by
  intro lane rest run sends returns
  rcases sends with ⟨limit, sent, outgoing, finished, failure, alive⟩
  have sending : lane.senderOver = false := by simp [← failure, running]
  have laneUnfinished : lane.finished = false := by simp [← finished, unfinished]
  refine ⟨_, run.perform .finish ⟨sending, laneUnfinished⟩,
    ⟨limit, sent, ?_, rfl, failure, fun _ => Or.inr rfl⟩, by simp [Lane.perform],
    by simp [Lane.perform], ?_, rfl, fun _ _ r => r⟩
  · simp [Lane.perform, ← outgoing, Outgoing.item]
  · simpa [Lane.perform] using returns

/-- The end resets or refuses the Stream and says so. -/
theorem SenderMoves.end {message : StreamMessage} (isOver : message.item? stream = some .aborted)
    {failed : Entry} (failedIs : failed.failure.isSome = true) (cleared : failed.outgoing = [])
    (limit : failed.limit = entry.limit) (sent : failed.sent = entry.sent)
    (finished : failed.finishQueued = entry.finishQueued) :
    SenderMoves stream (some entry) (some failed) [] [message] [] := by
  intro lane rest run sends returns
  rcases sends with ⟨limitIs, sentIs, outgoing, finishedIs, failure, alive⟩
  refine ⟨_, run.perform .endSending trivial,
    ⟨limit.trans limitIs, sent.trans sentIs, ?_, finished.trans finishedIs, failedIs,
      fun _ => Or.inl failedIs⟩, by simp [Lane.perform], ?_, ?_, rfl, fun _ _ r => r⟩
  · simp [Lane.perform, cleared]
  · simp [Lane.perform, isOver]
  · simpa [Lane.perform] using returns

/-- A Stream the Server does not take on. -/
theorem SenderMoves.decline {message : StreamMessage} (isOver : message.item? stream = some .aborted)
    (takenNone : taken.filterMap (StreamMessage.return? stream) = []) :
    SenderMoves stream before none taken [message] [] := by
  intro lane rest run _ returns
  refine ⟨_, run.perform .endSending trivial, ⟨rfl, Or.inl rfl⟩, by simp [Lane.perform], ?_, ?_, rfl,
    fun _ _ r => r⟩
  · simp [Lane.perform, isOver]
  · simpa [Lane.perform, takenNone] using returns

/-- The peer's reset or refusal arrives. -/
theorem SenderMoves.aborted {message : StreamMessage} (isOver : message.return? stream = some .aborted)
    (failure : StreamFailure) :
    SenderMoves stream before (before.bind fun entry => (entry.fail failure).unlessFinished)
      [message] [] [] := by
  intro lane rest run sends returns
  have head : lane.returns = .aborted :: rest := by simpa [isOver] using returns
  have moved : lane.perform streamFlow .answer =
      { lane with returns := rest, senderOver := true, queue := [] } := by
    simp [Lane.perform, head, Lane.takeReturn]
  have nextRun : LaneRun { lane with returns := rest, senderOver := true, queue := [] } :=
    moved ▸ run.perform .answer trivial
  refine ⟨_, nextRun, ?_, by simp, by simp, rfl, rfl, fun _ _ r => r⟩
  cases before with
  | none => exact ⟨rfl, Or.inl rfl⟩
  | some entry =>
      rcases sends with ⟨limit, sent, outgoing, finished, failed, alive⟩
      simp only [Option.bind_some, Entry.unlessFinished]
      split
      · exact ⟨rfl, Or.inl rfl⟩
      · exact ⟨limit, sent, rfl, finished, rfl, fun _ => Or.inl rfl⟩

theorem SenderMoves.credit (maxOffset : ℕ) :
    SenderMoves stream before
      (before.map fun entry => { entry with limit := max entry.limit maxOffset })
      [.credit stream maxOffset] [] [] := by
  intro lane rest run sends returns
  have head : lane.returns = .credit maxOffset :: rest := by
    simpa [StreamMessage.return?] using returns
  have moved : lane.perform streamFlow .answer =
      { lane with returns := rest, limit := max lane.limit maxOffset } := by
    simp [Lane.perform, head, Lane.takeReturn]
  have nextRun : LaneRun { lane with returns := rest, limit := max lane.limit maxOffset } :=
    moved ▸ run.perform .answer trivial
  refine ⟨_, nextRun, ?_, by simp, by simp, rfl, rfl, fun _ _ r => r⟩
  cases before with
  | none => exact sends
  | some entry =>
      rcases sends with ⟨limit, rest⟩
      exact ⟨congrArg (max · maxOffset) limit, rest⟩

/-- The next queued item goes onto the channel. -/
theorem SenderMoves.forward {item : Outgoing} {outgoing : List Outgoing}
    (queued : entry.outgoing = item :: outgoing) :
    SenderMoves stream (some entry) { entry with outgoing }.unlessFinished []
      [State.message stream item] [] := by
  intro lane rest run sends returns
  rcases sends with ⟨limit, sent, outgoingIs, finished, failure, alive⟩
  have laneQueue : lane.queue = item.item :: outgoing.map Outgoing.item := by
    simp [← outgoingIs, queued]
  have carries : (State.message stream item).item? stream = some item.item := by
    cases item <;> simp [State.message, StreamMessage.item?, Outgoing.item]
  have moved : lane.perform streamFlow .forward =
      { lane with
        queue := outgoing.map Outgoing.item
        channel := lane.channel ++ [item.item] } := by
    simp [Lane.perform, laneQueue]
  have nextRun : LaneRun { lane with
      queue := outgoing.map Outgoing.item
      channel := lane.channel ++ [item.item] } := moved ▸ run.perform .forward trivial
  refine ⟨_, nextRun, ?_, by simp, by simp [carries], by simpa using returns, rfl, fun _ _ r => r⟩
  simp only [Entry.unlessFinished]
  split
  next isFinished =>
    simp only [Entry.finished, Bool.and_eq_true, Bool.not_eq_true', List.isEmpty_iff] at isFinished
    refine ⟨by simp [isFinished.2], ?_⟩
    exact (alive isFinished.1).imp (fun failed => failure ▸ failed) (fun ended => finished ▸ ended)
  next => exact ⟨limit, sent, rfl, finished, failure, alive⟩

/-- The handle is dropped once the Stream failed or both directions finished. -/
theorem SenderMoves.release (isDone : entry.failure.isSome = true ∨ entry.finishQueued = true) :
    SenderMoves stream (some entry)
      { entry with handleAlive := false, inbound := [] }.unlessFinished [] [] [] := by
  refine SenderMoves.stay rfl rfl ?_
  intro lane run sends
  rcases sends with ⟨limit, sent, outgoing, finished, failure, alive⟩
  simp only [Entry.unlessFinished]
  split
  next isFinished =>
    simp only [Entry.finished, Bool.and_eq_true, List.isEmpty_iff] at isFinished
    refine ⟨by simp [← outgoing, isFinished.2], ?_⟩
    exact isDone.imp (fun failed => failure ▸ failed) (fun ended => finished ▸ ended)
  next => exact ⟨limit, sent, outgoing, finished, failure, fun _ => isDone⟩

theorem SenderMoves.trans {middle : Option Entry} {more : List StreamMessage}
    (first : SenderMoves stream before middle [] sent [])
    (second : SenderMoves stream middle after [] more []) :
    SenderMoves stream before after [] (sent ++ more) [] := by
  intro lane rest run sends returns
  rcases first lane rest run sends returns with
    ⟨lane₁, run₁, sends₁, written₁, channel₁, returns₁, read₁, frame₁⟩
  rcases second lane₁ rest run₁ sends₁ returns₁ with
    ⟨lane₂, run₂, sends₂, written₂, channel₂, returns₂, read₂, frame₂⟩
  exact ⟨lane₂, run₂, sends₂, by simp [written₂, written₁], by simp [channel₂, channel₁], returns₂,
    read₂.trans read₁, fun ended entry receives => frame₂ ended entry (frame₁ ended entry receives)⟩

end Sender

section Receiver

variable {stream : ℕ} {entry : Entry} {before after : Option Entry} {ended : Bool}
  {taken sent : List StreamMessage}

/-- A step that leaves the lane alone. -/
theorem ReceiverMoves.stay {endedAfter : Bool} (later : endedAfter = false → ended = false)
    (takenNone : taken.filterMap (StreamMessage.item? stream) = [])
    (sentNone : sent.filterMap (StreamMessage.return? stream) = [])
    (same : ∀ lane, LaneRun lane → ReceivesAs ended lane before → ReceivesAs ended lane after) :
    ReceiverMoves stream before after ended endedAfter taken sent [] := by
  intro lane rest run receives channel
  refine ⟨lane, run, ?_, by simp, by simp [sentNone], by simpa [takenNone] using channel, rfl,
    fun _ s => s⟩
  cases after with
  | none => exact same lane run receives
  | some entry =>
      rcases same lane run receives with
        ⟨inbound, received, consumed, announced, finished, failure, alive, kept⟩
      exact ⟨inbound, received, consumed, announced, finished, failure, alive,
        fun running => kept (later running)⟩

/-- The end resets or refuses the Stream and says so. -/
theorem ReceiverMoves.end {message : StreamMessage} (isOver : message.return? stream = some .aborted)
    {failed : Entry} (failedIs : failed.failure.isSome = true)
    (inbound : failed.inbound = entry.inbound) (received : failed.received = entry.received)
    (consumed : failed.consumed = entry.consumed) (announced : failed.announced = entry.announced)
    (finished : failed.peerFinished = entry.peerFinished) :
    ReceiverMoves stream (some entry) (some failed) ended true [] [message] [] := by
  intro lane rest run receives channel
  rcases receives with
    ⟨inboundIs, receivedIs, consumedIs, announcedIs, finishedIs, failure, alive, kept⟩
  refine ⟨_, run.perform .endReceiving trivial,
    ⟨inbound.trans inboundIs, received.trans receivedIs, consumed.trans consumedIs,
      announced.trans announcedIs, finished.trans finishedIs, failedIs, fun _ => Or.inl failedIs,
      by simp⟩, by simp [Lane.perform], ?_, ?_, rfl, fun _ s => s⟩
  · simp [Lane.perform, isOver]
  · simpa [Lane.perform] using channel

/-- A Stream the Server does not take on. -/
theorem ReceiverMoves.decline {endedAfter : Bool} {message : StreamMessage}
    (isOver : message.return? stream = some .aborted)
    (takenNone : taken.filterMap (StreamMessage.item? stream) = []) :
    ReceiverMoves stream before none ended endedAfter taken [message] [] := by
  intro lane rest run _ channel
  refine ⟨_, run.perform .endReceiving trivial, Or.inl rfl, by simp [Lane.perform], ?_, ?_, rfl,
    fun _ s => s⟩
  · simp [Lane.perform, isOver]
  · simpa [Lane.perform, takenNone] using channel

/-- The peer's reset or refusal arrives. -/
theorem ReceiverMoves.aborted {message : StreamMessage} (isOver : message.item? stream = some .aborted)
    (failure : StreamFailure) :
    ReceiverMoves stream before (before.bind fun entry => (entry.fail failure).unlessFinished)
      ended ended [message] [] [] := by
  intro lane rest run receives channel
  have head : lane.channel = .aborted :: rest := by simpa [isOver] using channel
  have moved : lane.perform streamFlow .deliver =
      { lane with channel := rest, receiverOver := true } := by
    simp [Lane.perform, head, Lane.takeItem]
  have nextRun : LaneRun { lane with channel := rest, receiverOver := true } :=
    moved ▸ run.perform .deliver trivial
  refine ⟨_, nextRun, ?_, by simp, by simp, rfl, rfl, fun _ s => s⟩
  cases before with
  | none => exact Or.inl rfl
  | some entry =>
      rcases receives with ⟨inbound, received, consumed, announced, finished, failed, alive, kept⟩
      simp only [Option.bind_some, Entry.unlessFinished]
      split
      · exact Or.inl rfl
      · exact ⟨inbound, received, consumed, announced, finished, rfl, fun _ => Or.inl rfl, kept⟩

theorem ReceiverMoves.finish :
    ReceiverMoves stream before (before.map fun entry => { entry with peerFinished := true })
      ended ended [.finish stream] [] [] := by
  intro lane rest run receives channel
  have head : lane.channel = .finish :: rest := by simpa [StreamMessage.item?] using channel
  have moved : lane.perform streamFlow .deliver =
      { lane with channel := rest, peerFinished := true } := by
    simp [Lane.perform, head, Lane.takeItem]
  have nextRun : LaneRun { lane with channel := rest, peerFinished := true } :=
    moved ▸ run.perform .deliver trivial
  refine ⟨_, nextRun, ?_, by simp, by simp, rfl, rfl, fun _ s => s⟩
  cases before with
  | none => exact Or.inr rfl
  | some entry =>
      rcases receives with ⟨inbound, received, consumed, announced, finished, failed, alive, kept⟩
      exact ⟨inbound, received, consumed, announced, rfl, failed, fun _ => Or.inr rfl, kept⟩

/-- The entry once data arrived. -/
def Entry.take (entry : Entry) (data : List UInt8) : Entry :=
  if entry.failure.isSome || entry.peerFinished then entry
  else { entry with
    received := entry.received + data.length
    inbound := if entry.handleAlive then entry.inbound ++ [data] else entry.inbound }

theorem ReceiverMoves.data (data : List UInt8) :
    ReceiverMoves stream before (before.map fun entry => entry.take data)
      ended ended [.data stream data] [] [] := by
  intro lane rest run receives channel
  have head : lane.channel = .data data :: rest := by simpa [StreamMessage.item?] using channel
  have moved : lane.perform streamFlow .deliver =
      Lane.takeItem { lane with channel := rest } (.data data) := by
    simp [Lane.perform, head]
  have nextRun : LaneRun (Lane.takeItem { lane with channel := rest } (.data data)) :=
    moved ▸ run.perform .deliver trivial
  simp only [Lane.takeItem] at nextRun
  cases isDone : lane.receiverOver || lane.peerFinished with
  | true =>
      simp only [isDone, if_true] at nextRun
      refine ⟨_, nextRun, ?_, by simp, by simp, rfl, rfl, fun _ s => s⟩
      cases before with
      | none => exact receives
      | some entry =>
          have dropped : entry.take data = entry := by
            rcases receives with ⟨_, _, _, _, finished, failure, _⟩
            simp [Entry.take, finished, failure, Bool.or_eq_true .. ▸ isDone]
          simp only [Option.map_some, dropped]
          exact receives
  | false =>
      simp only [isDone] at nextRun
      refine ⟨_, nextRun, ?_, by simp, by simp, rfl, rfl, fun _ s => s⟩
      simp only [Bool.or_eq_false_iff] at isDone
      cases before with
      | none =>
          rcases receives with isOver | finished
          · simp [isDone.1] at isOver
          · simp [isDone.2] at finished
      | some entry =>
          rcases receives with
            ⟨inbound, received, consumed, announced, finished, failure, alive, kept⟩
          have handleAlive : entry.handleAlive = true := by
            cases held : entry.handleAlive with
            | true => rfl
            | false => simpa [failure, finished, isDone] using alive held
          have taken : entry.take data = { entry with
              received := entry.received + data.length
              inbound := entry.inbound ++ [data] } := by
            simp [Entry.take, failure, finished, isDone, handleAlive]
          simp only [Option.map_some, taken]
          exact ⟨by simp [inbound], by simp [received], consumed, announced, finished, failure,
            alive, kept⟩

/-- The entry and the frames after `read` took a chunk. -/
def Entry.afterRead (entry : Entry) (stream : ℕ) (chunk : List UInt8)
    (inbound : List (List UInt8)) : Entry × List StreamMessage :=
  let entry := { entry with inbound, consumed := entry.consumed + chunk.length }
  if !entry.peerFinished
      && decide (entry.announced + streamWindow / 4 ≤ entry.consumed + streamWindow) then
    let announced := entry.consumed + streamWindow
    ({ entry with announced }, [.credit stream announced])
  else (entry, [])

theorem ReceiverMoves.read {chunk : List UInt8} {inbound : List (List UInt8)}
    (buffered : entry.inbound = chunk :: inbound) :
    ReceiverMoves stream (some entry) (some (entry.afterRead stream chunk inbound).1) ended ended
      [] (entry.afterRead stream chunk inbound).2 chunk := by
  intro lane rest run receives channel
  rcases receives with
    ⟨inboundIs, received, consumed, announced, finished, failure, alive, kept⟩
  have moved : lane.perform streamFlow .read =
      Lane.returnCredit streamFlow { lane with inbound, read := lane.read ++ chunk } := by
    simp [Lane.perform, ← inboundIs, buffered]
  have nextRun : LaneRun
      (Lane.returnCredit streamFlow { lane with inbound, read := lane.read ++ chunk }) :=
    moved ▸ run.perform .read trivial
  have consumedIs : entry.consumed + chunk.length = (lane.read ++ chunk).length := by
    simp [consumed]
  simp only [Lane.returnCredit, streamFlow_window, streamFlow_threshold] at nextRun
  rw [finished] at alive
  simp only [Entry.afterRead, consumedIs, announced, finished]
  split
  next due =>
    replace nextRun := (if_pos due).subst (motive := LaneRun) nextRun
    exact ⟨_, nextRun, ⟨rfl, received, rfl, rfl, rfl, failure, alive, kept⟩, rfl,
      by simp [StreamMessage.return?], by simpa using channel, rfl, fun _ s => s⟩
  next early =>
    replace nextRun := (if_neg early).subst (motive := LaneRun) nextRun
    exact ⟨_, nextRun, ⟨rfl, received, rfl, rfl, rfl, failure, alive, kept⟩, rfl,
      by simp, by simpa using channel, rfl, fun _ s => s⟩

/-- The handle is dropped once the Stream failed or both directions finished. -/
theorem ReceiverMoves.release {endedAfter : Bool}
    (isDone : entry.failure.isSome = true ∨ entry.peerFinished = true) :
    ReceiverMoves stream (some entry)
      { entry with handleAlive := false, inbound := [] }.unlessFinished ended endedAfter
      [] [] [] := by
  intro lane rest run receives channel
  rcases receives with
    ⟨inboundIs, received, consumed, announced, finished, failure, alive, kept⟩
  have ended : lane.receiverOver = true ∨ lane.peerFinished = true :=
    isDone.imp (fun failed => failure ▸ failed) (fun ended => finished ▸ ended)
  refine ⟨_, run.perform .release ended, ?_, by simp [Lane.perform], by simp [Lane.perform],
    by simpa [Lane.perform] using channel, rfl, fun _ s => s⟩
  simp only [Entry.unlessFinished]
  split
  · exact ended
  · exact ⟨rfl, received, consumed, announced, finished, failure, fun _ => isDone, by simp [Entry.unlined]⟩

theorem ReceiverMoves.trans {middle : Option Entry} {endedMiddle endedAfter : Bool}
    {more : List StreamMessage}
    (first : ReceiverMoves stream before middle ended endedMiddle [] sent [])
    (second : ReceiverMoves stream middle after endedMiddle endedAfter [] more []) :
    ReceiverMoves stream before after ended endedAfter [] (sent ++ more) [] := by
  intro lane rest run receives channel
  rcases first lane rest run receives channel with
    ⟨lane₁, run₁, receives₁, read₁, returns₁, channel₁, written₁, frame₁⟩
  rcases second lane₁ rest run₁ receives₁ channel₁ with
    ⟨lane₂, run₂, receives₂, read₂, returns₂, channel₂, written₂, frame₂⟩
  exact ⟨lane₂, run₂, receives₂, by simp [read₂, read₁], by simp [returns₂, returns₁], channel₂,
    written₂.trans written₁, fun entry sends => frame₂ entry (frame₁ entry sends)⟩

end Receiver

end Condr.Streams
