import Condr.Client.StreamAgreement

/-!
# What a Stream connection promises

The promises, stated about the ends and the frames between them, and drawn from
the lanes.
-/

namespace Condr.Streams

open CreditLane State

/-- The bytes a frame carries for one Stream. -/
def StreamMessage.bytes (stream : ℕ) : StreamMessage → List UInt8
  | .data other payload => if other = stream then payload else []
  | _ => []

def Outgoing.bytes : Outgoing → List UInt8
  | .data payload => payload
  | .finish => []

/-- The frames that end a Stream early. -/
def StreamMessage.ends (stream : ℕ) (message : StreamMessage) : Prop :=
  message.return? stream = some .aborted

namespace Link

variable (link : Link) (side : Side) (stream : ℕ)

/-- The bytes `side` wrote that its peer's end has yet to take: in flight, or queued. -/
def underway : List UInt8 :=
  (link.outbox side).flatMap (StreamMessage.bytes stream) ++
    match (link.ends side).get stream with
    | none => []
    | some entry => entry.outgoing.flatMap Outgoing.bytes

/-- How many bytes wait at the peer to be read. -/
def unread : ℕ :=
  match (link.ends side.peer).get stream with
  | none => 0
  | some entry => entry.inbound.flatten.length

def remainingCredit : ℕ :=
  match (link.ends side).get stream with
  | none => 0
  | some entry => entry.limit - entry.sent

/-- The credit on its way to `side`, beyond what it holds. -/
def creditUnderway : ℕ :=
  match (link.ends side).get stream with
  | none => 0
  | some entry =>
      Lane.lastCredit entry.limit
        ((link.outbox side.peer).filterMap (StreamMessage.return? stream)) - entry.limit

/-- The credit the peer has yet to give back for what it read. -/
def creditOwed : ℕ :=
  match (link.ends side.peer).get stream with
  | none => 0
  | some entry => entry.consumed + streamWindow - entry.announced

end Link

/-- The promises of a Stream connection. -/
structure Agreement (link : Link) : Prop where
  /-- Neither end closes, and the next frame each end reads is no protocol error. -/
  noProtocolError : ∀ side, (link.ends side).closed = none ∧
    ∀ message messages, link.channel side.peer = message :: messages →
      ∃ next, (link.ends side).receive side message = .ok next
  /-- What was read at one end is what the other wrote, as far as it got. -/
  readPrefix : ∀ side stream, link.readBytes side.peer stream <+: link.written side stream
  /-- At the end of the stream it is all of it, unless the reading end itself reset or refused the
  Stream. -/
  readAll : ∀ side stream, stream ∈ link.handles side.peer →
    ((link.ends side.peer).read stream).1 = .finished → link.ended side.peer stream = false →
    link.readBytes side.peer stream = link.written side stream
  window : ∀ side stream, (link.underway side stream).length + link.unread side stream
    + link.remainingCredit side stream + link.creditUnderway side stream
    + link.creditOwed side stream ≤ streamWindow
  /-- A writer blocked for credit whose bytes all arrived and were read has credit coming, or the
  end of the Stream. -/
  noDeadlock : ∀ side stream rest, stream ∈ link.handles side →
    ((link.ends side).write stream rest).1 = .blocked → link.underway side stream = [] →
    link.unread side stream = 0 →
    ∃ message ∈ link.outbox side.peer,
      (∃ entry maxOffset, (link.ends side).get stream = some entry ∧
        message = .credit stream maxOffset ∧ entry.sent < maxOffset) ∨ message.ends stream

theorem contents_items (stream : ℕ) (messages : List StreamMessage) :
    contents (messages.filterMap (StreamMessage.item? stream)) =
      messages.flatMap (StreamMessage.bytes stream) := by
  induction messages with
  | nil => rfl
  | cons message messages hypothesis =>
      cases message with
      | data other data | finish other | reset other error detail | openFailed other error detail =>
          by_cases same : other = stream
          all_goals simp [StreamMessage.item?, StreamMessage.bytes, Item.symbols, same, hypothesis]
      | «open» | opened | credit | ping | pong | close | unknown =>
          simp [List.filterMap_cons, StreamMessage.item?, StreamMessage.bytes, hypothesis]

theorem contents_outgoing (outgoing : List Outgoing) :
    contents (outgoing.map Outgoing.item) = outgoing.flatMap Outgoing.bytes := by
  induction outgoing with
  | nil => rfl
  | cons item outgoing hypothesis =>
      cases item <;> simp [Outgoing.item, Outgoing.bytes, Item.symbols, hypothesis]

namespace State

variable {state : State} {stream : ℕ} {entry : Entry}

theorem of_read_finished (found : state.get stream = some entry)
    (finished : (state.read stream).1 = .finished) :
    entry.inbound = [] ∧ entry.peerFinished = true := by
  simp only [State.read, found] at finished
  split at finished
  next =>
    split at finished
    · simp at finished
    · simp at finished
  next empty =>
    split at finished
    next isFinished => exact ⟨empty, isFinished⟩
    next =>
      split at finished
      · simp at finished
      · simp at finished

theorem of_write_blocked {rest : List UInt8} (blocked : (state.write stream rest).1 = .blocked) :
    ∃ entry, state.get stream = some entry ∧ entry.failure = none ∧ entry.finishQueued = false ∧
      entry.limit - entry.sent = 0 := by
  simp only [State.write] at blocked
  split at blocked
  next => simp at blocked
  next noFailure =>
    split at blocked
    next => simp at blocked
    next entry found =>
      have running : entry.failure = none := by
        simp only [State.failure, found] at noFailure
        split at noFailure
        · simp at noFailure
        · simpa using noFailure
      split at blocked
      next => simp at blocked
      next unfinished =>
        split at blocked
        next empty => exact ⟨entry, found, running, Bool.eq_false_of_not_eq_true unfinished, empty⟩
        next => simp at blocked

end State

theorem credit_of_return {stream limit : ℕ} {message : StreamMessage}
    (returns : message.return? stream = some (.credit limit)) : message = .credit stream limit := by
  cases message with
  | credit other maxOffset =>
      simp only [StreamMessage.return?] at returns
      split at returns
      next same =>
        subst same
        simpa using returns
      next => simp at returns
  | reset other | openFailed other =>
      simp only [StreamMessage.return?] at returns
      split at returns
      · simp at returns
      · simp at returns
  | «open» | opened | data | finish | ping | pong | close | unknown =>
      simp [StreamMessage.return?] at returns

namespace Sound

variable {link : Link} {side : Side} {stream : ℕ}

/-- The entry of an end, seen by a lane. -/
theorem entryAt_eq (sound : Sound link) {entry : Entry}
    (found : (link.ends side).get stream = some entry) :
    (link.ends side).entryAt stream = some entry.unlined :=
  entryAt_of_get (sound.consistent.keys side) found

section Lane

variable {lane : Lane UInt8}

theorem sendsAs (sound : Sound link) (represents : Represents link side stream lane)
    {entry : Entry} (found : (link.ends side).get stream = some entry) :
    SendsAs lane (some entry.unlined) :=
  sound.entryAt_eq found ▸ represents.sender

theorem receivesAs (sound : Sound link) (represents : Represents link side stream lane)
    {entry : Entry} (found : (link.ends side.peer).get stream = some entry) :
    ReceivesAs (link.ended side.peer stream) lane (some entry.unlined) :=
  sound.entryAt_eq found ▸ represents.receiver

theorem channel_contents (represents : Represents link side stream lane) :
    contents lane.channel = (link.outbox side).flatMap (StreamMessage.bytes stream) := by
  rw [represents.channel, contents_items]

theorem queue_contents (sound : Sound link) (represents : Represents link side stream lane)
    {entry : Entry} (found : (link.ends side).get stream = some entry) :
    contents lane.queue = entry.outgoing.flatMap Outgoing.bytes := by
  rcases sound.sendsAs represents found with ⟨_, _, outgoing, _⟩
  rw [← outgoing, contents_outgoing]
  rfl

theorem underway_le (sound : Sound link) (represents : Represents link side stream lane) :
    (link.underway side stream).length ≤ (contents lane.pending).length := by
  simp only [Link.underway, Lane.pending, contents_append, channel_contents represents,
    List.length_append]
  cases found : (link.ends side).get stream with
  | none => simp
  | some entry => rw [sound.queue_contents represents found]

theorem unread_le (sound : Sound link) (represents : Represents link side stream lane) :
    link.unread side stream ≤ lane.inbound.flatten.length := by
  simp only [Link.unread]
  cases found : (link.ends side.peer).get stream with
  | none => simp
  | some entry =>
      rcases sound.receivesAs represents found with ⟨inbound, _⟩
      rw [← inbound]
      exact le_rfl

theorem remainingCredit_le (sound : Sound link) (represents : Represents link side stream lane) :
    link.remainingCredit side stream ≤ lane.limit - lane.written.length := by
  simp only [Link.remainingCredit]
  cases found : (link.ends side).get stream with
  | none => simp
  | some entry =>
      rcases sound.sendsAs represents found with ⟨limit, sent, _⟩
      rw [← limit, ← sent]
      exact le_rfl

theorem creditUnderway_le (sound : Sound link) (represents : Represents link side stream lane) :
    link.creditUnderway side stream ≤ Lane.lastCredit lane.limit lane.returns - lane.limit := by
  simp only [Link.creditUnderway]
  cases found : (link.ends side).get stream with
  | none => simp
  | some entry =>
      rcases sound.sendsAs represents found with ⟨limit, _⟩
      rw [← limit, represents.returns]
      exact le_rfl

theorem creditOwed_le (sound : Sound link) (represents : Represents link side stream lane) :
    link.creditOwed side stream ≤ lane.read.length + streamWindow - lane.announced := by
  simp only [Link.creditOwed]
  cases found : (link.ends side.peer).get stream with
  | none => simp
  | some entry =>
      rcases sound.receivesAs represents found with ⟨_, _, consumed, announced, _⟩
      rw [← consumed, ← announced]
      exact le_rfl

end Lane

theorem window_le (sound : Sound link) :
    (link.underway side stream).length + link.unread side stream
      + link.remainingCredit side stream + link.creditUnderway side stream
      + link.creditOwed side stream ≤ streamWindow := by
  rcases sound.simulated side stream with ⟨lane, run, represents⟩
  have underway := sound.underway_le represents
  have unread := sound.unread_le represents
  have remaining := sound.remainingCredit_le represents
  have credit := sound.creditUnderway_le represents
  have owed := sound.creditOwed_le represents
  have use := run.holds.windowUse_le
  simp only [Lane.windowUse, streamFlow_window] at use
  omega

theorem readAll (sound : Sound link) (held : stream ∈ link.handles side.peer)
    (finished : ((link.ends side.peer).read stream).1 = .finished)
    (notEnded : link.ended side.peer stream = false) :
    link.readBytes side.peer stream = link.written side stream := by
  rcases sound.simulated side stream with ⟨lane, run, represents⟩
  rcases sound.consistent.found held with ⟨entry, found, alive⟩
  rcases of_read_finished found finished with ⟨empty, isFinished⟩
  rcases sound.receivesAs represents found with ⟨inbound, _, _, _, peerFinished, _, _, kept⟩
  have laneFinished : lane.peerFinished = true := peerFinished.symm.trans isFinished
  have laneEmpty : lane.inbound = [] := inbound.symm.trans empty
  rw [← represents.read, ← represents.written]
  exact run.holds.read_eq_written laneFinished laneEmpty (kept notEnded alive)

theorem noDeadlock (sound : Sound link) {rest : List UInt8}
    (blocked : ((link.ends side).write stream rest).1 = .blocked)
    (nothing : link.underway side stream = []) (allRead : link.unread side stream = 0) :
    ∃ message ∈ link.outbox side.peer,
      (∃ entry maxOffset, (link.ends side).get stream = some entry ∧
        message = .credit stream maxOffset ∧ entry.sent < maxOffset) ∨ message.ends stream := by
  rcases sound.simulated side stream with ⟨lane, run, represents⟩
  rcases of_write_blocked blocked with ⟨entry, found, running, unfinished, noCredit⟩
  rcases sound.sendsAs represents found with ⟨limit, sent, _, finished, failure, _⟩
  have sending : lane.senderOver = false := by
    rw [← failure]
    simp [Entry.unlined, running]
  have laneUnfinished : lane.finished = false := finished.symm.trans unfinished
  have laneBlocked : lane.limit ≤ lane.written.length := by
    rw [← limit, ← sent]
    exact Nat.sub_eq_zero_iff_le.mp noCredit
  have nothingPending : contents lane.pending = [] := by
    simp only [Link.underway, found, List.append_eq_nil_iff] at nothing
    simp [Lane.pending, channel_contents represents, sound.queue_contents represents found, nothing]
  have taken (receiving : lane.receiverOver = false) : lane.inbound.flatten = [] := by
    cases peerFound : (link.ends side.peer).get stream with
    | some peerEntry =>
        rcases sound.receivesAs represents peerFound with ⟨inbound, _⟩
        rw [← inbound]
        have noBytes : peerEntry.inbound.flatten.length = 0 := by
          simpa only [Link.unread, peerFound] using allRead
        exact List.length_eq_zero_iff.mp noBytes
    | none =>
        have receives := represents.receiver
        simp only [entryAt, peerFound, Option.map_none] at receives
        split at receives
        next =>
          rcases receives with isDone | peerFinished
          · simp [receiving] at isDone
          · simp [(run.holds.unfinished laneUnfinished).2] at peerFinished
        next =>
          rcases receives with ⟨inbound, _⟩
          simp [← inbound, Entry.new]
  rcases run.holds.return_of_blocked sending laneUnfinished laneBlocked nothingPending taken with
    ⟨maxOffset, beyond, returned⟩ | returned
  · rw [represents.returns] at returned
    rcases List.mem_filterMap.mp returned with ⟨message, member, returns⟩
    refine ⟨message, member, Or.inl ⟨entry, maxOffset, found, credit_of_return returns, ?_⟩⟩
    have sentIs : entry.sent = lane.written.length := sent
    have fits := run.holds.writtenFits
    omega
  · rw [represents.returns] at returned
    rcases List.mem_filterMap.mp returned with ⟨message, member, returns⟩
    exact ⟨message, member, Or.inr returns⟩

theorem agreement (sound : Sound link) : Agreement link where
  noProtocolError side := by
    refine ⟨sound.consistent.running side, fun message messages arrives => ?_⟩
    rcases sound.deliver_head arrives with ⟨state, opened, received, _⟩
    exact ⟨_, received⟩
  readPrefix side stream := by
    rcases sound.simulated side stream with ⟨lane, run, represents⟩
    rw [← represents.read, ← represents.written]
    exact run.holds.read_prefix
  readAll _ _ held finished notEnded := sound.readAll held finished notEnded
  window _ _ := sound.window_le
  noDeadlock _ _ _ _ blocked nothing allRead := sound.noDeadlock blocked nothing allRead

end Sound

/-- Every reachable Stream connection keeps its promises. -/
theorem stream_connection_agrees {link : Link} (reached : streamSystem.Reachable link) :
    Agreement link :=
  (Sound.of_reachable reached).agreement

/-! ## Runs -/

/-- A Stream the Client wrote and finished, read to its end by the Server. -/
def wholeRun : List (Side × Action) :=
  [(.client, .open (.forward 80)), (.client, .write 1 [7, 8]), (.client, .finish 1),
    (.client, .send), (.client, .send), (.client, .send), (.server, .deliver),
    (.server, .accept 1 none), (.server, .deliver), (.server, .deliver), (.server, .read 1)]

def wholeLink : Link :=
  (Link.initial.run? wholeRun).get (by decide)

theorem stream_connection_agrees_example :
    wholeLink.readBytes .server 1 = [7, 8] ∧
      ((wholeLink.ends .server).read 1).1 = .finished ∧ Agreement wholeLink :=
  ⟨by decide, by decide,
    stream_connection_agrees (Link.reachable_of_run? (.start rfl) (Option.some_get _).symm)⟩

/-- The Server resets a Stream before the bytes and the finish the Client sent arrive. -/
def resetRun : List (Side × Action) :=
  [(.client, .open (.forward 80)), (.client, .send), (.server, .deliver),
    (.client, .write 1 [7]), (.client, .finish 1), (.client, .send), (.client, .send),
    (.server, .reset 1 .other ""), (.server, .deliver), (.server, .deliver)]

def resetLink : Link :=
  (Link.initial.run? resetRun).get (by decide)

theorem resetLink_reachable : streamSystem.Reachable resetLink :=
  Link.reachable_of_run? (.start rfl) (Option.some_get _).symm

/-- A Stream both ends know and nobody has used. -/
def openRun : List (Side × Action) :=
  [(.client, .open (.forward 80)), (.client, .send), (.server, .deliver)]

def openLink : Link :=
  (Link.initial.run? openRun).get (by decide)

theorem openLink_reachable : streamSystem.Reachable openLink :=
  Link.reachable_of_run? (.start rfl) (Option.some_get _).symm

/-- The Client wrote `count` full chunks to the Stream of `openLink`, and none was sent. -/
structure Wrote (count : ℕ) (link : Link) : Prop where
  reached : streamSystem.Reachable link
  held : 1 ∈ link.handles .client
  entry : ∃ entry, (link.ends .client).get 1 = some entry ∧ entry.failure = none ∧
    entry.finishQueued = false ∧ entry.limit = streamWindow ∧ entry.sent = count * maxStreamChunk
  running : (link.ends .client).closed = none
  server : link.ends .server = openLink.ends .server
  channel : link.channel .server = []

theorem wrote_nothing : Wrote 0 openLink where
  reached := openLink_reachable
  held := by decide
  entry := ⟨Entry.new, by decide, rfl, rfl, rfl, rfl⟩
  running := by decide
  server := rfl
  channel := by decide

theorem Wrote.write {count : ℕ} {link : Link} (wrote : Wrote count link)
    (room : count * maxStreamChunk + maxStreamChunk ≤ streamWindow) :
    ∃ next, Wrote (count + 1) next := by
  rcases wrote.entry with ⟨entry, found, running, unfinished, limit, sent⟩
  have chunkPositive : 0 < maxStreamChunk := by decide
  have writing : (link.ends .client).write 1 (List.replicate maxStreamChunk 0) =
      (.took maxStreamChunk, (link.ends .client).pushOutgoing 1
        { entry with sent := entry.sent + maxStreamChunk }
        (.data (List.replicate maxStreamChunk 0))) := by
    have noFailure : (link.ends .client).failure 1 = none := by
      simp [State.failure, wrote.running, found, running]
    have available : ¬ entry.limit - entry.sent = 0 := by omega
    have take : min maxStreamChunk (entry.limit - entry.sent) = maxStreamChunk := by omega
    simp only [State.write, noFailure, found, unfinished, Bool.false_eq_true, if_false, available,
      List.length_replicate, take, List.take_replicate, min_self]
  have performed : link.perform .client (.write 1 (List.replicate maxStreamChunk 0)) =
      { link.setEnd .client ((link.ends .client).pushOutgoing 1
          { entry with sent := entry.sent + maxStreamChunk }
          (.data (List.replicate maxStreamChunk 0))) with
        written := Link.extend link.written .client 1 (List.replicate maxStreamChunk 0) } := by
    simp [Link.perform, writing]
  have allowed : link.Allowed .client (.write 1 (List.replicate maxStreamChunk 0)) :=
    ⟨wrote.held, by simp [chunkPositive.ne']⟩
  have reached : streamSystem.Reachable
      (link.perform .client (.write 1 (List.replicate maxStreamChunk 0))) :=
    .next wrote.reached (show streamSystem.step link
      (.client, .write 1 (List.replicate maxStreamChunk 0)) _ from ⟨allowed, rfl⟩)
  rw [performed] at reached
  refine ⟨_, reached, wrote.held, ?_, ?_, ?_, wrote.channel⟩
  · refine ⟨_, get_pushOutgoing_self .., running, unfinished, limit, ?_⟩
    show entry.sent + maxStreamChunk = (count + 1) * maxStreamChunk
    rw [sent, Nat.succ_mul]
  · exact (closed_pushOutgoing ..).trans wrote.running
  · exact wrote.server

theorem wrote_of_room (count : ℕ) (room : count * maxStreamChunk ≤ streamWindow) :
    ∃ link, Wrote count link := by
  induction count with
  | zero => exact ⟨openLink, wrote_nothing⟩
  | succ count hypothesis =>
      rw [Nat.succ_mul] at room
      rcases hypothesis (by omega) with ⟨link, wrote⟩
      exact wrote.write room

/-- Two ways a connection falls short of the plainest reading of its promises. After its own reset
the reader is told the Stream ended while bytes are missing; and a writer that filled the window
has no credit coming while its bytes have yet to arrive, though its peer read all it received. -/
theorem stream_promises_not_unconditional :
    (∃ link, streamSystem.Reachable link ∧ 1 ∈ link.handles .server ∧
      ((link.ends .server).read 1).1 = .finished ∧
      link.readBytes .server 1 ≠ link.written .client 1) ∧
    ∃ link, streamSystem.Reachable link ∧ 1 ∈ link.handles .client ∧
      ((link.ends .client).write 1 [0]).1 = .blocked ∧ link.unread .client 1 = 0 ∧
      link.outbox .server = [] := by
  refine ⟨⟨resetLink, resetLink_reachable, by decide, by decide, by decide⟩, ?_⟩
  rcases wrote_of_room 32 (by decide) with ⟨link, wrote⟩
  refine ⟨link, wrote.reached, wrote.held, ?_, ?_, ?_⟩
  · rcases wrote.entry with ⟨entry, found, running, unfinished, limit, sent⟩
    have noFailure : (link.ends .client).failure 1 = none := by
      simp [State.failure, wrote.running, found, running]
    have empty : entry.limit - entry.sent = 0 := by
      rw [limit, sent]
      decide
    simp [State.write, noFailure, found, unfinished, empty]
  · have fresh : openLink.unread .client 1 = 0 := by decide
    simpa only [Link.unread, Side.peer, wrote.server] using fresh
  · rw [Link.outbox, wrote.server, wrote.channel]
    decide

end Condr.Streams
