import Condr.Client.StreamMoves

/-!
# Runs of a Stream connection

Every reachable link represents, for each Stream and direction, a reachable lane,
and neither end ever receives a frame it calls a protocol error. What holds of
lanes then holds of the two ends.
-/

namespace Condr.Streams

open CreditLane

/-- A lane that stands for one direction of a Stream, from `side` to its peer. -/
structure Represents (link : Link) (side : Side) (stream : ℕ) (lane : Lane UInt8) : Prop where
  sender : SendsAs lane ((link.ends side).entryAt stream)
  receiver : ReceivesAs (link.ended side.peer stream) lane ((link.ends side.peer).entryAt stream)
  written : lane.written = link.written side stream
  read : lane.read = link.readBytes side.peer stream
  channel : lane.channel = (link.outbox side).filterMap (StreamMessage.item? stream)
  returns : lane.returns = (link.outbox side.peer).filterMap (StreamMessage.return? stream)

def Simulated (link : Link) : Prop :=
  ∀ side stream, ∃ lane, LaneRun lane ∧ Represents link side stream lane

/-- A step of one end on one Stream: `taken` left the peer's outbox, `sent` joined its own. -/
structure Acts (link next : Link) (side : Side) (stream : ℕ) (after : Option Entry)
    (taken sent : List StreamMessage) (written read : List UInt8) : Prop where
  entry : (next.ends side).entryAt stream = after
  others : ∀ other, other ≠ stream →
    (next.ends side).entryAt other = (link.ends side).entryAt other
  peer : (next.ends side.peer).entryAt = (link.ends side.peer).entryAt
  outbox : next.outbox side = link.outbox side ++ sent
  peerOutbox : link.outbox side.peer = taken ++ next.outbox side.peer
  takenAbout : ∀ message ∈ taken, message.stream? = some stream
  sentAbout : ∀ message ∈ sent, message.stream? = some stream
  written : next.written = Link.extend link.written side stream written
  readBytes : next.readBytes = Link.extend link.readBytes side stream read
  ended : ∀ otherSide other, next.ended otherSide other = false →
    link.ended otherSide other = false

theorem Link.extend_self (log : Side → ℕ → List UInt8) (side : Side) (stream : ℕ)
    (bytes : List UInt8) : Link.extend log side stream bytes side stream = log side stream ++ bytes := by
  simp [Link.extend]

theorem Link.extend_of_stream_ne (log : Side → ℕ → List UInt8) (side otherSide : Side)
    {stream other : ℕ} (bytes : List UInt8) (different : other ≠ stream) :
    Link.extend log side stream bytes otherSide other = log otherSide other := by
  by_cases same : otherSide = side
  · subst same
    simp [Link.extend, Function.update_of_ne different]
  · simp [Link.extend, Function.update_of_ne same]

theorem Link.extend_of_side_ne (log : Side → ℕ → List UInt8) {side otherSide : Side}
    (stream other : ℕ) (bytes : List UInt8) (different : otherSide ≠ side) :
    Link.extend log side stream bytes otherSide other = log otherSide other := by
  simp [Link.extend, Function.update_of_ne different]

@[simp]
theorem Link.extend_nil (log : Side → ℕ → List UInt8) (side : Side) (stream : ℕ) :
    Link.extend log side stream [] = log := by
  simp [Link.extend]

theorem ReceivesAs.of_ended {ended later : Bool} {lane : Lane UInt8} {entry : Option Entry}
    (receives : ReceivesAs ended lane entry) (mono : later = false → ended = false) :
    ReceivesAs later lane entry := by
  cases entry with
  | none => exact receives
  | some entry =>
      rcases receives with ⟨inbound, received, consumed, announced, finished, failure, alive, kept⟩
      exact ⟨inbound, received, consumed, announced, finished, failure, alive,
        fun running => kept (mono running)⟩

section Projections

variable {stream other : ℕ} {messages : List StreamMessage}

theorem items_of_other (about : ∀ message ∈ messages, message.stream? = some stream)
    (different : other ≠ stream) : messages.filterMap (StreamMessage.item? other) = [] :=
  List.filterMap_eq_nil_iff.mpr fun message member =>
    StreamMessage.item?_of_other (about message member) different.symm

theorem returns_of_other (about : ∀ message ∈ messages, message.stream? = some stream)
    (different : other ≠ stream) : messages.filterMap (StreamMessage.return? other) = [] :=
  List.filterMap_eq_nil_iff.mpr fun message member =>
    StreamMessage.return?_of_other (about message member) different.symm

end Projections

/-- A step of one end moves its two lanes of the Stream, and no other lane. -/
theorem Simulated.acts {link next : Link} {side : Side} {stream : ℕ} {after : Option Entry}
    {taken sent : List StreamMessage} {written read : List UInt8} (simulated : Simulated link)
    (acts : Acts link next side stream after taken sent written read)
    (sends : SenderMoves stream ((link.ends side).entryAt stream) after taken sent written)
    (receives : ReceiverMoves stream ((link.ends side).entryAt stream) after
      (link.ended side stream) (next.ended side stream) taken sent read) :
    Simulated next := by
  intro otherSide other
  rcases simulated otherSide other with ⟨lane, run, represents⟩
  by_cases same : other = stream
  · subst same
    by_cases own : otherSide = side
    · subst own
      -- The lane this end sends on.
      have returns := represents.returns
      rw [acts.peerOutbox, List.filterMap_append] at returns
      rcases sends lane _ run represents.sender returns with
        ⟨moved, movedRun, sender, writtenIs, channel, returnsIs, readIs, frame⟩
      refine ⟨moved, movedRun, ?_⟩
      exact {
        sender := acts.entry ▸ sender
        receiver := by
          rw [acts.peer]
          exact frame _ _ (represents.receiver.of_ended (acts.ended _ _))
        written := by rw [writtenIs, represents.written, acts.written, Link.extend_self]
        read := by
          rw [readIs, represents.read, acts.readBytes,
            Link.extend_of_side_ne _ _ _ _ otherSide.peer_ne]
        channel := by rw [channel, represents.channel, acts.outbox, List.filterMap_append]
        returns := returnsIs }
    · have peer : otherSide = side.peer := Side.eq_peer_of_ne own
      subst peer
      -- The lane this end receives from.
      have receiver := represents.receiver
      have readWas := represents.read
      have returns := represents.returns
      have channel := represents.channel
      rw [Side.peer_peer] at receiver readWas returns
      rw [acts.peerOutbox, List.filterMap_append] at channel
      rcases receives lane _ run receiver channel with
        ⟨moved, movedRun, receiverIs, readIs, returnsIs, channelIs, writtenIs, frame⟩
      refine ⟨moved, movedRun, ?_⟩
      exact {
        sender := by
          rw [acts.peer]
          exact frame _ represents.sender
        receiver := by
          rw [Side.peer_peer, acts.entry]
          exact receiverIs
        written := by
          rw [writtenIs, represents.written, acts.written,
            Link.extend_of_side_ne _ _ _ _ side.peer_ne]
        read := by rw [Side.peer_peer, readIs, readWas, acts.readBytes, Link.extend_self]
        channel := channelIs
        returns := by
          rw [Side.peer_peer, returnsIs, returns, acts.outbox, List.filterMap_append] }
  · have entryAt (anySide : Side) :
        (next.ends anySide).entryAt other = (link.ends anySide).entryAt other := by
      by_cases own : anySide = side
      · exact own ▸ acts.others other same
      · rw [Side.eq_peer_of_ne own, acts.peer]
    have items (anySide : Side) : (next.outbox anySide).filterMap (StreamMessage.item? other) =
        (link.outbox anySide).filterMap (StreamMessage.item? other) := by
      by_cases own : anySide = side
      · subst own
        simp [acts.outbox, items_of_other acts.sentAbout same]
      · rw [Side.eq_peer_of_ne own, acts.peerOutbox, List.filterMap_append,
          items_of_other acts.takenAbout same, List.nil_append]
    have returns (anySide : Side) : (next.outbox anySide).filterMap (StreamMessage.return? other) =
        (link.outbox anySide).filterMap (StreamMessage.return? other) := by
      by_cases own : anySide = side
      · subst own
        simp [acts.outbox, returns_of_other acts.sentAbout same]
      · rw [Side.eq_peer_of_ne own, acts.peerOutbox, List.filterMap_append,
          returns_of_other acts.takenAbout same, List.nil_append]
    refine ⟨lane, run, ?_⟩
    exact {
      sender := entryAt otherSide ▸ represents.sender
      receiver := entryAt otherSide.peer ▸ represents.receiver.of_ended (acts.ended _ _)
      written := by
        rw [acts.written, Link.extend_of_stream_ne _ _ _ _ same, represents.written]
      read := by rw [acts.readBytes, Link.extend_of_stream_ne _ _ _ _ same, represents.read]
      channel := (items otherSide).symm ▸ represents.channel
      returns := (returns otherSide.peer).symm ▸ represents.returns }

/-- A step that shows on no lane. -/
theorem Simulated.of_same {link next : Link} (simulated : Simulated link)
    (entries : ∀ side, (next.ends side).entryAt = (link.ends side).entryAt)
    (items : ∀ side stream, (next.outbox side).filterMap (StreamMessage.item? stream) =
      (link.outbox side).filterMap (StreamMessage.item? stream))
    (returns : ∀ side stream, (next.outbox side).filterMap (StreamMessage.return? stream) =
      (link.outbox side).filterMap (StreamMessage.return? stream))
    (written : next.written = link.written) (readBytes : next.readBytes = link.readBytes)
    (ended : ∀ side stream, next.ended side stream = false → link.ended side stream = false) :
    Simulated next := by
  intro side stream
  rcases simulated side stream with ⟨lane, run, represents⟩
  refine ⟨lane, run, ?_⟩
  exact {
    sender := by
      rw [entries]
      exact represents.sender
    receiver := by
      rw [entries]
      exact represents.receiver.of_ended (ended _ _)
    written := by rw [written, represents.written]
    read := by rw [readBytes, represents.read]
    channel := by rw [items, represents.channel]
    returns := by rw [returns, represents.returns] }

theorem Simulated.initial : Simulated Link.initial := by
  intro side stream
  have fresh : State.initial.entryAt stream = some Entry.new := by
    have unopened : ¬ (0 < stream ∧ stream ≤ State.initial.highest) := by
      simp only [State.initial]
      omega
    simp [State.entryAt, unopened]
  refine ⟨Lane.initial streamFlow, .start rfl, ?_⟩
  exact {
    sender := by
      rw [show (Link.initial.ends side) = State.initial from rfl, fresh]
      exact ⟨rfl, rfl, rfl, rfl, rfl, by simp [Entry.new]⟩
    receiver := by
      rw [show (Link.initial.ends side.peer) = State.initial from rfl, fresh]
      exact ⟨rfl, rfl, rfl, rfl, rfl, rfl, by simp [Entry.new], by simp [Lane.initial]⟩
    written := rfl
    read := rfl
    channel := rfl
    returns := rfl }

end Condr.Streams
