import Condr.Client.StreamSimulation
import Condr.Client.StreamSteps

/-!
# Safety and agreement of a Stream connection

The frames on their way to the Server open Streams one after the other and speak
only of Streams opened before; those on their way to the Client speak of Streams
it opened. With the lanes this shows that no frame is a protocol error, and what
the lanes promise about bytes, windows and credit.
-/

namespace Condr.Streams

open CreditLane State

/-- The link once an end took a frame and became `state`. -/
def Link.taken (link : Link) (side : Side) (state : State) (messages : List StreamMessage) : Link :=
  (link.setEnd side state).setChannel side.peer messages

/-- The frames on their way to the Server, whose highest Stream is `highest`; once they arrived
it is `last`. -/
def Announced (last : ℕ) : ℕ → List StreamMessage → Prop
  | highest, [] => highest = last
  | highest, .open stream _ :: messages => stream = highest + 1 ∧ Announced last stream messages
  | highest, message :: messages =>
      Side.client.Sends highest message ∧ Announced last highest messages

theorem Side.Sends.mono {side : Side} {highest later : ℕ} {message : StreamMessage}
    (sends : side.Sends highest message) (grows : highest ≤ later) : side.Sends later message := by
  cases message with
  | opened | openFailed => exact ⟨sends.1, sends.2.1, sends.2.2.trans grows⟩
  | data | credit | finish | reset => exact ⟨sends.1, sends.2.trans grows⟩
  | «open» | ping | pong | close | unknown => exact sends

theorem Announced.le {last highest : ℕ} {messages : List StreamMessage}
    (announced : Announced last highest messages) : highest ≤ last := by
  induction messages generalizing highest with
  | nil => exact Nat.le_of_eq announced
  | cons message messages hypothesis =>
      cases message with
      | «open» stream target =>
          rcases announced with ⟨isNext, rest⟩
          have grows := hypothesis rest
          omega
      | _ => exact hypothesis announced.2

theorem Announced.append {last highest : ℕ} {messages : List StreamMessage}
    (announced : Announced last highest messages) {message : StreamMessage}
    (sends : Side.client.Sends last message) : Announced last highest (messages ++ [message]) := by
  induction messages generalizing highest with
  | nil =>
      have same : highest = last := announced
      subst same
      cases message with
      | «open» stream target => exact absurd sends id
      | _ => exact ⟨sends, rfl⟩
  | cons first messages hypothesis =>
      cases first with
      | «open» stream target => exact ⟨announced.1, hypothesis announced.2⟩
      | _ => exact ⟨announced.1, hypothesis announced.2⟩

theorem Announced.append_all {last highest : ℕ} {messages sent : List StreamMessage}
    (announced : Announced last highest messages)
    (sends : ∀ message ∈ sent, Side.client.Sends last message) :
    Announced last highest (messages ++ sent) := by
  induction sent generalizing messages with
  | nil => simpa using announced
  | cons message sent hypothesis =>
      have first := announced.append (sends message (by simp))
      have rest := hypothesis first fun other member => sends other (by simp [member])
      simpa using rest

theorem Announced.of_append {last highest : ℕ} {taken messages : List StreamMessage}
    (announced : Announced last highest (taken ++ messages))
    (sends : ∀ message ∈ taken, Side.client.Sends highest message) :
    Announced last highest messages := by
  induction taken with
  | nil => exact announced
  | cons message taken hypothesis =>
      have first := sends message (by simp)
      cases message with
      | «open» stream target => exact absurd first id
      | _ => exact hypothesis announced.2 fun other member => sends other (by simp [member])

theorem Announced.append_open {last highest : ℕ} {messages : List StreamMessage}
    (announced : Announced last highest messages) (target : StreamTarget) :
    Announced (last + 1) highest (messages ++ [.open (last + 1) target]) := by
  induction messages generalizing highest with
  | nil =>
      have same : highest = last := announced
      exact ⟨by rw [same], rfl⟩
  | cons first messages hypothesis =>
      cases first with
      | «open» stream other => exact ⟨announced.1, hypothesis announced.2⟩
      | _ => exact ⟨announced.1, hypothesis announced.2⟩

section Opened

variable (state : State)

/-- The end once the next Stream is open. -/
def State.openNext : State :=
  { state with highest := state.highest + 1 }.put (state.highest + 1) Entry.new

variable {state}

theorem State.KeysOpened.openNext (keys : state.KeysOpened) : state.openNext.KeysOpened := by
  intro stream entry found
  by_cases same : stream = state.highest + 1
  · subst same
    exact ⟨Nat.succ_pos _, le_rfl⟩
  · have before := keys stream entry (by rwa [State.openNext, get_put_of_ne _ same] at found)
    exact ⟨before.1, Nat.le_succ_of_le before.2⟩

/-- A Stream that was never opened already counted as new. -/
theorem State.entryAt_openNext : state.openNext.entryAt = state.entryAt := by
  funext stream
  by_cases same : stream = state.highest + 1
  · subst same
    simp [entryAt, State.openNext, Entry.unlined, Entry.new]
  · have sameGet : state.openNext.get stream = state.get stream := by
      rw [State.openNext, get_put_of_ne _ same]
      rfl
    have sameRange : (0 < stream ∧ stream ≤ state.highest + 1) ↔
        (0 < stream ∧ stream ≤ state.highest) := by omega
    simp [entryAt, sameGet, show state.openNext.highest = state.highest + 1 from rfl, sameRange]

theorem State.open_cases (running : state.closed = none) (target : StreamTarget) :
    (∃ failure, state.open target = (.error failure, state)) ∨
      state.open target =
        (.ok (state.highest + 1),
          state.openNext.pushControl (.open (state.highest + 1) target)) := by
  simp only [State.open, State.openNext, running]
  split
  · exact Or.inl ⟨_, rfl⟩
  · exact Or.inr rfl

variable (state) in
/-- The end once it turned the next Stream down. -/
def State.declineNext (error : StreamError) : State :=
  { state with highest := state.highest + 1 }.pushControl
    (.openFailed (state.highest + 1) error "")

theorem State.KeysOpened.declineNext (keys : state.KeysOpened) (error : StreamError) :
    (state.declineNext error).KeysOpened := by
  intro stream entry found
  have before := keys stream entry found
  exact ⟨before.1, Nat.le_succ_of_le before.2⟩

theorem State.entryAt_declineNext (keys : state.KeysOpened) (error : StreamError) :
    (state.declineNext error).entryAt (state.highest + 1) = none := by
  have absent : state.get (state.highest + 1) = none := by
    cases found : state.get (state.highest + 1) with
    | none => rfl
    | some entry =>
        have range := keys _ entry found
        omega
  have sameGet : (state.declineNext error).get (state.highest + 1) = none := absent
  simp [entryAt, sameGet, show (state.declineNext error).highest = state.highest + 1 from rfl]

theorem State.entryAt_declineNext_of_ne {stream : ℕ} (different : stream ≠ state.highest + 1)
    (error : StreamError) :
    (state.declineNext error).entryAt stream = state.entryAt stream := by
  have sameGet : (state.declineNext error).get stream = state.get stream := rfl
  have sameRange : (0 < stream ∧ stream ≤ state.highest + 1) ↔
      (0 < stream ∧ stream ≤ state.highest) := by omega
  simp [entryAt, sameGet, show (state.declineNext error).highest = state.highest + 1 from rfl,
    sameRange]

variable (state) in
theorem State.receiveOpen_cases (target : StreamTarget) :
    (∃ error, state.receiveOpen (state.highest + 1) target = .ok (state.declineNext error, none)) ∨
      state.receiveOpen (state.highest + 1) target =
        .ok (state.openNext, some (state.highest + 1)) := by
  simp only [State.receiveOpen]
  rw [if_neg (by omega)]
  split
  · exact Or.inl ⟨_, rfl⟩
  · exact Or.inr rfl

end Opened

theorem Announced.insert_ping {last highest : ℕ} {messages later : List StreamMessage}
    (announced : Announced last highest (messages ++ later)) :
    Announced last highest (messages ++ .ping :: later) := by
  induction messages generalizing highest with
  | nil => exact ⟨rfl, announced⟩
  | cons first messages hypothesis =>
      cases first with
      | «open» stream target => exact ⟨announced.1, hypothesis announced.2⟩
      | _ => exact ⟨announced.1, hypothesis announced.2⟩

/-- What holds of the two ends beside the lanes. -/
structure Consistent (link : Link) : Prop where
  running : ∀ side, (link.ends side).closed = none
  keys : ∀ side, (link.ends side).KeysOpened
  held : ∀ side stream, stream ∈ link.handles side →
    (0 < stream ∧ stream ≤ (link.ends side).highest) ∧ Alive ((link.ends side).entryAt stream)
  toServer : Announced (link.ends .client).highest (link.ends .server).highest
    (link.outbox .client)
  toClient : ∀ message ∈ link.outbox .server, Side.server.Sends (link.ends .client).highest message

/-- The invariant of the connection. -/
structure Sound (link : Link) : Prop where
  simulated : Simulated link
  consistent : Consistent link

namespace Consistent

variable {link next : Link} {side : Side} {stream : ℕ}

theorem initial : Consistent Link.initial where
  running _ := rfl
  keys _ stream entry found := by
    simp [Link.initial, State.initial, State.get] at found
  held _ _ member := by simp [Link.initial] at member
  toServer := rfl
  toClient := by simp [Link.initial, Link.outbox, State.initial]

theorem server_highest_le (consistent : Consistent link) :
    (link.ends .server).highest ≤ (link.ends .client).highest :=
  consistent.toServer.le

/-- A held Stream has its entry. -/
theorem found (consistent : Consistent link) (held : stream ∈ link.handles side) :
    ∃ entry, (link.ends side).get stream = some entry ∧ entry.handleAlive = true := by
  rcases consistent.held side stream held with ⟨opened, held, isHeld, alive⟩
  simp only [entryAt, opened, if_true, and_self, Option.map_eq_some_iff] at isHeld
  rcases isHeld with ⟨entry, found, rfl⟩
  exact ⟨entry, found, alive⟩

/-- A step that shows on one Stream of one end keeps the rest; `moved` joined its outbox and
`taken` left its peer's. -/
theorem of_touches (consistent : Consistent link) {after : Option Entry}
    {sent taken moved : List StreamMessage} {state : State}
    (touches : Touches stream after sent (link.ends side) state)
    (ends : next.ends = Function.update link.ends side state)
    (handles : ∀ anySide, next.handles anySide ⊆ link.handles anySide)
    (alive : stream ∈ next.handles side → Alive after)
    (outbox : next.outbox side = link.outbox side ++ moved)
    (peerOutbox : link.outbox side.peer = taken ++ next.outbox side.peer)
    (takenSends : ∀ message ∈ taken, side.peer.Sends (link.ends side).highest message)
    (sends : ∀ message ∈ moved, side.Sends (link.ends side).highest message) :
    Consistent next := by
  have own : next.ends side = state := by simp [ends]
  have other {anySide : Side} (different : anySide ≠ side) :
      next.ends anySide = link.ends anySide := by
    simp [ends, Function.update_of_ne different]
  have highest (anySide : Side) : (next.ends anySide).highest = (link.ends anySide).highest := by
    by_cases same : anySide = side
    · rw [same, own, touches.highest]
    · rw [other same]
  exact {
    running := fun anySide => by
      by_cases same : anySide = side
      · rw [same, own, touches.closed]
        exact consistent.running side
      · rw [other same]
        exact consistent.running anySide
    keys := fun anySide => by
      by_cases same : anySide = side
      · rw [same, own]
        exact touches.keys
      · rw [other same]
        exact consistent.keys anySide
    held := fun anySide anyStream member => by
      rcases consistent.held anySide anyStream (handles anySide member) with ⟨opened, held⟩
      rw [highest]
      refine ⟨opened, ?_⟩
      by_cases same : anySide = side
      · subst same
        rw [own]
        by_cases sameStream : anyStream = stream
        · rw [sameStream, touches.entry]
          exact alive (sameStream ▸ member)
        · rw [touches.others _ sameStream]
          exact held
      · rw [other same]
        exact held
    toServer := by
      rw [highest, highest]
      cases side with
      | client =>
          rw [outbox]
          exact consistent.toServer.append_all sends
      | server =>
          have arriving := consistent.toServer
          rw [show link.outbox .client = taken ++ next.outbox .client from peerOutbox] at arriving
          exact arriving.of_append takenSends
    toClient := by
      rw [highest]
      cases side with
      | client =>
          intro message member
          refine consistent.toClient message ?_
          rw [show link.outbox .server = taken ++ next.outbox .server from peerOutbox]
          exact List.mem_append_right _ member
      | server =>
          rw [outbox]
          intro message member
          rcases List.mem_append.mp member with earlier | new
          · exact consistent.toClient message earlier
          · exact (sends message new).mono consistent.server_highest_le }

end Consistent

namespace Sound

variable {link next : Link} {side : Side} {stream : ℕ}

theorem initial : Sound Link.initial :=
  ⟨.initial, .initial⟩

/-- An operation on one Stream keeps the invariant. -/
theorem of_steps (sound : Sound link) {after : Option Entry} {sent : List StreamMessage}
    {written read : List UInt8} {state : State}
    (steps : Steps side stream after (link.ended side stream) (next.ended side stream) [] sent written
      read (link.ends side) state)
    (ends : next.ends = Function.update link.ends side state)
    (channel : next.channel = link.channel)
    (handles : ∀ anySide, next.handles anySide ⊆ link.handles anySide)
    (alive : stream ∈ next.handles side → Alive after)
    (opened : 0 < stream ∧ stream ≤ (link.ends side).highest)
    (writtenIs : next.written = Link.extend link.written side stream written)
    (readIs : next.readBytes = Link.extend link.readBytes side stream read)
    (ended : ∀ anySide other, next.ended anySide other = false →
      link.ended anySide other = false) : Sound next := by
  have own : next.ends side = state := by simp [ends]
  have peer : next.ends side.peer = link.ends side.peer := by
    simp [ends]
  have outbox : next.outbox side = link.outbox side ++ sent := by
    simp [Link.outbox, own, channel, steps.touches.control]
  have peerOutbox : link.outbox side.peer = [] ++ next.outbox side.peer := by
    simp [Link.outbox, peer, channel]
  refine ⟨?_, sound.consistent.of_touches steps.touches ends handles alive outbox
    peerOutbox (by simp) (steps.sends opened)⟩
  have acts : Acts link next side stream after [] sent written read := {
    entry := by rw [own, steps.touches.entry]
    others := fun other different => by rw [own, steps.touches.others other different]
    peer := by rw [peer]
    outbox := outbox
    peerOutbox := peerOutbox
    takenAbout := by simp
    sentAbout := steps.about
    written := writtenIs
    readBytes := readIs
    ended := ended }
  exact sound.simulated.acts acts steps.sender steps.receiver

/-- The writer's item goes onto the channel. -/
theorem of_forwards (sound : Sound link) {after : Option Entry} {message : StreamMessage}
    {state : State} (forwards : Forwards message stream after (link.ends side) state)
    (noControl : (link.ends side).control = []) :
    Sound ((link.setEnd side state).setChannel side (link.channel side ++ [message])) := by
  have control : state.control = [] := by simp [forwards.touches.control, noControl]
  have outbox : ((link.setEnd side state).setChannel side
      (link.channel side ++ [message])).outbox side = link.outbox side ++ [message] := by
    simp [Link.outbox, Link.setEnd, Link.setChannel, control, noControl]
  have peerOutbox : link.outbox side.peer = [] ++ ((link.setEnd side state).setChannel side
      (link.channel side ++ [message])).outbox side.peer := by
    simp [Link.outbox, Link.setEnd, Link.setChannel]
  have sends : ∀ other ∈ [message], side.Sends (link.ends side).highest other := by
    intro other member
    rcases List.mem_singleton.mp member with rfl
    rcases forwards.data with ⟨item, rfl⟩
    cases item with
    | data data => exact forwards.opened
    | finish => exact forwards.opened
  have consistent : Consistent
      ((link.setEnd side state).setChannel side (link.channel side ++ [message])) :=
    sound.consistent.of_touches forwards.touches rfl (fun _ => List.Subset.refl _)
    (fun member => forwards.alive (sound.consistent.held side stream member).2)
    outbox peerOutbox (by simp) sends
  have acts : Acts link ((link.setEnd side state).setChannel side (link.channel side ++ [message]))
      side stream after [] [message] [] [] := {
    entry := by simp [Link.setEnd, Link.setChannel, forwards.touches.entry]
    others := fun other different => by
      simp [Link.setEnd, Link.setChannel, forwards.touches.others other different]
    peer := by simp [Link.setEnd, Link.setChannel]
    outbox := outbox
    peerOutbox := peerOutbox
    takenAbout := by simp
    sentAbout := by simpa using forwards.about
    written := by simp [Link.setEnd, Link.setChannel]
    readBytes := by simp [Link.setEnd, Link.setChannel]
    ended := fun _ _ running => running }
  exact ⟨sound.simulated.acts acts forwards.sender (forwards.receiver _), consistent⟩

/-- A step that shows on no Stream and moves no frame. -/
theorem of_same (sound : Sound link) (keys : ∀ anySide, (next.ends anySide).KeysOpened)
    (entryAt : ∀ anySide, (next.ends anySide).entryAt = (link.ends anySide).entryAt)
    (highest : ∀ anySide, (next.ends anySide).highest = (link.ends anySide).highest)
    (closed : ∀ anySide, (next.ends anySide).closed = (link.ends anySide).closed)
    (outbox : ∀ anySide, next.outbox anySide = link.outbox anySide)
    (handles : next.handles = link.handles) (written : next.written = link.written)
    (readBytes : next.readBytes = link.readBytes) (ended : next.ended = link.ended) :
    Sound next where
  simulated := by
    refine sound.simulated.of_same entryAt ?_ ?_ written readBytes (fun _ _ => ended ▸ id)
    · intro anySide stream
      rw [outbox]
    · intro anySide stream
      rw [outbox]
  consistent := {
    running := fun anySide => (closed anySide).trans (sound.consistent.running anySide)
    keys := keys
    held := fun anySide stream member => by
      rw [entryAt, highest]
      exact sound.consistent.held anySide stream (handles ▸ member)
    toServer := by
      rw [highest, highest, outbox]
      exact sound.consistent.toServer
    toClient := by
      rw [highest, outbox]
      exact sound.consistent.toClient }

/-- A step of one end that shows on no Stream. -/
theorem of_hides (sound : Sound link) {state : State} (hides : Hides (link.ends side) state) :
    Sound (link.setEnd side state) := by
  have own : (link.setEnd side state).ends side = state := by simp [Link.setEnd]
  have other {anySide : Side} (different : anySide ≠ side) :
      (link.setEnd side state).ends anySide = link.ends anySide := by
    simp [Link.setEnd, Function.update_of_ne different]
  refine sound.of_same ?_ ?_ ?_ ?_ ?_ rfl rfl rfl rfl
  all_goals
    intro anySide
    by_cases same : anySide = side
  · rw [same, own]
    exact hides.keys
  · rw [other same]
    exact sound.consistent.keys anySide
  · rw [same, own, hides.entryAt]
  · rw [other same]
  · rw [same, own, hides.highest]
  · rw [other same]
  · rw [same, own, hides.closed]
  · rw [other same]
  · rw [same, Link.outbox, own, hides.control]
    rfl
  · rw [Link.outbox, other same]
    rfl

/-- The Client opens a Stream. -/
theorem perform_open (sound : Sound link) (target : StreamTarget) :
    Sound (link.perform .client (.open target)) := by
  have consistent := sound.consistent
  rcases open_cases (consistent.running .client) target with ⟨failure, opening⟩ | opening
  · have same : link.perform .client (.open target) = link := by
      simp [Link.perform, opening, Link.setEnd]
    rw [same]
    exact sound
  have performed : link.perform .client (.open target) =
      (link.setEnd .client ((link.ends .client).openNext.pushControl
        (.open ((link.ends .client).highest + 1) target))).setHandles .client
          (((link.ends .client).highest + 1) :: link.handles .client) := by
    simp [Link.perform, opening]
  rw [performed]
  have entries (side : Side) : (((link.setEnd .client ((link.ends .client).openNext.pushControl
      (.open ((link.ends .client).highest + 1) target))).setHandles .client
        (((link.ends .client).highest + 1) :: link.handles .client)).ends side).entryAt =
          (link.ends side).entryAt := by
    cases side with
    | client => exact entryAt_openNext
    | server => rfl
  have outbox (side : Side) : ((link.setEnd .client ((link.ends .client).openNext.pushControl
      (.open ((link.ends .client).highest + 1) target))).setHandles .client
        (((link.ends .client).highest + 1) :: link.handles .client)).outbox side =
          link.outbox side ++ if side = .client then
            [.open ((link.ends .client).highest + 1) target] else [] := by
    cases side with
    | client =>
        simp [Link.outbox, Link.setEnd, Link.setHandles, pushControl, openNext]
    | server => simp [Link.outbox, Link.setEnd, Link.setHandles]
  refine ⟨sound.simulated.of_same entries ?_ ?_ rfl rfl (fun _ _ => id), ?_⟩
  · intro side stream
    rw [outbox]
    split
    · simp [StreamMessage.item?]
    · simp
  · intro side stream
    rw [outbox]
    split
    · simp [StreamMessage.return?]
    · simp
  exact {
    running := fun side => by
      cases side with
      | client => exact consistent.running .client
      | server => exact consistent.running .server
    keys := fun side => by
      cases side with
      | client => exact (consistent.keys .client).openNext
      | server => exact consistent.keys .server
    held := fun side stream member => by
      rw [entries]
      cases side with
      | client =>
          rcases List.mem_cons.mp (show stream ∈ _ :: link.handles .client from member) with
            rfl | member
          · refine ⟨⟨Nat.succ_pos _, le_rfl⟩, Entry.new, ?_, rfl⟩
            simp [entryAt]
          · rcases consistent.held .client stream member with ⟨opened, alive⟩
            exact ⟨⟨opened.1, Nat.le_succ_of_le opened.2⟩, alive⟩
      | server => exact consistent.held .server stream member
    toServer := by
      rw [outbox]
      exact consistent.toServer.append_open target
    toClient := by
      rw [outbox]
      intro message member
      have earlier : message ∈ link.outbox .server := by simpa using member
      exact (consistent.toClient message earlier).mono (Nat.le_succ _) }

section Operations

theorem perform_accept (sound : Sound link) (held : stream ∈ link.handles .server)
    (size : Option ℕ) : Sound (link.perform .server (.accept stream size)) := by
  have consistent := sound.consistent
  rcases consistent.held .server stream held with ⟨opened, alive⟩
  have steps : Steps .server stream _ (link.ended .server stream) _ _ _ _ _ _ _ :=
    accept_steps (consistent.keys .server) (consistent.running .server) size
  exact sound.of_steps steps rfl rfl (fun _ => List.Subset.refl _) (fun _ => alive) opened
    (Link.extend_nil ..).symm (Link.extend_nil ..).symm (fun _ _ => id)

theorem ended_of_markEnded (link : Link) (side : Side) (stream : ℕ) (anySide : Side) (other : ℕ)
    (running : (link.markEnded side stream).ended anySide other = false) :
    link.ended anySide other = false := by
  by_cases sameSide : anySide = side
  · subst sameSide
    by_cases same : other = stream
    · subst same
      simp [Link.markEnded] at running
    · simpa [Link.markEnded, Function.update_of_ne same] using running
  · simpa [Link.markEnded, Function.update_of_ne sameSide] using running

theorem markEnded_self (link : Link) (side : Side) (stream : ℕ) :
    (link.markEnded side stream).ended side stream = true := by
  simp [Link.markEnded]

theorem perform_refuse (sound : Sound link) (held : stream ∈ link.handles .server)
    (error : StreamError) (detail : String) :
    Sound (link.perform .server (.refuse stream error detail)) := by
  have consistent := sound.consistent
  rcases consistent.held .server stream held with ⟨opened, _⟩
  rcases consistent.found held with ⟨entry, found, alive⟩
  have steps : Steps .server stream _ (link.ended .server stream) true _ _ _ _ _ _ :=
    refuse_steps (consistent.keys .server) (consistent.running .server) found error detail
  rw [← markEnded_self (link.setEnd .server ((link.ends .server).refuse stream error detail))
    .server stream] at steps
  exact sound.of_steps steps rfl rfl (fun _ => List.Subset.refl _) (fun _ => ⟨_, rfl, alive⟩) opened
    (Link.extend_nil ..).symm (Link.extend_nil ..).symm (ended_of_markEnded _ _ _)

theorem perform_write (sound : Sound link) (held : stream ∈ link.handles side)
    (rest : List UInt8) : Sound (link.perform side (.write stream rest)) := by
  have consistent := sound.consistent
  rcases consistent.held side stream held with ⟨opened, alive⟩
  cases writing : (link.ends side).write stream rest with
  | mk result state =>
  by_cases taken : ∃ take, result = .took take
  · rcases taken with ⟨take, rfl⟩
    have performed : link.perform side (.write stream rest) = { link.setEnd side state with
        written := Link.extend link.written side stream (rest.take take) } := by
      simp [Link.perform, writing]
    rcases write_steps (consistent.keys side) (consistent.running side) writing with
      ⟨after, stays, steps⟩
    rw [performed]
    exact sound.of_steps steps rfl rfl (fun _ => List.Subset.refl _) (fun _ => stays alive) opened
      rfl (Link.extend_nil ..).symm (fun _ _ => id)
  · have notTaken : ∀ take, result ≠ .took take := fun take same => taken ⟨take, same⟩
    have same := write_eq_self writing notTaken
    have performed : link.perform side (.write stream rest) = link.setEnd side state := by
      cases result with
      | took take => exact absurd rfl (notTaken take)
      | failed | blocked | missing => simp [Link.perform, writing]
    rw [performed, same]
    exact sound.of_hides ⟨consistent.keys side, rfl, rfl, rfl, rfl⟩

theorem perform_read (sound : Sound link) (held : stream ∈ link.handles side) :
    Sound (link.perform side (.read stream)) := by
  have consistent := sound.consistent
  rcases consistent.held side stream held with ⟨opened, alive⟩
  cases reading : (link.ends side).read stream with
  | mk result state =>
  by_cases taken : ∃ data, result = .chunk data
  · rcases taken with ⟨data, rfl⟩
    have performed : link.perform side (.read stream) = { link.setEnd side state with
        readBytes := Link.extend link.readBytes side stream data } := by
      simp [Link.perform, reading]
    rcases read_steps (consistent.keys side) reading with ⟨after, sent, stays, steps⟩
    rw [performed]
    exact sound.of_steps steps rfl rfl (fun _ => List.Subset.refl _) (fun _ => stays alive) opened
      (Link.extend_nil ..).symm rfl (fun _ _ => id)
  · have notTaken : ∀ data, result ≠ .chunk data := fun data same => taken ⟨data, same⟩
    have same := read_eq_self reading notTaken
    have performed : link.perform side (.read stream) = link.setEnd side state := by
      cases result with
      | chunk data => exact absurd rfl (notTaken data)
      | finished | failed | blocked | missing => simp [Link.perform, reading]
    rw [performed, same]
    exact sound.of_hides ⟨consistent.keys side, rfl, rfl, rfl, rfl⟩

theorem perform_finish (sound : Sound link) (held : stream ∈ link.handles side) :
    Sound (link.perform side (.finish stream)) := by
  have consistent := sound.consistent
  rcases consistent.held side stream held with ⟨opened, alive⟩
  rcases finish_steps (consistent.keys side) with ⟨after, stays, steps⟩
  exact sound.of_steps steps rfl rfl (fun _ => List.Subset.refl _) (fun _ => stays alive) opened
    (Link.extend_nil ..).symm (Link.extend_nil ..).symm (fun _ _ => id)

theorem perform_reset (sound : Sound link) (held : stream ∈ link.handles side)
    (error : StreamError) (detail : String) :
    Sound (link.perform side (.reset stream error detail)) := by
  have consistent := sound.consistent
  rcases consistent.held side stream held with ⟨opened, alive⟩
  rcases reset_steps (consistent.keys side) (consistent.running side) error detail with
    ⟨after, sent, stays, steps⟩
  rw [← markEnded_self (link.setEnd side ((link.ends side).reset stream error detail))
    side stream] at steps
  exact sound.of_steps steps rfl rfl (fun _ => List.Subset.refl _) (fun _ => stays alive) opened
    (Link.extend_nil ..).symm (Link.extend_nil ..).symm (ended_of_markEnded _ _ _)

theorem perform_drop (sound : Sound link) (held : stream ∈ link.handles side) :
    Sound (link.perform side (.drop stream)) := by
  have consistent := sound.consistent
  rcases consistent.held side stream held with ⟨opened, _⟩
  rcases consistent.found held with ⟨entry, found, _⟩
  rcases drop_steps (consistent.keys side) (consistent.running side) found with
    ⟨after, sent, steps⟩
  refine sound.of_steps steps rfl rfl ?_ ?_ opened
    (Link.extend_nil ..).symm (Link.extend_nil ..).symm (fun _ _ => id)
  · intro anySide
    by_cases same : anySide = side
    · subst same
      simp [Link.perform, Link.setHandles, Link.setEnd]
    · simp [Link.perform, Link.setHandles, Link.setEnd, Function.update_of_ne same]
  · intro member
    simp [Link.perform, Link.setHandles] at member

end Operations

/-! ## The writer and the reader -/

theorem perform_send (sound : Sound link) : Sound (link.perform side .send) := by
  have consistent := sound.consistent
  cases queued : (link.ends side).control with
  | cons message control =>
      have chosen : (link.ends side).nextMessage =
          (some message, { link.ends side with control }) := by
        simp [State.nextMessage, queued]
      have performed : link.perform side .send =
          (link.setEnd side { link.ends side with control }).setChannel side
            (link.channel side ++ [message]) := by
        simp [Link.perform, chosen]
      rw [performed]
      refine sound.of_same ?_ ?_ ?_ ?_ ?_ rfl rfl rfl rfl
      all_goals
        intro anySide
        by_cases same : anySide = side
      · subst same
        simp only [Link.setEnd, Link.setChannel, Function.update_self]
        exact consistent.keys anySide
      · simpa [Link.setEnd, Link.setChannel, Function.update_of_ne same] using
          consistent.keys anySide
      · subst same
        simp only [Link.setEnd, Link.setChannel, Function.update_self]
        rfl
      · simp [Link.setEnd, Link.setChannel, Function.update_of_ne same]
      · subst same
        simp [Link.setEnd, Link.setChannel]
      · simp [Link.setEnd, Link.setChannel, Function.update_of_ne same]
      · subst same
        simp [Link.setEnd, Link.setChannel]
      · simp [Link.setEnd, Link.setChannel, Function.update_of_ne same]
      · subst same
        simp [Link.outbox, Link.setEnd, Link.setChannel, queued]
      · simp [Link.outbox, Link.setEnd, Link.setChannel, Function.update_of_ne same]
  | nil =>
      cases choosing : (link.ends side).nextDataFrom (link.ends side).ready with
      | mk result state =>
      have chosen : (link.ends side).nextMessage = (result, state) := by
        simp [State.nextMessage, queued, State.nextData, choosing]
      rcases nextDataFrom_steps (consistent.keys side) _ choosing with ⟨nothing, something⟩
      cases result with
      | none =>
          have performed : link.perform side .send = link.setEnd side state := by
            simp [Link.perform, chosen]
          rw [performed]
          exact sound.of_hides (nothing rfl)
      | some message =>
          have performed : link.perform side .send =
              (link.setEnd side state).setChannel side (link.channel side ++ [message]) := by
            simp [Link.perform, chosen]
          rcases something message rfl with ⟨stream, after, forwards⟩
          rw [performed]
          exact sound.of_forwards forwards queued

theorem perform_ping (sound : Sound link) : Sound (link.perform .client .ping) := by
  have consistent := sound.consistent
  have own : (link.perform .client .ping).outbox .client =
      link.channel .client ++ .ping :: (link.ends .client).control := by
    simp [Link.perform, Link.outbox, Link.setChannel]
  have peer : (link.perform .client .ping).outbox .server = link.outbox .server := by
    simp [Link.perform, Link.outbox, Link.setChannel]
  refine ⟨sound.simulated.of_same (fun _ => rfl) ?_ ?_ rfl rfl (fun _ _ => id), ?_⟩
  · intro anySide stream
    cases anySide with
    | client =>
        rw [own]
        simp [Link.outbox, List.filterMap_cons, StreamMessage.item?]
    | server => rw [peer]
  · intro anySide stream
    cases anySide with
    | client =>
        rw [own]
        simp [Link.outbox, List.filterMap_cons, StreamMessage.return?]
    | server => rw [peer]
  · exact {
      running := consistent.running
      keys := consistent.keys
      held := consistent.held
      toServer := by
        rw [own]
        exact consistent.toServer.insert_ping
      toClient := by
        rw [peer]
        exact consistent.toClient }

section Deliver

variable {message : StreamMessage} {messages : List StreamMessage}

theorem outbox_taken (arrives : link.channel side.peer = message :: messages) (state : State) :
    link.outbox side.peer = [message] ++ (link.taken side state messages).outbox side.peer := by
  simp [Link.outbox, Link.taken, Link.setEnd, Link.setChannel, arrives]

/-- Data on its way fits the credit its receiver gave. -/
theorem room (sound : Sound link) {data : List UInt8} {entry : Entry}
    (arrives : link.channel side.peer = .data stream data :: messages)
    (found : (link.ends side).entryAt stream = some entry) :
    entry.received + data.length ≤ entry.announced := by
  rcases sound.simulated side.peer stream with ⟨lane, run, represents⟩
  have receiver := represents.receiver
  rw [Side.peer_peer, found] at receiver
  rcases receiver with ⟨_, received, _, announced, _⟩
  have head : lane.channel = .data data :: ((link.taken side (link.ends side) messages).outbox
      side.peer).filterMap (StreamMessage.item? stream) := by
    rw [represents.channel, outbox_taken arrives (link.ends side)]
    simp [StreamMessage.item?]
  rw [received, announced]
  exact run.holds.received_add_chunk_le head

/-- A frame about an opened Stream is no protocol error. -/
theorem deliver_frame (sound : Sound link)
    (arrives : link.channel side.peer = message :: messages)
    (sends : side.peer.Sends (link.ends side).highest message)
    (about : message.stream? = some stream) :
    ∃ state, (link.ends side).receive side message = .ok (state, none) ∧
      Sound (link.taken side state messages) := by
  have consistent := sound.consistent
  have fits (data : List UInt8) (entry : Entry) (isData : message = .data stream data)
      (found : (link.ends side).entryAt stream = some entry) (_ : entry.failure = none)
      (_ : entry.peerFinished = false) : entry.received + data.length ≤ entry.announced :=
    sound.room (isData ▸ arrives) found
  rcases receive_touches (consistent.keys side) sends about fits with ⟨state, received, touches⟩
  have outbox : (link.taken side state messages).outbox side = link.outbox side ++ [] := by
    simp [Link.outbox, Link.taken, Link.setEnd, Link.setChannel, touches.control]
  have acts : Acts link (link.taken side state messages) side stream
      (afterFrame message ((link.ends side).entryAt stream)) [message] [] [] [] := {
    entry := by simp [Link.taken, Link.setEnd, Link.setChannel, touches.entry]
    others := fun other different => by
      simp [Link.taken, Link.setEnd, Link.setChannel, touches.others other different]
    peer := by simp [Link.taken, Link.setEnd, Link.setChannel]
    outbox := outbox
    peerOutbox := outbox_taken arrives state
    takenAbout := by simpa using about
    sentAbout := by simp
    written := (Link.extend_nil ..).symm
    readBytes := (Link.extend_nil ..).symm
    ended := fun _ _ => id }
  refine ⟨state, received,
    sound.simulated.acts acts (afterFrame_sender sends about) (afterFrame_receiver sends about), ?_⟩
  exact consistent.of_touches touches rfl (fun _ => List.Subset.refl _)
    (fun member => afterFrame_alive (consistent.held side stream member).2)
    outbox (outbox_taken arrives state) (by simpa using sends) (by simp)

/-- A ping or a pong. -/
theorem deliver_heartbeat (sound : Sound link)
    (arrives : link.channel side.peer = message :: messages)
    (sends : side.peer.Sends (link.ends side).highest message) (about : message.stream? = none) :
    ∃ state, (link.ends side).receive side message = .ok (state, none) ∧
      Sound (link.taken side state messages) := by
  have consistent := sound.consistent
  -- A state that only queues frames which show on no lane.
  have keeps {sent : List StreamMessage} {state : State}
      (touches : Touches 0 ((link.ends side).entryAt 0) sent (link.ends side) state)
      (hidden : ∀ other ∈ sent, other.stream? = none ∧ side.Sends (link.ends side).highest other) :
      Sound (link.taken side state messages) := by
    have own : (link.taken side state messages).ends side = state := by
      simp [Link.taken, Link.setEnd, Link.setChannel]
    have peer : (link.taken side state messages).ends side.peer = link.ends side.peer := by
      simp [Link.taken, Link.setEnd, Link.setChannel]
    have outbox : (link.taken side state messages).outbox side = link.outbox side ++ sent := by
      simp [Link.outbox, Link.taken, Link.setEnd, Link.setChannel, touches.control]
    have items (other : StreamMessage) (plain : other.stream? = none) (stream : ℕ) :
        other.item? stream = none ∧ other.return? stream = none := by
      cases other <;> simp_all [StreamMessage.stream?, StreamMessage.item?, StreamMessage.return?]
    have entryAt : state.entryAt = (link.ends side).entryAt := by
      funext stream
      by_cases same : stream = 0
      · rw [same, touches.entry]
      · exact touches.others stream same
    refine ⟨sound.simulated.of_same ?_ ?_ ?_ rfl rfl (fun _ _ => id), ?_⟩
    · intro anySide
      by_cases same : anySide = side
      · rw [same, own, entryAt]
      · rw [Side.eq_peer_of_ne same, peer]
    · intro anySide stream
      by_cases same : anySide = side
      · have none : sent.filterMap (StreamMessage.item? stream) = [] :=
          List.filterMap_eq_nil_iff.mpr fun other member => (items other (hidden other member).1 _).1
        rw [same, outbox, List.filterMap_append, none, List.append_nil]
      · rw [Side.eq_peer_of_ne same, outbox_taken arrives state, List.filterMap_append]
        simp [(items message about stream).1]
    · intro anySide stream
      by_cases same : anySide = side
      · have none : sent.filterMap (StreamMessage.return? stream) = [] :=
          List.filterMap_eq_nil_iff.mpr fun other member => (items other (hidden other member).1 _).2
        rw [same, outbox, List.filterMap_append, none, List.append_nil]
      · rw [Side.eq_peer_of_ne same, outbox_taken arrives state, List.filterMap_append]
        simp [(items message about stream).2]
    · exact consistent.of_touches touches rfl (fun _ => List.Subset.refl _)
        (fun member => (consistent.held side 0 member).2) outbox (outbox_taken arrives state)
        (by simpa using sends) (fun other member => (hidden other member).2)
  cases message with
  | ping =>
      have isServer : side = .server := by cases side <;> simp_all [Side.peer, Side.Sends]
      subst isServer
      exact ⟨_, rfl, keeps (.pushControl (consistent.keys _) .pong)
        (by simp [StreamMessage.stream?, Side.Sends])⟩
  | pong =>
      have isClient : side = .client := by cases side <;> simp_all [Side.peer, Side.Sends]
      subst isClient
      exact ⟨_, rfl, keeps (.refl (consistent.keys _)) (by simp)⟩
  | «open» | close | unknown => exact absurd sends id
  | opened | openFailed | data | credit | finish | reset => simp [StreamMessage.stream?] at about

/-- The Server counts the next Stream as opened: `state` is its new state, and `sent` what it
queued for the Client. -/
theorem consistent_of_open (sound : Sound link) {target : StreamTarget}
    (arrives : link.channel .client = .open stream target :: messages) {state : State}
    {sent : List StreamMessage} (ends : next.ends = Function.update link.ends .server state)
    (channel : next.channel = (link.taken .server state messages).channel)
    (keys : state.KeysOpened) (highest : state.highest = stream)
    (closed : state.closed = (link.ends .server).closed)
    (control : state.control = (link.ends .server).control ++ sent)
    (sends : ∀ other ∈ sent, Side.server.Sends stream other)
    (held : ∀ other ∈ next.handles .server,
      (0 < other ∧ other ≤ stream) ∧ Alive (state.entryAt other))
    (clientHandles : next.handles .client = link.handles .client) : Consistent next := by
  have consistent := sound.consistent
  have server : next.ends .server = state := by simp [ends]
  have client : next.ends .client = link.ends .client := by simp [ends]
  have outbox : next.outbox .server = link.outbox .server ++ sent := by
    simp [Link.outbox, server, channel, control, Link.taken, Link.setEnd, Link.setChannel, Side.peer]
  have arriving := consistent.toServer
  rw [show link.outbox .client = .open stream target :: next.outbox .client by
    simp [Link.outbox, client, channel, arrives, Link.taken, Link.setEnd, Link.setChannel,
      Side.peer]] at arriving
  have rest := arriving.2
  exact {
    running := fun side => by
      cases side with
      | client =>
          rw [client]
          exact consistent.running .client
      | server =>
          rw [server, closed]
          exact consistent.running .server
    keys := fun side => by
      cases side with
      | client =>
          rw [client]
          exact consistent.keys .client
      | server =>
          rw [server]
          exact keys
    held := fun side other member => by
      cases side with
      | client =>
          rw [client]
          exact consistent.held .client other (clientHandles ▸ member)
      | server =>
          rw [server, highest]
          exact held other member
    toServer := by
      rw [client, server, highest]
      exact rest
    toClient := by
      rw [client, outbox]
      intro other member
      rcases List.mem_append.mp member with earlier | new
      · exact consistent.toClient other earlier
      · exact (sends other new).mono rest.le }

/-- The next `Open` that arrives is for the next Stream. -/
theorem open_isNext (sound : Sound link) {target : StreamTarget}
    (arrives : link.channel .client = .open stream target :: messages) :
    stream = (link.ends .server).highest + 1 := by
  have arriving := sound.consistent.toServer
  rw [show link.outbox .client = .open stream target :: (messages ++ (link.ends .client).control) by
    simp [Link.outbox, arrives]] at arriving
  exact arriving.1

theorem deliver_open_declined (sound : Sound link) {target : StreamTarget}
    (arrives : link.channel .client =
      .open ((link.ends .server).highest + 1) target :: messages) (error : StreamError) :
    Sound (link.taken .server ((link.ends .server).declineNext error) messages) := by
  have consistent := sound.consistent
  have keys := consistent.keys .server
  have outbox : (link.taken .server ((link.ends .server).declineNext error) messages).outbox .server =
      link.outbox .server ++ [.openFailed ((link.ends .server).highest + 1) error ""] := by
    simp [Link.outbox, Link.taken, Link.setEnd, Link.setChannel, Side.peer, declineNext, pushControl]
  have acts : Acts link (link.taken .server ((link.ends .server).declineNext error) messages)
      .server ((link.ends .server).highest + 1) none
      [.open ((link.ends .server).highest + 1) target]
      [.openFailed ((link.ends .server).highest + 1) error ""] [] [] := {
    entry := by simp [Link.taken, Link.setEnd, Link.setChannel, entryAt_declineNext keys]
    others := fun other different => by
      simp [Link.taken, Link.setEnd, Link.setChannel, entryAt_declineNext_of_ne different]
    peer := by simp [Link.taken, Link.setEnd, Link.setChannel]
    outbox := outbox
    peerOutbox := outbox_taken (show link.channel Side.server.peer = _ from arrives) _
    takenAbout := by simp [StreamMessage.stream?]
    sentAbout := by simp [StreamMessage.stream?]
    written := (Link.extend_nil ..).symm
    readBytes := (Link.extend_nil ..).symm
    ended := fun _ _ => id }
  refine ⟨sound.simulated.acts acts (.decline (by simp [StreamMessage.item?]) rfl)
    (.decline (by simp [StreamMessage.return?]) rfl), ?_⟩
  refine sound.consistent_of_open arrives rfl rfl (keys.declineNext error) rfl rfl rfl
    (by simp [Side.Sends]) ?_ rfl
  intro other member
  rcases consistent.held .server other member with ⟨range, alive⟩
  rw [entryAt_declineNext_of_ne (by omega)]
  exact ⟨⟨range.1, Nat.le_succ_of_le range.2⟩, alive⟩

theorem deliver_open_accepted (sound : Sound link) {target : StreamTarget}
    (arrives : link.channel .client =
      .open ((link.ends .server).highest + 1) target :: messages) :
    Sound ((link.taken .server (link.ends .server).openNext messages).setHandles .server
      (((link.ends .server).highest + 1) :: link.handles .server)) := by
  have consistent := sound.consistent
  have keys := consistent.keys .server
  have sameServer : ((link.taken .server (link.ends .server).openNext messages).setHandles .server
      (((link.ends .server).highest + 1) :: link.handles .server)).outbox .server =
        link.outbox .server := by
    simp [Link.outbox, Link.taken, Link.setEnd, Link.setChannel, Link.setHandles, Side.peer, openNext]
  have peerOutbox : link.outbox .client = [.open ((link.ends .server).highest + 1) target] ++
      ((link.taken .server (link.ends .server).openNext messages).setHandles .server
        (((link.ends .server).highest + 1) :: link.handles .server)).outbox .client :=
    outbox_taken (show link.channel Side.server.peer = _ from arrives)
      (link.ends .server).openNext
  refine ⟨sound.simulated.of_same ?_ ?_ ?_ rfl rfl (fun _ _ => id), ?_⟩
  · intro side
    cases side with
    | client => rfl
    | server => exact entryAt_openNext
  · intro side stream
    cases side with
    | client => simp [peerOutbox, List.filterMap_cons, StreamMessage.item?]
    | server => rw [sameServer]
  · intro side stream
    cases side with
    | client => simp [peerOutbox, List.filterMap_cons, StreamMessage.return?]
    | server => rw [sameServer]
  · refine sound.consistent_of_open arrives rfl rfl keys.openNext rfl rfl (List.append_nil _).symm
      (by simp) ?_ rfl
    intro other member
    rw [entryAt_openNext]
    rcases List.mem_cons.mp (show other ∈ _ :: link.handles .server from member) with
      rfl | member
    · exact ⟨⟨Nat.succ_pos _, le_rfl⟩, Entry.new, by simp [entryAt], rfl⟩
    · rcases consistent.held .server other member with ⟨range, alive⟩
      exact ⟨⟨range.1, Nat.le_succ_of_le range.2⟩, alive⟩

/-- What an end does with the frame at the head of its channel. -/
theorem deliver_head (sound : Sound link) (arrives : link.channel side.peer = message :: messages) :
    ∃ state opened, (link.ends side).receive side message = .ok (state, opened) ∧
      message ≠ .close ∧
      Sound (match opened with
        | none => link.taken side state messages
        | some stream => (link.taken side state messages).setHandles side
            (stream :: link.handles side)) := by
  have consistent := sound.consistent
  -- A frame that is not an `Open`.
  have deliver (sends : side.peer.Sends (link.ends side).highest message) :
      ∃ state, (link.ends side).receive side message = .ok (state, none) ∧
        Sound (link.taken side state messages) := by
    cases about : message.stream? with
    | none => exact sound.deliver_heartbeat arrives sends about
    | some stream => exact sound.deliver_frame arrives sends about
  cases side with
  | client =>
      have sends : Side.server.Sends (link.ends .client).highest message :=
        consistent.toClient message (by simp [Link.outbox, show link.channel .server = _ from arrives])
      rcases deliver sends with ⟨state, received, next⟩
      refine ⟨state, none, received, ?_, next⟩
      rintro rfl
      exact sends
  | server =>
      have arriving := consistent.toServer
      rw [show link.outbox .client = message :: (messages ++ (link.ends .client).control) by
        simp [Link.outbox, show link.channel .client = _ from arrives]] at arriving
      cases message with
      | «open» stream target =>
          have isNext := sound.open_isNext arrives
          subst isNext
          rcases State.receiveOpen_cases (link.ends .server) target with
            ⟨error, received⟩ | received
          · exact ⟨_, none, received, by simp, sound.deliver_open_declined arrives error⟩
          · exact ⟨_, some _, received, by simp, sound.deliver_open_accepted arrives⟩
      | close => exact absurd arriving.1 id
      | _ =>
          rcases deliver arriving.1 with ⟨state, received, next⟩
          exact ⟨state, none, received, by simp, next⟩

theorem perform_deliver (sound : Sound link) : Sound (link.perform side .deliver) := by
  cases arrives : link.channel side.peer with
  | nil =>
      have performed : link.perform side .deliver = link := by simp [Link.perform, arrives]
      rw [performed]
      exact sound
  | cons message messages =>
      rcases sound.deliver_head arrives with ⟨state, opened, received, notClose, next⟩
      have read : (link.ends side).readMessage side message = (state, opened) := by
        simp [State.readMessage, notClose, received]
      cases opened with
      | none =>
          have performed : link.perform side .deliver = link.taken side state messages := by
            simp [Link.perform, arrives, read, Link.taken]
          rw [performed]
          exact next
      | some stream =>
          have performed : link.perform side .deliver =
              (link.taken side state messages).setHandles side (stream :: link.handles side) := by
            simp [Link.perform, arrives, read, Link.taken, Link.setEnd, Link.setChannel]
          rw [performed]
          exact next

end Deliver

/-- Every step keeps the invariant. -/
theorem perform (sound : Sound link) {action : Action} (allowed : link.Allowed side action) :
    Sound (link.perform side action) := by
  cases action with
  | «open» target =>
      have isClient : side = .client := allowed
      subst isClient
      exact sound.perform_open target
  | accept stream size =>
      rcases allowed with ⟨isServer, held⟩
      subst isServer
      exact sound.perform_accept held size
  | refuse stream error detail =>
      rcases allowed with ⟨isServer, held⟩
      subst isServer
      exact sound.perform_refuse held error detail
  | write stream rest => exact sound.perform_write allowed.1 rest
  | read stream => exact sound.perform_read allowed
  | finish stream => exact sound.perform_finish allowed
  | reset stream error detail => exact sound.perform_reset allowed error detail
  | drop stream => exact sound.perform_drop allowed
  | send => exact sound.perform_send
  | ping =>
      rcases allowed with ⟨isClient, _⟩
      subst isClient
      exact sound.perform_ping
  | deliver => exact sound.perform_deliver

theorem of_reachable (reached : streamSystem.Reachable link) : Sound link := by
  refine reached.invariant Sound ?_ ?_
  · intro link starts
    rw [show link = Link.initial from starts]
    exact initial
  · intro link label next sound steps
    rcases steps with ⟨allowed, rfl⟩
    exact sound.perform allowed

end Sound

end Condr.Streams
