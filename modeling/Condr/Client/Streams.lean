import Mathlib.Data.List.AList
import Condr.Session.Basic

/-!
# The Stream engine

One end of a Stream connection: the entries of its Streams, the frames that wait
to be sent, the operations a handle offers, the writer's choice of the next frame
and what a frame from the peer does. Both ends run this engine. A blocking
operation is modelled by one round of its loop: it answers, or it is blocked and
leaves the state alone. Counters and Stream numbers are unbounded here.
-/

namespace Condr.Streams

/-- How many bytes one direction of a Stream may carry ahead of its reader. -/
def streamWindow : ℕ := 1024 * 1024

def maxStreams : ℕ := 64

def maxStreamChunk : ℕ := 32 * 1024

inductive Side where
  | client
  | server
  deriving DecidableEq

def Side.peer : Side → Side
  | client => server
  | server => client

@[simp]
theorem Side.peer_peer (side : Side) : side.peer.peer = side := by
  cases side <;> rfl

@[simp]
theorem Side.peer_ne (side : Side) : side.peer ≠ side := by
  cases side <;> simp [Side.peer]

@[simp]
theorem Side.ne_peer (side : Side) : side ≠ side.peer :=
  side.peer_ne.symm

def Side.name : Side → String
  | client => "Client"
  | server => "Server"

theorem Side.eq_peer_of_ne {side other : Side} (different : side ≠ other) : side = other.peer := by
  cases side <;> cases other <;> simp_all [Side.peer]

inductive StreamError where
  | connectionRefused
  | notFound
  | alreadyExists
  | notAFile
  | invalidPath
  | invalidPort
  | workspaceGone
  | tooManyStreams
  | io
  | unsupported
  | cancelled
  | other
  deriving DecidableEq

/-- A file inside a Workspace's Root Directory. -/
structure StreamFile where
  workspace : WorkspaceId
  path : RelativePathBuf
  deriving DecidableEq

inductive StreamTarget where
  | forward (port : ℕ)
  | download (file : StreamFile)
  | upload (file : StreamFile) (replaceExisting : Bool)
  /-- A target from a newer Client. -/
  | unknown
  deriving DecidableEq

/-- One frame of the Stream connection, in either direction. -/
inductive StreamMessage where
  | open (stream : ℕ) (target : StreamTarget)
  | opened (stream : ℕ) (size : Option ℕ)
  | openFailed (stream : ℕ) (error : StreamError) (detail : String)
  | data (stream : ℕ) (data : List UInt8)
  | credit (stream : ℕ) (maxOffset : ℕ)
  | finish (stream : ℕ)
  | reset (stream : ℕ) (error : StreamError) (detail : String)
  | ping
  | pong
  | close
  /-- A member from a newer peer. -/
  | unknown
  deriving DecidableEq

def StreamMessage.kind : StreamMessage → String
  | .open .. => "Open"
  | .opened .. => "Opened"
  | .openFailed .. => "OpenFailed"
  | .data .. => "Data"
  | .credit .. => "Credit"
  | .finish .. => "Finish"
  | .reset .. => "Reset"
  | .ping => "Ping"
  | .pong => "Pong"
  | .close => "Close"
  | .unknown => "Unknown"

/-- Why a Stream operation did not happen. -/
structure StreamFailure where
  error : StreamError
  detail : String
  deriving DecidableEq

inductive Outgoing where
  | data (data : List UInt8)
  | finish
  deriving DecidableEq

structure Entry where
  /-- The peer's credit: this Stream's bytes may be sent up to here. -/
  limit : ℕ
  sent : ℕ
  outgoing : List Outgoing
  queued : Bool
  finishQueued : Bool
  inbound : List (List UInt8)
  received : ℕ
  consumed : ℕ
  /-- The credit this end last gave the peer. -/
  announced : ℕ
  peerFinished : Bool
  /-- The Client's answer to `Open`: `some size` once opened. -/
  opened : Option (Option ℕ)
  failure : Option StreamFailure
  handleAlive : Bool
  deriving DecidableEq

namespace Entry

def new : Entry where
  limit := streamWindow
  sent := 0
  outgoing := []
  queued := false
  finishQueued := false
  inbound := []
  received := 0
  consumed := 0
  announced := streamWindow
  peerFinished := false
  opened := none
  failure := none
  handleAlive := true

/-- Nothing more can happen on this Stream once its handle is gone and its last queued
frame left. -/
def finished (entry : Entry) : Bool :=
  !entry.handleAlive && entry.outgoing.isEmpty

/-- The Stream ended: what it had queued is dropped, and the first failure stays. -/
def fail (entry : Entry) (failure : StreamFailure) : Entry :=
  { entry with outgoing := [], failure := some (entry.failure.getD failure) }

end Entry

structure State where
  streams : AList (fun _ : ℕ => Entry)
  /-- The highest Stream number opened on this connection. -/
  highest : ℕ
  /-- Frames that do not wait for credit, sent before any data. -/
  control : List StreamMessage
  /-- Streams with queued items, taken in turn. -/
  ready : List ℕ
  closed : Option String

/-- What one round of `write` did with the bytes it had left. -/
inductive WriteResult where
  | failed (failure : StreamFailure)
  | blocked
  | took (take : ℕ)
  /-- A live handle without its entry, where the code panics. -/
  | missing
  deriving DecidableEq

inductive ReadResult where
  | chunk (data : List UInt8)
  /-- The peer finished its direction. -/
  | finished
  | failed (failure : StreamFailure)
  | blocked
  /-- A live handle without its entry, where the code panics. -/
  | missing
  deriving DecidableEq

namespace State

def initial : State where
  streams := ∅
  highest := 0
  control := []
  ready := []
  closed := none

def get (state : State) (stream : ℕ) : Option Entry :=
  state.streams.lookup stream

def put (state : State) (stream : ℕ) (entry : Entry) : State :=
  { state with streams := state.streams.insert stream entry }

def remove (state : State) (stream : ℕ) : State :=
  { state with streams := state.streams.erase stream }

def pushControl (state : State) (message : StreamMessage) : State :=
  { state with control := state.control ++ [message] }

/-- `Shared::close`; the first reason stays. -/
def close (state : State) (reason : String) : State :=
  { state with closed := some (state.closed.getD reason) }

def failure (state : State) (stream : ℕ) : Option StreamFailure :=
  match state.closed with
  | some reason => some ⟨.other, reason⟩
  | none => (state.get stream).bind Entry.failure

def removeIfFinished (state : State) (stream : ℕ) : State :=
  match state.get stream with
  | some entry => if entry.finished then state.remove stream else state
  | none => state

/-- Queues an item and lines the Stream up unless it already is. -/
def pushOutgoing (state : State) (stream : ℕ) (entry : Entry) (item : Outgoing) : State :=
  let lined := state.put stream { entry with
    outgoing := entry.outgoing ++ [item]
    queued := true }
  if entry.queued then lined else { lined with ready := state.ready ++ [stream] }

/-! ## The operations of a handle -/

/-- Opens a Stream. The Client may write at once, within the initial window. -/
def «open» (state : State) (target : StreamTarget) : Except StreamFailure ℕ × State :=
  match state.closed with
  | some reason => (.error ⟨.other, reason⟩, state)
  | none =>
      if maxStreams ≤ state.streams.entries.length then
        (.error ⟨.tooManyStreams, ""⟩, state)
      else
        let stream := state.highest + 1
        (.ok stream,
          ({ state with highest := stream }.put stream Entry.new).pushControl (.open stream target))

/-- The Server answers `Open` with success. -/
def accept (state : State) (stream : ℕ) (size : Option ℕ) : State :=
  if state.closed.isSome then state else state.pushControl (.opened stream size)

/-- The Server answers `Open` with a failure; the Stream ends. -/
def refuse (state : State) (stream : ℕ) (error : StreamError) (detail : String) : State :=
  if state.closed.isSome then state
  else
    let state := state.pushControl (.openFailed stream error detail)
    match state.get stream with
    | none => state
    | some entry => state.put stream { entry with outgoing := [], failure := some ⟨error, detail⟩ }

/-- One round of `write` for the bytes `rest`, which are not empty. -/
def write (state : State) (stream : ℕ) (rest : List UInt8) : WriteResult × State :=
  match state.failure stream with
  | some failure => (.failed failure, state)
  | none =>
      match state.get stream with
      | none => (.missing, state)
      | some entry =>
          if entry.finishQueued then (.failed ⟨.other, "written after finish"⟩, state)
          else
            let available := entry.limit - entry.sent
            if available = 0 then (.blocked, state)
            else
              let take := min (min rest.length maxStreamChunk) available
              (.took take,
                state.pushOutgoing stream { entry with sent := entry.sent + take }
                  (.data (rest.take take)))

/-- One round of `read`: the next bytes from the peer. -/
def read (state : State) (stream : ℕ) : ReadResult × State :=
  match state.get stream with
  | none => (.missing, state)
  | some entry =>
      match entry.inbound with
      | chunk :: inbound =>
          let entry := { entry with inbound, consumed := entry.consumed + chunk.length }
          -- Credit returns once a quarter window was consumed.
          if !entry.peerFinished
              && decide (entry.announced + streamWindow / 4 ≤ entry.consumed + streamWindow) then
            let announced := entry.consumed + streamWindow
            (.chunk chunk,
              (state.put stream { entry with announced }).pushControl (.credit stream announced))
          else (.chunk chunk, state.put stream entry)
      | [] =>
          if entry.peerFinished then (.finished, state)
          else
            match state.failure stream with
            | some failure => (.failed failure, state)
            | none => (.blocked, state)

/-- Ends this direction once the data written before it is sent. -/
def finish (state : State) (stream : ℕ) : State :=
  match state.get stream with
  | none => state
  | some entry =>
      if entry.finishQueued || entry.failure.isSome then state
      else state.pushOutgoing stream { entry with finishQueued := true } .finish

/-- `reset_entry`: ends both directions at once, and tells the peer. -/
def reset (state : State) (stream : ℕ) (error : StreamError) (detail : String) : State :=
  match state.get stream with
  | none => state
  | some entry =>
      if entry.failure.isSome then state
      else
        let state := state.put stream { entry with
          outgoing := []
          failure := some ⟨error, detail⟩ }
        if state.closed.isNone then state.pushControl (.reset stream error detail) else state

/-- Dropping the handle before both directions finished resets the Stream. -/
def drop (state : State) (stream : ℕ) : State :=
  match state.get stream with
  | none => state
  | some entry =>
      let complete := entry.finishQueued && entry.peerFinished
      let state :=
        if !complete && entry.failure.isNone then state.reset stream .cancelled "" else state
      let state :=
        match state.get stream with
        | none => state
        | some entry => state.put stream { entry with handleAlive := false, inbound := [] }
      state.removeIfFinished stream

/-! ## The writer -/

def message (stream : ℕ) : Outgoing → StreamMessage
  | .data data => .data stream data
  | .finish => .finish stream

/-- One item from the next ready Stream, which goes to the back of the line if it has more.
`ready` is what is left of the line. -/
def nextDataFrom (state : State) : List ℕ → Option StreamMessage × State
  | [] => (none, { state with ready := [] })
  | stream :: ready =>
      match state.get stream with
      | none => nextDataFrom state ready
      | some entry =>
          match entry.outgoing with
          | [] => nextDataFrom (state.put stream { entry with queued := false }) ready
          | item :: outgoing =>
              let state := state.put stream { entry with
                outgoing
                queued := !outgoing.isEmpty && entry.queued }
              let state :=
                { state with ready := if outgoing.isEmpty then ready else ready ++ [stream] }
              (some (message stream item), state.removeIfFinished stream)

def nextData (state : State) : Option StreamMessage × State :=
  state.nextDataFrom state.ready

/-- The writer's choice: control frames first, then data. -/
def nextMessage (state : State) : Option StreamMessage × State :=
  match state.control with
  | message :: control => (some message, { state with control })
  | [] => state.nextData

/-! ## The reader -/

/-- The entry for a Stream, `none` for a Stream that closed, an error for one never opened. -/
def liveEntry (state : State) (stream : ℕ) : Except String (Option Entry) :=
  if state.highest < stream ∨ stream = 0 then .error s!"stream {stream} was never opened"
  else .ok (state.get stream)

/-- Applies an update to a live entry; a frame for a Stream that closed is ignored. -/
def onLive (state : State) (stream : ℕ) (update : Entry → Except String State) :
    Except String State :=
  match state.liveEntry stream with
  | .error reason => .error reason
  | .ok none => .ok state
  | .ok (some entry) => update entry

/-- `Open` from the Client. The second component is the handle `on_open` gets. -/
def receiveOpen (state : State) (stream : ℕ) (target : StreamTarget) :
    Except String (State × Option ℕ) :=
  if stream ≤ state.highest then .error s!"stream {stream} was opened before"
  else
    let state := { state with highest := stream }
    let refusal :=
      if target = .unknown then some StreamError.unsupported
      else if maxStreams ≤ state.streams.entries.length then some StreamError.tooManyStreams
      else none
    match refusal with
    | some error => .ok (state.pushControl (.openFailed stream error ""), none)
    | none => .ok (state.put stream Entry.new, some stream)

/-- `Data` from the peer. -/
def receiveData (state : State) (stream : ℕ) (data : List UInt8) : Except String State :=
  state.onLive stream fun entry =>
    if entry.failure.isSome || entry.peerFinished then .ok state
    else if entry.announced < entry.received + data.length then
      .error s!"stream {stream} sent beyond its credit"
    else
      .ok (state.put stream { entry with
        received := entry.received + data.length
        inbound := if entry.handleAlive then entry.inbound ++ [data] else entry.inbound })

/-- `Reset` from the peer, or `OpenFailed` from the Server. -/
def receiveFailure (state : State) (stream : ℕ) (failure : StreamFailure) : Except String State :=
  state.onLive stream fun entry =>
    .ok ((state.put stream (entry.fail failure)).removeIfFinished stream)

/-- Applies one frame from the peer, and names the handle a new Stream comes with. An error is a
protocol violation. -/
def receive (side : Side) (message : StreamMessage) (state : State) :
    Except String (State × Option ℕ) :=
  match side, message with
  | _, .unknown => .ok (state, none)
  | .client, .pong => .ok (state, none)
  | .server, .ping => .ok (state.pushControl .pong, none)
  | .server, .open stream target => state.receiveOpen stream target
  | .client, .opened stream size =>
      (state.onLive stream fun entry =>
        .ok (state.put stream { entry with opened := some size })).map (·, none)
  | .client, .openFailed stream error detail =>
      (state.receiveFailure stream ⟨error, detail⟩).map (·, none)
  | _, .data stream data => (state.receiveData stream data).map (·, none)
  | _, .credit stream maxOffset =>
      (state.onLive stream fun entry =>
        .ok (state.put stream { entry with limit := max entry.limit maxOffset })).map (·, none)
  | _, .finish stream =>
      (state.onLive stream fun entry =>
        .ok (state.put stream { entry with peerFinished := true })).map (·, none)
  | _, .reset stream error detail =>
      (state.receiveFailure stream ⟨error, detail⟩).map (·, none)
  | side, message =>
      .error (side.name ++ " received " ++ message.kind)

/-- One round of the read loop. -/
def readMessage (side : Side) (message : StreamMessage) (state : State) : State × Option ℕ :=
  if message = .close then (state.close "the device closed the connection", none)
  else
    match state.receive side message with
    | .ok received => received
    | .error reason => (state.close ("protocol error: " ++ reason), none)

end State

end Condr.Streams
