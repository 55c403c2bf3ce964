import Condr.Foundation.Runs
import Mathlib.Logic.Function.Basic

/-!
# The Stream connection of one Device

A `StreamLink` holds one connection while forwards need it and the terminal connection is
up. The first `retain` dials on its caller's thread while others wait for the outcome; a
worker watches the connection and dials again after a loss. Dials run without the lock.
Every lock section of a caller and of the worker is one step.
-/

namespace Condr.Forward

/-- Milliseconds. -/
abbrev Duration := ℕ

def retryFirst : Duration := 2000
def retryLongest : Duration := 30000

inductive LinkStatus where
  | idle
  | connected
  | reconnecting (reason : String)
  | refused (reason : String)
deriving DecidableEq

/-- Why a dial failed, as `describe` puts it, and whether the Server refused it. -/
structure DialError where
  refused : Bool
  text : String
deriving DecidableEq

/-- A connection, told from others by the order it was dialled in (`Arc::ptr_eq`). -/
abbrev Connection := ℕ

structure LinkState where
  users : ℕ
  terminalUp : Bool
  connection : Option Connection
  status : LinkStatus
  worker : Bool
  /-- A `retain` is dialling; the others wait for its result. -/
  dialing : Bool
  dials : ℕ
  dialError : Option String
  nudge : ℕ
deriving DecidableEq

/-- Where the worker is in `keep`. -/
inductive Keeper where
  /-- About to lock the state at the head of its loop. -/
  | looking (backoff : Duration) (immediate : Bool)
  /-- In the condition variable, having seen `nudge`. -/
  | asleep (nudge : ℕ) (notified : Bool) (backoff : Duration) (immediate : Bool)
  /-- In `wait_closed`. -/
  | watching (connection : Connection)
  | lost (connection : Connection) (reason : String)
  | aboutToWait (backoff : Duration)
  | backingOff (nudge : ℕ) (backoff : Duration)
  | dialing (backoff : Duration)
deriving DecidableEq

/-- Where a caller of `retain` is. -/
inductive Caller where
  | idle
  /-- Waiting for the dial of another one, which was number `dials`. -/
  | waiting (dials : ℕ)
  | dialing
deriving DecidableEq

/-- A link, its worker's thread and the callers inside `retain`. `ended` says why a
connection ended, and `granted` counts the users that `retain` told it added. -/
structure Link where
  state : LinkState
  keeper : Option Keeper
  callers : ℕ → Caller
  connections : ℕ
  ended : Connection → Option String
  granted : ℕ

namespace Link

/-- `StreamLink::new`. -/
def new : Link where
  state :=
    { users := 0, terminalUp := true, connection := none, status := .idle, worker := false,
      dialing := false, dials := 0, dialError := none, nudge := 0 }
  keeper := none
  callers _ := .idle
  connections := 0
  ended _ := none
  granted := 0

/-- `notify_all`, as far as the worker hears it. -/
def notifyAll (link : Link) : Link :=
  match link.keeper with
  | some (.asleep nudge _ backoff immediate) =>
      { link with keeper := some (.asleep nudge true backoff immediate) }
  | _ => link

def close (link : Link) (connection : Connection) : Link :=
  { link with
    ended := Function.update link.ended connection
      (some ((link.ended connection).getD "closed")) }

/-- `state.connection.take()`, closed. -/
def takeConnection (link : Link) : Link :=
  match link.state.connection with
  | some connection =>
      { link.close connection with state := { link.state with connection := none } }
  | none => link

def setCaller (link : Link) (caller : ℕ) (place : Caller) : Link :=
  { link with callers := Function.update link.callers caller place }

/-- The rest of the lock section of `retain` once nobody dials. -/
def retainLocked (link : Link) (caller : ℕ) : Link :=
  if 0 < link.state.users && link.state.connection.isSome then
    { link with
      state := { link.state with users := link.state.users + 1 }
      callers := Function.update link.callers caller .idle
      granted := link.granted + 1 }
  else if 0 < link.state.users then
    -- Reconnecting or refused: forwarding again is the person asking anew.
    notifyAll { link with
      state := { link.state with
        users := link.state.users + 1
        status := .reconnecting "connecting"
        nudge := link.state.nudge + 1 }
      callers := Function.update link.callers caller .idle
      granted := link.granted + 1 }
  else
    { link with
      state := { link.state with dialing := true }
      callers := Function.update link.callers caller .dialing }

/-- `while state.dialing`, up to its wait. -/
def retainLoop (link : Link) (caller : ℕ) : Link :=
  if link.state.dialing then link.setCaller caller (.waiting link.state.dials)
  else link.retainLocked caller

/-- A caller enters `retain`. -/
def retain (link : Link) (caller : ℕ) : Link :=
  match link.callers caller with
  | .idle => link.retainLoop caller
  | _ => link

/-- A waiting caller looks again; it shares the failure of the dial it waited for. -/
def wake (link : Link) (caller : ℕ) : Link :=
  match link.callers caller with
  | .waiting dials =>
      if link.state.dials = dials then link
      else if link.state.users = 0 && link.state.dialError.isSome then
        link.setCaller caller .idle
      else link.retainLoop caller
  | _ => link

/-- The lock section of `retain` after its dial. `spawned` says whether the worker's thread
could be started, where one is. -/
def dialed (link : Link) (caller : ℕ) (result : Except DialError Unit) (spawned : Bool) : Link :=
  match link.callers caller with
  | .dialing =>
      let link := notifyAll { link with
        state := { link.state with
          dialing := false
          dials := link.state.dials + 1
          dialError := match result with
            | .ok () => none
            | .error error => some error.text }
        callers := Function.update link.callers caller .idle }
      match result with
      | .error _ => link
      | .ok () =>
          let starts := !link.state.worker
          { link with
            state := { link.state with
              users := link.state.users + 1
              connection := some link.connections
              status := .connected
              worker := true }
            connections := link.connections + 1
            keeper := if starts && spawned then some (.looking retryFirst false) else link.keeper
            granted := if starts && !spawned then link.granted else link.granted + 1 }
  | _ => link

/-- The connection is closed and the link idle, which the worker is told. -/
def idled (link : Link) : Link :=
  notifyAll { link.takeConnection with
    state := { link.takeConnection.state with status := .idle } }

/-- A forward or transfer ended; the last one closes the connection. -/
def release (link : Link) : Link :=
  let link := { link with
    state := { link.state with users := link.state.users - 1 }
    granted := link.granted - 1 }
  if link.state.users = 0 then link.idled else link

/-- The terminal connection was lost or came back with its Bootstrap. -/
def setTerminalConnected (link : Link) (up : Bool) : Link :=
  let link := { link with state := { link.state with terminalUp := up } }
  if up then notifyAll { link with state := { link.state with nudge := link.state.nudge + 1 } }
  else link.idled

/-- A connection is lost. -/
def lose (link : Link) (connection : Connection) (reason : String) : Link :=
  if connection < link.connections && (link.ended connection).isNone then
    { link with ended := Function.update link.ended connection (some reason) }
  else link

/-- The head of the worker's loop, under the lock. -/
def look (link : Link) (backoff : Duration) (immediate : Bool) : Link :=
  if link.state.users = 0 then
    { link with state := { link.state with worker := false }, keeper := none }
  else
    match link.state.connection, link.state.status with
    | some connection, _ => { link with keeper := some (.watching connection) }
    | none, .refused _ =>
        { link with keeper := some (.asleep link.state.nudge false backoff immediate) }
    | none, _ =>
        if link.state.terminalUp then
          { link with
            keeper := some (if immediate then .dialing backoff else .aboutToWait backoff) }
        else { link with keeper := some (.asleep link.state.nudge false backoff immediate) }

/-- The worker comes out of the condition variable. -/
def awake (link : Link) (nudge : ℕ) (backoff : Duration) (immediate : Bool) : Link :=
  if link.state.nudge = nudge then link.look backoff immediate
  else
    let status :=
      match link.state.status with
      | .refused reason =>
          if 0 < link.state.users then .reconnecting "connecting" else .refused reason
      | status => status
    { link with state := { link.state with status } }.look backoff true

/-- The lock section after `wait_closed`. -/
def connectionLost (link : Link) (connection : Connection) (reason : String) : Link :=
  let current := if link.state.connection = some connection then none else link.state.connection
  { link with
    state := { link.state with
      connection := current
      status := if 0 < link.state.users && link.state.terminalUp then .reconnecting reason
        else link.state.status }
    keeper := some (.looking retryFirst false) }

/-- The worker's wait ended, or its predicate did. -/
def backedOff (link : Link) (backoff : Duration) : Link :=
  { link with
    keeper := some (if link.state.users = 0 || !link.state.terminalUp then .looking backoff false
      else .dialing backoff) }

/-- What keeps the worker waiting between two dials. -/
def Waits (link : Link) (nudge : ℕ) : Prop :=
  link.state.nudge = nudge ∧ 0 < link.state.users ∧ link.state.terminalUp = true

instance (link : Link) (nudge : ℕ) : Decidable (link.Waits nudge) :=
  inferInstanceAs (Decidable (_ ∧ _))

/-- One step of the worker other than the end of a dial; `timedOut` ends its wait. -/
def keep (link : Link) (timedOut : Bool) : Link :=
  match link.keeper with
  | some (.looking backoff immediate) => link.look backoff immediate
  | some (.asleep nudge _ backoff immediate) => link.awake nudge backoff immediate
  | some (.watching connection) =>
      match link.ended connection with
      | some reason => { link with keeper := some (.lost connection reason) }
      | none => link
  | some (.lost connection reason) => link.connectionLost connection reason
  | some (.aboutToWait backoff) =>
      if link.Waits link.state.nudge then
        { link with keeper := some (.backingOff link.state.nudge backoff) }
      else link.backedOff backoff
  | some (.backingOff nudge backoff) =>
      if link.Waits nudge ∧ timedOut = false then link else link.backedOff backoff
  | some (.dialing _) | none => link

/-- The lock section of the worker after its dial. -/
def keeperDialed (link : Link) (result : Except DialError Unit) : Link :=
  match link.keeper with
  | some (.dialing backoff) =>
      match result with
      | .ok () =>
          let dialled := { link with connections := link.connections + 1 }
          -- A `retain` may have dialled meanwhile; keep the one in place.
          if link.state.users = 0 || !link.state.terminalUp || link.state.connection.isSome then
            { dialled.close link.connections with keeper := some (.looking backoff false) }
          else
            { dialled with
              state := { link.state with connection := some link.connections, status := .connected }
              keeper := some (.looking retryFirst false) }
      | .error error =>
          { link with
            state := { link.state with
              status := if error.refused then .refused error.text else .reconnecting error.text }
            keeper := some (.looking (min (backoff * 2) retryLongest) false) }
  | _ => link

end Link

inductive Action where
  | retain (caller : ℕ)
  | wake (caller : ℕ)
  | dialed (caller : ℕ) (result : Except DialError Unit) (spawned : Bool)
  | release
  | setTerminalConnected (up : Bool)
  | lose (connection : Connection) (reason : String)
  | keep (timedOut : Bool)
  | keeperDialed (result : Except DialError Unit)

/-- A step of any thread; one whose thread is elsewhere changes nothing. -/
def step (link : Link) : Action → Link
  | .retain caller => link.retain caller
  | .wake caller => link.wake caller
  | .dialed caller result spawned => link.dialed caller result spawned
  | .release => link.release
  | .setTerminalConnected up => link.setTerminalConnected up
  | .lose connection reason => link.lose connection reason
  | .keep timedOut => link.keep timedOut
  | .keeperDialed result => link.keeperDialed result

end Condr.Forward
