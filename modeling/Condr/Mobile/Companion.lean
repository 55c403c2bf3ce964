import Condr.Foundation.Entries
import Condr.Foundation.Transition
import Condr.Mobile.Device

/-!
# The Companion

Every paired Device of a phone, behind one lock. A call of the app may take the lock several
times, and acts in between on what it saw; the thread of a connection attempt and the one that
applies a connection's messages take the lock once for each result and message. Every section
under the lock is one step, and the threads take theirs in any order.
-/

namespace Condr

/-- A call of the app that is in progress. -/
inductive CompanionCall where
  /-- `pair`, whose handshake is done. -/
  | pairing (address label : String)
  /-- `set_push`, which changed the flag. -/
  | pushing
  /-- The addresses that are still to be connected. -/
  | connecting (addresses : List String)
deriving DecidableEq

/-- The thread of a connection attempt, or of the connection it made. -/
structure Attempt where
  id : ℕ
  address : String
  generation : ℕ
  watched : Finset PaneId
deriving DecidableEq

/-- What happened, for the statements about runs. -/
inductive Happening where
  /-- An attempt was begun. -/
  | began (address : String) (attempt : ℕ)
  | forgotten (address : String)
  | disconnected (address : String)
  | suspended
deriving DecidableEq

structure Companion (C : ContentModel) where
  devices : List (String × Device C)
  /-- The Pane on screen. -/
  shown : Option (String × PaneId)
  shownSize : Option TerminalSize
  inactive : Bool
  suspended : Bool
  push : Bool
  calls : List CompanionCall
  /-- The threads of attempts that have not ended. -/
  attempts : List Attempt
  /-- The threads that apply the messages of a connection. -/
  pumps : List Attempt
  /-- The number of the next attempt. -/
  next : ℕ
  /-- Oldest first. -/
  history : List Happening

variable {C : ContentModel}

namespace Companion

/-- `Companion::new`, with the Devices the app knows. -/
def init (saved : List (String × String)) : Companion C where
  devices := saved.foldl
    (fun devices saved => Entries.insert (fun left right => left < right) saved.1
      (.init saved.2) devices) []
  shown := none
  shownSize := none
  inactive := false
  suspended := true
  push := false
  calls := []
  attempts := []
  pumps := []
  next := 0
  history := []

def device (state : Companion C) (address : String) : Option (Device C) :=
  Entries.get address state.devices

def adjust (state : Companion C) (address : String) (change : Device C → Device C) : Companion C :=
  { state with devices := Entries.adjust address change state.devices }

def note (state : Companion C) (happening : Happening) : Companion C :=
  { state with history := state.history ++ [happening] }

/-- The Pane on screen, where it is one of this Device. -/
def shownPane (state : Companion C) (address : String) : Option PaneId :=
  match state.shown with
  | some (shown, paneId) => if shown = address then some paneId else none
  | none => none

/-! ## Sections of calls -/

/-- What is left of a call once its section is over. -/
def proceed (state : Companion C) (index : ℕ) (addresses : List String) : Companion C :=
  { state with
    calls := if addresses.isEmpty then state.calls.eraseIdx index
      else state.calls.set index (.connecting addresses) }

/-- The section of `pair` behind the handshake. -/
def insertDevice (state : Companion C) (index : ℕ) (address label : String) : Companion C :=
  { state with
    devices := Entries.insert (fun left right => left < right) address (.init label)
      state.devices }.proceed index (if state.suspended then [] else [address])

def forget (state : Companion C) (address : String) : Companion C :=
  { state with
    devices := Entries.erase address state.devices
    shown := (state.shown.filter fun shown => shown.1 ≠ address) }.note (.forgotten address)

def isEngaged : DeviceStatus → Bool
  | .connected | .connecting => true
  | _ => false

def addressesWhere (state : Companion C) (wanted : DeviceStatus → Bool) : List String :=
  (state.devices.filter fun entry => wanted entry.2.status).map (·.1)

def resume (state : Companion C) : Companion C :=
  let addresses := state.addressesWhere fun status => !isEngaged status
  { state with
    suspended := false
    calls := if addresses.isEmpty then state.calls
      else state.calls ++ [.connecting addresses] }

def suspend (state : Companion C) : Companion C :=
  { state with
    suspended := true
    devices := Entries.mapValues
      (fun device : Device C => { device.disconnect with status := .suspended })
      state.devices }.note .suspended

/-- The section of `set_push` behind the change of the flag. -/
def pushSection (state : Companion C) (index : ℕ) : Companion C :=
  state.proceed index (state.addressesWhere isEngaged)

/-- The Pane that was on screen gives its focus back, unless it stays. -/
def leavePane (state : Companion C) (next : Option (String × PaneId)) : Companion C :=
  match state.shown with
  | none => state
  | some (address, paneId) =>
      if next = some (address, paneId) then state
      else state.adjust address fun device => (device.terminal paneId (.focus false)).watch ∅

def showPane (state : Companion C) (address : Option String) (pane : PaneId)
    (rows columns : UInt16) : Companion C :=
  let next := address.map fun address => (address, pane)
  let size : Option TerminalSize :=
    if 0 < rows ∧ 0 < columns then
      some { rows, columns, cellWidth := 0, cellHeight := 0 }
    else none
  let measured := if state.shown ≠ next then none else state.shownSize
  let left := { state with shownSize := size.or measured }.leavePane next
  let taken := match next with
    | none => left
    | some (address, paneId) => left.adjust address fun device =>
        let device := device.watch {paneId}
        let device := if left.inactive then device else device.takeTerminal paneId left.shownSize
        { device with model := device.model.markSeen paneId }
  { taken with shown := next }

def setActive (state : Companion C) (active : Bool) : Companion C :=
  if state.inactive ≠ active then state
  else
    let state := { state with inactive := !active }
    match state.shown with
    | none => state
    | some (address, paneId) => state.adjust address fun device =>
        if active then device.takeTerminal paneId state.shownSize
        else device.terminal paneId (.focus false)

/-- The section of `connect`, for an address that names an endpoint or not. A thread that cannot
be started leaves the Device connecting. -/
def connect (state : Companion C) (address : String) (endpoint : Except String Unit)
    (spawns : Bool) : Companion C :=
  match state.device address with
  | none => state
  | some device =>
      let ended := (state.adjust address Device.disconnect).note (.disconnected address)
      match endpoint with
      | .error reason =>
          ended.adjust address fun device => { device with status := .failed reason }
      | .ok () =>
          let watched := (state.shownPane address).elim ∅ fun paneId => {paneId}
          let attempt : Attempt := {
            id := state.next
            address
            generation := device.disconnect.generation
            watched }
          let begun := (ended.adjust address fun device =>
            { device with
              status := .connecting
              model := device.model.watchTerminals watched }).note (.began address state.next)
          { begun with
            next := state.next + 1
            attempts := if spawns then state.attempts ++ [attempt] else state.attempts }

/-! ## Sections of connection threads -/

/-- The Pane to take again, if the app is active. -/
def reclaim (state : Companion C) (address : String) : Option (PaneId × Option TerminalSize) :=
  if state.inactive then none
  else (state.shownPane address).map fun paneId => (paneId, state.shownSize)

/-- `connected`, by the thread of an attempt, which ends with it. A connection that starts is
pumped, unless that thread cannot be started. -/
def connected (state : Companion C) (attempt : Attempt) (result : ConnectResult C)
    (spawns : Bool) : Companion C :=
  let ended := { state with attempts := state.attempts.erase attempt }
  match state.device attempt.address with
  | none => ended
  | some device =>
      if device.generation ≠ attempt.generation then ended
      else
        let started := match (device.start result).2 with
          | .ok () => spawns
          | .error _ => false
        { ended.adjust attempt.address fun device =>
            device.connected attempt.id attempt.watched (state.reclaim attempt.address) result with
          pumps := if started then state.pumps ++ [attempt] else state.pumps }

/-- Whether a message ends the connection. -/
def ends (device : Device C) : Incoming C → Bool
  | .bootstrap bootstrap =>
      match device.model.applyBootstrap bootstrap with
      | .error _ => true
      | .ok _ => false
  | .disconnected _ => true
  | .message .serverStopping => true
  | _ => false

/-- `apply`, by the thread that pumps an attempt's connection. -/
def apply (state : Companion C) (pump : Attempt) (message : Incoming C) : Companion C :=
  match state.device pump.address with
  | none => state
  | some device =>
      if device.generation ≠ pump.generation then state
      else
        let applied := state.adjust pump.address fun device =>
          device.apply (state.shownPane pump.address) message
        if ends device message then applied.note (.disconnected pump.address) else applied

end Companion

/-! ## Steps -/

inductive CompanionAction (C : ContentModel) where
  /-- A `pair` whose handshake succeeded. -/
  | pair (address label : String)
  | forget (address : String)
  | resume
  | suspend
  | setPush (push : Bool)
  | showPane (address : Option String) (pane : PaneId) (rows columns : UInt16)
  | setActive (active : Bool)
  /-- The next section of a call. For a connect: what the address names, and whether the thread
  starts. -/
  | proceed (index : ℕ) (endpoint : Except String Unit) (spawns : Bool)
  /-- The thread of an attempt ends with its result. -/
  | finish (attempt : Attempt) (result : ConnectResult C) (spawns : Bool)
  | apply (pump : Attempt) (message : Incoming C)
  /-- The thread of a connection ends. -/
  | close (pump : Attempt)

namespace Companion

/-- The state after an action, where it can be taken. -/
def perform (state : Companion C) : CompanionAction C → Option (Companion C)
  | .pair address label => some { state with calls := state.calls ++ [.pairing address label] }
  | .forget address => some (state.forget address)
  | .resume => some state.resume
  | .suspend => some state.suspend
  | .setPush push =>
      if state.push = push then some state
      else some { state with push, calls := state.calls ++ [.pushing] }
  | .showPane address pane rows columns => some (state.showPane address pane rows columns)
  | .setActive active => some (state.setActive active)
  | .proceed index endpoint spawns =>
      match state.calls[index]? with
      | none => none
      | some (.pairing address label) => some (state.insertDevice index address label)
      | some .pushing => some (state.pushSection index)
      | some (.connecting []) => some (state.proceed index [])
      | some (.connecting (address :: rest)) =>
          some ((state.connect address endpoint spawns).proceed index rest)
  | .finish attempt result spawns =>
      if attempt ∈ state.attempts then some (state.connected attempt result spawns) else none
  | .apply pump message => if pump ∈ state.pumps then some (state.apply pump message) else none
  | .close pump =>
      if pump ∈ state.pumps then some { state with pumps := state.pumps.erase pump } else none

end Companion

def companionSystem (C : ContentModel) :
    Transition.System (Companion C) (CompanionAction C) where
  initial state := ∃ saved, state = .init saved
  step state action next := state.perform action = some next

end Condr
