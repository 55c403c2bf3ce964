import Condr.Mobile.Companion

/-!
# What a step of the Companion does

A step changes what a Device is connected to in one of a few ways. Everything else it does
leaves the Devices as connected as they were.
-/

namespace Condr

variable {C : ContentModel}

/-! ## Devices -/

namespace Device

/-- As connected as before: only the model, what was asked of the Server and the messages that
wait for the writer may differ. -/
structure Alike (before after : Device C) : Prop where
  generation : after.generation = before.generation
  status : after.status = before.status
  io : after.io.isSome = before.io.isSome

theorem Alike.refl (device : Device C) : device.Alike device := ⟨rfl, rfl, rfl⟩

theorem Alike.trans {first second third : Device C} (front : first.Alike second)
    (back : second.Alike third) : first.Alike third :=
  ⟨back.generation.trans front.generation, back.status.trans front.status,
    back.io.trans front.io⟩

theorem alike_send (device : Device C) (message : ClientMessage) :
    device.Alike (device.send message) := by
  refine ⟨rfl, rfl, ?_⟩
  simp [send]

theorem Alike.send {device other : Device C} (alike : device.Alike other)
    (message : ClientMessage) : device.Alike (other.send message) :=
  alike.trans (alike_send other message)

theorem alike_terminal (device : Device C) (paneId : PaneId) (command : TerminalCommand) :
    device.Alike (device.terminal paneId command) := by
  unfold terminal
  split
  · exact alike_send device _
  · exact .refl device

theorem alike_takeTerminal (device : Device C) (paneId : PaneId) (size : Option TerminalSize) :
    device.Alike (device.takeTerminal paneId size) := by
  have focused := device.alike_terminal paneId (.focus true)
  cases size with
  | none => exact focused
  | some size => exact focused.trans (alike_terminal _ paneId (.resize size))

theorem alike_watch (device : Device C) (panes : Finset PaneId) :
    device.Alike (device.watch panes) := by
  unfold watch
  split_ifs
  · exact .refl device
  · refine Alike.send ?_ _
    exact ⟨rfl, rfl, rfl⟩

theorem alike_subscribe (device : Device C) : device.Alike device.subscribe := by
  unfold subscribe
  split_ifs
  · exact .refl device
  split
  · exact .refl device
  · exact ⟨rfl, rfl, (device.alike_send _).io⟩

theorem alike_requestSnapshot (device : Device C) : device.Alike device.requestSnapshot := by
  unfold requestSnapshot
  split_ifs
  · exact .refl device
  split
  · exact .refl device
  · exact ⟨rfl, rfl, (device.alike_send _).io⟩

theorem Alike.subscribe {device other : Device C} (alike : device.Alike other) :
    device.Alike other.subscribe :=
  alike.trans (alike_subscribe other)

theorem Alike.requestSnapshot {device other : Device C} (alike : device.Alike other) :
    device.Alike other.requestSnapshot :=
  alike.trans (alike_requestSnapshot other)

theorem alike_applyEvent (device : Device C) (shown : Option PaneId) (serverId : ServerId)
    (sessionId : SessionId) (sequence : ℕ) (event : C.Event) :
    device.Alike (device.applyEvent shown serverId sessionId sequence event) := by
  have resubscribes : device.Alike { device with subscription := .none }.requestSnapshot :=
    Alike.requestSnapshot ⟨rfl, rfl, rfl⟩
  unfold applyEvent
  split_ifs
  · exact .refl device
  · exact resubscribes
  · exact .refl device
  split
  · exact resubscribes
  · exact ⟨rfl, rfl, rfl⟩

theorem alike_resubscribe (device : Device C) (model : SessionModel C) (authorityChanged : Bool) :
    device.Alike
      (if authorityChanged then
        { { device with model, snapshotPending := false } with subscription := .none }.subscribe
      else { device with model, snapshotPending := false }.subscribe) := by
  split_ifs
  · exact Alike.subscribe ⟨rfl, rfl, rfl⟩
  · exact Alike.subscribe ⟨rfl, rfl, rfl⟩

/-- A Device that ended its connection: a later generation, and nothing engaged. -/
structure Ended (before after : Device C) : Prop where
  generation : after.generation = before.generation + 1
  idle : Companion.isEngaged after.status = false
  io : after.io = none

theorem ended_fail (device : Device C) (reason : String) : device.Ended (device.fail reason) :=
  ⟨rfl, rfl, rfl⟩

/-- A message either ends the connection, or leaves the Device as connected as it was. -/
theorem apply_effect (device : Device C) (shown : Option PaneId) (message : Incoming C) :
    if Companion.ends device message then device.Ended (device.apply shown message)
    else device.Alike (device.apply shown message) := by
  cases message with
  | bootstrap bootstrap =>
      simp only [Companion.ends, apply, applyBootstrap]
      cases device.model.applyBootstrap bootstrap with
      | error reason => exact device.ended_fail reason
      | ok applied => exact device.alike_resubscribe _ applied.2
  | visualReady taken =>
      cases taken with
      | none => exact .refl device
      | some taken =>
          simp only [Companion.ends, apply, Bool.false_eq_true, if_false]
          split_ifs
          · split
            · exact ⟨rfl, rfl, rfl⟩
            · exact device.alike_requestSnapshot
          · exact .refl device
  | terminalResync => exact device.alike_requestSnapshot
  | disconnected reason => exact device.ended_fail reason
  | message message =>
      cases message with
      | event serverId sessionId sequence event =>
          exact device.alike_applyEvent shown serverId sessionId sequence event
      | subscribed => exact ⟨rfl, rfl, rfl⟩
      | subscriptionRejected | snapshotRejected =>
          have asked : device.Alike
              { device with subscription := .none, snapshotPending := false }.requestSnapshot :=
            Alike.requestSnapshot ⟨rfl, rfl, rfl⟩
          exact asked
      | serverStopping => exact device.ended_fail _
      | unknown => exact device.alike_requestSnapshot
      | other => exact .refl device

theorem connected_error {device begun : Device C} {result : ConnectResult C}
    {failure : ConnectFailure} (attempt : ℕ) (watched : Finset PaneId)
    (reclaim : Option (PaneId × Option TerminalSize))
    (started : device.start result = (begun, .error failure)) :
    device.connected attempt watched reclaim result = { begun with status := failure.status } := by
  rw [connected, started]

/-- A connection that is made is told of the watched Panes where they have changed since, and
then subscribes and takes the Pane again. -/
theorem connected_ok {device begun : Device C} {result : ConnectResult C} (attempt : ℕ)
    (watched : Finset PaneId) (reclaim : Option (PaneId × Option TerminalSize))
    (started : device.start result = (begun, .ok ())) :
    ∃ told : Device C,
      (told = { begun with io := some ⟨attempt, []⟩, status := .connected } ∧
          (∀ panes, begun.model.watched = some panes → panes = watched) ∨
        ∃ panes, begun.model.watched = some panes ∧
          told = Device.send { begun with io := some ⟨attempt, []⟩, status := .connected }
            (.watchTerminals panes)) ∧
      (reclaim = none →
        device.connected attempt watched reclaim result = told.subscribe) ∧
      ∀ pane, reclaim = some pane →
        device.connected attempt watched reclaim result =
          told.subscribe.takeTerminal pane.1 pane.2 := by
  unfold connected
  rw [started]
  dsimp only
  cases held : begun.model.watched with
  | none =>
      refine ⟨_, .inl ⟨rfl, ?_⟩, ?_, ?_⟩
      · intro panes other
        cases other
      · rintro rfl
        rfl
      · rintro pane rfl
        rfl
  | some panes =>
      by_cases same : panes = watched
      · refine ⟨_, .inl ⟨rfl, ?_⟩, ?_, ?_⟩
        · intro others held
          cases held
          exact same
        · rintro rfl
          simp only [ne_eq, same, not_true_eq_false, if_false]
        · rintro pane rfl
          simp only [ne_eq, same, not_true_eq_false, if_false]
      · refine ⟨_, .inr ⟨panes, rfl, rfl⟩, ?_, ?_⟩
        · rintro rfl
          simp only [ne_eq, same, not_false_eq_true, if_true]
        · rintro pane rfl
          simp only [ne_eq, same, not_false_eq_true, if_true]

/-- The end of an attempt: the Device is connected, or not engaged with what it held. -/
theorem connected_effect (device : Device C) (attempt : ℕ) (watched : Finset PaneId)
    (reclaim : Option (PaneId × Option TerminalSize)) (result : ConnectResult C) :
    let after := device.connected attempt watched reclaim result
    after.generation = device.generation ∧
      match (device.start result).2 with
      | .ok () => after.status = .connected ∧ after.io.isSome
      | .error _ => Companion.isEngaged after.status = false ∧ after.io = device.io := by
  have kept : (device.start result).1.generation = device.generation ∧
      (device.start result).1.io = device.io := by
    unfold start
    split
    · exact ⟨rfl, rfl⟩
    split
    · exact ⟨rfl, rfl⟩
    split <;> exact ⟨rfl, rfl⟩
  rcases started : device.start result with ⟨begun, outcome⟩
  rw [started] at kept
  cases outcome with
  | error failure =>
      simp only [connected_error attempt watched reclaim started]
      refine ⟨kept.1, ?_, kept.2⟩
      simp only [ConnectFailure.status]
      split_ifs <;> rfl
  | ok done =>
      cases done
      let made : Device C := { begun with io := some ⟨attempt, []⟩, status := .connected }
      rcases connected_ok attempt watched reclaim started with ⟨told, watching, alone, taking⟩
      have watching : made.Alike told := by
        rcases watching with ⟨rfl, _⟩ | ⟨panes, _, rfl⟩
        · exact .refl made
        · exact alike_send made _
      -- whatever is sent then leaves the Device as connected
      have settled : made.Alike (device.connected attempt watched reclaim result) := by
        have subscribed := watching.trans (alike_subscribe told)
        cases reclaim with
        | none =>
            rw [alone rfl]
            exact subscribed
        | some pane =>
            rw [taking pane rfl]
            exact subscribed.trans (alike_takeTerminal _ pane.1 pane.2)
      exact ⟨settled.generation.trans kept.1, settled.status, by rw [settled.io]; rfl⟩

end Device

/-! ## The Companion -/

namespace Companion

/-- The threads that may still have a result or a message. -/
def threads (state : Companion C) : List Attempt :=
  state.attempts ++ state.pumps

theorem device_adjust (state : Companion C) (address other : String)
    (change : Device C → Device C) :
    (state.adjust address change).device other =
      if address = other then (state.device other).map change else state.device other :=
  Entries.get_adjust address other change state.devices

@[simp]
theorem device_note (state : Companion C) (happening : Happening) (address : String) :
    (state.note happening).device address = state.device address := rfl

/-- The next state's Device at one address; every other Device stays. -/
def Updates (state next : Companion C) (address : String) (value : Option (Device C)) : Prop :=
  ∀ other, next.device other = if address = other then value else state.device other

theorem updates_adjust {state : Companion C} {address : String} {device : Device C}
    (found : state.device address = some device) (change : Device C → Device C) :
    state.Updates (state.adjust address change) address (some (change device)) := by
  intro other
  rw [device_adjust]
  split_ifs with same
  · subst same
    rw [found, Option.map_some]
  · rfl

theorem updates_twice {state : Companion C} {address : String} {device : Device C}
    (found : state.device address = some device) (change : Device C → Device C) :
    state.Updates (((state.adjust address Device.disconnect).note (.disconnected address)).adjust
      address change) address (some (change device.disconnect)) := by
  intro other
  simp only [device_adjust, device_note]
  split_ifs with same
  · subst same
    simp [found]
  · rfl

/-- Devices that are as connected as before. -/
def Quiet (state next : Companion C) : Prop :=
  ∀ address after, next.device address = some after →
    ∃ before, state.device address = some before ∧ before.Alike after

theorem Quiet.of_eq {state next : Companion C}
    (same : ∀ address, next.device address = state.device address) : state.Quiet next :=
  fun address after found => ⟨after, (same address).symm.trans found, .refl after⟩

theorem Quiet.trans {first second third : Companion C} (front : first.Quiet second)
    (back : second.Quiet third) : first.Quiet third := by
  intro address after found
  rcases back address after found with ⟨between, betweenFound, backAlike⟩
  rcases front address between betweenFound with ⟨before, beforeFound, frontAlike⟩
  exact ⟨before, beforeFound, frontAlike.trans backAlike⟩

theorem quiet_adjust (state : Companion C) (address : String) {change : Device C → Device C}
    (alike : ∀ device : Device C, device.Alike (change device)) :
    state.Quiet (state.adjust address change) := by
  intro other after found
  rw [device_adjust] at found
  split_ifs at found
  · rcases Option.map_eq_some_iff.mp found with ⟨before, beforeFound, rfl⟩
    exact ⟨before, beforeFound, alike before⟩
  · exact ⟨after, found, .refl after⟩

/-- Nothing but Devices and calls differs. -/
structure Keeps (state next : Companion C) : Prop where
  attempts : next.attempts = state.attempts
  pumps : next.pumps = state.pumps
  number : next.next = state.next
  suspended : next.suspended = state.suspended

/-- What a step does to connections. -/
inductive Moves (state next : Companion C) : Prop where
  | quiet (devices : state.Quiet next) (attempts : next.attempts.Sublist state.attempts)
      (pumps : next.pumps.Sublist state.pumps) (number : next.next = state.next)
      (history : next.history = state.history)
      (suspended : next.suspended = true → state.suspended = true)
  | inserted (address label : String)
      (alone : ∀ thread ∈ state.threads, thread.address ≠ address)
      (devices : state.Updates next address (some (.init label))) (keeps : state.Keeps next)
      (history : next.history = state.history)
  | forgotten (address : String) (devices : state.Updates next address none)
      (keeps : state.Keeps next) (history : next.history = state.history ++ [.forgotten address])
  | suspended
      (devices : ∀ address after, next.device address = some after →
        ∃ before, state.device address = some before ∧ before.Ended after)
      (attempts : next.attempts = state.attempts) (pumps : next.pumps = state.pumps)
      (number : next.next = state.next) (history : next.history = state.history ++ [.suspended])
  | ended (address : String) (before after : Device C)
      (found : state.device address = some before) (ended : before.Ended after)
      (devices : state.Updates next address (some after)) (keeps : state.Keeps next)
      (history : next.history = state.history ++ [.disconnected address])
  | began (attempt : Attempt) (before after : Device C) (awake : state.suspended = false)
      (found : state.device attempt.address = some before)
      (later : attempt.generation = before.generation + 1)
      (generation : after.generation = attempt.generation) (status : after.status = .connecting)
      (io : after.io = none) (devices : state.Updates next attempt.address (some after))
      (attempts : next.attempts = state.attempts ++ [attempt] ∨ next.attempts = state.attempts)
      (pumps : next.pumps = state.pumps) (id : attempt.id = state.next)
      (number : next.next = state.next + 1) (asleep : next.suspended = false)
      (history : next.history =
        state.history ++ [.disconnected attempt.address] ++ [.began attempt.address attempt.id])
  | made (attempt : Attempt) (before after : Device C) (begun : attempt ∈ state.attempts)
      (found : state.device attempt.address = some before)
      (current : before.generation = attempt.generation)
      (generation : after.generation = before.generation) (status : after.status = .connected)
      (io : after.io.isSome) (devices : state.Updates next attempt.address (some after))
      (attempts : next.attempts = state.attempts.erase attempt)
      (pumps : next.pumps = state.pumps ++ [attempt] ∨ next.pumps = state.pumps)
      (number : next.next = state.next) (suspended : next.suspended = state.suspended)
      (history : next.history = state.history)
  | failed (attempt : Attempt) (before after : Device C) (begun : attempt ∈ state.attempts)
      (found : state.device attempt.address = some before)
      (current : before.generation = attempt.generation)
      (generation : after.generation = before.generation)
      (idle : isEngaged after.status = false) (io : after.io = before.io)
      (devices : state.Updates next attempt.address (some after))
      (attempts : next.attempts = state.attempts.erase attempt)
      (pumps : next.pumps = state.pumps) (number : next.next = state.next)
      (suspended : next.suspended = state.suspended) (history : next.history = state.history)

/-- The step is not one of those that the generations of a Device cannot tell apart, or that
connect a phone which was put away: `pair` puts a Device where no thread of another one with
its address is left, and a connection is only begun while the app is not suspended, unless the
address is no Device's or names no endpoint. -/
def Careful (state : Companion C) : CompanionAction C → Prop
  | .proceed index endpoint _ =>
      match state.calls[index]? with
      | some (.pairing address _) => ∀ thread ∈ state.threads, thread.address ≠ address
      | some (.connecting (address :: _)) =>
          state.suspended = true → state.device address = none ∨ endpoint ≠ .ok ()
      | _ => True
  | _ => True

/-- No connection, thread or event is touched. -/
structure Undisturbed (state next : Companion C) : Prop where
  devices : state.Quiet next
  keeps : state.Keeps next
  history : next.history = state.history

theorem Undisturbed.of_eq {state next : Companion C} (devices : next.devices = state.devices)
    (keeps : state.Keeps next) (history : next.history = state.history) :
    state.Undisturbed next :=
  ⟨.of_eq fun address => congrArg (Entries.get address) devices, keeps, history⟩

theorem Undisturbed.refl (state : Companion C) : state.Undisturbed state :=
  .of_eq rfl ⟨rfl, rfl, rfl, rfl⟩ rfl

theorem Undisturbed.trans {first second third : Companion C} (front : first.Undisturbed second)
    (back : second.Undisturbed third) : first.Undisturbed third where
  devices := front.devices.trans back.devices
  keeps := ⟨back.keeps.attempts.trans front.keeps.attempts,
    back.keeps.pumps.trans front.keeps.pumps, back.keeps.number.trans front.keeps.number,
    back.keeps.suspended.trans front.keeps.suspended⟩
  history := back.history.trans front.history

theorem undisturbed_adjust (state : Companion C) (address : String)
    {change : Device C → Device C} (alike : ∀ device : Device C, device.Alike (change device)) :
    state.Undisturbed (state.adjust address change) :=
  ⟨state.quiet_adjust address alike, ⟨rfl, rfl, rfl, rfl⟩, rfl⟩

theorem Undisturbed.moves {state next : Companion C} (undisturbed : state.Undisturbed next) :
    state.Moves next := by
  rcases undisturbed with ⟨devices, ⟨attempts, pumps, number, suspended⟩, history⟩
  refine .quiet devices ?_ ?_ number history fun asleep => suspended.symm.trans asleep
  · rw [attempts]
  · rw [pumps]

theorem undisturbed_leavePane (state : Companion C) (next : Option (String × PaneId)) :
    state.Undisturbed (state.leavePane next) := by
  unfold leavePane
  split
  · exact .refl state
  split_ifs
  · exact .refl state
  · apply undisturbed_adjust
    exact fun device => (device.alike_terminal _ _).trans (Device.alike_watch _ ∅)

theorem undisturbed_showPane (state : Companion C) (address : Option String) (pane : PaneId)
    (rows columns : UInt16) :
    state.Undisturbed (state.showPane address pane rows columns) := by
  unfold showPane
  extract_lets next size measured left taken
  have measures : state.Undisturbed { state with shownSize := size.or measured } :=
    .of_eq rfl ⟨rfl, rfl, rfl, rfl⟩ rfl
  have leaves : state.Undisturbed left := measures.trans (undisturbed_leavePane _ next)
  have takes : left.Undisturbed taken := by
    cases nextEq : next with
    | none => simpa [taken, nextEq] using .refl left
    | some pane =>
        simp only [taken, nextEq]
        apply undisturbed_adjust
        intro device
        have watches := device.alike_watch {pane.2}
        split_ifs
        · exact watches.trans ⟨rfl, rfl, rfl⟩
        · exact (watches.trans (Device.alike_takeTerminal _ pane.2 left.shownSize)).trans
            ⟨rfl, rfl, rfl⟩
  exact (leaves.trans takes).trans (.of_eq rfl ⟨rfl, rfl, rfl, rfl⟩ rfl)

theorem undisturbed_setActive (state : Companion C) (active : Bool) :
    state.Undisturbed (state.setActive active) := by
  unfold setActive
  by_cases same : state.inactive ≠ active
  · rw [if_pos same]
    exact .refl state
  rw [if_neg same]
  have toggled : state.Undisturbed { state with inactive := !active } :=
    .of_eq rfl ⟨rfl, rfl, rfl, rfl⟩ rfl
  dsimp only
  split
  · exact toggled
  · apply toggled.trans
    apply undisturbed_adjust
    intro device
    split_ifs
    · exact device.alike_takeTerminal _ _
    · exact device.alike_terminal _ _

/-- A call that comes, goes or goes on. -/
theorem moves_calls (state : Companion C) (push : Bool) (calls : List CompanionCall) :
    state.Moves { state with push, calls } := by
  have undisturbed : state.Undisturbed { state with push, calls } :=
    .of_eq rfl ⟨rfl, rfl, rfl, rfl⟩ rfl
  exact undisturbed.moves

/-- The section of a connect, whose call goes on. -/
theorem moves_connect (state : Companion C) (index : ℕ) (address : String) (rest : List String)
    (endpoint : Except String Unit) (spawns : Bool)
    (careful : state.suspended = true → state.device address = none ∨ endpoint ≠ .ok ()) :
    state.Moves ((state.connect address endpoint spawns).proceed index rest) := by
  unfold connect
  cases found : state.device address with
  | none =>
      exact state.moves_calls state.push _
  | some device =>
      dsimp only
      cases endpoint with
      | error reason =>
          refine .ended address device { device.disconnect with status := .failed reason } found
            ⟨rfl, rfl, rfl⟩ ?_ ⟨rfl, rfl, rfl, rfl⟩ rfl
          exact updates_twice found fun device => { device with status := .failed reason }
      | ok done =>
          have awake : state.suspended = false := by
            by_contra asleep
            rcases careful (by simpa using asleep) with missing | refused
            · rw [found] at missing
              cases missing
            · exact refused rfl
          refine .began {
              id := state.next
              address
              generation := device.disconnect.generation
              watched := (state.shownPane address).elim ∅ fun paneId => {paneId} }
            device {
              device.disconnect with
              status := .connecting
              model := device.model.watchTerminals
                ((state.shownPane address).elim ∅ fun paneId => {paneId}) }
            awake found rfl rfl rfl rfl ?_ ?_ rfl rfl rfl awake rfl
          · exact updates_twice found fun device => {
              device with
              status := .connecting
              model := device.model.watchTerminals
                ((state.shownPane address).elim ∅ fun paneId => {paneId}) }
          · cases spawns
            · exact Or.inr rfl
            · exact Or.inl rfl

theorem moves_connected (state : Companion C) (attempt : Attempt) (result : ConnectResult C)
    (spawns : Bool) (begun : attempt ∈ state.attempts) :
    state.Moves (state.connected attempt result spawns) := by
  unfold connected
  cases found : state.device attempt.address with
  | none =>
      exact .quiet (.of_eq fun _ => rfl) List.erase_sublist (List.Sublist.refl _) rfl rfl id
  | some device =>
      dsimp only
      by_cases stale : device.generation ≠ attempt.generation
      · rw [if_pos stale]
        exact .quiet (.of_eq fun _ => rfl) List.erase_sublist (List.Sublist.refl _) rfl rfl id
      rw [if_neg stale]
      have updates := updates_adjust found fun device =>
        device.connected attempt.id attempt.watched (state.reclaim attempt.address) result
      have effect := device.connected_effect attempt.id attempt.watched
        (state.reclaim attempt.address) result
      dsimp only at effect
      cases started : (device.start result).2 with
      | error failure =>
          rw [started] at effect
          refine .failed attempt device _ begun found (not_not.mp stale) effect.1 effect.2.1
            effect.2.2 updates rfl ?_ rfl rfl rfl
          simp
      | ok done =>
          rw [started] at effect
          refine .made attempt device _ begun found (not_not.mp stale) effect.1 effect.2.1
            effect.2.2 updates rfl ?_ rfl rfl rfl
          cases spawns <;> simp

theorem moves_apply (state : Companion C) (pump : Attempt) (message : Incoming C) :
    state.Moves (state.apply pump message) := by
  unfold apply
  cases found : state.device pump.address with
  | none => exact (Undisturbed.refl state).moves
  | some device =>
      dsimp only
      split_ifs with stale ending
      · exact (Undisturbed.refl state).moves
      · have effect := device.apply_effect (state.shownPane pump.address) message
        rw [if_pos ending] at effect
        exact .ended pump.address device _ found effect
          (updates_adjust found fun device =>
            device.apply (state.shownPane pump.address) message) ⟨rfl, rfl, rfl, rfl⟩ rfl
      · have effect := device.apply_effect (state.shownPane pump.address) message
        rw [if_neg ending] at effect
        refine Undisturbed.moves ⟨?_, ⟨rfl, rfl, rfl, rfl⟩, rfl⟩
        intro other after afterFound
        rw [updates_adjust found _ other] at afterFound
        split_ifs at afterFound with same
        · rcases Option.some.inj afterFound with rfl
          exact ⟨device, same ▸ found, effect⟩
        · exact ⟨after, afterFound, .refl after⟩

theorem moves_of_perform {state next : Companion C} {action : CompanionAction C}
    (performs : state.perform action = some next) (careful : state.Careful action) :
    state.Moves next := by
  cases action with
  | pair address label =>
      rcases Option.some.inj performs with rfl
      exact state.moves_calls _ _
  | forget address =>
      rcases Option.some.inj performs with rfl
      refine .forgotten address (fun other => ?_) ⟨rfl, rfl, rfl, rfl⟩ rfl
      exact Entries.get_erase address other state.devices
  | resume =>
      rcases Option.some.inj performs with rfl
      exact .quiet (.of_eq fun _ => rfl) (List.Sublist.refl _) (List.Sublist.refl _) rfl rfl
        fun suspended => absurd suspended Bool.false_ne_true
  | suspend =>
      rcases Option.some.inj performs with rfl
      refine .suspended (fun address after found => ?_) rfl rfl rfl rfl
      have mapped : (state.device address).map
          (fun device : Device C => { device.disconnect with status := .suspended }) =
          some after := by
        rw [← found]
        exact (Entries.get_mapValues _ address state.devices).symm
      rcases Option.map_eq_some_iff.mp mapped with ⟨before, beforeFound, rfl⟩
      exact ⟨before, beforeFound, ⟨rfl, rfl, rfl⟩⟩
  | setPush push =>
      simp only [perform] at performs
      split_ifs at performs
      · rcases Option.some.inj performs with rfl
        exact (Undisturbed.refl state).moves
      · rcases Option.some.inj performs with rfl
        exact state.moves_calls _ _
  | showPane address pane rows columns =>
      rcases Option.some.inj performs with rfl
      exact (state.undisturbed_showPane address pane rows columns).moves
  | setActive active =>
      rcases Option.some.inj performs with rfl
      exact (state.undisturbed_setActive active).moves
  | proceed index endpoint spawns =>
      simp only [perform] at performs
      simp only [Careful] at careful
      split at performs
      · cases performs
      · next address label call =>
          rw [call] at careful
          rcases Option.some.inj performs with rfl
          refine .inserted address label careful (fun other => ?_) ⟨rfl, rfl, rfl, rfl⟩ rfl
          exact Entries.get_insert _ address other _ state.devices
      · rcases Option.some.inj performs with rfl
        exact state.moves_calls _ _
      · rcases Option.some.inj performs with rfl
        exact state.moves_calls _ _
      · next address rest call =>
          rw [call] at careful
          rcases Option.some.inj performs with rfl
          exact state.moves_connect index address rest endpoint spawns careful
  | finish attempt result spawns =>
      simp only [perform] at performs
      split_ifs at performs with begun
      rcases Option.some.inj performs with rfl
      exact state.moves_connected attempt result spawns begun
  | apply pump message =>
      simp only [perform] at performs
      split_ifs at performs
      rcases Option.some.inj performs with rfl
      exact state.moves_apply pump message
  | close pump =>
      simp only [perform] at performs
      split_ifs at performs
      rcases Option.some.inj performs with rfl
      exact .quiet (.of_eq fun _ => rfl) (List.Sublist.refl _) List.erase_sublist rfl rfl id

end Companion

end Condr
