import Condr.Mobile.CompanionSafety

/-!
# What a connection was told

The last watch set and the last focus that were sent on the connection of a Device. Of
everything a Device sends only a watch set and a Focus command change them.
-/

namespace Condr

/-! ## The messages of a connection -/

/-- The Panes a message asks frames for. -/
def ClientMessage.watchSet : ClientMessage → Option (Finset PaneId)
  | .watchTerminals panes => some panes
  | _ => none

/-- The focus a message gives to a Pane, or takes from it. -/
def ClientMessage.focusOf (paneId : PaneId) : ClientMessage → Option Bool
  | .terminal _ _ other (.focus focused) => if other = paneId then some focused else none
  | _ => none

/-- The message says nothing of frames or focus. -/
def ClientMessage.Plain (message : ClientMessage) : Prop :=
  message.watchSet = none ∧ ∀ paneId, message.focusOf paneId = none

namespace ConnectionIo

/-- The watch set sent last on a connection, or the one it was opened with. -/
def lastWatched (io : ConnectionIo) (opened : Finset PaneId) : Finset PaneId :=
  (io.outgoing.filterMap ClientMessage.watchSet).getLast?.getD opened

/-- The last Focus command for a Pane. -/
def lastFocus (io : ConnectionIo) (paneId : PaneId) : Option Bool :=
  (io.outgoing.filterMap (ClientMessage.focusOf paneId)).getLast?

def say (io : ConnectionIo) (message : ClientMessage) : ConnectionIo :=
  { io with outgoing := io.outgoing ++ [message] }

theorem lastWatched_say (io : ConnectionIo) (message : ClientMessage) (opened : Finset PaneId) :
    (io.say message).lastWatched opened = message.watchSet.getD (io.lastWatched opened) := by
  unfold lastWatched say
  cases said : message.watchSet with
  | none => simp [said]
  | some panes => simp [said]

theorem lastFocus_say (io : ConnectionIo) (message : ClientMessage) (paneId : PaneId) :
    (io.say message).lastFocus paneId =
      (message.focusOf paneId).or (io.lastFocus paneId) := by
  unfold lastFocus say
  cases said : message.focusOf paneId with
  | none => simp [said]
  | some focused => simp [said]

end ConnectionIo

variable {C : ContentModel}

namespace Device

theorem io_send (device : Device C) (message : ClientMessage) :
    (device.send message).io = device.io.map fun io => io.say message := rfl

/-- The Session is known, as it is to every Device that was connected once. -/
structure Known (device : Device C) : Prop where
  server : device.model.serverId.isSome
  session : device.model.sessionId.isSome

/-- Nothing of frames or focus was sent, and nothing about them was forgotten. -/
structure Mute (before after : Device C) : Prop where
  watched : after.model.watched = before.model.watched
  known : before.Known → after.Known
  io : ∀ io, after.io = some io → ∃ old, before.io = some old ∧ io.attempt = old.attempt ∧
    (∀ opened, io.lastWatched opened = old.lastWatched opened) ∧
      ∀ paneId, io.lastFocus paneId = old.lastFocus paneId

theorem Mute.of_model {before after : Device C} (watched : after.model.watched = before.model.watched)
    (known : before.Known → after.Known) (io : after.io = before.io) : before.Mute after where
  watched
  known
  io connection held := ⟨connection, io ▸ held, rfl, fun _ => rfl, fun _ => rfl⟩

theorem Mute.refl (device : Device C) : device.Mute device :=
  .of_model rfl id rfl

theorem Mute.trans {first second third : Device C} (front : first.Mute second)
    (back : second.Mute third) : first.Mute third where
  watched := back.watched.trans front.watched
  known known := back.known (front.known known)
  io connection held := by
    rcases back.io connection held with ⟨between, betweenHeld, same, watched, focus⟩
    rcases front.io between betweenHeld with ⟨old, oldHeld, oldSame, oldWatched, oldFocus⟩
    refine ⟨old, oldHeld, same.trans oldSame, ?_, ?_⟩
    · exact fun opened => (watched opened).trans (oldWatched opened)
    · exact fun paneId => (focus paneId).trans (oldFocus paneId)

theorem mute_send (device : Device C) {message : ClientMessage} (plain : message.Plain) :
    device.Mute (device.send message) where
  watched := rfl
  known known := ⟨known.server, known.session⟩
  io connection held := by
    rw [io_send] at held
    rcases Option.map_eq_some_iff.mp held with ⟨old, oldHeld, rfl⟩
    refine ⟨old, oldHeld, rfl, ?_, ?_⟩
    · intro opened
      rw [ConnectionIo.lastWatched_say, plain.1]
      rfl
    · intro paneId
      rw [ConnectionIo.lastFocus_say, plain.2 paneId]
      rfl

/-- A Device without a connection tells nobody anything. -/
theorem Mute.of_disconnected {before after : Device C}
    (watched : after.model.watched = before.model.watched)
    (known : before.Known → after.Known) (io : after.io = none) : before.Mute after where
  watched
  known
  io connection held := by
    rw [io] at held
    cases held

/-- Fields that say nothing of the connection or the model do not matter. -/
theorem Mute.congr {before after other : Device C} (mute : before.Mute after)
    (model : other.model = after.model) (io : other.io = after.io) : before.Mute other where
  watched := by rw [model, mute.watched]
  known known := by
    have kept := mute.known known
    exact ⟨model ▸ kept.server, model ▸ kept.session⟩
  io connection held := mute.io connection (io ▸ held)

theorem mute_subscribe (device : Device C) : device.Mute device.subscribe := by
  unfold subscribe
  split_ifs
  · exact .refl device
  split
  · exact .refl device
  · next sessionId _ =>
      have plain : (ClientMessage.subscribe sessionId device.model.sequence).Plain :=
        ⟨rfl, fun _ => rfl⟩
      exact (device.mute_send plain).congr rfl rfl

theorem mute_requestSnapshot (device : Device C) : device.Mute device.requestSnapshot := by
  unfold requestSnapshot
  split_ifs
  · exact .refl device
  split
  · exact .refl device
  · next sessionId _ =>
      have plain : (ClientMessage.snapshotRequest sessionId).Plain := ⟨rfl, fun _ => rfl⟩
      exact (device.mute_send plain).congr rfl rfl

theorem Mute.subscribe {device other : Device C} (mute : device.Mute other) :
    device.Mute other.subscribe :=
  mute.trans (mute_subscribe other)

theorem Mute.requestSnapshot {device other : Device C} (mute : device.Mute other) :
    device.Mute other.requestSnapshot :=
  mute.trans (mute_requestSnapshot other)

theorem mute_resubscribe (device : Device C) :
    device.Mute { device with subscription := .none }.requestSnapshot :=
  Mute.requestSnapshot (.of_model rfl (fun known => ⟨known.server, known.session⟩) rfl)

/-- A Bootstrap brings its Session and leaves the watched Panes. -/
theorem applyBootstrap_spec {model next : SessionModel C} {bootstrap : ModelBootstrap C}
    {changed : Bool} (applied : model.applyBootstrap bootstrap = .ok (next, changed)) :
    next.watched = model.watched ∧ next.serverId.isSome ∧ next.sessionId.isSome := by
  unfold SessionModel.applyBootstrap at applied
  cases restored : C.restore bootstrap.snapshot model.watched model.content with
  | error reason =>
      rw [restored] at applied
      cases applied
  | ok content =>
      rw [restored] at applied
      cases applied
      exact ⟨rfl, rfl, rfl⟩

theorem mute_applyEvent (device : Device C) (shown : Option PaneId) (serverId : ServerId)
    (sessionId : SessionId) (sequence : ℕ) (event : C.Event) :
    device.Mute (device.applyEvent shown serverId sessionId sequence event) := by
  unfold applyEvent
  split_ifs
  · exact .refl device
  · exact device.mute_resubscribe
  · exact .refl device
  split
  · exact device.mute_resubscribe
  · exact .of_model rfl (fun known => ⟨known.server, known.session⟩) rfl

theorem mute_fail (device : Device C) (reason : String) : device.Mute (device.fail reason) :=
  .of_disconnected rfl (fun known => ⟨known.server, known.session⟩) rfl

theorem mute_applyMessage (device : Device C) (shown : Option PaneId)
    (message : OwnerMessage C) : device.Mute (device.applyMessage shown message) := by
  cases message with
  | event serverId sessionId sequence event =>
      exact device.mute_applyEvent shown serverId sessionId sequence event
  | subscribed => exact .of_model rfl (fun known => ⟨known.server, known.session⟩) rfl
  | subscriptionRejected | snapshotRejected =>
      have cleared : device.Mute
          { device with subscription := .none, snapshotPending := false } :=
        .of_model rfl (fun known => ⟨known.server, known.session⟩) rfl
      exact cleared.requestSnapshot
  | serverStopping => exact device.mute_fail _
  | unknown => exact device.mute_requestSnapshot
  | other => exact .refl device

theorem mute_applyBootstrap (device : Device C) (shown : Option PaneId)
    (bootstrap : ModelBootstrap C) : device.Mute (device.applyBootstrap shown bootstrap) := by
  unfold applyBootstrap
  split
  · exact device.mute_fail _
  · next model changed applied =>
      rcases applyBootstrap_spec applied with ⟨watched, server, session⟩
      dsimp only
      cases shown with
      | none =>
          have seen : device.Mute { device with model, snapshotPending := false } :=
            .of_model watched (fun _ => ⟨server, session⟩) rfl
          split_ifs
          · apply Mute.subscribe
            exact seen.congr rfl rfl
          · exact seen.subscribe
      | some paneId =>
          have seen : device.Mute
              { device with model := model.markSeen paneId, snapshotPending := false } :=
            .of_model watched (fun _ => ⟨server, session⟩) rfl
          split_ifs
          · apply Mute.subscribe
            exact seen.congr rfl rfl
          · exact seen.subscribe

/-- What the Server hands on makes a Device say nothing of frames or focus. -/
theorem mute_apply (device : Device C) (shown : Option PaneId) (message : Incoming C) :
    device.Mute (device.apply shown message) := by
  cases message with
  | bootstrap bootstrap => exact device.mute_applyBootstrap shown bootstrap
  | visualReady taken =>
      cases taken with
      | none => exact .refl device
      | some taken =>
          simp only [apply]
          split_ifs
          · split
            · next model applied =>
                rcases Option.map_eq_some_iff.mp applied with ⟨content, _, rfl⟩
                exact .of_model rfl (fun known => ⟨known.server, known.session⟩) rfl
            · exact device.mute_requestSnapshot
          · exact .refl device
  | terminalResync => exact device.mute_requestSnapshot
  | disconnected reason => exact device.mute_fail reason
  | message message => exact device.mute_applyMessage shown message

/-- An attempt's Bootstrap leaves the connection and the watched Panes; if the connection starts,
the Session is known. -/
theorem start_spec (device : Device C) (result : ConnectResult C) :
    device.Mute (device.start result).1 ∧
      ((device.start result).2 = .ok () → (device.start result).1.Known) := by
  unfold start
  split
  · exact ⟨.refl device, nofun⟩
  split
  · exact ⟨.refl device, nofun⟩
  split
  · exact ⟨.refl device, nofun⟩
  · next model changed applied =>
      rcases applyBootstrap_spec applied with ⟨watched, server, session⟩
      exact ⟨.of_model watched (fun _ => ⟨server, session⟩) rfl, fun _ => ⟨server, session⟩⟩

/-! ## Devices that hold a connection -/

/-- The connection was told of these Panes alone, and gave focus to those, since an attempt of a
kind opened it. -/
structure HoldsBy (device : Device C) (io : ConnectionIo) (opened : Attempt → Prop)
    (panes gained : Finset PaneId) : Prop where
  watched : device.model.watched = some panes
  known : device.Known
  told : ∃ attempt, opened attempt ∧ attempt.id = io.attempt ∧
    io.lastWatched attempt.watched = panes
  focused : ∀ paneId, io.lastFocus paneId = some true ↔ paneId ∈ gained

/-- If the Device holds a connection, that was told of the Panes. -/
def Holds (device : Device C) (opened : Attempt → Prop) (panes gained : Finset PaneId) : Prop :=
  ∀ io, device.io = some io → device.HoldsBy io opened panes gained

variable {device after : Device C} {opened : Attempt → Prop} {panes gained : Finset PaneId}

theorem Holds.of_disconnected (io : device.io = none) : device.Holds opened panes gained := by
  intro connection held
  rw [io] at held
  cases held

theorem Holds.more {later : Attempt → Prop} (holds : device.Holds opened panes gained)
    (includes : ∀ attempt, opened attempt → later attempt) :
    device.Holds later panes gained := by
  intro io held
  rcases holds io held with ⟨watched, known, ⟨attempt, isOpened, same, told⟩, focused⟩
  exact ⟨watched, known, ⟨attempt, includes attempt isOpened, same, told⟩, focused⟩

theorem Holds.mute (holds : device.Holds opened panes gained) (mute : device.Mute after) :
    after.Holds opened panes gained := by
  intro io held
  rcases mute.io io held with ⟨old, oldHeld, sameAttempt, sameWatched, sameFocus⟩
  rcases holds old oldHeld with ⟨watched, known, ⟨attempt, isOpened, same, told⟩, focused⟩
  refine ⟨mute.watched.trans watched, mute.known known, ⟨attempt, isOpened, ?_, ?_⟩, ?_⟩
  · rw [sameAttempt, same]
  · rw [sameWatched, told]
  · intro paneId
    rw [sameFocus, focused]

/-- The watched Panes are told to the Server, unless it knows them. -/
theorem Holds.watch (holds : device.Holds opened panes gained) (next : Finset PaneId) :
    (device.watch next).Holds opened next gained := by
  unfold Device.watch
  split_ifs with same
  · intro io held
    have before := holds io held
    have equal : panes = next := Option.some.inj (before.watched.symm.trans same)
    exact equal ▸ before
  · intro io held
    rw [io_send] at held
    rcases Option.map_eq_some_iff.mp held with ⟨old, oldHeld, rfl⟩
    rcases holds old oldHeld with ⟨_, known, ⟨attempt, isOpened, sameId, _⟩, focused⟩
    refine ⟨rfl, ⟨known.server, known.session⟩, ⟨attempt, isOpened, sameId, ?_⟩, ?_⟩
    · rw [ConnectionIo.lastWatched_say]
      rfl
    · intro paneId
      rw [ConnectionIo.lastFocus_say]
      exact focused paneId

@[simp]
theorem model_terminal (device : Device C) (paneId : PaneId) (command : TerminalCommand) :
    (device.terminal paneId command).model = device.model := by
  unfold terminal
  split <;> rfl

@[simp]
theorem model_takeTerminal (device : Device C) (paneId : PaneId) (size : Option TerminalSize) :
    (device.takeTerminal paneId size).model = device.model := by
  unfold takeTerminal
  split <;> simp

theorem watched_watch (device : Device C) (next : Finset PaneId) :
    (device.watch next).model.watched = some next := by
  unfold Device.watch
  split_ifs with same
  · exact same
  · rfl

/-- A Focus command changes the focus of its Pane. -/
theorem Holds.focus (holds : device.Holds opened panes gained) (paneId : PaneId)
    (focused : Bool) :
    (device.terminal paneId (.focus focused)).Holds opened panes
      (if focused then insert paneId gained else gained.erase paneId) := by
  intro io held
  by_cases connected : device.io = none
  · have silent : (device.terminal paneId (.focus focused)).io = none := by
      unfold terminal
      split
      · rw [io_send, connected]
        rfl
      · exact connected
    rw [silent] at held
    cases held
  · rcases Option.ne_none_iff_exists'.mp connected with ⟨old, oldHeld⟩
    rcases holds old oldHeld with ⟨watched, known, ⟨attempt, isOpened, same, told⟩, before⟩
    rcases Option.isSome_iff_exists.mp known.server with ⟨serverId, server⟩
    rcases Option.isSome_iff_exists.mp known.session with ⟨sessionId, session⟩
    simp only [terminal, server, session] at held ⊢
    rw [io_send, oldHeld, Option.map_some, Option.some.injEq] at held
    subst held
    refine ⟨watched, ⟨known.server, known.session⟩, ⟨attempt, isOpened, same, ?_⟩, ?_⟩
    · rw [ConnectionIo.lastWatched_say]
      exact told
    · intro other
      rw [ConnectionIo.lastFocus_say]
      simp only [ClientMessage.focusOf]
      split_ifs with here given
      · simp [here, given]
      · simp [here, given]
      · simp [before other, Ne.symm here]
      · simp [before other, Ne.symm here]

theorem mute_resize (device : Device C) (paneId : PaneId) (size : TerminalSize) :
    device.Mute (device.terminal paneId (.resize size)) := by
  unfold terminal
  split
  · exact device.mute_send ⟨rfl, fun _ => rfl⟩
  · exact .refl device

theorem Holds.takeTerminal (holds : device.Holds opened panes gained) (paneId : PaneId)
    (size : Option TerminalSize) :
    (device.takeTerminal paneId size).Holds opened panes (insert paneId gained) := by
  have focused : (device.terminal paneId (.focus true)).Holds opened panes
      (insert paneId gained) := by
    simpa using holds.focus paneId true
  cases size with
  | none => exact focused
  | some size => exact focused.mute (mute_resize _ paneId size)

theorem model_send (device : Device C) (message : ClientMessage) :
    (device.send message).model = device.model := rfl

theorem model_subscribe (device : Device C) : device.subscribe.model = device.model := by
  unfold subscribe
  split_ifs
  · rfl
  split <;> rfl

/-- The end of an attempt leaves the watched Panes. -/
theorem watched_connected (device : Device C) (attempt : ℕ) (watched : Finset PaneId)
    (reclaim : Option (PaneId × Option TerminalSize)) (result : ConnectResult C) :
    (device.connected attempt watched reclaim result).model.watched = device.model.watched := by
  have kept := (device.start_spec result).1.watched
  rcases started : device.start result with ⟨begun, outcome⟩
  rw [started] at kept
  cases outcome with
  | error failure =>
      rw [connected_error attempt watched reclaim started]
      exact kept
  | ok done =>
      cases done
      rcases connected_ok attempt watched reclaim started with ⟨told, watching, alone, taking⟩
      have same : told.model = begun.model := by
        rcases watching with ⟨rfl, _⟩ | ⟨panes, _, rfl⟩
        · rfl
        · exact model_send _ _
      cases reclaim with
      | none => rw [alone rfl, model_subscribe, same, kept]
      | some pane => rw [taking pane rfl, model_takeTerminal, model_subscribe, same, kept]

/-- A connection that starts is told of the watched Panes, which may have changed since it was
begun, and the Pane to take again gets the focus. -/
theorem holds_connected {attempt : Attempt} (watched : device.model.watched = some panes)
    (reclaim : Option (PaneId × Option TerminalSize)) (result : ConnectResult C)
    (before : device.Holds opened panes gained)
    (isOpened : opened attempt) (taken : gained = (reclaim.map (·.1)).toFinset) :
    (device.connected attempt.id attempt.watched reclaim result).Holds opened panes gained := by
  have spec := device.start_spec result
  rcases started : device.start result with ⟨begun, outcome⟩
  rw [started] at spec
  cases outcome with
  | error failure =>
      rw [connected_error attempt.id attempt.watched reclaim started]
      exact before.mute (spec.1.congr rfl rfl)
  | ok done =>
      cases done
      have known := spec.2 rfl
      have same : begun.model.watched = some panes := spec.1.watched.trans watched
      rcases connected_ok attempt.id attempt.watched reclaim started
        with ⟨told, watching, alone, taking⟩
      -- what the Server was told when the connection was opened, or is told now
      have holds : told.Holds opened panes ∅ := by
        rcases watching with ⟨rfl, unchanged⟩ | ⟨others, held, rfl⟩
        · intro io held
          cases held
          refine ⟨same, ⟨known.server, known.session⟩, ⟨attempt, isOpened, rfl, ?_⟩, ?_⟩
          · exact (unchanged panes same).symm
          · intro paneId
            simp [ConnectionIo.lastFocus]
        · obtain rfl : panes = others := Option.some.inj (same.symm.trans held)
          intro io held
          rw [io_send] at held
          rcases Option.map_eq_some_iff.mp held with ⟨old, oldHeld, rfl⟩
          cases oldHeld
          refine ⟨same, ⟨known.server, known.session⟩, ⟨attempt, isOpened, rfl, ?_⟩, ?_⟩
          · rw [ConnectionIo.lastWatched_say]
            rfl
          · intro paneId
            rw [ConnectionIo.lastFocus_say]
            simp [ClientMessage.focusOf, ConnectionIo.lastFocus]
      have subscribed := holds.mute (mute_subscribe _)
      subst taken
      cases reclaim with
      | none =>
          rw [alone rfl]
          exact subscribed
      | some pane =>
          rw [taking pane rfl]
          exact subscribed.takeTerminal pane.1 pane.2

end Device

end Condr
