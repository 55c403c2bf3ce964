import Condr.Mobile.CompanionWatch

/-!
# The Pane a phone holds

The Pane on screen, the app's activity and each connection change independently. What a
connection was told of frames and focus is nevertheless always what is on screen: every step
keeps it, as long as no attempt's result is taken for that of another one.
-/

namespace Condr

variable {C : ContentModel}

/-! ## What is on screen -/

/-- The Pane on screen, where it is one of this Device. -/
def paneOf (shown : Option (String × PaneId)) (address : String) : Option PaneId :=
  match shown with
  | some (shown, paneId) => if shown = address then some paneId else none
  | none => none

/-- The Pane on screen alone, or none. -/
def panesOf (shown : Option (String × PaneId)) (address : String) : Finset PaneId :=
  (paneOf shown address).toFinset

/-- The Panes that have the focus of the phone. -/
def focusedPanes (shown : Option (String × PaneId)) (inactive : Bool) (address : String) :
    Finset PaneId :=
  if inactive then ∅ else panesOf shown address

@[simp]
theorem panesOf_none (address : String) : panesOf none address = ∅ := rfl

theorem panesOf_here (address : String) (paneId : PaneId) :
    panesOf (some (address, paneId)) address = {paneId} := by
  simp [panesOf, paneOf]

theorem panesOf_elsewhere {address other : String} (apart : address ≠ other)
    (paneId : PaneId) : panesOf (some (address, paneId)) other = ∅ := by
  simp [panesOf, paneOf, apart]

@[simp]
theorem focusedPanes_none (inactive : Bool) (address : String) :
    focusedPanes none inactive address = ∅ := by
  simp [focusedPanes]

theorem focusedPanes_of_panesOf {shown later : Option (String × PaneId)} {address : String}
    (same : panesOf later address = panesOf shown address) (inactive : Bool) :
    focusedPanes later inactive address = focusedPanes shown inactive address := by
  unfold focusedPanes
  rw [same]

theorem focusedPanes_of_empty {shown : Option (String × PaneId)} {address : String}
    (empty : panesOf shown address = ∅) (inactive : Bool) :
    focusedPanes shown inactive address = ∅ := by
  unfold focusedPanes
  rw [empty, ite_self]

/-! ## What happened last -/

theorem latest_append_apart {history : List Happening} {address : String} {happening : Happening}
    (apart : happening.concerns address = false) (attempt : ℕ) :
    Latest (history ++ [happening]) address attempt ↔ Latest history address attempt := by
  have skipped : [happening].filter (·.concerns address) = [] := by
    rw [List.filter_singleton, apart]
    rfl
  rw [Latest, List.filter_append, skipped, List.append_nil]
  rfl

theorem not_latest_of_ended (history : List Happening) {address : String}
    {happening : Happening} (concerns : happening.concerns address = true)
    (ends : ∀ attempt, happening ≠ .began address attempt) (attempt : ℕ) :
    ¬Latest (history ++ [happening]) address attempt := by
  have kept : [happening].filter (·.concerns address) = [happening] := by
    rw [List.filter_singleton, concerns]
    rfl
  intro latest
  rw [Latest, List.filter_append, kept, List.getLast?_concat] at latest
  exact ends attempt (Option.some.inj latest)

/-! ## The invariant -/

/-- The attempts whose threads have ended, for one address. -/
def OpenedFor (opened : List Attempt) (address : String) (attempt : Attempt) : Prop :=
  attempt ∈ opened ∧ attempt.address = address

/-- What holds of the Device of an address, while something is on screen. -/
structure ShowsAt (shown : Option (String × PaneId)) (inactive : Bool)
    (history : List Happening) (opened : List Attempt) (address : String)
    (device : Device C) : Prop where
  shows : ∀ panes, device.model.watched = some panes → panes = panesOf shown address
  /-- A Device that never asked for frames has no attempt on its way. -/
  unbegun : device.model.watched = none →
    device.generation = 0 ∨ ∀ attempt, ¬Latest history address attempt
  holds : device.Holds (OpenedFor opened address) (panesOf shown address)
    (focusedPanes shown inactive address)

section Devices

variable {shown later : Option (String × PaneId)} {inactive : Bool}
  {history newer : List Happening} {opened : List Attempt} {address : String}
  {device after : Device C}

theorem ShowsAt.elsewhere (shows : ShowsAt shown inactive history opened address device)
    (same : panesOf later address = panesOf shown address)
    (recent : ∀ attempt, Latest newer address attempt → Latest history address attempt) :
    ShowsAt later inactive newer opened address device where
  shows panes watched := (shows.shows panes watched).trans same.symm
  unbegun watched := (shows.unbegun watched).imp_right fun none attempt latest =>
    none attempt (recent attempt latest)
  holds := by
    rw [same, focusedPanes_of_panesOf same]
    exact shows.holds

theorem ShowsAt.more (shows : ShowsAt shown inactive history opened address device)
    (attempt : Attempt) :
    ShowsAt shown inactive history (opened ++ [attempt]) address device where
  shows := shows.shows
  unbegun := shows.unbegun
  holds := shows.holds.more fun _ isOpened =>
    ⟨List.mem_append_left _ isOpened.1, isOpened.2⟩

/-- A Device that holds no connection, and no attempt is on its way. -/
theorem ShowsAt.ended (shows : ShowsAt shown inactive history opened address device)
    (watched : after.model.watched = device.model.watched) (io : after.io = none)
    (none : ∀ attempt, ¬Latest newer address attempt) :
    ShowsAt shown inactive newer opened address after where
  shows panes same := shows.shows panes (watched ▸ same)
  unbegun _ := .inr none
  holds := .of_disconnected io

theorem showsAt_init (label : String) :
    ShowsAt shown inactive history opened address (.init label : Device C) where
  shows := nofun
  unbegun _ := .inl rfl
  holds := .of_disconnected rfl

/-- A Device that was told what is on screen. -/
theorem showsAt_watched (watched : device.model.watched = some (panesOf shown address))
    (holds : device.Holds (OpenedFor opened address) (panesOf shown address)
      (focusedPanes shown inactive address)) :
    ShowsAt shown inactive history opened address device where
  shows panes same := Option.some.inj (same.symm.trans watched)
  unbegun none := by
    rw [watched] at none
    cases none
  holds := holds

/-- The Pane that comes on screen is watched, and focused while the app is active. -/
theorem ShowsAt.take {before : Option (String × PaneId)} {paneId : PaneId}
    (shows : ShowsAt before inactive history opened address device)
    (was : before = some (address, paneId) ∨ before = none) (size : Option TerminalSize) :
    ShowsAt (some (address, paneId)) inactive history opened address
      (let device := device.watch {paneId}
       let device := if inactive then device else device.takeTerminal paneId size
       { device with model := device.model.markSeen paneId }) := by
  have watches := shows.holds.watch {paneId}
  have onScreen : panesOf (some (address, paneId)) address = {paneId} := panesOf_here _ _
  have seen : ∀ device : Device C,
      device.Mute { device with model := device.model.markSeen paneId } := fun _ =>
    .of_model rfl (fun known => ⟨known.server, known.session⟩) rfl
  dsimp only
  cases inactive with
  | true =>
      apply showsAt_watched
      · rw [onScreen]
        exact Device.watched_watch device {paneId}
      · rw [onScreen]
        exact watches.mute (seen _)
  | false =>
      have focused : insert paneId (focusedPanes before false address) = {paneId} := by
        rcases was with rfl | rfl
        · simp [focusedPanes, onScreen]
        · simp
      have takes := watches.takeTerminal paneId size
      rw [focused] at takes
      apply showsAt_watched
      · rw [onScreen]
        have kept : ∀ taken : Device C, taken.model = (device.watch {paneId}).model →
            (taken.model.markSeen paneId).watched = some {paneId} := by
          intro taken same
          rw [same]
          exact Device.watched_watch device {paneId}
        exact kept _ (Device.model_takeTerminal _ paneId size)
      · simp only [focusedPanes, onScreen]
        exact takes.mute (seen _)

/-- The app's activity matters to the Device whose Pane is on screen alone. -/
theorem ShowsAt.unseen
    (shows : ShowsAt shown inactive history opened address device)
    (unseen : panesOf shown address = ∅) (later : Bool) :
    ShowsAt shown later history opened address device where
  shows := shows.shows
  unbegun := shows.unbegun
  holds := by
    have holds := shows.holds
    rw [unseen, focusedPanes_of_empty unseen] at holds ⊢
    exact holds

/-- An app that becomes active takes the focus of the Pane on screen; one that becomes inactive
gives it back. -/
theorem ShowsAt.activate {paneId : PaneId} {active : Bool}
    (shows : ShowsAt (some (address, paneId)) active history opened address device)
    (size : Option TerminalSize) :
    ShowsAt (some (address, paneId)) (!active) history opened address
      (if active then device.takeTerminal paneId size
        else device.terminal paneId (.focus false)) := by
  have holds := shows.holds
  unfold focusedPanes at holds
  rw [panesOf_here] at holds
  have model : (if active then device.takeTerminal paneId size
      else device.terminal paneId (.focus false)).model = device.model := by
    split_ifs <;> simp
  have generation : (if active then device.takeTerminal paneId size
      else device.terminal paneId (.focus false)).generation = device.generation := by
    split_ifs
    · exact (device.alike_takeTerminal paneId size).generation
    · exact (device.alike_terminal paneId _).generation
  refine ⟨?_, ?_, ?_⟩
  · rw [model]
    exact shows.shows
  · rw [model, generation]
    exact shows.unbegun
  · unfold focusedPanes
    rw [panesOf_here]
    cases active with
    | true => simpa using holds.takeTerminal paneId size
    | false => simpa using holds.focus paneId false

end Devices

namespace Companion

/-- Every Device's connection was told what is on screen, and the attempts are told apart. -/
structure Shows (state : Companion C) (opened : List Attempt) : Prop where
  devices : ∀ address device, state.device address = some device →
    ShowsAt state.shown state.inactive state.history opened address device
  begun : ∀ attempt ∈ state.attempts, 0 < attempt.generation
  ids : ((state.attempts ++ opened).map (·.id)).Nodup
  earlier : ∀ attempt ∈ state.attempts ++ opened, attempt.id < state.next

variable {state next : Companion C} {opened : List Attempt}

theorem shows_init (saved : List (String × String)) : (init saved : Companion C).Shows [] where
  devices address device found := by
    rcases init_device saved found with ⟨label, rfl⟩
    exact showsAt_init label
  begun := nofun
  ids := List.nodup_nil
  earlier := nofun

/-- A step that begins and ends no attempt. -/
theorem Shows.of_devices (shows : state.Shows opened) (attempts : next.attempts = state.attempts)
    (number : next.next = state.next)
    (devices : ∀ address device, next.device address = some device →
      ShowsAt next.shown next.inactive next.history opened address device) :
    next.Shows opened where
  devices
  begun := by
    rw [attempts]
    exact shows.begun
  ids := by
    rw [attempts]
    exact shows.ids
  earlier := by
    rw [attempts, number]
    exact shows.earlier

theorem adjust_cases {address other : String} {change : Device C → Device C} {after : Device C}
    (found : (state.adjust address change).device other = some after) :
    (other = address ∧ ∃ before, state.device other = some before ∧ after = change before) ∨
      (address ≠ other ∧ state.device other = some after) := by
  rw [device_adjust] at found
  split_ifs at found with same
  · rcases Option.map_eq_some_iff.mp found with ⟨before, beforeFound, rfl⟩
    exact .inl ⟨same.symm, before, beforeFound, rfl⟩
  · exact .inr ⟨same, found⟩

/-! ## Calls of the app -/

theorem Shows.forget (shows : state.Shows opened) (address : String) :
    (state.forget address).Shows opened := by
  refine shows.of_devices rfl rfl ?_
  intro other device found
  have erased := (Entries.get_erase address other state.devices).symm.trans found
  split_ifs at erased with apart
  refine (shows.devices other device erased).elsewhere ?_ ?_
  · show panesOf (state.shown.filter fun shown => shown.1 ≠ address) other = _
    cases onScreen : state.shown with
    | none => rfl
    | some pane =>
        by_cases forgotten : pane.1 = address
        · have hidden : panesOf (some (pane.1, pane.2)) other = ∅ :=
            panesOf_elsewhere (forgotten ▸ apart) pane.2
          simp [Option.filter, forgotten, hidden]
        · simp [Option.filter, forgotten]
  · intro attempt
    exact (latest_append_apart (concerns_apart apart 0).1 attempt).mp

theorem Shows.suspend (shows : state.Shows opened) : state.suspend.Shows opened := by
  refine shows.of_devices rfl rfl ?_
  intro address device found
  have mapped : (state.device address).map
      (fun device : Device C => { device.disconnect with status := .suspended }) =
      some device := by
    rw [← found]
    exact (Entries.get_mapValues _ address state.devices).symm
  rcases Option.map_eq_some_iff.mp mapped with ⟨before, beforeFound, rfl⟩
  refine (shows.devices address before beforeFound).ended rfl rfl ?_
  exact not_latest_of_ended state.history rfl nofun

theorem Shows.insertDevice (shows : state.Shows opened) (index : ℕ) (address label : String) :
    (state.insertDevice index address label).Shows opened := by
  refine shows.of_devices rfl rfl ?_
  intro other device found
  have inserted := (Entries.get_insert _ address other _ state.devices).symm.trans found
  split_ifs at inserted
  · rcases Option.some.inj inserted with rfl
    exact showsAt_init label
  · exact shows.devices other device inserted

/-- The Pane that leaves the screen is given back. -/
theorem Shows.leavePane (shows : state.Shows opened) (next : Option (String × PaneId))
    {address : String} {device : Device C}
    (found : (state.leavePane next).device address = some device) :
    ShowsAt (if next = state.shown then next else none) state.inactive state.history opened
      address device := by
  unfold Companion.leavePane at found
  cases onScreen : state.shown with
  | none =>
      rw [onScreen] at found
      have before := shows.devices address device found
      rw [onScreen] at before
      split_ifs with same
      · exact same ▸ before
      · exact before
  | some pane =>
      rcases pane with ⟨old, paneId⟩
      rw [onScreen] at found
      dsimp only at found
      split_ifs at found ⊢ with stays
      · have before := shows.devices address device found
        rw [onScreen] at before
        exact stays ▸ before
      rcases adjust_cases found with ⟨rfl, before, beforeFound, rfl⟩ | ⟨apart, kept⟩
      · have shown := shows.devices address before beforeFound
        rw [onScreen] at shown
        apply showsAt_watched (Device.watched_watch _ ∅)
        have left := (shown.holds.focus paneId false).watch ∅
        have given : (focusedPanes (some (address, paneId)) state.inactive address).erase paneId =
            ∅ := by
          unfold focusedPanes
          rw [panesOf_here]
          split_ifs
          · rfl
          · simp
        simpa [given] using left
      · have before := shows.devices address device kept
        rw [onScreen] at before
        exact before.elsewhere (panesOf_elsewhere apart paneId).symm fun _ => id

theorem Shows.showPane (shows : state.Shows opened) (address : Option String) (pane : PaneId)
    (rows columns : UInt16) : (state.showPane address pane rows columns).Shows opened := by
  unfold Companion.showPane
  extract_lets onScreen size measures left taken
  have measured : { state with shownSize := size.or measures }.Shows opened :=
    ⟨shows.devices, shows.begun, shows.ids, shows.earlier⟩
  have kept : left.attempts = state.attempts ∧ left.next = state.next ∧
      left.inactive = state.inactive ∧ left.history = state.history := by
    simp only [left, Companion.leavePane]
    split
    · exact ⟨rfl, rfl, rfl, rfl⟩
    · split_ifs <;> exact ⟨rfl, rfl, rfl, rfl⟩
  have leaves : ∀ address device, left.device address = some device →
      ShowsAt (if onScreen = state.shown then onScreen else none) left.inactive left.history
        opened address device := by
    intro address device found
    rw [kept.2.2.1, kept.2.2.2]
    exact measured.leavePane onScreen found
  cases address with
  | none =>
      refine shows.of_devices kept.1 kept.2.1 ?_
      intro address device found
      have before := leaves address device found
      simp only [onScreen, Option.map_none, ite_self] at before
      exact before
  | some address =>
      refine shows.of_devices kept.1 kept.2.1 ?_
      intro other device found
      have was : (if onScreen = state.shown then onScreen else none) = some (address, pane) ∨
          (if onScreen = state.shown then onScreen else none) = none := by
        split_ifs
        · exact .inl rfl
        · exact .inr rfl
      have adjusted : (left.adjust address fun device =>
          let device := device.watch {pane}
          let device := if left.inactive then device
            else device.takeTerminal pane left.shownSize
          { device with model := device.model.markSeen pane }).device other = some device := found
      rcases adjust_cases adjusted with ⟨rfl, before, beforeFound, rfl⟩ | ⟨apart, kept⟩
      · exact (leaves other before beforeFound).take was left.shownSize
      · refine (leaves other device kept).elsewhere ?_ fun _ => id
        rcases was with here | nowhere
        · rw [here]
          rfl
        · rw [nowhere]
          exact panesOf_elsewhere apart pane

theorem Shows.setActive (shows : state.Shows opened) (active : Bool) :
    (state.setActive active).Shows opened := by
  unfold Companion.setActive
  by_cases same : state.inactive ≠ active
  · rw [if_pos same]
    exact shows
  rw [if_neg same]
  have was : state.inactive = active := not_not.mp same
  dsimp only
  split
  · next nowhere =>
      refine shows.of_devices rfl rfl ?_
      intro address device found
      exact (shows.devices address device found).unseen (by rw [nowhere]; rfl) _
  · next address paneId onScreen =>
      refine shows.of_devices rfl rfl ?_
      intro other device found
      rcases adjust_cases found with ⟨rfl, before, beforeFound, rfl⟩ | ⟨apart, kept⟩
      · have shown := shows.devices other before beforeFound
        rw [onScreen, was] at shown
        have toggled := shown.activate state.shownSize
        rw [← onScreen] at toggled
        exact toggled
      · refine (shows.devices other device kept).unseen ?_ _
        rw [onScreen]
        exact panesOf_elsewhere apart paneId

/-! ## Attempts -/

/-- An attempt with a number of its own is begun, whether or not its thread starts. -/
theorem Shows.began (shows : state.Shows opened) {attempt : Attempt}
    (id : attempt.id = state.next) (positive : 0 < attempt.generation)
    (attempts : next.attempts = state.attempts ++ [attempt] ∨ next.attempts = state.attempts)
    (number : next.next = state.next + 1)
    (devices : ∀ address device, next.device address = some device →
      ShowsAt next.shown next.inactive next.history opened address device) :
    next.Shows opened := by
  rcases attempts with spawned | refused
  · have added : (next.attempts ++ opened).Perm (attempt :: (state.attempts ++ opened)) := by
      rw [spawned, List.append_assoc]
      exact List.perm_middle
    have fresh : attempt.id ∉ (state.attempts ++ opened).map (·.id) := by
      intro taken
      rcases List.mem_map.mp taken with ⟨other, listed, same⟩
      have earlier := shows.earlier other listed
      omega
    refine ⟨devices, ?_, ?_, ?_⟩
    · intro other listed
      rw [spawned] at listed
      rcases List.mem_append.mp listed with old | new
      · exact shows.begun other old
      · rw [List.mem_singleton.mp new]
        exact positive
    · exact (added.map _).nodup_iff.mpr (List.nodup_cons.mpr ⟨fresh, shows.ids⟩)
    · intro other listed
      rcases List.mem_cons.mp (added.subset listed) with rfl | old
      · omega
      · have earlier := shows.earlier other old
        omega
  · refine ⟨devices, ?_, ?_, ?_⟩
    · rw [refused]
      exact shows.begun
    · rw [refused]
      exact shows.ids
    · rw [refused]
      intro other listed
      have earlier := shows.earlier other listed
      omega

theorem Shows.connect (shows : state.Shows opened) (address : String)
    (endpoint : Except String Unit) (spawns : Bool) :
    (state.connect address endpoint spawns).Shows opened := by
  unfold Companion.connect
  cases present : state.device address with
  | none => exact shows
  | some device =>
      dsimp only
      cases endpoint with
      | error reason =>
          refine shows.of_devices rfl rfl ?_
          intro other after found
          have updated := updates_twice present
            (fun device => { device with status := .failed reason }) other
          rw [found] at updated
          split_ifs at updated with same
          · rcases Option.some.inj updated with rfl
            subst same
            refine (shows.devices address device present).ended rfl rfl ?_
            exact not_latest_of_ended state.history (by simp [Happening.concerns]) nofun
          · refine (shows.devices other after updated.symm).elsewhere rfl ?_
            intro attempt
            exact (latest_append_apart (concerns_apart same 0).2.1 attempt).mp
      | ok done =>
          have updates := updates_twice present fun device => {
            device with
            status := .connecting
            model := device.model.watchTerminals
              ((state.shownPane address).elim ∅ fun paneId => {paneId}) }
          have panes : ((state.shownPane address).elim ∅ fun paneId => {paneId}) =
              panesOf state.shown address := by
            show _ = (state.shownPane address).toFinset
            cases state.shownPane address <;> rfl
          have devices : ∀ other after, Entries.get other
              (((state.adjust address Device.disconnect).note (.disconnected address)).adjust
                address fun device => {
                  device with
                  status := .connecting
                  model := device.model.watchTerminals
                    ((state.shownPane address).elim ∅ fun paneId => {paneId}) }).devices =
              some after →
              ShowsAt state.shown state.inactive
                (state.history ++ [.disconnected address] ++ [.began address state.next]) opened
                other after := by
            intro other after found
            have updated := (updates other).symm.trans found
            split_ifs at updated with same
            · rcases Option.some.inj updated with rfl
              subst same
              apply showsAt_watched
              · exact congrArg some panes
              · exact .of_disconnected rfl
            · refine (shows.devices other after updated).elsewhere rfl ?_
              intro attempt latest
              rcases concerns_apart same state.next with ⟨-, disconnected, began⟩
              exact (latest_append_apart disconnected attempt).mp
                ((latest_append_apart began attempt).mp latest)
          have number : Attempt.id {
              id := state.next
              address
              generation := device.disconnect.generation
              watched := (state.shownPane address).elim ∅ fun paneId => {paneId} } =
              state.next := rfl
          refine shows.began number (Nat.succ_pos device.generation) ?_ rfl devices
          cases spawns with
          | false => exact .inr rfl
          | true => exact .inl rfl

/-- The thread of an attempt ends, whether or not its result is taken. -/
theorem Shows.finished (shows : state.Shows opened) {attempt : Attempt}
    (begun : attempt ∈ state.attempts) (attempts : next.attempts = state.attempts.erase attempt)
    (number : next.next = state.next)
    (devices : ∀ address device, next.device address = some device →
      ShowsAt next.shown next.inactive next.history (opened ++ [attempt]) address device) :
    next.Shows (opened ++ [attempt]) := by
  have moved : (next.attempts ++ (opened ++ [attempt])).Perm (state.attempts ++ opened) := by
    rw [attempts, ← List.append_assoc]
    refine List.perm_append_comm.trans ?_
    exact (List.perm_cons_erase begun).symm.append_right opened
  refine ⟨devices, ?_, ?_, ?_⟩
  · intro other listed
    rw [attempts] at listed
    exact shows.begun other (List.mem_of_mem_erase listed)
  · exact (moved.map _).nodup_iff.mpr shows.ids
  · intro other listed
    rw [number]
    exact shows.earlier other (moved.subset listed)

/-- The attempt whose result the Device of its address would take is the last one begun for it. -/
def Heeds (state : Companion C) (attempt : Attempt) : Prop :=
  ∀ device, state.device attempt.address = some device →
    device.generation = attempt.generation →
      Latest state.history attempt.address attempt.id

/-- The Pane to take again is the one that should have the focus. -/
theorem reclaim_panes (state : Companion C) (address : String) :
    ((state.reclaim address).map (·.1)).toFinset =
      focusedPanes state.shown state.inactive address := by
  unfold Companion.reclaim focusedPanes
  split_ifs
  · rfl
  · rw [Option.map_map]
    show _ = (state.shownPane address).toFinset
    cases state.shownPane address with
    | none => rfl
    | some paneId => rfl

theorem Shows.connected (shows : state.Shows opened) {attempt : Attempt}
    (begun : attempt ∈ state.attempts) (own : state.Heeds attempt) (result : ConnectResult C)
    (spawns : Bool) :
    (state.connected attempt result spawns).Shows (opened ++ [attempt]) := by
  have stays : { state with attempts := state.attempts.erase attempt }.Shows
      (opened ++ [attempt]) :=
    shows.finished begun rfl rfl fun address device found =>
      (shows.devices address device found).more attempt
  unfold Companion.connected
  cases present : state.device attempt.address with
  | none => exact stays
  | some device =>
      dsimp only
      by_cases stale : device.generation ≠ attempt.generation
      · rw [if_pos stale]
        exact stays
      rw [if_neg stale]
      have current : device.generation = attempt.generation := not_not.mp stale
      refine shows.finished begun rfl rfl ?_
      intro other after found
      have adjusted : (state.adjust attempt.address fun device =>
          device.connected attempt.id attempt.watched (state.reclaim attempt.address)
            result).device other = some after := found
      rcases adjust_cases adjusted with ⟨rfl, before, beforeFound, rfl⟩ | ⟨apart, kept⟩
      · have same : before = device := Option.some.inj (beforeFound.symm.trans present)
        subst same
        have shown := (shows.devices attempt.address before present).more attempt
        have positive := shows.begun attempt begun
        have watched : before.model.watched = some (panesOf state.shown attempt.address) := by
          cases asked : before.model.watched with
          | none =>
              rcases shown.unbegun asked with fresh | ended
              · omega
              · exact absurd (own before present current) (ended attempt.id)
          | some panes => rw [shown.shows panes asked]
        apply showsAt_watched ((before.watched_connected _ _ _ _).trans watched)
        exact Device.holds_connected watched _ result shown.holds ⟨by simp, rfl⟩
          (state.reclaim_panes attempt.address).symm
      · exact (shows.devices other after kept).more attempt

theorem Shows.apply (shows : state.Shows opened) (pump : Attempt) (message : Incoming C) :
    (state.apply pump message).Shows opened := by
  unfold Companion.apply
  cases present : state.device pump.address with
  | none => exact shows
  | some device =>
      dsimp only
      split_ifs with stale ending
      · exact shows
      · refine shows.of_devices rfl rfl ?_
        intro other after found
        rw [device_note] at found
        rcases adjust_cases found with ⟨rfl, before, beforeFound, rfl⟩ | ⟨apart, kept⟩
        · have same : before = device := Option.some.inj (beforeFound.symm.trans present)
          subst same
          have effect := before.apply_effect (state.shownPane pump.address) message
          rw [if_pos ending] at effect
          have mute := before.mute_apply (state.shownPane pump.address) message
          refine (shows.devices pump.address before present).ended mute.watched effect.io ?_
          exact not_latest_of_ended state.history (by simp [Happening.concerns]) nofun
        · refine (shows.devices other after kept).elsewhere rfl ?_
          intro attempt
          exact (latest_append_apart (concerns_apart apart 0).2.1 attempt).mp
      · refine shows.of_devices rfl rfl ?_
        intro other after found
        rcases adjust_cases found with ⟨rfl, before, beforeFound, rfl⟩ | ⟨apart, kept⟩
        · have same : before = device := Option.some.inj (beforeFound.symm.trans present)
          subst same
          have effect := before.apply_effect (state.shownPane pump.address) message
          rw [if_neg ending] at effect
          have mute := before.mute_apply (state.shownPane pump.address) message
          have shown := shows.devices pump.address before present
          refine ⟨?_, ?_, shown.holds.mute mute⟩
          · rw [mute.watched]
            exact shown.shows
          · rw [mute.watched, effect.generation]
            exact shown.unbegun
        · exact shows.devices other after kept

/-! ## Runs -/

/-- No attempt's result is taken for that of another one. -/
def HeedsOwn (state : Companion C) : CompanionAction C → Prop
  | .finish attempt _ _ => state.Heeds attempt
  | _ => True

/-- The attempt whose thread ends with an action. -/
def endedBy : CompanionAction C → List Attempt
  | .finish attempt _ _ => [attempt]
  | _ => []

theorem Shows.perform (shows : state.Shows opened) {action : CompanionAction C}
    (performs : state.perform action = some next) (own : state.HeedsOwn action) :
    next.Shows (opened ++ endedBy action) := by
  have same : ∀ other : Companion C, other.Shows opened → other.Shows (opened ++ []) := by
    intro other
    rw [List.append_nil]
    exact id
  cases action with
  | pair address label =>
      rcases Option.some.inj performs with rfl
      exact same _ (shows.of_devices rfl rfl shows.devices)
  | forget address =>
      rcases Option.some.inj performs with rfl
      exact same _ (shows.forget address)
  | resume =>
      rcases Option.some.inj performs with rfl
      exact same _ (shows.of_devices rfl rfl shows.devices)
  | suspend =>
      rcases Option.some.inj performs with rfl
      exact same _ shows.suspend
  | setPush push =>
      simp only [Companion.perform] at performs
      split_ifs at performs
      · rcases Option.some.inj performs with rfl
        exact same _ shows
      · rcases Option.some.inj performs with rfl
        exact same _ (shows.of_devices rfl rfl shows.devices)
  | showPane address pane rows columns =>
      rcases Option.some.inj performs with rfl
      exact same _ (shows.showPane address pane rows columns)
  | setActive active =>
      rcases Option.some.inj performs with rfl
      exact same _ (shows.setActive active)
  | proceed index endpoint spawns =>
      simp only [Companion.perform] at performs
      split at performs
      · cases performs
      · rcases Option.some.inj performs with rfl
        exact same _ (shows.insertDevice index _ _)
      · rcases Option.some.inj performs with rfl
        exact same _ (shows.of_devices rfl rfl shows.devices)
      · rcases Option.some.inj performs with rfl
        exact same _ (shows.of_devices rfl rfl shows.devices)
      · next address rest _ =>
          rcases Option.some.inj performs with rfl
          have connected := shows.connect address endpoint spawns
          exact same _ (connected.of_devices rfl rfl connected.devices)
  | finish attempt result spawns =>
      simp only [Companion.perform] at performs
      split_ifs at performs with begun
      rcases Option.some.inj performs with rfl
      exact shows.connected begun own result spawns
  | apply pump message =>
      simp only [Companion.perform] at performs
      split_ifs at performs
      rcases Option.some.inj performs with rfl
      exact same _ (shows.apply pump message)
  | close pump =>
      simp only [Companion.perform] at performs
      split_ifs at performs
      rcases Option.some.inj performs with rfl
      exact same _ (shows.of_devices rfl rfl shows.devices)

/-- The connection of a Device, opened by one of the attempts, was told of the Pane on screen
alone, if it is one of this Device, and that Pane has its focus, if the app is active. -/
def HoldsShown (state : Companion C) (opened : List Attempt) : Prop :=
  ∀ address device io, state.device address = some device → device.io = some io →
    (∃ attempt ∈ opened, attempt.address = address ∧
      (∀ other ∈ opened, other.id = io.attempt ↔ other = attempt) ∧
        device.model.watched = some (io.lastWatched attempt.watched)) ∧
      device.model.watched = some (state.shownPane address).toFinset ∧
        ∀ paneId, io.lastFocus paneId = some true ↔
          state.shownPane address = some paneId ∧ state.inactive = false

theorem Shows.holdsShown (shows : state.Shows opened) : state.HoldsShown opened := by
  intro address device io found held
  rcases (shows.devices address device found).holds io held with
    ⟨watched, -, ⟨attempt, ⟨listed, its⟩, same, told⟩, focused⟩
  refine ⟨⟨attempt, listed, its, ?_, ?_⟩, watched, ?_⟩
  · intro other otherListed
    have distinct : (opened.map (·.id)).Nodup :=
      shows.ids.sublist ((List.sublist_append_right state.attempts opened).map _)
    constructor
    · intro otherSame
      exact List.inj_on_of_nodup_map distinct otherListed listed (otherSame.trans same.symm)
    · rintro rfl
      exact same
  · rw [watched, told]
  · intro paneId
    rw [focused paneId]
    unfold focusedPanes
    cases state.inactive with
    | true => simp
    | false =>
        show paneId ∈ (state.shownPane address).toFinset ↔ _
        simp

end Companion

/-- The Companion with the attempts whose threads have ended, none of which was taken for
another one. -/
def watchedCompanions (C : ContentModel) :
    Transition.System (Companion C × List Attempt) (CompanionAction C) where
  initial state := (companionSystem C).initial state.1 ∧ state.2 = []
  step state action next :=
    (companionSystem C).step state.1 action next.1 ∧ state.1.HeedsOwn action ∧
      next.2 = state.2 ++ Companion.endedBy action

/-- In every run in which no attempt's result is taken for that of another one, a connection was
told of the Pane on screen alone, and gave the focus to it alone while the app is active. -/
theorem phone_holds_shown (C : ContentModel) (state : Companion C) (opened : List Attempt)
    (reached : (watchedCompanions C).Reachable (state, opened)) : state.HoldsShown opened := by
  have shows := reached.invariant (fun state => state.1.Shows state.2) ?_ ?_
  · exact shows.holdsShown
  · rintro ⟨state, opened⟩ ⟨⟨saved, rfl⟩, rfl⟩
    exact Companion.shows_init saved
  · rintro ⟨state, opened⟩ action ⟨next, later⟩ shows ⟨performs, own, rfl⟩
    exact shows.perform performs own

/-- The Pane that is opened while its connection is made is told of when the connection starts. -/
theorem phone_holds_shown_example :
    ∃ state : Companion blankContent, ∃ device io,
      state.HoldsShown [firstAttempt 0] ∧ state.device "desk" = some device ∧
        device.io = some io ∧ io.lastWatched ∅ = {⟨3⟩} ∧ io.lastFocus ⟨3⟩ = some true := by
  have started : (watchedCompanions blankContent).Reachable (.init [], []) :=
    .start ⟨⟨[], rfl⟩, rfl⟩
  have resumed := started.next
    (show (watchedCompanions blankContent).step _ .resume (_, []) from ⟨rfl, trivial, rfl⟩)
  have shaken := resumed.next
    (show (watchedCompanions blankContent).step _ (.pair "desk" "Desk") (_, []) from
      ⟨rfl, trivial, rfl⟩)
  have inserted := shaken.next
    (show (watchedCompanions blankContent).step _ (.proceed 0 (.ok ()) true) (_, []) from
      ⟨rfl, trivial, rfl⟩)
  have begun := inserted.next
    (show (watchedCompanions blankContent).step _ (.proceed 0 (.ok ()) true) (_, []) from
      ⟨rfl, trivial, rfl⟩)
  have shown := begun.next
    (show (watchedCompanions blankContent).step _ (.showPane (some "desk") ⟨3⟩ 0 0) (_, []) from
      ⟨rfl, trivial, rfl⟩)
  have connected := shown.next
    (show (watchedCompanions blankContent).step _
        (.finish (firstAttempt 0) madeConnection true) (_, [firstAttempt 0]) from
      ⟨rfl, fun _ _ _ => rfl, rfl⟩)
  exact ⟨_, _, _, phone_holds_shown blankContent _ _ connected, rfl, rfl, rfl, rfl⟩

end Condr
