import Condr.Client.Forward

/-!
# The link agrees with its connection

A result that lands under the lock may find another state than the one it was dialled in.
Where it looks again, the status, the connection and the users agree in every state; the
three results that do not look, and a worker that cannot be started, are exactly the steps
after which they may not.
-/

namespace Condr.Forward

namespace Link

/-- What the worker does next of its own, or `none` where it waits for another thread. -/
def own (link : Link) : Option Link :=
  match link.keeper with
  | some (.asleep _ false _ _) | some (.dialing _) | none => none
  | some (.watching connection) =>
      if (link.ended connection).isSome then some (link.keep true) else none
  | some _ => some (link.keep true)

/-- Undisturbed, the worker comes to dial. -/
inductive DialsAgain : Link → Prop where
  | now {link : Link} {backoff : Duration} (dials : link.keeper = some (.dialing backoff)) :
      DialsAgain link
  | step {link next : Link} (steps : link.own = some next) (later : DialsAgain next) :
      DialsAgain link

/-- The status, the connection, the terminal connection and the users agree. -/
structure Consistent (link : Link) : Prop where
  connected : link.state.status = .connected ↔ link.state.connection.isSome
  held : link.state.connection.isSome → 0 < link.state.users ∧ link.state.terminalUp = true
  idle : link.state.users = 0 → link.state.status = .idle ∧ link.state.connection = none
  /-- A `retain` that returned an error added no user. -/
  granted : link.state.users = link.granted

/-- What a person, the forwards and the Ports page may rely on. -/
structure Agrees (link : Link) : Prop extends link.Consistent where
  redials : 0 < link.state.users → link.state.terminalUp = true → link.state.connection = none →
    (∀ reason, link.state.status ≠ .refused reason) → link.DialsAgain

/-- The worker's flag and thread, its place and the dialling caller fit the state. -/
structure Fits (link : Link) : Prop extends link.Consistent where
  worker : link.state.worker = link.keeper.isSome
  used : 0 < link.state.users → link.keeper.isSome
  dialing : ∀ caller, link.callers caller = .dialing →
    link.state.dialing = true ∧ link.state.users = 0
  alone : ∀ caller other, link.callers caller = .dialing → link.callers other = .dialing →
    caller = other
  watched : ∀ connection, link.keeper = some (.watching connection) →
    link.state.connection = some connection ∨ (link.ended connection).isSome
  /-- A worker that sleeps with nobody to wake it has nothing to dial for. -/
  asleep : ∀ nudge backoff immediate, link.keeper = some (.asleep nudge false backoff immediate) →
    link.state.terminalUp = false ∨ ∃ reason, link.state.status = .refused reason

/-- A dial of `retain` lands while the terminal connection is up and a worker can be had;
a failure of the worker's dial lands while it is needed; and a loss is not taken for that of
the connection in place. -/
def Meets (link : Link) : Action → Prop
  | .dialed caller (.ok ()) spawned => link.callers caller = .dialing →
      link.state.terminalUp = true ∧ (link.state.worker = true ∨ spawned = true)
  | .keeperDialed (.error _) => ∀ backoff, link.keeper = some (.dialing backoff) →
      0 < link.state.users ∧ link.state.connection = none
  | .keep _ => ∀ connection reason, link.keeper = some (.lost connection reason) →
      link.state.connection = none ∨ link.state.connection = some connection
  | _ => True

theorem fits_new : new.Fits where
  connected := by simp [new]
  held held := nomatch held
  idle _ := ⟨rfl, rfl⟩
  granted := rfl
  worker := rfl
  used used := nomatch used
  dialing _ dialing := nomatch dialing
  alone _ _ dialing := nomatch dialing
  watched _ watching := nomatch watching
  asleep _ _ _ asleep := nomatch asleep

variable {link : Link}

/-! ## The worker dials again -/

/-- What makes a worker dial: the link is used, up, without a connection and not refused. -/
structure Needs (link : Link) : Prop where
  used : 0 < link.state.users
  up : link.state.terminalUp = true
  bare : link.state.connection = none
  unrefused : ∀ reason, link.state.status ≠ .refused reason

theorem Needs.moved (needs : link.Needs) (place : Keeper) :
    ({ link with keeper := some place } : Link).Needs :=
  ⟨needs.used, needs.up, needs.bare, needs.unrefused⟩

theorem Needs.dialsAgain_of_backingOff (needs : link.Needs) {nudge : ℕ} {backoff : Duration}
    (waiting : link.keeper = some (.backingOff nudge backoff)) : link.DialsAgain := by
  have used : link.state.users ≠ 0 := Nat.ne_of_gt needs.used
  have steps : link.own = some { link with keeper := some (.dialing backoff) } := by
    simp [own, waiting, keep, backedOff, used, needs.up]
  exact .step steps (.now rfl)

theorem Needs.dialsAgain_of_aboutToWait (needs : link.Needs) {backoff : Duration}
    (waiting : link.keeper = some (.aboutToWait backoff)) : link.DialsAgain := by
  have waits : link.Waits link.state.nudge := ⟨rfl, needs.used, needs.up⟩
  have steps : link.own =
      some { link with keeper := some (.backingOff link.state.nudge backoff) } := by
    simp [own, waiting, keep, waits]
  exact .step steps ((needs.moved _).dialsAgain_of_backingOff rfl)

theorem Needs.look_eq (needs : link.Needs) (backoff : Duration) (immediate : Bool) :
    link.look backoff immediate =
      { link with
        keeper := some (if immediate then .dialing backoff else .aboutToWait backoff) } := by
  have used : link.state.users ≠ 0 := Nat.ne_of_gt needs.used
  simp only [look, used, if_false, needs.bare]
  split
  · next absent => cases absent
  · next reason _ status => exact absurd status (needs.unrefused reason)
  · simp [needs.up]

theorem Needs.look_dialsAgain (needs : link.Needs) (backoff : Duration) (immediate : Bool) :
    (link.look backoff immediate).DialsAgain := by
  rw [needs.look_eq]
  cases immediate with
  | true => exact .now rfl
  | false => exact (needs.moved _).dialsAgain_of_aboutToWait rfl

theorem Needs.awake_dialsAgain (needs : link.Needs) (nudge : ℕ) (backoff : Duration)
    (immediate : Bool) : (link.awake nudge backoff immediate).DialsAgain := by
  unfold awake
  split
  · exact needs.look_dialsAgain backoff immediate
  · apply Needs.look_dialsAgain
    refine ⟨needs.used, needs.up, needs.bare, fun reason => ?_⟩
    simp only
    split
    · next refusal status => exact absurd status (needs.unrefused refusal)
    · exact needs.unrefused reason

theorem Needs.dialsAgain_of_lost (needs : link.Needs) {connection : Connection} {reason : String}
    (lost : link.keeper = some (.lost connection reason)) : link.DialsAgain := by
  have steps : link.own = some (link.connectionLost connection reason) := by
    simp [own, lost, keep]
  have after : (link.connectionLost connection reason).Needs :=
    ⟨needs.used, needs.up, by simp [connectionLost, needs.bare],
      by simp [connectionLost, needs.used, needs.up]⟩
  have looks : (link.connectionLost connection reason).own =
      some ((link.connectionLost connection reason).look retryFirst false) := rfl
  exact .step steps (.step looks (after.look_dialsAgain retryFirst false))

theorem Needs.dialsAgain_of_watching (needs : link.Needs) {connection : Connection}
    (watching : link.keeper = some (.watching connection))
    (ended : (link.ended connection).isSome) : link.DialsAgain := by
  rcases Option.isSome_iff_exists.mp ended with ⟨reason, ended⟩
  have steps : link.own = some { link with keeper := some (.lost connection reason) } := by
    simp [own, watching, keep, ended]
  exact .step steps ((needs.moved _).dialsAgain_of_lost rfl)

theorem Fits.agrees (fits : link.Fits) : link.Agrees := by
  refine ⟨fits.toConsistent, fun used up bare unrefused => ?_⟩
  have needs : link.Needs := ⟨used, up, bare, unrefused⟩
  rcases Option.isSome_iff_exists.mp (fits.used used) with ⟨place, keeper⟩
  cases place with
  | looking backoff immediate =>
      have steps : link.own = some (link.look backoff immediate) := by simp [own, keeper, keep]
      exact .step steps (needs.look_dialsAgain backoff immediate)
  | asleep nudge notified backoff immediate =>
      cases notified with
      | true =>
          have steps : link.own = some (link.awake nudge backoff immediate) := by
            simp [own, keeper, keep]
          exact .step steps (needs.awake_dialsAgain nudge backoff immediate)
      | false =>
          rcases fits.asleep nudge backoff immediate keeper with down | ⟨reason, refused⟩
          · simp [up] at down
          · exact absurd refused (unrefused reason)
  | watching connection =>
      rcases fits.watched connection keeper with held | ended
      · simp [bare] at held
      · exact needs.dialsAgain_of_watching keeper ended
  | lost connection reason => exact needs.dialsAgain_of_lost keeper
  | aboutToWait backoff => exact needs.dialsAgain_of_aboutToWait keeper
  | backingOff nudge backoff => exact needs.dialsAgain_of_backingOff keeper
  | dialing backoff => exact .now keeper

/-! ## Notifying and closing -/

section Helpers

variable (link)

/-- Notifying is about the worker's place only. -/
theorem notifyAll_eq : link.notifyAll = { link with keeper := link.notifyAll.keeper } := by
  unfold notifyAll; split <;> rfl

@[simp] theorem notifyAll_state : link.notifyAll.state = link.state := by
  rw [notifyAll_eq]

@[simp] theorem notifyAll_callers : link.notifyAll.callers = link.callers := by
  rw [notifyAll_eq]

@[simp] theorem notifyAll_ended : link.notifyAll.ended = link.ended := by
  rw [notifyAll_eq]

@[simp] theorem notifyAll_granted : link.notifyAll.granted = link.granted := by
  rw [notifyAll_eq]

@[simp] theorem notifyAll_keeper_isSome :
    link.notifyAll.keeper.isSome = link.keeper.isSome := by
  unfold notifyAll
  split
  · next nudge notified backoff immediate asleep => simp [asleep]
  · rfl

theorem notifyAll_watching {connection : Connection}
    (watching : link.notifyAll.keeper = some (.watching connection)) :
    link.keeper = some (.watching connection) := by
  unfold notifyAll at watching
  split at watching
  · simp at watching
  · exact watching

theorem notifyAll_awake (nudge : ℕ) (backoff : Duration) (immediate : Bool) :
    link.notifyAll.keeper ≠ some (.asleep nudge false backoff immediate) := by
  unfold notifyAll
  split
  · simp
  · next awake =>
      intro asleep
      exact awake _ _ _ _ asleep

@[simp] theorem takeConnection_state :
    link.takeConnection.state = { link.state with connection := none } := by
  unfold takeConnection
  split
  · rfl
  · next bare => simp [← bare]

theorem takeConnection_eq : link.takeConnection = { link.takeConnection with
    callers := link.callers, keeper := link.keeper, granted := link.granted } := by
  unfold takeConnection; split <;> rfl

@[simp] theorem takeConnection_callers : link.takeConnection.callers = link.callers := by
  rw [takeConnection_eq]

@[simp] theorem takeConnection_keeper : link.takeConnection.keeper = link.keeper := by
  rw [takeConnection_eq]

@[simp] theorem takeConnection_granted : link.takeConnection.granted = link.granted := by
  rw [takeConnection_eq]

/-- Whatever was ended stays ended, and what was held is ended too. -/
theorem takeConnection_ended {connection : Connection}
    (gone : link.state.connection = some connection ∨ (link.ended connection).isSome) :
    (link.takeConnection.ended connection).isSome := by
  unfold takeConnection
  split
  · next current held =>
      by_cases same : connection = current
      · simp [close, same]
      · rcases gone with this | ended
        · exact absurd (Option.some.inj (held ▸ this)).symm same
        · simpa [close, Function.update_of_ne same] using ended
  · next bare =>
      rcases gone with this | ended
      · simp [bare] at this
      · exact ended

end Helpers

/-! ## Callers -/

/-- Nobody dials while the state says so. -/
theorem Fits.no_dialing (fits : link.Fits) (quiet : link.state.dialing = false) (caller : ℕ) :
    link.callers caller ≠ .dialing := by
  intro dials
  have := (fits.dialing caller dials).1
  simp [quiet] at this

theorem update_dialing {callers : ℕ → Caller} {caller other : ℕ} {place : Caller}
    (still : place ≠ .dialing) (dials : Function.update callers caller place other = .dialing) :
    callers other = .dialing ∧ other ≠ caller := by
  by_cases same : other = caller
  · subst same
    rw [Function.update_self] at dials
    exact absurd dials still
  · rw [Function.update_of_ne same] at dials
    exact ⟨dials, same⟩

theorem Fits.setCaller (fits : link.Fits) (caller : ℕ) {place : Caller}
    (still : place ≠ .dialing) : (link.setCaller caller place).Fits where
  connected := fits.connected
  held := fits.held
  idle := fits.idle
  granted := fits.granted
  worker := fits.worker
  used := fits.used
  dialing other dials := fits.dialing other (update_dialing still dials).1
  alone one other dials alsoDials :=
    fits.alone one other (update_dialing still dials).1 (update_dialing still alsoDials).1
  watched := fits.watched
  asleep := fits.asleep

theorem Fits.retainLocked (fits : link.Fits) (quiet : link.state.dialing = false) (caller : ℕ) :
    (link.retainLocked caller).Fits := by
  have nobody := fits.no_dialing quiet
  unfold Link.retainLocked
  split
  · next holds =>
      simp only [Bool.and_eq_true, decide_eq_true_eq] at holds
      refine ⟨⟨fits.connected, fun held => ⟨Nat.succ_pos _, (fits.held held).2⟩, nofun, ?_⟩,
        fits.worker, fun _ => fits.used holds.1, ?_, ?_, fits.watched, fits.asleep⟩
      · simp [fits.granted]
      · exact fun other dials => absurd (update_dialing (by simp) dials).1 (nobody other)
      · exact fun one _ dials _ => absurd (update_dialing (by simp) dials).1 (nobody one)
  · next notHeld =>
      split
      · next used =>
          have bare : link.state.connection = none := by
            cases held : link.state.connection with
            | none => rfl
            | some connection => simp [used, held] at notHeld
          refine ⟨⟨?_, ?_, ?_, ?_⟩, ?_, ?_, ?_, ?_, ?_, ?_⟩
          · simp [bare]
          · simp [bare]
          · simp
          · simp [fits.granted]
          · simpa using fits.worker
          · intro _
            simpa using fits.used used
          · intro other dials
            rw [notifyAll_callers] at dials
            exact absurd (update_dialing (by simp) dials).1 (nobody other)
          · intro one other dials
            rw [notifyAll_callers] at dials
            exact absurd (update_dialing (by simp) dials).1 (nobody one)
          · intro connection watching
            have was := notifyAll_watching _ watching
            simpa using fits.watched connection was
          · intro nudge backoff immediate asleep
            exact absurd asleep (notifyAll_awake _ nudge backoff immediate)
      · next unused =>
          have none_used : link.state.users = 0 := by omega
          refine ⟨⟨fits.connected, fits.held, fits.idle, fits.granted⟩, fits.worker, fits.used, ?_, ?_,
            fits.watched, fits.asleep⟩
          · intro other dials
            exact ⟨rfl, none_used⟩
          · intro one other dials alsoDials
            have only (who : ℕ)
                (dials : Function.update link.callers caller .dialing who = .dialing) :
                who = caller := by
              by_contra different
              rw [Function.update_of_ne different] at dials
              exact nobody who dials
            rw [only one dials, only other alsoDials]

theorem Fits.retainLoop (fits : link.Fits) (caller : ℕ) : (link.retainLoop caller).Fits := by
  unfold Link.retainLoop
  cases quiet : link.state.dialing with
  | true => exact fits.setCaller caller (by simp)
  | false => exact fits.retainLocked quiet caller

theorem Fits.retain (fits : link.Fits) (caller : ℕ) : (link.retain caller).Fits := by
  unfold Link.retain
  split
  · exact fits.retainLoop caller
  · exact fits

theorem Fits.wake (fits : link.Fits) (caller : ℕ) : (link.wake caller).Fits := by
  unfold Link.wake
  split
  · split
    · exact fits
    · split
      · exact fits.setCaller caller (by simp)
      · exact fits.retainLoop caller
  · exact fits

/-- The state right after a dial of `retain` ended, in either way. -/
def dialEnded (link : Link) (caller : ℕ) (result : Except DialError Unit) : Link :=
  notifyAll { link with
    state := { link.state with
      dialing := false
      dials := link.state.dials + 1
      dialError := match result with
        | .ok () => none
        | .error error => some error.text }
    callers := Function.update link.callers caller .idle }

theorem Fits.dialEnded (fits : link.Fits) {caller : ℕ} (dials : link.callers caller = .dialing)
    (result : Except DialError Unit) :
    (link.dialEnded caller result).Fits ∧
      ∀ other, (link.dialEnded caller result).callers other ≠ .dialing := by
  have nobody (other : ℕ) : (link.dialEnded caller result).callers other ≠ .dialing := by
    intro stillDials
    simp only [Link.dialEnded, notifyAll_callers] at stillDials
    rcases update_dialing (by simp) stillDials with ⟨also, different⟩
    exact different (fits.alone other caller also dials)
  refine ⟨⟨⟨?_, ?_, ?_, ?_⟩, ?_, ?_, ?_, ?_, ?_, ?_⟩, nobody⟩
  · simpa [Link.dialEnded] using fits.connected
  · simpa [Link.dialEnded] using fits.held
  · simpa [Link.dialEnded] using fits.idle
  · simpa [Link.dialEnded] using fits.granted
  · simpa [Link.dialEnded] using fits.worker
  · simpa [Link.dialEnded] using fits.used
  · exact fun other dials => absurd dials (nobody other)
  · exact fun one _ dials => absurd dials (nobody one)
  · intro connection watching
    have was := notifyAll_watching _ watching
    simpa [Link.dialEnded] using fits.watched connection was
  · intro nudge backoff immediate asleep
    exact absurd asleep (notifyAll_awake _ nudge backoff immediate)

theorem Fits.dialed (fits : link.Fits) {caller : ℕ} {result : Except DialError Unit}
    {spawned : Bool} (meets : link.Meets (.dialed caller result spawned)) :
    (link.dialed caller result spawned).Fits := by
  cases dials : link.callers caller with
  | dialing =>
      rcases fits.dialEnded dials result with ⟨ended, nobody⟩
      rcases fits.dialing caller dials with ⟨_, unused⟩
      cases result with
      | error error =>
          have same : link.dialed caller (.error error) spawned =
              link.dialEnded caller (.error error) := by
            simp [Link.dialed, dials, Link.dialEnded]
          rw [same]
          exact ended
      | ok value =>
          rcases meets dials with ⟨up, works⟩
          have bare : link.state.connection = none := (fits.idle unused).2
          have worker := fits.worker
          simp only [Link.dialed, dials]
          refine ⟨⟨by simp, ?_, by simp, ?_⟩, ?_, ?_, ?_, ?_, ?_, ?_⟩
          · simp [up]
          · have granted := fits.granted
            rcases works with already | could <;> simp_all
          · rcases works with already | could
            · simp [already, ← worker]
            · cases already : link.state.worker <;> simp [already, could, ← worker]
          · intro _
            rcases works with already | could
            · simp [already, ← worker]
            · cases already : link.state.worker <;> simp [already, could, ← worker]
          · intro other stillDials
            exact absurd stillDials (nobody other)
          · intro one other stillDials
            exact absurd stillDials (nobody one)
          · intro connection watching
            simp only [notifyAll_ended] at watching ⊢
            split at watching
            · simp at watching
            · have was := notifyAll_watching _ watching
              rcases fits.watched connection was with held | closed
              · simp [bare] at held
              · exact .inr closed
          · intro nudge backoff immediate asleep
            simp only at asleep
            split at asleep
            · simp at asleep
            · exact absurd asleep (notifyAll_awake _ nudge backoff immediate)
  | idle => simpa [Link.dialed, dials] using fits
  | waiting number => simpa [Link.dialed, dials] using fits

/-- A link whose connection is taken from it, and which is told so, is idle. -/
theorem fits_idled (granted : link.state.users = link.granted)
    (worker : link.state.worker = link.keeper.isSome)
    (used : 0 < link.state.users → link.keeper.isSome)
    (dialing : ∀ caller, link.callers caller = .dialing →
      link.state.dialing = true ∧ link.state.users = 0)
    (alone : ∀ caller other, link.callers caller = .dialing → link.callers other = .dialing →
      caller = other)
    (watched : ∀ connection, link.keeper = some (.watching connection) →
      link.state.connection = some connection ∨ (link.ended connection).isSome) :
    link.idled.Fits := by
  unfold idled
  refine ⟨⟨by simp, by simp, by simp, by simpa using granted⟩, by simpa using worker,
    by simpa using used, by simpa using dialing, by simpa using alone, ?_, ?_⟩
  · intro connection watching
    have was := notifyAll_watching _ watching
    rw [takeConnection_keeper] at was
    refine .inr ?_
    rw [notifyAll_ended]
    exact takeConnection_ended link (watched connection was)
  · intro nudge backoff immediate asleep
    exact absurd asleep (notifyAll_awake _ nudge backoff immediate)

theorem Fits.release (fits : link.Fits) : link.release.Fits := by
  have granted : link.state.users - 1 = link.granted - 1 := congrArg (· - 1) fits.granted
  simp only [Link.release]
  split
  · next unused =>
      apply fits_idled
      · exact granted
      · exact fits.worker
      · exact fun used => absurd unused (Nat.ne_of_gt used)
      · exact fun caller dials => ⟨(fits.dialing caller dials).1, unused⟩
      · exact fits.alone
      · exact fits.watched
  · next used =>
      have before : 0 < link.state.users := by omega
      refine ⟨⟨fits.connected, fun held => ⟨Nat.pos_of_ne_zero used, (fits.held held).2⟩,
        fun unused => absurd unused used, granted⟩, fits.worker, fun _ => fits.used before, ?_,
        fits.alone, fits.watched, fits.asleep⟩
      intro caller dials
      have := (fits.dialing caller dials).2
      omega

theorem Fits.setTerminalConnected (fits : link.Fits) (up : Bool) :
    (link.setTerminalConnected up).Fits := by
  cases up with
  | true =>
      simp only [Link.setTerminalConnected, if_true]
      refine ⟨⟨by simpa using fits.connected, ?_, by simpa using fits.idle,
        by simpa using fits.granted⟩, by simpa using fits.worker, by simpa using fits.used,
        by simpa using fits.dialing, by simpa using fits.alone, ?_, ?_⟩
      · intro held
        simp only [notifyAll_state] at held ⊢
        exact ⟨(fits.held held).1, trivial⟩
      · intro connection watching
        have was := notifyAll_watching _ watching
        simpa using fits.watched connection was
      · intro nudge backoff immediate asleep
        exact absurd asleep (notifyAll_awake _ nudge backoff immediate)
  | false =>
      simp only [Link.setTerminalConnected, Bool.false_eq_true, if_false]
      apply fits_idled
      · exact fits.granted
      · exact fits.worker
      · exact fits.used
      · exact fits.dialing
      · exact fits.alone
      · exact fits.watched

theorem Fits.lose (fits : link.Fits) (connection : Connection) (reason : String) :
    (link.lose connection reason).Fits := by
  unfold Link.lose
  split
  · refine ⟨⟨fits.connected, fits.held, fits.idle, fits.granted⟩, fits.worker, fits.used,
      fits.dialing, fits.alone, ?_, fits.asleep⟩
    intro watched watching
    rcases fits.watched watched watching with held | ended
    · exact .inl held
    · by_cases same : watched = connection
      · simp [same]
      · simpa [Function.update_of_ne same] using Or.inr ended
  · exact fits

/-! ## The worker -/

/-- Moving the worker to a place where it neither watches nor sleeps. -/
theorem Fits.moved (fits : link.Fits) (working : link.keeper.isSome) {place : Keeper}
    (watches : ∀ connection, place ≠ .watching connection)
    (sleeps : ∀ nudge backoff immediate, place ≠ .asleep nudge false backoff immediate) :
    ({ link with keeper := some place } : Link).Fits where
  connected := fits.connected
  held := fits.held
  idle := fits.idle
  granted := fits.granted
  worker := by simp [fits.worker, working]
  used _ := rfl
  dialing := fits.dialing
  alone := fits.alone
  watched connection watching := absurd (Option.some.inj watching) (watches connection)
  asleep nudge backoff immediate asleep :=
    absurd (Option.some.inj asleep) (sleeps nudge backoff immediate)

theorem Fits.look (fits : link.Fits) (working : link.keeper.isSome) (backoff : Duration)
    (immediate : Bool) : (link.look backoff immediate).Fits := by
  have asleep (idles : link.state.terminalUp = false ∨ ∃ reason, link.state.status = .refused reason) :
      ({ link with
        keeper := some (.asleep link.state.nudge false backoff immediate) } : Link).Fits :=
    ⟨⟨fits.connected, fits.held, fits.idle, fits.granted⟩, by simp [fits.worker, working],
      fun _ => rfl, fits.dialing, fits.alone, nofun, fun _ _ _ _ => idles⟩
  unfold Link.look
  split
  · next unused =>
      exact ⟨⟨fits.connected, fits.held, fits.idle, fits.granted⟩, rfl,
        fun used => absurd unused (Nat.ne_of_gt used), fits.dialing, fits.alone, nofun, nofun⟩
  · split
    · next connection held =>
        refine ⟨⟨fits.connected, fits.held, fits.idle, fits.granted⟩,
          by simp [fits.worker, working], fun _ => rfl, fits.dialing, fits.alone, ?_, nofun⟩
        rintro watched ⟨⟩
        exact .inl held
    · next reason _ refused => exact asleep (.inr ⟨reason, refused⟩)
    · split
      · exact fits.moved working (by cases immediate <;> simp) (by cases immediate <;> simp)
      · next down => exact asleep (.inl (by simpa using down))

/-- The status of a link whose worker was nudged. -/
def nudged (link : Link) : Link :=
  { link with
    state := { link.state with
      status := match link.state.status with
        | .refused reason =>
            if 0 < link.state.users then .reconnecting "connecting" else .refused reason
        | status => status } }

theorem awake_eq (nudge : ℕ) (backoff : Duration) (immediate : Bool) :
    link.awake nudge backoff immediate =
      if link.state.nudge = nudge then link.look backoff immediate
      else link.nudged.look backoff true := rfl

theorem Fits.nudged (fits : link.Fits)
    (roused : ∀ nudge backoff immediate, link.keeper ≠ some (.asleep nudge false backoff immediate)) :
    link.nudged.Fits := by
  refine ⟨⟨?_, fits.held, ?_, fits.granted⟩, fits.worker, fits.used, fits.dialing, fits.alone,
    fits.watched, fun nudge backoff immediate asleep =>
      absurd asleep (roused nudge backoff immediate)⟩
  · have connected := fits.connected
    simp only [Link.nudged]
    split
    · next reason refused =>
        rw [refused] at connected
        split <;> simpa using connected
    · exact connected
  · intro unused
    rcases fits.idle unused with ⟨idle, bare⟩
    exact ⟨by simp [Link.nudged, idle], bare⟩

theorem Fits.awake (fits : link.Fits) (working : link.keeper.isSome) (nudge : ℕ)
    (backoff : Duration) (immediate : Bool) : (link.awake nudge backoff immediate).Fits := by
  -- A spurious wakeup finds the worker asleep; the loop takes it on from there.
  have roused : ({ link with keeper := some (.looking backoff immediate) } : Link).Fits :=
    fits.moved working (by simp) (by simp)
  rw [awake_eq]
  split
  · exact fits.look working backoff immediate
  · exact (roused.nudged (by simp)).look rfl backoff true

theorem Fits.connectionLost (fits : link.Fits) (working : link.keeper.isSome)
    {connection : Connection} {reason : String}
    (known : link.state.connection = none ∨ link.state.connection = some connection) :
    (link.connectionLost connection reason).Fits := by
  have gone : (if link.state.connection = some connection then none else link.state.connection) =
      none := by
    rcases known with bare | held
    · simp [bare]
    · simp [held]
  unfold Link.connectionLost
  simp only [gone]
  refine ⟨⟨?_, by simp, ?_, fits.granted⟩, by simp [fits.worker, working], fun _ => rfl,
    fits.dialing, fits.alone, nofun, nofun⟩
  · split
    · simp
    · next unneeded =>
        -- Without users or without the terminal connection nothing was held.
        have connected := fits.connected
        have held := fits.held
        cases current : link.state.connection with
        | none => simpa [current] using connected
        | some other => simp [held (by simp [current])] at unneeded
  · intro unused
    simp only at unused
    simp [unused, fits.idle unused]

theorem Fits.backedOff (fits : link.Fits) (working : link.keeper.isSome) (backoff : Duration) :
    (link.backedOff backoff).Fits := by
  unfold Link.backedOff
  apply fits.moved working <;> intros <;> split <;> simp

theorem Fits.keep (fits : link.Fits) {timedOut : Bool} (meets : link.Meets (.keep timedOut)) :
    (link.keep timedOut).Fits := by
  have working {place : Keeper} (keeper : link.keeper = some place) : link.keeper.isSome := by
    simp [keeper]
  unfold Link.keep
  split
  · next keeper => exact fits.look (working keeper) _ _
  · next nudge notified backoff immediate keeper =>
      exact fits.awake (working keeper) nudge backoff immediate
  · next connection keeper =>
      split
      · exact fits.moved (working keeper) (by simp) (by simp)
      · exact fits
  · next connection reason keeper =>
      exact fits.connectionLost (working keeper) (meets connection reason keeper)
  · next backoff keeper =>
      split
      · exact fits.moved (working keeper) (by simp) (by simp)
      · exact fits.backedOff (working keeper) backoff
  · next nudge backoff keeper =>
      split
      · exact fits
      · exact fits.backedOff (working keeper) backoff
  · exact fits
  · exact fits

theorem Fits.keeperDialed (fits : link.Fits) {result : Except DialError Unit}
    (meets : link.Meets (.keeperDialed result)) : (link.keeperDialed result).Fits := by
  unfold Link.keeperDialed
  split
  · next backoff keeper =>
      have worker : link.state.worker = true := by simp [fits.worker, keeper]
      cases result with
      | ok value =>
          simp only
          split
          · exact ⟨⟨fits.connected, fits.held, fits.idle, fits.granted⟩, by simp [close, worker],
              fun _ => rfl, fits.dialing, fits.alone, nofun, nofun⟩
          · next needed =>
              simp only [Bool.or_eq_true, decide_eq_true_eq, Bool.not_eq_true', not_or,
                Bool.not_eq_false, Option.not_isSome_iff_eq_none] at needed
              rcases needed with ⟨⟨used, up⟩, bare⟩
              exact ⟨⟨by simp, fun _ => ⟨Nat.pos_of_ne_zero used, up⟩,
                fun unused => absurd unused used, fits.granted⟩, by simp [worker], fun _ => rfl,
                fits.dialing, fits.alone, nofun, nofun⟩
      | error error =>
          rcases meets backoff keeper with ⟨used, bare⟩
          refine ⟨⟨?_, by simp [bare], fun unused => absurd unused (Nat.ne_of_gt used),
            fits.granted⟩, by simp [worker], fun _ => rfl, fits.dialing, fits.alone, nofun, nofun⟩
          simp only [bare]
          split <;> simp
  · exact fits

/-! ## Steps and runs -/

theorem Fits.step (fits : link.Fits) {action : Action} (meets : link.Meets action) :
    (step link action).Fits := by
  cases action with
  | retain caller => exact fits.retain caller
  | wake caller => exact fits.wake caller
  | dialed caller result spawned => exact fits.dialed meets
  | release => exact fits.release
  | setTerminalConnected up => exact fits.setTerminalConnected up
  | lose connection reason => exact fits.lose connection reason
  | keep timedOut => exact fits.keep meets
  | keeperDialed result => exact fits.keeperDialed meets

theorem Fits.needs_dialed (fits : link.Fits) {caller : ℕ} {spawned : Bool}
    (agrees : (link.dialed caller (.ok ()) spawned).Agrees) :
    link.Meets (.dialed caller (.ok ()) spawned) := by
  intro dials
  have held := agrees.held
  have granted := agrees.granted
  simp only [Link.dialed, dials, notifyAll_state, notifyAll_granted, Option.isSome_some,
    forall_const] at held granted
  refine ⟨held.2, ?_⟩
  have before := fits.granted
  by_contra unavailable
  simp only [not_or, Bool.not_eq_true] at unavailable
  simp [unavailable.1, unavailable.2] at granted
  omega

theorem Fits.needs_keeperDialed {error : DialError}
    (agrees : (link.keeperDialed (.error error)).Agrees) :
    link.Meets (.keeperDialed (.error error)) := by
  intro backoff keeper
  have idle := agrees.idle
  have connected := agrees.connected
  simp only [Link.keeperDialed, keeper] at idle connected
  constructor
  · by_contra unused
    have := (idle (by omega)).1
    split at this <;> simp at this
  · cases current : link.state.connection with
    | none => rfl
    | some connection =>
        rw [current] at connected
        split at connected <;> simp at connected

theorem Fits.needs_keep (fits : link.Fits) {timedOut : Bool}
    (agrees : (link.keep timedOut).Agrees) : link.Meets (.keep timedOut) := by
  intro connection reason keeper
  have connected := agrees.connected
  simp only [Link.keep, keeper, Link.connectionLost] at connected
  by_contra other
  rw [not_or] at other
  rcases Option.ne_none_iff_exists'.mp other.1 with ⟨current, held⟩
  rcases fits.held (by simp [held]) with ⟨used, up⟩
  simp [held, used, up] at connected
  exact other.2 (held.trans (congrArg some connected))

theorem Fits.needs (fits : link.Fits) {action : Action} (agrees : (Forward.step link action).Agrees) :
    link.Meets action := by
  cases action with
  | dialed caller result spawned =>
      cases result with
      | ok value => exact fits.needs_dialed agrees
      | error error => trivial
  | keeperDialed result =>
      cases result with
      | ok value => trivial
      | error error => exact Fits.needs_keeperDialed agrees
  | keep timedOut => exact fits.needs_keep agrees
  | retain caller => trivial
  | wake caller => trivial
  | release => trivial
  | setTerminalConnected up => trivial
  | lose connection reason => trivial

end Link

/-- In every interleaving, the link agrees with its connection in every state exactly when
each result that lands, and the start of the worker, meets its condition. -/
theorem stream_link_agrees_iff (actions : List Action) :
    (∀ taken, taken <+: actions → (Runs.run step .new taken).Agrees) ↔
      Runs.Each step Link.Meets .new actions :=
  Runs.forall_prefix_iff_each (fun _ fits => Link.Fits.agrees fits)
    (fun _ _ fits meets => Link.Fits.step fits meets)
    (fun _ _ fits agrees => Link.Fits.needs fits agrees) Link.fits_new

/-- The first dial lands after the terminal connection is gone, and the link holds it. -/
theorem dial_lands_while_terminal_down :
    ¬(Runs.run step .new
      [.retain 0, .setTerminalConnected false, .dialed 0 (.ok ()) true]).Agrees := by
  intro agrees
  exact absurd (agrees.held rfl).2 (by decide)

end Condr.Forward
