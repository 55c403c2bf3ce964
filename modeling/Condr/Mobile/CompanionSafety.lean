import Condr.Mobile.CompanionSteps

/-!
# What connections a Companion holds

A thread tells by the generation of a Device whether it is still the one that was begun last.
That is right as long as no Device takes the place of another while a thread of the other is
left, since its generations start again. What holds of every Device then follows from every
step.
-/

namespace Condr

/-! ## What happened last -/

/-- Whether an attempt for the address that was begun before is over. -/
def Happening.concerns (address : String) : Happening → Bool
  | .began other _ | .forgotten other | .disconnected other => other = address
  | .suspended => true

/-- The attempt was the last one begun for the address, and nothing ended it since. -/
def Latest (history : List Happening) (address : String) (attempt : ℕ) : Prop :=
  (history.filter (·.concerns address)).getLast? = some (.began address attempt)

instance (history : List Happening) (address : String) (attempt : ℕ) :
    Decidable (Latest history address attempt) :=
  inferInstanceAs (Decidable (_ = _))

theorem Latest.unique {history : List Happening} {address : String} {first second : ℕ}
    (isFirst : Latest history address first) (isSecond : Latest history address second) :
    first = second := by
  have same := isFirst.symm.trans isSecond
  cases same
  rfl

theorem latest_began (history : List Happening) (address : String) (attempt : ℕ) :
    Latest (history ++ [.began address attempt]) address attempt := by
  simp [Latest, List.filter_append, Happening.concerns]

theorem Latest.other {history : List Happening} {address : String} {attempt : ℕ}
    (latest : Latest history address attempt) {happening : Happening}
    (apart : happening.concerns address = false) :
    Latest (history ++ [happening]) address attempt := by
  have skipped : [happening].filter (·.concerns address) = [] := by
    rw [List.filter_singleton, apart]
    rfl
  rw [Latest, List.filter_append, skipped, List.append_nil]
  exact latest

namespace Companion

variable {C : ContentModel}

/-! ## The invariant -/

/-- What holds of the Device of an address and the threads that were started for it. -/
structure SoundAt (state : Companion C) (address : String) (device : Device C) : Prop where
  /-- A thread is never ahead of the Device, and where it is not behind it, it is the latest. -/
  current : ∀ thread ∈ state.threads, thread.address = address →
    thread.generation ≤ device.generation ∧
      (thread.generation = device.generation → Latest state.history address thread.id)
  /-- While an attempt is on its way, the Device holds nothing. -/
  waiting : ∀ attempt ∈ state.attempts, attempt.address = address →
    attempt.generation = device.generation → device.io = none
  held : device.status = .connected ↔ device.io.isSome
  parked : state.suspended = true → isEngaged device.status = false
  /-- A suspended Companion takes nothing from a thread. -/
  stale : state.suspended = true → ∀ thread ∈ state.threads, thread.address = address →
    thread.generation ≠ device.generation

structure Sound (state : Companion C) : Prop where
  /-- Every thread is of an attempt of its own. -/
  ids : (state.threads.map (·.id)).Nodup
  earlier : ∀ thread ∈ state.threads, thread.id < state.next
  devices : ∀ address device, state.device address = some device → state.SoundAt address device

theorem held_of_idle {device : Device C} (idle : isEngaged device.status = false)
    (io : device.io = none) : device.status = .connected ↔ device.io.isSome := by
  constructor
  · intro connected
    rw [connected] at idle
    cases idle
  · intro holds
    rw [io] at holds
    cases holds

/-! ## The first state -/

/-- The Devices of the app start out as new ones. -/
theorem init_device (saved : List (String × String)) {address : String} {device : Device C}
    (found : (init saved).device address = some device) : ∃ label, device = .init label := by
  have fresh : ∀ value, Entries.get address (init saved : Companion C).devices = some value →
      ∃ label, value = Device.init label := by
    apply List.foldlRecOn saved _ (motive := fun devices : List (String × Device C) =>
      ∀ value, Entries.get address devices = some value → ∃ label, value = Device.init label)
    · intro value missing
      cases missing
    · intro devices fresh entry _ value found
      rw [Entries.get_insert] at found
      split_ifs at found
      · rcases Option.some.inj found with rfl
        exact ⟨entry.2, rfl⟩
      · exact fresh value found
  exact fresh device found

theorem sound_init (saved : List (String × String)) : (init saved : Companion C).Sound where
  ids := List.nodup_nil
  earlier := nofun
  devices address device found := by
    rcases init_device saved found with ⟨label, rfl⟩
    exact {
      current := nofun
      waiting := nofun
      held := held_of_idle rfl rfl
      parked := fun _ => rfl
      stale := nofun }

/-! ## Steps -/

section Devices

variable {state next : Companion C} {address : String} {before after : Device C}

/-- A Device that is as connected as before, where no thread of its address came. -/
theorem SoundAt.alike (sound : state.SoundAt address before) (alike : before.Alike after)
    (attempts : ∀ attempt ∈ next.attempts, attempt.address = address →
      attempt ∈ state.attempts)
    (threads : ∀ thread ∈ next.threads, thread.address = address → thread ∈ state.threads)
    (history : ∀ attempt, Latest state.history address attempt →
      Latest next.history address attempt)
    (suspended : next.suspended = true → state.suspended = true) :
    next.SoundAt address after where
  current thread listed its := by
    have kept := sound.current thread (threads thread listed its) its
    rw [alike.generation]
    exact ⟨kept.1, fun same => history _ (kept.2 same)⟩
  waiting attempt listed its same := by
    have none := sound.waiting attempt (attempts attempt listed its) its
      (same.trans alike.generation)
    have holds := alike.io
    rw [none] at holds
    exact Option.isNone_iff_eq_none.mp (by simpa using holds)
  held := by rw [alike.status, alike.io, sound.held]
  parked asleep := by rw [alike.status, sound.parked (suspended asleep)]
  stale asleep thread listed its := by
    rw [alike.generation]
    exact sound.stale (suspended asleep) thread (threads thread listed its) its

/-- A Device whose connection ended leaves every thread behind. -/
theorem SoundAt.ended (sound : state.SoundAt address before) (ended : before.Ended after)
    (threads : next.threads = state.threads) : next.SoundAt address after := by
  have behind : ∀ thread ∈ next.threads, thread.address = address →
      thread.generation < after.generation := by
    intro thread listed its
    rw [threads] at listed
    rw [ended.generation]
    exact Nat.lt_succ_of_le (sound.current thread listed its).1
  exact {
    current := fun thread listed its => by
      have later := behind thread listed its
      exact ⟨later.le, fun same => absurd same later.ne⟩
    waiting := fun _ _ _ _ => ended.io
    held := held_of_idle ended.idle ended.io
    parked := fun _ => ended.idle
    stale := fun _ thread listed its => (behind thread listed its).ne }

end Devices

theorem mem_threads {state : Companion C} {thread : Attempt} :
    thread ∈ state.threads ↔ thread ∈ state.attempts ∨ thread ∈ state.pumps :=
  List.mem_append

theorem Keeps.threads {state next : Companion C} (keeps : state.Keeps next) :
    next.threads = state.threads := by
  unfold Companion.threads
  rw [keeps.attempts, keeps.pumps]

theorem Updates.lookup {state next : Companion C} {address : String} {value : Option (Device C)}
    (updates : state.Updates next address value) {other : String} {device : Device C}
    (found : next.device other = some device) :
    (other = address ∧ value = some device) ∨
      (address ≠ other ∧ state.device other = some device) := by
  rw [updates other] at found
  split_ifs at found with same
  · exact .inl ⟨same.symm, found⟩
  · exact .inr ⟨same, found⟩

/-- Two threads of one attempt are the same. -/
theorem Sound.thread_unique {state : Companion C} (sound : state.Sound) {first second : Attempt}
    (isFirst : first ∈ state.threads) (isSecond : second ∈ state.threads)
    (same : first.id = second.id) : first = second :=
  List.inj_on_of_nodup_map sound.ids isFirst isSecond same

/-- The threads of a state whose attempts and pumps are among those of the one before. -/
theorem Sound.fewer {state next : Companion C} (sound : state.Sound)
    (threads : next.threads.Subperm state.threads) (number : next.next = state.next) :
    (next.threads.map (·.id)).Nodup ∧ ∀ thread ∈ next.threads, thread.id < next.next := by
  constructor
  · rcases threads with ⟨list, perm, sublist⟩
    have listed : (list.map (·.id)).Nodup := sound.ids.sublist (sublist.map _)
    exact (perm.map _).nodup_iff.mp listed
  · intro thread listed
    rw [number]
    exact sound.earlier thread (threads.subset listed)

theorem threads_made {state next : Companion C} {attempt : Attempt}
    (begun : attempt ∈ state.attempts) (attempts : next.attempts = state.attempts.erase attempt)
    (pumps : next.pumps = state.pumps ++ [attempt] ∨ next.pumps = state.pumps) :
    next.threads.Subperm state.threads := by
  unfold Companion.threads
  rw [attempts]
  rcases pumps with pumped | unpumped
  · rw [pumped]
    have front : (state.attempts.erase attempt ++ (state.pumps ++ [attempt])).Perm
        (attempt :: (state.attempts.erase attempt ++ state.pumps)) := by
      rw [← List.append_assoc]
      exact List.perm_append_comm
    have back : (attempt :: (state.attempts.erase attempt ++ state.pumps)).Perm
        (state.attempts ++ state.pumps) :=
      (List.perm_cons_erase begun).symm.append_right state.pumps
    exact (front.trans back).subperm
  · rw [unpumped]
    exact (List.erase_sublist.append_right state.pumps).subperm

/-- No other attempt is on its way for a Device whose latest one ends. -/
theorem Sound.last_attempt {state : Companion C} (sound : state.Sound) {attempt other : Attempt}
    {device : Device C} (begun : attempt ∈ state.attempts)
    (found : state.device attempt.address = some device)
    (current : attempt.generation = device.generation)
    (listed : other ∈ state.attempts.erase attempt) (its : other.address = attempt.address) :
    other.generation ≠ device.generation := by
  intro same
  have holds := sound.devices attempt.address device found
  have otherBegun := List.mem_of_mem_erase listed
  have latest := (holds.current attempt (mem_threads.mpr (.inl begun)) rfl).2 current
  have otherLatest := (holds.current other (mem_threads.mpr (.inl otherBegun)) its).2 same
  obtain rfl := sound.thread_unique (mem_threads.mpr (.inl otherBegun))
    (mem_threads.mpr (.inl begun)) (otherLatest.unique latest)
  have distinct : state.attempts.Nodup :=
    (List.Nodup.of_map _ sound.ids).sublist (List.sublist_append_left _ _)
  exact distinct.not_mem_erase listed

theorem Sound.quiet {state next : Companion C} (sound : state.Sound)
    (devices : state.Quiet next) (attempts : next.attempts.Sublist state.attempts)
    (pumps : next.pumps.Sublist state.pumps) (number : next.next = state.next)
    (history : next.history = state.history)
    (suspended : next.suspended = true → state.suspended = true) : next.Sound := by
  have threads : next.threads.Sublist state.threads := attempts.append pumps
  rcases sound.fewer threads.subperm number with ⟨ids, earlier⟩
  refine ⟨ids, earlier, ?_⟩
  intro address after found
  rcases devices address after found with ⟨before, beforeFound, alike⟩
  refine (sound.devices address before beforeFound).alike alike ?_ ?_ ?_ suspended
  · exact fun _ listed _ => attempts.subset listed
  · exact fun _ listed _ => threads.subset listed
  · rw [history]
    exact fun _ latest => latest

/-- A step that gives one address another Device, or none, and starts no thread. -/
theorem Sound.updates {state next : Companion C} {address : String} {value : Option (Device C)}
    (sound : state.Sound) (devices : state.Updates next address value)
    (keeps : state.Keeps next)
    (history : ∀ other attempt, address ≠ other → Latest state.history other attempt →
      Latest next.history other attempt)
    (updated : ∀ device, value = some device → next.SoundAt address device) : next.Sound := by
  rcases sound.fewer (List.Perm.of_eq keeps.threads).subperm keeps.number with ⟨ids, earlier⟩
  refine ⟨ids, earlier, ?_⟩
  intro other after found
  rcases devices.lookup found with ⟨rfl, isValue⟩ | ⟨apart, beforeFound⟩
  · exact updated after isValue
  · refine (sound.devices other after beforeFound).alike (.refl after) ?_ ?_ ?_ ?_
    · rw [keeps.attempts]
      exact fun _ listed _ => listed
    · rw [keeps.threads]
      exact fun _ listed _ => listed
    · exact fun attempt => history other attempt apart
    · rw [keeps.suspended]
      exact id

theorem concerns_apart {address other : String} (apart : address ≠ other) (attempt : ℕ) :
    (Happening.forgotten address).concerns other = false ∧
      (Happening.disconnected address).concerns other = false ∧
      (Happening.began address attempt).concerns other = false := by
  simp [Happening.concerns, apart]

theorem Sound.inserted {state next : Companion C} {address label : String} (sound : state.Sound)
    (alone : ∀ thread ∈ state.threads, thread.address ≠ address)
    (devices : state.Updates next address (some (.init label))) (keeps : state.Keeps next)
    (history : next.history = state.history) : next.Sound := by
  have none : ∀ thread ∈ next.threads, thread.address ≠ address := by
    rw [keeps.threads]
    exact alone
  refine sound.updates devices keeps ?_ ?_
  · rw [history]
    exact fun _ _ _ latest => latest
  · intro device isNew
    rcases Option.some.inj isNew with rfl
    exact {
      current := fun thread listed its => absurd its (none thread listed)
      waiting := fun _ _ _ _ => rfl
      held := held_of_idle rfl rfl
      parked := fun _ => rfl
      stale := fun _ thread listed its => absurd its (none thread listed) }

theorem Sound.suspended {state next : Companion C} (sound : state.Sound)
    (devices : ∀ address after, next.device address = some after →
      ∃ before, state.device address = some before ∧ before.Ended after)
    (attempts : next.attempts = state.attempts) (pumps : next.pumps = state.pumps)
    (number : next.next = state.next) : next.Sound := by
  have threads : next.threads = state.threads := by
    unfold Companion.threads
    rw [attempts, pumps]
  rcases sound.fewer (List.Perm.of_eq threads).subperm number with ⟨ids, earlier⟩
  refine ⟨ids, earlier, ?_⟩
  intro address after found
  rcases devices address after found with ⟨before, beforeFound, ended⟩
  exact (sound.devices address before beforeFound).ended ended threads

theorem Sound.began {state next : Companion C} {attempt : Attempt} {before after : Device C}
    (sound : state.Sound) (found : state.device attempt.address = some before)
    (later : attempt.generation = before.generation + 1)
    (generation : after.generation = attempt.generation) (status : after.status = .connecting)
    (io : after.io = none) (devices : state.Updates next attempt.address (some after))
    (attempts : next.attempts = state.attempts ++ [attempt] ∨ next.attempts = state.attempts)
    (pumps : next.pumps = state.pumps) (id : attempt.id = state.next)
    (number : next.next = state.next + 1) (asleep : next.suspended = false)
    (history : next.history =
      state.history ++ [.disconnected attempt.address] ++ [.began attempt.address attempt.id]) :
    next.Sound := by
  have threads : next.threads.Perm (attempt :: state.threads) ∨
      next.threads = state.threads := by
    unfold Companion.threads
    rw [pumps]
    rcases attempts with spawned | refused
    · rw [spawned, List.append_assoc]
      exact .inl List.perm_middle
    · exact .inr (by rw [refused])
  have listed : ∀ thread ∈ next.threads, thread = attempt ∨ thread ∈ state.threads := by
    intro thread among
    rcases threads with spawned | refused
    · exact List.mem_cons.mp (spawned.subset among)
    · exact .inr (refused ▸ among)
  have awake : next.suspended ≠ true := by simp [asleep]
  have fresh : attempt.id ∉ state.threads.map (·.id) := by
    intro taken
    rcases List.mem_map.mp taken with ⟨thread, among, same⟩
    have earlier := sound.earlier thread among
    omega
  refine ⟨?_, ?_, ?_⟩
  · rcases threads with spawned | refused
    · exact (spawned.map _).nodup_iff.mpr (List.nodup_cons.mpr ⟨fresh, sound.ids⟩)
    · rw [refused]
      exact sound.ids
  · intro thread among
    rcases listed thread among with rfl | old
    · omega
    · have earlier := sound.earlier thread old
      omega
  · intro other device otherFound
    rcases devices.lookup otherFound with ⟨rfl, isAfter⟩ | ⟨apart, unchanged⟩
    · rcases Option.some.inj isAfter with rfl
      exact {
        current := by
          intro thread among its
          rcases listed thread among with rfl | old
          · refine ⟨generation.ge, fun _ => ?_⟩
            rw [history]
            exact latest_began _ _ _
          · have behind :=
              ((sound.devices attempt.address before found).current thread old its).1
            exact ⟨by omega, fun same => absurd same (by omega)⟩
        waiting := fun _ _ _ _ => io
        held := by simp [status, io]
        parked := fun suspended => absurd suspended awake
        stale := fun suspended => absurd suspended awake }
    · rcases concerns_apart apart attempt.id with ⟨-, disconnected, began⟩
      refine (sound.devices other device unchanged).alike (.refl device) ?_ ?_ ?_ ?_
      · intro thread among its
        rcases attempts with spawned | refused
        · rw [spawned] at among
          rcases List.mem_append.mp among with old | new
          · exact old
          · exact absurd (List.mem_singleton.mp new ▸ its) apart
        · exact refused ▸ among
      · intro thread among its
        rcases listed thread among with rfl | old
        · exact absurd its apart
        · exact old
      · intro other latest
        rw [history]
        exact (latest.other disconnected).other began
      · exact fun suspended => absurd suspended awake

/-- The Device of an attempt that ends takes its result; the threads stay, but for this one. -/
theorem Sound.settled {state next : Companion C} {attempt : Attempt} {before after : Device C}
    (sound : state.Sound) (begun : attempt ∈ state.attempts)
    (found : state.device attempt.address = some before)
    (current : before.generation = attempt.generation)
    (generation : after.generation = before.generation)
    (held : after.status = .connected ↔ after.io.isSome)
    (devices : state.Updates next attempt.address (some after))
    (attempts : next.attempts = state.attempts.erase attempt)
    (pumps : next.pumps = state.pumps ++ [attempt] ∨ next.pumps = state.pumps)
    (number : next.next = state.next) (suspended : next.suspended = state.suspended)
    (history : next.history = state.history) : next.Sound := by
  have threads := threads_made begun attempts pumps
  have here := sound.devices attempt.address before found
  -- a suspended Companion would not have taken the result
  have awake : next.suspended ≠ true := by
    rw [suspended]
    intro asleep
    exact here.stale asleep attempt (mem_threads.mpr (.inl begun)) rfl current.symm
  rcases sound.fewer threads number with ⟨ids, earlier⟩
  refine ⟨ids, earlier, ?_⟩
  intro other device otherFound
  rcases devices.lookup otherFound with ⟨rfl, isAfter⟩ | ⟨apart, unchanged⟩
  · rcases Option.some.inj isAfter with rfl
    exact {
      current := by
        intro thread listed its
        rw [history, generation]
        exact here.current thread (threads.subset listed) its
      waiting := by
        intro thread listed its same
        rw [attempts] at listed
        rw [generation] at same
        exact absurd same (sound.last_attempt begun found current.symm listed its)
      held
      parked := fun asleep => absurd asleep awake
      stale := fun asleep => absurd asleep awake }
  · refine (sound.devices other device unchanged).alike (.refl device) ?_ ?_ ?_ ?_
    · rw [attempts]
      exact fun _ listed _ => List.mem_of_mem_erase listed
    · exact fun _ listed _ => threads.subset listed
    · rw [history]
      exact fun _ latest => latest
    · exact fun asleep => absurd asleep awake

theorem Sound.moves {state next : Companion C} (sound : state.Sound)
    (moves : state.Moves next) : next.Sound := by
  cases moves with
  | quiet devices attempts pumps number history suspended =>
      exact sound.quiet devices attempts pumps number history suspended
  | inserted address label alone devices keeps history =>
      exact sound.inserted alone devices keeps history
  | forgotten address devices keeps history =>
      refine sound.updates devices keeps ?_ nofun
      intro other attempt apart latest
      rw [history]
      exact latest.other (concerns_apart apart attempt).1
  | suspended devices attempts pumps number history =>
      exact sound.suspended devices attempts pumps number
  | ended address before after found ended devices keeps history =>
      refine sound.updates devices keeps ?_ ?_
      · intro other attempt apart latest
        rw [history]
        exact latest.other (concerns_apart apart attempt).2.1
      · intro device isAfter
        rcases Option.some.inj isAfter with rfl
        exact (sound.devices address before found).ended ended keeps.threads
  | began attempt before after awake found later generation status io devices attempts pumps id
      number asleep history =>
      exact sound.began found later generation status io devices attempts pumps id number asleep
        history
  | made attempt before after begun found current generation status io devices attempts pumps
      number suspended history =>
      refine sound.settled begun found current generation ?_ devices attempts pumps number
        suspended history
      simp [status, io]
  | failed attempt before after begun found current generation idle io devices attempts pumps
      number suspended history =>
      refine sound.settled begun found current generation ?_ devices attempts (.inr pumps) number
        suspended history
      have held := (sound.devices attempt.address before found).waiting attempt begun rfl
        current.symm
      exact held_of_idle idle (io.trans held)

/-! ## What a result or a message changes -/

theorem changed_connected {state : Companion C} {attempt : Attempt} {result : ConnectResult C}
    {spawns : Bool} {address : String}
    (changed : (state.connected attempt result spawns).device address ≠ state.device address) :
    address = attempt.address ∧ ∃ device, state.device attempt.address = some device ∧
      device.generation = attempt.generation := by
  unfold connected at changed
  cases found : state.device attempt.address with
  | none =>
      rw [found] at changed
      exact absurd rfl changed
  | some device =>
      rw [found] at changed
      dsimp only at changed
      by_cases stale : device.generation ≠ attempt.generation
      · rw [if_pos stale] at changed
        exact absurd rfl changed
      · rw [if_neg stale] at changed
        refine ⟨?_, device, rfl, not_not.mp stale⟩
        by_contra apart
        exact changed (by simp [Companion.device, adjust, Entries.get_adjust, Ne.symm apart])

theorem changed_apply {state : Companion C} {pump : Attempt} {message : Incoming C}
    {address : String}
    (changed : (state.apply pump message).device address ≠ state.device address) :
    address = pump.address ∧ ∃ device, state.device pump.address = some device ∧
      device.generation = pump.generation := by
  unfold apply at changed
  cases found : state.device pump.address with
  | none =>
      rw [found] at changed
      exact absurd rfl changed
  | some device =>
      rw [found] at changed
      dsimp only at changed
      by_cases stale : device.generation ≠ pump.generation
      · rw [if_pos stale] at changed
        exact absurd rfl changed
      · rw [if_neg stale] at changed
        refine ⟨?_, device, rfl, not_not.mp stale⟩
        by_contra apart
        apply changed
        split_ifs <;> simp [device_adjust, Ne.symm apart]

/-! ## Runs -/

/-- The result or a message of an attempt changes a Device only if the attempt is the last one
begun for its address, and nothing ended it. -/
def HeedsLatest (state next : Companion C) : CompanionAction C → Prop
  | .finish thread _ _ | .apply thread _ =>
      ∀ address, next.device address ≠ state.device address →
        address = thread.address ∧ Latest state.history address thread.id
  | _ => True

/-- A Device is connected exactly when it holds a connection. -/
def HoldsWhenConnected (state : Companion C) : Prop :=
  ∀ address device, state.device address = some device →
    (device.status = .connected ↔ device.io.isSome)

/-- With no call in progress, a suspended app has no Device that is connecting or connected. -/
def PutAway (state : Companion C) : Prop :=
  state.calls = [] → state.suspended = true →
    ∀ address device, state.device address = some device → isEngaged device.status = false

theorem Sound.heedsLatest {state next : Companion C} {action : CompanionAction C}
    (sound : state.Sound) (performs : state.perform action = some next) :
    state.HeedsLatest next action := by
  have latest : ∀ thread ∈ state.threads, ∀ address,
      (address = thread.address ∧ ∃ device, state.device thread.address = some device ∧
        device.generation = thread.generation) →
      address = thread.address ∧ Latest state.history address thread.id := by
    rintro thread listed address ⟨rfl, device, found, current⟩
    exact ⟨rfl, ((sound.devices _ device found).current thread listed rfl).2 current.symm⟩
  cases action with
  | finish attempt result spawns =>
      simp only [perform] at performs
      split_ifs at performs with begun
      rcases Option.some.inj performs with rfl
      intro address changed
      exact latest attempt (mem_threads.mpr (.inl begun)) address (changed_connected changed)
  | apply pump message =>
      simp only [perform] at performs
      split_ifs at performs with pumped
      rcases Option.some.inj performs with rfl
      intro address changed
      exact latest pump (mem_threads.mpr (.inr pumped)) address (changed_apply changed)
  | _ => trivial

end Companion

/-- The runs whose steps are all careful. -/
def carefulCompanions (C : ContentModel) :
    Transition.System (Companion C) (CompanionAction C) where
  initial := (companionSystem C).initial
  step state action next := (companionSystem C).step state action next ∧ state.Careful action

theorem Companion.Sound.of_reachable {C : ContentModel} {state : Companion C}
    (reached : (carefulCompanions C).Reachable state) : state.Sound := by
  apply reached.invariant Companion.Sound
  · rintro state ⟨saved, rfl⟩
    exact Companion.sound_init saved
  · rintro state action next sound ⟨performs, careful⟩
    exact sound.moves (Companion.moves_of_perform performs careful)

/-- In a run in which no Device takes the place of one whose threads are left, and none is
connected while the app is suspended, only the latest attempt changes a Device, a Device is
connected exactly when it holds a connection, and a suspended app is connected to none. -/
theorem companion_runs (C : ContentModel) :
    (∀ state action next, (carefulCompanions C).Reachable state →
      (carefulCompanions C).step state action next → state.HeedsLatest next action) ∧
      ∀ state, (carefulCompanions C).Reachable state →
        state.HoldsWhenConnected ∧ state.PutAway := by
  constructor
  · rintro state action next reached ⟨performs, -⟩
    exact (Companion.Sound.of_reachable reached).heedsLatest performs
  · intro state reached
    have sound := Companion.Sound.of_reachable reached
    refine ⟨?_, ?_⟩
    · exact fun address device found => (sound.devices address device found).held
    · exact fun _ asleep address device found => (sound.devices address device found).parked asleep

/-! ## Runs on one Device -/

/-- A Session of which nothing is shown. -/
def blankContent : ContentModel where
  Content := Unit
  Snapshot := Unit
  Event := Unit
  Frames := Unit
  empty := ()
  restore _ _ _ := .ok ()
  applyEvent _ _ _ := some ()
  applyFrames _ _ _ := some ()
  retainPanes _ _ := ()
  markSeen _ _ := ()

/-- A connection that starts. -/
def madeConnection : ConnectResult blankContent :=
  .ok {
    bootstrap := some {
      serverId := ⟨1⟩
      runtimeEpoch := ⟨1⟩
      sessionId := ⟨1⟩
      sequence := 0
      snapshot := () }
    starts := .ok () }

/-- An attempt of the one Device, the first of it. -/
def firstAttempt (id : ℕ) : Attempt where
  id := id
  address := "desk"
  generation := 1
  watched := ∅

/-- The Device is paired, and its connection begun. -/
def pairDesk : List (CompanionAction blankContent) :=
  [.pair "desk" "Desk", .proceed 0 (.ok ()) true, .proceed 0 (.ok ()) true]

/-- A Device that is paired while the app is in front is connected. -/
theorem companion_runs_example :
    ∃ state device, (carefulCompanions blankContent).Reachable state ∧
      state.device "desk" = some device ∧ device.status = .connected ∧
        state.HoldsWhenConnected ∧ state.PutAway := by
  have started : (carefulCompanions blankContent).Reachable (.init []) := .start ⟨[], rfl⟩
  have resumed := started.next
    (show (carefulCompanions blankContent).step _ .resume _ from ⟨rfl, trivial⟩)
  have shaken := resumed.next
    (show (carefulCompanions blankContent).step _ (.pair "desk" "Desk") _ from ⟨rfl, trivial⟩)
  have inserted := shaken.next
    (show (carefulCompanions blankContent).step _ (.proceed 0 (.ok ()) true) _ from
      ⟨rfl, fun _ listed => nomatch listed⟩)
  have begun := inserted.next
    (show (carefulCompanions blankContent).step _ (.proceed 0 (.ok ()) true) _ from
      ⟨rfl, fun asleep => nomatch asleep⟩)
  have connected := begun.next
    (show (carefulCompanions blankContent).step _
        (.finish (firstAttempt 0) madeConnection true) _ from
      ⟨rfl, trivial⟩)
  exact ⟨_, _, connected, rfl, rfl, (companion_runs blankContent).2 _ connected⟩

theorem reachable_of_actions {last : Companion blankContent}
    {actions : List (CompanionAction blankContent)}
    (runs : Transition.System.runLabels Companion.perform (.init []) actions = some last) :
    (companionSystem blankContent).Reachable last := by
  have started : (companionSystem blankContent).Reachable (.init []) := .start ⟨[], rfl⟩
  exact started.of_runLabels (fun _ _ _ performs => performs) runs

/-- The Device is paired again while its first attempt is on its way, and connected by the
second. -/
def pairTwice : List (CompanionAction blankContent) :=
  .resume :: pairDesk ++ pairDesk ++ [.finish (firstAttempt 1) madeConnection true]

/-- The first attempt fails late. -/
def failLate : CompanionAction blankContent :=
  .finish (firstAttempt 0) (.error (.other "refused")) true

/-- The app is put away between the sections of the call that resumed it. -/
def resumeThenSuspend : List (CompanionAction blankContent) :=
  [.pair "desk" "Desk", .proceed 0 (.ok ()) true, .resume, .suspend, .proceed 0 (.ok ()) true]

/-- None of the three holds of every run: a Device that is paired again takes the result of an
older attempt, then is no longer connected but holds its connection, and an app that was put
away connects. -/
theorem companion_may_heed_older :
    (¬∀ state action next, (companionSystem blankContent).Reachable state →
      (companionSystem blankContent).step state action next → state.HeedsLatest next action) ∧
      (¬∀ state, (companionSystem blankContent).Reachable state → state.HoldsWhenConnected) ∧
        ¬∀ state, (companionSystem blankContent).Reachable state → state.PutAway := by
  have twice : ∃ state next before after,
      Transition.System.runLabels Companion.perform (.init []) pairTwice = some state ∧
        state.perform failLate = some next ∧ state.device "desk" = some before ∧
          before.status = .connected ∧ next.device "desk" = some after ∧
            after.status = .failed "refused" ∧ after.io.isSome = true ∧
              ¬Latest state.history "desk" 0 :=
    ⟨_, _, _, _, rfl, rfl, rfl, rfl, rfl, rfl, rfl, by decide⟩
  rcases twice with ⟨state, next, before, after, runs, fails, beforeFound, connected, afterFound,
    failed, holds, older⟩
  have reached := reachable_of_actions runs
  refine ⟨?_, ?_, ?_⟩
  · intro heeds
    refine older (heeds state failLate next reached fails "desk" ?_).2
    intro same
    rw [beforeFound, afterFound] at same
    rw [Option.some.inj same, connected] at failed
    cases failed
  · intro all
    have listed := all next (reached.next fails) "desk" after afterFound
    rw [failed, holds] at listed
    exact absurd (listed.mpr rfl) (by decide)
  · intro all
    have slept : ∃ state device,
        Transition.System.runLabels Companion.perform (.init []) resumeThenSuspend = some state ∧
          state.calls = [] ∧ state.suspended = true ∧ state.device "desk" = some device ∧
            device.status = .connecting :=
      ⟨_, _, rfl, rfl, rfl, rfl, rfl⟩
    rcases slept with ⟨state, device, runs, calls, asleep, found, connecting⟩
    have idle := all state (reachable_of_actions runs) calls asleep "desk" device found
    rw [connecting] at idle
    cases idle

end Condr
