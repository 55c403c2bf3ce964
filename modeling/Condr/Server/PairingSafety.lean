import Condr.Server.PairingSteps

/-!
# Pairing is safe

The list of devices is what its updates made of it, one after the other. A device joins it only
with the pending invite, over a connection whose peer proved that it holds the invite's secret; a
device that was removed comes back only with an invite that was pending then or came later. An
invite adds one device, in the runs in which no used invite stays in its place.
-/

namespace Condr

/-! ## What holds of every run -/

/-- The peer of the connection proved the secret. -/
def Pairing.Proven (pairing : Pairing) (history : List PairingEvent) : Prop :=
  .decrypted pairing.conn pairing.remote pairing.secret ∈ history ∨
    .presented pairing.conn pairing.remote pairing.secret ∈ history

/-- What a connection claims about its peer has happened. -/
def Connection.Honest (conn : ℕ) (history : List PairingEvent) : Connection → Prop
  | transport remote psk pairing verified =>
      (∀ secret, pairing = some secret → secret = psk) ∧
        (verified = true → .decrypted conn remote psk ∈ history)
  | p2p remote pairing => ∀ secret, pairing = some secret → .presented conn remote secret ∈ history
  | _ => True

namespace PairingState

/-- The invite in the file was there when any device was removed, or came later. -/
def Recent (state : PairingState) : Prop :=
  ∀ key pending next, .revoked key pending next ∈ state.history →
    pending = some state.pending ∨ next ≤ state.pending

/-- The invite that the lock's holder checked is still in the file. -/
structure Stands (state : PairingState) (secret : Secret) (checked : CheckedInvite) : Prop where
  present : state.store.invite = some (.invite ⟨secret, checked.expiresAt⟩)
  unexpired : checked.checkedAt < checked.expiresAt
  before : checked.checkedAt ≤ state.now
  recent : state.Recent

end PairingState

/-- What the lock's holder remembers is still so. -/
def Section.Current (state : PairingState) : Section → Prop
  | createRemove serial _ | createWrite serial _ =>
      state.serial = serial + 1 ∧
        ∀ key pending next, .revoked key pending next ∈ state.history → next ≤ serial
  | pairCheck pairing => pairing.Proven state.history
  | pairRead pairing checked => pairing.Proven state.history ∧ state.Stands pairing.secret checked
  | pairWrite pairing checked client clients =>
      (pairing.Proven state.history ∧ state.Stands pairing.secret checked) ∧
        client.key = pairing.remote ∧ pairing.remote ∉ state.store.keys ∧
          clients = (ListUpdate.add client).apply state.store.clients
  | seenWrite update clients =>
      (∃ key now name push, update = .see key now name push) ∧
        clients = update.apply state.store.clients
  | revokeWrite key clients => clients = (ListUpdate.remove key).apply state.store.clients
  | _ => True

namespace PairingState

/-- A device that was removed is listed again only after an invite that was pending then, or
came later, added it. -/
def Reauthorized (state : PairingState) : Prop :=
  ∀ earlier later key pending next,
    state.history = later ++ .revoked key pending next :: earlier → key ∈ state.store.keys →
      ∃ conn secret serial, .paired conn key secret serial ∈ later ∧
        (pending = some serial ∨ next ≤ serial)

/-- The list is what its updates made of it, none of them lost. -/
def Replayed (state : PairingState) : Prop :=
  state.store.clients = state.updates.foldl ListUpdate.apply state.start

structure Sound (state : PairingState) : Prop where
  connections : ∀ conn, (state.connections conn).Honest conn state.history
  holder : ∀ holder, state.holder = some holder → holder.Current state
  replayed : state.Replayed
  recent : ∀ invite, state.store.invite = some (.invite invite) → state.now < invite.expiresAt →
    state.Recent
  revoked : ∀ key pending next, .revoked key pending next ∈ state.history → next ≤ state.serial
  pending : state.pending < state.serial
  reauthorized : state.Reauthorized

theorem Initial.sound {state : PairingState} (initial : state.Initial) : state.Sound where
  connections conn := by
    rw [initial.connections]
    trivial
  holder holder held := by
    rw [initial.holder] at held
    cases held
  replayed := by
    rw [Replayed, initial.updates, initial.start]
    rfl
  recent invite _ _ key pending next removed := by
    rw [initial.history] at removed
    cases removed
  revoked key pending next removed := by
    rw [initial.history] at removed
    cases removed
  pending := initial.serial
  reauthorized earlier later key pending next split := by
    rw [initial.history] at split
    simp at split

/-! ## Frames -/

/-- A step outside of the lock: the files stay, and no device is removed. -/
structure Frames (state next : PairingState) : Prop where
  store : next.store = state.store
  serial : next.serial = state.serial
  pending : next.pending = state.pending
  now : state.now ≤ next.now
  keeps : ∀ event ∈ state.history, event ∈ next.history
  revoked : ∀ key pending after, .revoked key pending after ∈ next.history →
    .revoked key pending after ∈ state.history

variable {state next : PairingState}

theorem Frames.recent (frames : state.Frames next) (recent : state.Recent) : next.Recent := by
  intro key pending after removed
  rw [frames.pending]
  exact recent key pending after (frames.revoked key pending after removed)

theorem Frames.stands (frames : state.Frames next) {secret : Secret} {checked : CheckedInvite}
    (stands : state.Stands secret checked) : next.Stands secret checked where
  present := frames.store ▸ stands.present
  unexpired := stands.unexpired
  before := Nat.le_trans stands.before frames.now
  recent := frames.recent stands.recent

theorem proven_mono {first second : List PairingEvent} {pairing : Pairing}
    (keeps : ∀ event ∈ first, event ∈ second) (proven : pairing.Proven first) :
    pairing.Proven second :=
  proven.imp (keeps _) (keeps _)

theorem honest_mono {first second : List PairingEvent} {conn : ℕ} {connection : Connection}
    (keeps : ∀ event ∈ first, event ∈ second) (honest : connection.Honest conn first) :
    connection.Honest conn second := by
  cases connection with
  | transport => exact ⟨honest.1, fun verified => keeps _ (honest.2 verified)⟩
  | p2p => exact fun secret paired => keeps _ (honest secret paired)
  | _ => trivial

theorem Frames.current (frames : state.Frames next) {holder : Section}
    (current : holder.Current state) : holder.Current next := by
  cases holder with
  | createRemove | createWrite =>
      refine ⟨frames.serial ▸ current.1, ?_⟩
      intro key pending after removed
      exact current.2 key pending after (frames.revoked key pending after removed)
  | pairCheck => exact proven_mono frames.keeps current
  | pairRead => exact ⟨proven_mono frames.keeps current.1, frames.stands current.2⟩
  | pairWrite =>
      rcases current with ⟨⟨proven, stands⟩, key, unlisted, clients⟩
      refine ⟨⟨proven_mono frames.keeps proven, frames.stands stands⟩, key, ?_, ?_⟩
      · rwa [frames.store]
      · rwa [frames.store]
  | seenWrite =>
      refine ⟨current.1, ?_⟩
      rw [frames.store]
      exact current.2
  | revokeWrite =>
      rw [Section.Current, frames.store]
      exact current
  | _ => trivial

theorem Replayed.writeClients {update : ListUpdate} {clients : List AuthorizedClient}
    (replayed : state.Replayed) (applied : clients = update.apply state.store.clients) :
    (state.writeClients update clients).Replayed := by
  rw [Replayed] at replayed
  simp only [Replayed, PairingState.writeClients, List.foldl_append, List.foldl_cons,
    List.foldl_nil]
  rw [applied, replayed]

/-- Neither a device nor a removal is new. -/
theorem Reauthorized.keeps (reauthorized : state.Reauthorized)
    (history : next.history = state.history) (keys : next.store.keys ⊆ state.store.keys) :
    next.Reauthorized := by
  intro earlier later key pending after split listed
  rw [history] at split
  exact reauthorized earlier later key pending after split (keys listed)

/-- An event was noted. A removal takes its device off the list, and a device that is new on the
list was added with an invite that is recent. -/
theorem Reauthorized.notes (reauthorized : state.Reauthorized) {event : PairingEvent}
    (history : next.history = event :: state.history)
    (removes : ∀ key pending after, event = .revoked key pending after → key ∉ next.store.keys)
    (adds : ∀ key ∈ next.store.keys, key ∈ state.store.keys ∨
      state.Recent ∧ ∃ conn secret, event = .paired conn key secret state.pending) :
    next.Reauthorized := by
  intro earlier later key pending after split listed
  rw [history] at split
  cases later with
  | nil => exact absurd listed (removes key pending after (List.cons.inj split).1)
  | cons first later =>
      rw [List.cons_append, List.cons.injEq] at split
      rcases split with ⟨rfl, rest⟩
      cases adds key listed with
      | inl before =>
          rcases reauthorized earlier later key pending after rest before with
            ⟨conn, secret, serial, paired, recent⟩
          exact ⟨conn, secret, serial, List.mem_cons_of_mem _ paired, recent⟩
      | inr added =>
          rcases added with ⟨recent, conn, secret, rfl⟩
          have removed : .revoked key pending after ∈ state.history := by
            rw [rest]
            simp
          exact ⟨conn, secret, state.pending, List.mem_cons_self,
            recent key pending after removed⟩

/-- A step outside of the lock. -/
theorem Sound.frames (sound : state.Sound) (frames : state.Frames next)
    (holder : next.holder = state.holder) (start : next.start = state.start)
    (updates : next.updates = state.updates)
    (connections : ∀ conn, (next.connections conn).Honest conn next.history)
    (reauthorized : next.Reauthorized) : next.Sound where
  connections := connections
  holder section_ held := frames.current (sound.holder section_ (holder ▸ held))
  replayed := by
    rw [Replayed, frames.store, start, updates]
    exact sound.replayed
  recent invite present unexpired := by
    rw [frames.store] at present
    exact frames.recent
      (sound.recent invite present (Nat.lt_of_le_of_lt frames.now unexpired))
  revoked key pending after removed := by
    rw [frames.serial]
    exact sound.revoked key pending after (frames.revoked key pending after removed)
  pending := by
    rw [frames.pending, frames.serial]
    exact sound.pending
  reauthorized := reauthorized

theorem frames_hold (holder : Section) : state.Frames (state.hold holder) :=
  ⟨rfl, rfl, rfl, Nat.le_refl _, fun _ noted => noted, fun _ _ _ removed => removed⟩

theorem Sound.hold (sound : state.Sound) {holder : Section} (current : holder.Current state) :
    (state.hold holder).Sound where
  connections := sound.connections
  holder found held := by
    cases held
    exact (frames_hold holder).current current
  replayed := sound.replayed
  recent := sound.recent
  revoked := sound.revoked
  pending := sound.pending
  reauthorized := sound.reauthorized

theorem Sound.release (sound : state.Sound) : state.release.Sound where
  connections := sound.connections
  holder := nofun
  replayed := sound.replayed
  recent := sound.recent
  revoked := sound.revoked
  pending := sound.pending
  reauthorized := sound.reauthorized

/-- The file of the invite is gone; the holder remembers nothing of it. -/
theorem Sound.removeInvite (sound : state.Sound) : state.removeInvite.release.Sound where
  connections := sound.connections
  holder := nofun
  replayed := sound.replayed
  recent := nofun
  revoked := sound.revoked
  pending := sound.pending
  reauthorized := sound.reauthorized

theorem Sound.connect (sound : state.Sound) {conn : ℕ} {connection : Connection}
    (honest : connection.Honest conn state.history) : (state.connect conn connection).Sound := by
  refine sound.frames
    ⟨rfl, rfl, rfl, Nat.le_refl _, fun _ noted => noted, fun _ _ _ removed => removed⟩ rfl rfl rfl
    ?_ ?_
  · intro other
    by_cases same : other = conn
    · subst same
      simpa [PairingState.connect] using honest
    · simpa [PairingState.connect, Function.update_of_ne same] using sound.connections other
  · exact sound.reauthorized

/-- An event of a connection was noted. -/
theorem Sound.note (sound : state.Sound) {event : PairingEvent}
    (unrelated : ∀ key pending after, event ≠ .revoked key pending after) :
    (state.note event).Sound := by
  refine sound.frames ?_ rfl rfl rfl ?_ ?_
  · refine ⟨rfl, rfl, rfl, Nat.le_refl _, fun _ noted => List.mem_cons_of_mem _ noted, ?_⟩
    intro key pending after removed
    cases List.mem_cons.mp removed with
    | inl same => exact absurd same.symm (unrelated key pending after)
    | inr removed => exact removed
  · intro conn
    exact honest_mono (fun _ noted => List.mem_cons_of_mem _ noted) (sound.connections conn)
  · apply sound.reauthorized.notes rfl
    · intro key pending after same
      exact absurd same (unrelated key pending after)
    · exact fun _ listed => .inl listed

/-! ## Steps -/

theorem provenPairing_proven (sound : state.Sound) {conn : ℕ} {name : String} {pairing : Pairing}
    (found : state.provenPairing conn name = some pairing) : pairing.Proven state.history := by
  have honest := sound.connections conn
  simp only [provenPairing] at found
  split at found
  · next connection =>
      cases found
      rw [connection] at honest
      left
      rw [honest.1 _ rfl]
      exact honest.2 rfl
  · next connection =>
      cases found
      rw [connection] at honest
      exact .inr (honest _ rfl)
  · cases found

theorem quiet_honest {conn : ℕ} {history : List PairingEvent} {connection : Connection}
    (quiet : connection.Quiet) : connection.Honest conn history := by
  cases quiet with
  | listed => exact ⟨nofun, nofun⟩
  | p2p => exact nofun
  | invited remote secret => exact ⟨fun other same => (Option.some.inj same).symm, nofun⟩
  | _ => trivial

theorem clearPairing_honest {conn : ℕ} {history : List PairingEvent} {connection : Connection}
    (honest : connection.Honest conn history) : connection.clearPairing.Honest conn history := by
  cases connection with
  | transport => exact ⟨nofun, honest.2⟩
  | p2p => exact nofun
  | _ => exact honest

/-- A new invite has a number above every one that a removal knows of. -/
theorem Sound.creates (sound : state.Sound) (invite : Invite) :
    ({ state with serial := state.serial + 1 }.hold (.createRemove state.serial invite)).Sound where
  connections := sound.connections
  holder holder held := by
    cases held
    exact ⟨rfl, sound.revoked⟩
  replayed := sound.replayed
  recent := sound.recent
  revoked key pending after removed := Nat.le_succ_of_le (sound.revoked key pending after removed)
  pending := Nat.lt_succ_of_lt sound.pending
  reauthorized := sound.reauthorized

/-- A new invite is in the file, which no device was removed after. -/
theorem Sound.writeInvite (sound : state.Sound) {serial : ℕ} {invite : Invite}
    (held : state.holder = some (.createWrite serial invite)) (file : InviteFile) :
    (state.writeInvite serial file).release.Sound where
  connections := sound.connections
  holder := nofun
  replayed := sound.replayed
  recent _ _ _ key pending after removed :=
    .inr ((sound.holder _ held).2 key pending after removed)
  revoked := sound.revoked
  pending := by
    have next := (sound.holder _ held).1
    change serial < state.serial
    omega
  reauthorized := sound.reauthorized

theorem Sound.writeSeen (sound : state.Sound) {update : ListUpdate}
    {clients : List AuthorizedClient} (held : state.holder = some (.seenWrite update clients)) :
    (state.writeClients update clients).release.Sound := by
  rcases sound.holder _ held with ⟨⟨key, now, name, push, rfl⟩, applied⟩
  exact {
    connections := sound.connections
    holder := nofun
    replayed := sound.replayed.writeClients applied
    recent := sound.recent
    revoked := sound.revoked
    pending := sound.pending
    reauthorized := by
      have keys : clients.map (·.key) = state.store.clients.map (·.key) := by
        rw [applied, ListUpdate.map_key_apply]
      refine sound.reauthorized.keeps rfl fun other listed => ?_
      have contained : other ∈ clients.map (·.key) := listed
      rw [keys] at contained
      exact contained }

theorem Sound.writeRemoved (sound : state.Sound) {key : PublicKey}
    {clients : List AuthorizedClient} (held : state.holder = some (.revokeWrite key clients)) :
    ((state.writeClients (.remove key) clients).note
      (.revoked key state.redeemable state.serial)).release.Sound := by
  have applied := sound.holder _ held
  have keys : clients.map (·.key) = (state.store.clients.map (·.key)).filter (· != key) := by
    rw [applied, ListUpdate.map_key_apply]
  have current : ∀ invite, state.store.invite = some (.invite invite) →
      state.now < invite.expiresAt → state.redeemable = some state.pending := by
    intro invite present unexpired
    simp [redeemable, present, Condr.readInvite, unexpired]
  exact {
    connections := fun conn =>
      honest_mono (fun _ noted => List.mem_cons_of_mem _ noted) (sound.connections conn)
    holder := by
      intro writer held
      cases held
    replayed := sound.replayed.writeClients applied
    recent := by
      intro invite present unexpired removed pending after noted
      cases noted with
      | head => exact .inl (current invite present unexpired)
      | tail _ noted => exact sound.recent invite present unexpired removed pending after noted
    revoked := by
      intro removed pending after noted
      cases noted with
      | head => exact Nat.le_refl _
      | tail _ noted => exact sound.revoked removed pending after noted
    pending := sound.pending
    reauthorized := by
      apply sound.reauthorized.notes rfl
      · intro removed pending after same listed
        cases same
        have contained : key ∈ clients.map (·.key) := listed
        simp [keys] at contained
      · intro other listed
        have contained : other ∈ clients.map (·.key) := listed
        rw [keys] at contained
        exact .inl (List.mem_filter.mp contained).1 }

theorem Sound.writePaired (sound : state.Sound) {pairing : Pairing} {checked : CheckedInvite}
    {client : AuthorizedClient} {clients : List AuthorizedClient}
    (held : state.holder = some (.pairWrite pairing checked client clients)) :
    ((state.writeClients (.add client) clients).note
      (.paired pairing.conn pairing.remote pairing.secret state.pending)).release.Sound := by
  rcases sound.holder _ held with ⟨⟨-, stands⟩, key, -, applied⟩
  have unrelated : ∀ removed pending after,
      .revoked removed pending after ∈
        .paired pairing.conn pairing.remote pairing.secret state.pending :: state.history →
      .revoked removed pending after ∈ state.history := by
    intro removed pending after noted
    simpa using noted
  exact {
    connections := fun conn =>
      honest_mono (fun _ noted => List.mem_cons_of_mem _ noted) (sound.connections conn)
    holder := nofun
    replayed := sound.replayed.writeClients applied
    recent := fun invite present unexpired removed pending after noted =>
      sound.recent invite present unexpired removed pending after
        (unrelated removed pending after noted)
    revoked := fun removed pending after noted =>
      sound.revoked removed pending after (unrelated removed pending after noted)
    pending := sound.pending
    reauthorized := by
      apply sound.reauthorized.notes rfl
      · nofun
      · intro other listed
        have contained : other ∈ clients.map (·.key) := listed
        rw [applied, ListUpdate.map_key_apply, List.mem_append, List.mem_singleton] at contained
        apply contained.imp id
        intro same
        exact ⟨stands.recent, _, _, by rw [same, key]⟩ }

theorem Sound.moves {action : PairingAction} (sound : state.Sound)
    (moves : state.Moves action next) : next.Sound := by
  cases moves with
  | tick elapsed =>
      exact sound.frames
        ⟨rfl, rfl, rfl, Nat.le_add_right _ _, fun _ noted => noted, fun _ _ _ removed => removed⟩
        rfl rfl rfl sound.connections sound.reauthorized
  | connects conn quiet => exact sound.connect (quiet_honest quiet)
  | @decrypts conn remote psk pairing verified found =>
      have honest := sound.connections conn
      rw [found] at honest
      have noted : (state.note (.decrypted conn remote psk)).Sound := sound.note nofun
      exact noted.connect ⟨honest.1, fun _ => List.mem_cons_self⟩
  | @presents conn remote secret =>
      have noted : (state.note (.presented conn remote secret)).Sound := sound.note nofun
      apply noted.connect
      intro other same
      cases same
      exact List.mem_cons_self
  | stays => exact sound
  | begins free reads =>
      apply sound.hold
      rcases reads with ⟨remote, name, push, rfl⟩ | ⟨front, rfl⟩ <;> trivial
  | creates free invite => exact sound.creates invite
  | pairs free proven => exact sound.hold (provenPairing_proven sound proven)
  | fails | pairKeeps => exact sound.release
  | createRemoves held =>
      have current := sound.holder _ held
      exact sound.removeInvite.hold current
  | createSkips held =>
      have current := sound.holder _ held
      exact sound.hold current
  | createWrites held absent file => exact sound.writeInvite held file
  | pairChecks held present unexpired =>
      exact sound.hold ⟨sound.holder _ held,
        ⟨present, unexpired, Nat.le_refl _, sound.recent _ present unexpired⟩⟩
  | pairKnows held => exact sound.hold trivial
  | pairReads held unlisted client key =>
      exact sound.hold ⟨sound.holder _ held, key, unlisted, rfl⟩
  | pairWrites held => exact (sound.writePaired held).hold trivial
  | pairWritesLate held => exact sound.writePaired held
  | pairRemoves held =>
      exact sound.removeInvite.connect (clearPairing_honest (sound.connections _))
  | pairRemovesLate held => exact sound.removeInvite
  | seenReads held => exact sound.hold ⟨⟨_, _, _, _, rfl⟩, rfl⟩
  | seenWrites held => exact sound.writeSeen held
  | revokeReads key held => exact sound.hold rfl
  | revokeWrites held => exact sound.writeRemoved held

theorem Sound.of_reachable (reached : pairingSystem.Reachable state) : state.Sound :=
  reached.invariant Sound (fun _ initial => Initial.sound initial)
    fun _ _ _ sound performs => sound.moves (moves_of_perform performs)

/-- The step adds the device with a pairing that was checked under the lock that is still held:
the invite in the file was unexpired then, and the peer proved its secret. -/
structure AddsPaired (state next : PairingState) (key : PublicKey) (pairing : Pairing)
    (checked : CheckedInvite) : Prop where
  holder : ∃ client clients, state.holder = some (.pairWrite pairing checked client clients)
  remote : pairing.remote = key
  present : state.store.invite = some (.invite ⟨pairing.secret, checked.expiresAt⟩)
  unexpired : checked.checkedAt < checked.expiresAt
  before : checked.checkedAt ≤ state.now
  proven : pairing.Proven state.history
  noted : next.history = .paired pairing.conn key pairing.secret state.pending :: state.history

theorem Sound.adds {action : PairingAction} {key : PublicKey} (sound : state.Sound)
    (moves : state.Moves action next) (listed : key ∈ next.store.keys)
    (unlisted : key ∉ state.store.keys) :
    ∃ pairing checked, state.AddsPaired next key pairing checked := by
  have writes : ∀ {pairing checked client clients},
      state.holder = some (.pairWrite pairing checked client clients) →
      key ∈ clients.map (·.key) →
      next.history =
        .paired pairing.conn pairing.remote pairing.secret state.pending :: state.history →
      ∃ pairing checked, state.AddsPaired next key pairing checked := by
    intro pairing checked client clients held contained noted
    rcases sound.holder _ held with ⟨⟨proven, stands⟩, same, -, applied⟩
    rw [applied, ListUpdate.map_key_apply, List.mem_append, List.mem_singleton] at contained
    cases contained with
    | inl before => exact absurd before unlisted
    | inr added =>
        have remote : pairing.remote = key := (added.trans same).symm
        exact ⟨pairing, checked, ⟨_, _, held⟩, remote, stands.present, stands.unexpired,
          stands.before, proven, remote ▸ noted⟩
  cases moves with
  | pairWrites held => exact writes held listed rfl
  | pairWritesLate held => exact writes held listed rfl
  | @seenWrites _ update clients held =>
      rcases sound.holder _ held with ⟨⟨seen, now, name, push, rfl⟩, applied⟩
      have contained : key ∈ clients.map (·.key) := listed
      rw [applied, ListUpdate.map_key_apply] at contained
      exact absurd contained unlisted
  | @revokeWrites _ _ clients held =>
      have applied := sound.holder _ held
      have contained : key ∈ clients.map (·.key) := listed
      rw [applied, ListUpdate.map_key_apply] at contained
      exact absurd (List.mem_filter.mp contained).1 unlisted
  | _ => exact absurd listed unlisted

/-! ## One device for each invite -/

/-- No invite added two devices, and one that added a device is in the file only until the
pairing that used it has removed it. -/
structure Consumed (state : PairingState) : Prop where
  once : state.pairedSerials.Nodup
  bound : ∀ serial ∈ state.pairedSerials, serial < state.serial
  used : state.store.invite.isSome = true → state.pending ∈ state.pairedSerials →
    ∃ pairing, state.holder = some (.pairRemove pairing)
  fresh : ∀ serial invite, state.holder = some (.createRemove serial invite) ∨
    state.holder = some (.createWrite serial invite) → serial ∉ state.pairedSerials

theorem Initial.consumed (initial : state.Initial) : state.Consumed := by
  have none : state.pairedSerials = [] := by rw [pairedSerials, initial.history]; rfl
  refine ⟨none ▸ List.nodup_nil, ?_, ?_, ?_⟩
  · intro serial paired
    rw [none] at paired
    cases paired
  · intro _ paired
    rw [none] at paired
    cases paired
  · intro serial invite _ paired
    rw [none] at paired
    cases paired

/-- A step that notes no pairing and puts no invite into the file. -/
theorem Consumed.keeps (consumed : state.Consumed)
    (paired : next.pairedSerials = state.pairedSerials) (serial : state.serial ≤ next.serial)
    (used : next.store.invite.isSome = true → next.pending ∈ state.pairedSerials →
      ∃ pairing, next.holder = some (.pairRemove pairing))
    (fresh : ∀ serial invite, next.holder = some (.createRemove serial invite) ∨
      next.holder = some (.createWrite serial invite) → serial ∉ state.pairedSerials) :
    next.Consumed where
  once := paired ▸ consumed.once
  bound number noted := by
    rw [paired] at noted
    exact Nat.lt_of_lt_of_le (consumed.bound number noted) serial
  used present noted := used present (paired ▸ noted)
  fresh number invite held := paired ▸ fresh number invite held

/-- Outside of the end of a pairing, the invite in the file added no device. -/
theorem Consumed.unused (consumed : state.Consumed)
    (other : ∀ pairing, state.holder ≠ some (.pairRemove pairing))
    (present : state.store.invite.isSome = true) : state.pending ∉ state.pairedSerials := by
  intro paired
  rcases consumed.used present paired with ⟨pairing, held⟩
  exact other pairing held

/-- A step of the lock's holder, or one that takes the lock, where no pairing ends. -/
theorem Consumed.passes (consumed : state.Consumed)
    (other : ∀ pairing, state.holder ≠ some (.pairRemove pairing))
    (paired : next.pairedSerials = state.pairedSerials) (serial : next.serial = state.serial)
    (pending : next.pending = state.pending) (invite : next.store.invite = state.store.invite)
    (fresh : ∀ serial invite, next.holder = some (.createRemove serial invite) ∨
      next.holder = some (.createWrite serial invite) → serial ∉ state.pairedSerials) :
    next.Consumed := by
  refine consumed.keeps paired (Nat.le_of_eq serial.symm) ?_ fresh
  intro present noted
  rw [invite] at present
  rw [pending] at noted
  exact absurd noted (consumed.unused other present)

theorem Consumed.writePaired (consumed : state.Consumed) (sound : state.Sound) {pairing : Pairing}
    {checked : CheckedInvite} {client : AuthorizedClient} {clients : List AuthorizedClient}
    (held : state.holder = some (.pairWrite pairing checked client clients)) :
    (((state.writeClients (.add client) clients).note
      (.paired pairing.conn pairing.remote pairing.secret state.pending)).hold
        (.pairRemove pairing)).Consumed := by
  have present : state.store.invite.isSome = true := by
    rw [(sound.holder _ held).1.2.present]
    rfl
  have unused : state.pending ∉ state.pairedSerials :=
    consumed.unused (by rw [held]; nofun) present
  exact {
    once := List.nodup_cons.mpr ⟨unused, consumed.once⟩
    bound := by
      intro serial paired
      cases paired with
      | head => exact sound.pending
      | tail _ paired => exact consumed.bound serial paired
    used := fun _ _ => ⟨pairing, rfl⟩
    fresh := by
      rintro serial invite (created | created) <;> cases created }

theorem Consumed.moves {action : PairingAction} (consumed : state.Consumed) (sound : state.Sound)
    (moves : state.Moves action next) (removes : ¬action.KeepsUsedInvite state) :
    next.Consumed := by
  cases moves with
  | tick | connects | decrypts | presents | stays =>
      exact consumed.keeps rfl (Nat.le_refl _) consumed.used consumed.fresh
  | begins free reads =>
      refine consumed.passes (by rw [free]; nofun) rfl rfl rfl rfl ?_
      rcases reads with ⟨remote, name, push, rfl⟩ | ⟨front, rfl⟩ <;>
        rintro serial invite (created | created) <;> cases created
  | creates free invite =>
      refine consumed.keeps rfl (Nat.le_succ _) ?_ ?_
      · intro present paired
        exact absurd paired (consumed.unused (by rw [free]; nofun) present)
      · rintro serial other (created | created)
        · cases created
          exact fun paired => Nat.lt_irrefl _ (consumed.bound _ paired)
        · cases created
  | pairs free proven =>
      refine consumed.passes (by rw [free]; nofun) rfl rfl rfl rfl ?_
      rintro serial invite (created | created) <;> cases created
  | fails held other =>
      refine consumed.passes ?_ rfl rfl rfl rfl ?_
      · intro pairing removing
        exact other pairing (Option.some.inj (held.symm.trans removing))
      · rintro serial invite (created | created) <;> cases created
  | createRemoves held =>
      refine consumed.keeps rfl (Nat.le_refl _) nofun ?_
      rintro serial invite (created | created)
      · cases created
      · cases created
        exact consumed.fresh _ _ (.inl held)
  | createSkips held =>
      refine consumed.passes (by rw [held]; nofun) rfl rfl rfl rfl ?_
      rintro serial invite (created | created)
      · cases created
      · cases created
        exact consumed.fresh _ _ (.inl held)
  | createWrites held absent file =>
      refine consumed.keeps rfl (Nat.le_refl _) ?_ ?_
      · intro _ paired
        exact absurd paired (consumed.fresh _ _ (.inr held))
      · rintro serial invite (created | created) <;> cases created
  | pairKnows held =>
      refine consumed.keeps rfl (Nat.le_refl _) ?_ ?_
      · exact fun _ _ => ⟨_, rfl⟩
      · rintro serial invite (created | created) <;> cases created
  | pairWrites held => exact consumed.writePaired sound held
  | pairWritesLate held =>
      refine absurd ?_ removes
      rw [PairingAction.KeepsUsedInvite, held]
  | pairRemoves held | pairRemovesLate held =>
      refine consumed.keeps rfl (Nat.le_refl _) nofun ?_
      rintro serial invite (created | created) <;> cases created
  | pairKeeps held failed =>
      rw [PairingAction.KeepsUsedInvite, held] at removes
      refine consumed.keeps rfl (Nat.le_refl _) ?_ ?_
      · exact fun _ paired => absurd ⟨failed.1, failed.2, paired⟩ removes
      · rintro serial invite (created | created) <;> cases created
  | pairChecks held | pairReads held | seenReads held | seenWrites held | revokeReads _ held
  | revokeWrites held =>
      refine consumed.passes (by rw [held]; nofun) rfl rfl rfl rfl ?_
      rintro serial invite (created | created) <;> cases created

theorem Consumed.of_reachable (reached : consumingSystem.Reachable state) :
    state.Sound ∧ state.Consumed := by
  apply reached.invariant fun state => state.Sound ∧ state.Consumed
  · exact fun _ initial => ⟨Initial.sound initial, Initial.consumed initial⟩
  · rintro state action next ⟨sound, consumed⟩ ⟨performs, removes⟩
    have moves := moves_of_perform performs
    exact ⟨sound.moves moves, consumed.moves sound moves removes⟩

end PairingState

/-- A run in which no used invite stays in its place adds one device for each invite. In every
run a device is added by a pairing that was checked against the pending, unexpired invite and
proved its secret; one that was removed comes back only with an invite that was pending then or
came later; and the list is what its updates made of it, none of them lost. -/
theorem pairing_runs (state : PairingState) :
    (consumingSystem.Reachable state → state.pairedSerials.Nodup) ∧
      (pairingSystem.Reachable state → ∀ action next key,
        pairingSystem.step state action next → key ∈ next.store.keys → key ∉ state.store.keys →
          ∃ pairing checked, state.AddsPaired next key pairing checked) ∧
      (pairingSystem.Reachable state → state.Reauthorized ∧ state.Replayed) := by
  refine ⟨?_, ?_, ?_⟩
  · exact fun reached => (PairingState.Consumed.of_reachable reached).2.once
  · intro reached action next key performs listed unlisted
    exact (PairingState.Sound.of_reachable reached).adds
      (PairingState.moves_of_perform performs) listed unlisted
  · intro reached
    have sound := PairingState.Sound.of_reachable reached
    exact ⟨sound.reauthorized, sound.replayed⟩

/-- An empty store that nothing has used. -/
def emptyPairing : PairingState where
  now := 0
  store := { clients := [], invite := none }
  always := []
  holder := none
  connections := fun _ => .fresh
  serial := 1
  pending := 0
  history := []
  start := []
  updates := []

theorem emptyPairing_initial : emptyPairing.Initial where
  holder := rfl
  connections _ := rfl
  serial := by decide
  history := rfl
  start := rfl
  updates := rfl

/-- Two devices shake hands under one invite, and the first completes its pairing, up to the
removal of the invite. -/
def racingDevices : List PairingAction :=
  [.createInvite ⟨7⟩ 0, .advance .done, .advance .done,
    .greet 1 ⟨"phone"⟩, .readAuthorized 1, .readInvite 1,
    .greet 2 ⟨"laptop"⟩, .readAuthorized 2, .readInvite 2,
    .receive 1 ⟨7⟩, .receive 2 ⟨7⟩,
    .completePairing 1 "", .advance .done, .advance .done, .advance .done]

/-- No file operation of the run fails. -/
def succeeds (actions : List PairingAction) : Bool :=
  actions.all fun
    | .advance outcome => outcome = .done
    | _ => true

theorem reachable_of_succeeds {state last : PairingState} {actions : List PairingAction}
    (reached : consumingSystem.Reachable state) (succeeds : succeeds actions = true)
    (runs : Transition.System.runLabels PairingState.perform state actions = some last) :
    consumingSystem.Reachable last := by
  induction actions generalizing state with
  | nil =>
      cases runs
      exact reached
  | cons action rest induction =>
      rcases Option.bind_eq_some_iff.mp runs with ⟨next, performed, later⟩
      simp only [Condr.succeeds, List.all_cons, Bool.and_eq_true] at succeeds
      refine induction (reached.next ⟨performed, ?_⟩) succeeds.2 later
      cases action with
      | advance outcome =>
          obtain rfl : outcome = .done := by simpa using succeeds.1
          rw [PairingAction.KeepsUsedInvite]
          split
          · exact fun keeps => keeps.1 rfl
          · intro keeps
            cases keeps
          · exact id
      | _ => exact id

theorem emptyPairing_reachable : pairingSystem.Reachable emptyPairing :=
  .start emptyPairing_initial

/-- With the invite removed, the second device is refused. -/
theorem pairing_runs_example :
    ∃ state, consumingSystem.Reachable state ∧ state.store.keys = [⟨"phone"⟩] ∧
      state.pairedSerials = [1] ∧ state.pairedSerials.Nodup := by
  have runs : ∃ last, Transition.System.runLabels PairingState.perform emptyPairing
      (racingDevices ++ [.advance .done, .completePairing 2 "", .advance .done]) = some last ∧
        last.store.keys = [⟨"phone"⟩] ∧ last.pairedSerials = [1] :=
    ⟨_, rfl, rfl, rfl⟩
  rcases runs with ⟨last, runs, keys, paired⟩
  have reached : consumingSystem.Reachable last :=
    reachable_of_succeeds (.start emptyPairing_initial) (by decide) runs
  exact ⟨last, reached, keys, paired, (pairing_runs last).1 reached⟩

/-- Where the removal of the invite fails, the second device is added with it, too. -/
theorem invite_may_pair_twice :
    ¬∀ state, pairingSystem.Reachable state → state.pairedSerials.Nodup := by
  intro once
  have runs : ∃ last, Transition.System.runLabels PairingState.perform emptyPairing
      (racingDevices ++ [.advance .failed, .completePairing 2 "", .advance .done, .advance .done,
        .advance .done, .advance .done]) = some last ∧ last.pairedSerials = [1, 1] :=
    ⟨_, rfl, rfl⟩
  rcases runs with ⟨last, runs, paired⟩
  have reached := emptyPairing_reachable.of_runLabels (fun _ _ _ performs => performs) runs
  have twice := once last reached
  rw [paired] at twice
  exact absurd twice (by decide)

end Condr
