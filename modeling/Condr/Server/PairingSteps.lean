import Condr.Server.Pairing

/-!
# What a step of pairing can do

Every action of a pairing run changes one part of the state: a connection, the place of the
lock's holder, or one file. The cases are listed once, with what the code found before each.
-/

namespace Condr

/-- A connection whose peer has proved nothing yet. -/
inductive Connection.Quiet : Connection → Prop where
  | closed : Connection.Quiet .closed
  | greeted (remote : PublicKey) : Connection.Quiet (.greeted remote)
  | unlisted (remote : PublicKey) : Connection.Quiet (.unlisted remote)
  | listed (remote : PublicKey) : Connection.Quiet (.transport remote ⟨0⟩ none false)
  | invited (remote : PublicKey) (secret : Secret) :
      Connection.Quiet (.transport remote secret (some secret) false)
  | p2p (remote : PublicKey) : Connection.Quiet (.p2p remote none)

namespace PairingState

inductive Moves (state : PairingState) : PairingAction → PairingState → Prop where
  | tick (elapsed : ℕ) : Moves state (.tick elapsed) { state with now := state.now + elapsed }
  | connects {action : PairingAction} (conn : ℕ) {connection : Connection}
      (quiet : connection.Quiet) : Moves state action (state.connect conn connection)
  | decrypts (conn : ℕ) {remote : PublicKey} {psk : Secret} {pairing : Option Secret}
      {verified : Bool} (found : state.connections conn = .transport remote psk pairing verified) :
      Moves state (.receive conn psk)
        ((state.connect conn (.transport remote psk pairing true)).note
          (.decrypted conn remote psk))
  | presents (conn : ℕ) {remote : PublicKey} (secret : Secret) :
      Moves state (.presentInvite conn secret)
        ((state.connect conn (.p2p remote (some secret))).note (.presented conn remote secret))
  | stays {action : PairingAction} : Moves state action state
  | begins {action : PairingAction} {holder : Section} (free : state.holder = none)
      (reads : (∃ remote name push, holder = .seenRead remote name push) ∨
        ∃ front, holder = .revokeRead front) : Moves state action (state.hold holder)
  | creates {secret : Secret} {calledAt : ℕ} (free : state.holder = none) (invite : Invite) :
      Moves state (.createInvite secret calledAt)
        ({ state with serial := state.serial + 1 }.hold (.createRemove state.serial invite))
  | pairs {conn : ℕ} {name : String} {pairing : Pairing} (free : state.holder = none)
      (proven : state.provenPairing conn name = some pairing) :
      Moves state (.completePairing conn name) (state.hold (.pairCheck pairing))
  | fails {outcome : FileOutcome} {holder : Section} (held : state.holder = some holder)
      (other : ∀ pairing, holder ≠ .pairRemove pairing) :
      Moves state (.advance outcome) state.release
  | createRemoves {outcome : FileOutcome} {serial : ℕ} {invite : Invite}
      (held : state.holder = some (.createRemove serial invite)) :
      Moves state (.advance outcome) (state.removeInvite.hold (.createWrite serial invite))
  | createSkips {outcome : FileOutcome} {serial : ℕ} {invite : Invite}
      (held : state.holder = some (.createRemove serial invite)) :
      Moves state (.advance outcome) (state.hold (.createWrite serial invite))
  | createWrites {outcome : FileOutcome} {serial : ℕ} {invite : Invite}
      (held : state.holder = some (.createWrite serial invite))
      (absent : state.store.invite = none) (file : InviteFile) :
      Moves state (.advance outcome) (state.writeInvite serial file).release
  | pairChecks {outcome : FileOutcome} {pairing : Pairing} {expiresAt : ℕ}
      (held : state.holder = some (.pairCheck pairing))
      (present : state.store.invite = some (.invite ⟨pairing.secret, expiresAt⟩))
      (unexpired : state.now < expiresAt) :
      Moves state (.advance outcome) (state.hold (.pairRead pairing ⟨state.now, expiresAt⟩))
  | pairKnows {outcome : FileOutcome} {pairing : Pairing} {checked : CheckedInvite}
      (held : state.holder = some (.pairRead pairing checked)) :
      Moves state (.advance outcome) (state.hold (.pairRemove pairing))
  | pairReads {outcome : FileOutcome} {pairing : Pairing} {checked : CheckedInvite}
      (held : state.holder = some (.pairRead pairing checked))
      (unlisted : pairing.remote ∉ state.store.keys) (client : AuthorizedClient)
      (key : client.key = pairing.remote) :
      Moves state (.advance outcome)
        (state.hold (.pairWrite pairing checked client (state.store.clients ++ [client])))
  | pairWrites {pairing : Pairing} {checked : CheckedInvite} {client : AuthorizedClient}
      {clients : List AuthorizedClient}
      (held : state.holder = some (.pairWrite pairing checked client clients)) :
      Moves state (.advance .done)
        (((state.writeClients (.add client) clients).note
          (.paired pairing.conn pairing.remote pairing.secret state.pending)).hold
            (.pairRemove pairing))
  | pairWritesLate {pairing : Pairing} {checked : CheckedInvite} {client : AuthorizedClient}
      {clients : List AuthorizedClient}
      (held : state.holder = some (.pairWrite pairing checked client clients)) :
      Moves state (.advance .late)
        ((state.writeClients (.add client) clients).note
          (.paired pairing.conn pairing.remote pairing.secret state.pending)).release
  | pairRemoves {pairing : Pairing} (held : state.holder = some (.pairRemove pairing)) :
      Moves state (.advance .done)
        (state.removeInvite.connect pairing.conn
          (state.connections pairing.conn).clearPairing).release
  | pairRemovesLate {pairing : Pairing} (held : state.holder = some (.pairRemove pairing)) :
      Moves state (.advance .late) state.removeInvite.release
  | pairKeeps {outcome : FileOutcome} {pairing : Pairing}
      (held : state.holder = some (.pairRemove pairing))
      (failed : outcome ≠ .done ∧ outcome ≠ .late) :
      Moves state (.advance outcome) state.release
  | seenReads {outcome : FileOutcome} {remote : PublicKey} {name : String} {push : Bool}
      (held : state.holder = some (.seenRead remote name push)) :
      Moves state (.advance outcome)
        (state.hold (.seenWrite (.see remote state.now name push)
          ((ListUpdate.see remote state.now name push).apply state.store.clients)))
  | seenWrites {outcome : FileOutcome} {update : ListUpdate} {clients : List AuthorizedClient}
      (held : state.holder = some (.seenWrite update clients)) :
      Moves state (.advance outcome) (state.writeClients update clients).release
  | revokeReads {outcome : FileOutcome} {front : String} (key : PublicKey)
      (held : state.holder = some (.revokeRead front)) :
      Moves state (.advance outcome)
        (state.hold (.revokeWrite key ((ListUpdate.remove key).apply state.store.clients)))
  | revokeWrites {outcome : FileOutcome} {key : PublicKey} {clients : List AuthorizedClient}
      (held : state.holder = some (.revokeWrite key clients)) :
      Moves state (.advance outcome)
        ((state.writeClients (.remove key) clients).note
          (.revoked key state.redeemable state.serial)).release

theorem readInvite_eq_some {file : Option InviteFile} {now : ℕ} {invite : Invite}
    (found : readInvite file now = .ok (some invite)) :
    file = some (.invite invite) ∧ now < invite.expiresAt := by
  rcases file with _ | _ | other
  · cases found
  · cases found
  · simp only [readInvite, Except.ok.injEq] at found
    split at found
    · next unexpired =>
        cases found
        exact ⟨rfl, unexpired⟩
    · cases found

theorem any_key_eq {clients : List AuthorizedClient} {remote : PublicKey} :
    (clients.any fun client => client.key == remote) = true ↔
      remote ∈ clients.map (·.key) := by
  simp

/-- What the next file operation of the lock's holder can do. -/
theorem moves_of_advance {state next : PairingState} {outcome : FileOutcome}
    (advances : state.advance outcome = some next) : state.Moves (.advance outcome) next := by
  cases held : state.holder with
  | none => simp [advance, held] at advances
  | some holder =>
      simp only [advance, held] at advances
      cases holder with
      | createRemove serial invite =>
          simp only at advances
          split_ifs at advances with removed
          · cases advances
            exact .createRemoves held
          · cases advances
            exact .createSkips held
      | createWrite serial invite =>
          simp only at advances
          split_ifs at advances with present
          · cases advances
            exact .fails held nofun
          · have absent : state.store.invite = none := by simpa using present
            cases outcome with
            | failed =>
                cases advances
                exact .fails held nofun
            | torn dropped =>
                cases advances
                exact .createWrites held absent _
            | done | late =>
                cases advances
                exact .createWrites held absent _
      | pairCheck pairing =>
          simp only at advances
          split_ifs at advances with read
          · split at advances
            · next current found =>
                rcases readInvite_eq_some found with ⟨present, unexpired⟩
                split_ifs at advances with same
                · cases advances
                  rcases current with ⟨secret, expiresAt⟩
                  cases same
                  exact .pairChecks held present unexpired
                · cases advances
                  exact .fails held nofun
            · cases advances
              exact .fails held nofun
          · cases advances
            exact .fails held nofun
      | pairRead pairing checked =>
          simp only at advances
          split_ifs at advances with read known
          · cases advances
            exact .pairKnows held
          · cases advances
            exact .pairReads held (fun listed => known (any_key_eq.mpr listed)) _ rfl
          · cases advances
            exact .fails held nofun
      | pairWrite pairing checked client clients =>
          cases outcome with
          | done =>
              cases advances
              exact .pairWrites held
          | late =>
              cases advances
              exact .pairWritesLate held
          | failed | torn =>
              cases advances
              exact .fails held nofun
      | pairRemove pairing =>
          cases outcome with
          | done =>
              cases advances
              exact .pairRemoves held
          | late =>
              cases advances
              exact .pairRemovesLate held
          | failed | torn =>
              cases advances
              exact .pairKeeps held ⟨nofun, nofun⟩
      | seenRead remote name push =>
          simp only at advances
          split_ifs at advances with read
          · cases advances
            exact .seenReads held
          · cases advances
            exact .fails held nofun
      | seenWrite update clients =>
          simp only at advances
          split_ifs at advances with written
          · cases advances
            exact .seenWrites held
          · cases advances
            exact .fails held nofun
      | revokeRead front =>
          simp only at advances
          split_ifs at advances with read
          · split at advances
            · cases advances
              exact .revokeReads _ held
            · cases advances
              exact .fails held nofun
          · cases advances
            exact .fails held nofun
      | revokeWrite key clients =>
          simp only at advances
          split_ifs at advances with written
          · cases advances
            exact .revokeWrites held
          · cases advances
            exact .fails held nofun

/-- Every action is one of the listed changes. -/
theorem moves_of_perform {state next : PairingState} {action : PairingAction}
    (performs : state.perform action = some next) : state.Moves action next := by
  cases action with
  | tick elapsed =>
      cases performs
      exact .tick elapsed
  | createInvite secret calledAt =>
      simp only [perform] at performs
      split_ifs at performs with ready
      cases performs
      exact .creates (Option.isNone_iff_eq_none.mp ready.1) _
  | completePairing conn name =>
      simp only [perform] at performs
      split_ifs at performs with free
      rcases Option.map_eq_some_iff.mp performs with ⟨pairing, proven, rfl⟩
      exact .pairs (Option.isNone_iff_eq_none.mp free) proven
  | recordSeen conn name push =>
      simp only [perform] at performs
      split_ifs at performs with free
      rcases Option.map_eq_some_iff.mp performs with ⟨remote, -, rfl⟩
      exact .begins (Option.isNone_iff_eq_none.mp free) (.inl ⟨_, _, _, rfl⟩)
  | revoke front =>
      simp only [perform] at performs
      split_ifs at performs with free
      cases performs
      exact .begins (Option.isNone_iff_eq_none.mp free) (.inr ⟨_, rfl⟩)
  | advance outcome => exact moves_of_advance performs
  | greet conn remote =>
      simp only [perform] at performs
      split at performs
      · cases performs
        exact .connects conn (.greeted remote)
      · cases performs
  | readAuthorized conn =>
      simp only [perform] at performs
      split at performs
      · split_ifs at performs with listed
        · cases performs
          exact .connects conn (.listed _)
        · cases performs
          exact .connects conn (.unlisted _)
      · cases performs
  | readInvite conn =>
      simp only [perform] at performs
      split at performs
      · split at performs
        · cases performs
          exact .connects conn (.invited _ _)
        · cases performs
          exact .connects conn .closed
      · cases performs
  | receive conn sealing =>
      simp only [perform] at performs
      split at performs
      · next found =>
          split_ifs at performs with opens
          · cases performs
            cases opens
            exact .decrypts conn found
          · cases performs
            exact .stays
      · cases performs
  | acceptP2p conn remote =>
      simp only [perform] at performs
      split at performs
      · cases performs
        exact .connects conn (.p2p remote)
      · cases performs
  | presentInvite conn secret =>
      simp only [perform] at performs
      split at performs
      · split at performs
        · split_ifs at performs with same
          · cases performs
            exact .presents conn secret
          · cases performs
            exact .connects conn .closed
        · cases performs
          exact .connects conn .closed
      · cases performs
  | drop conn =>
      cases performs
      exact .connects conn .closed

end PairingState

end Condr
