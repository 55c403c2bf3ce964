import Condr.Foundation.Transition
import Condr.Server.Identity
import Mathlib.Logic.Function.Basic
import Mathlib.Algebra.GroupWithZero.Nat

/-!
# Pairing

Connections and processes that share one identity store. A connection reads the store without
the lock when its peer says hello; every change of the files is made by the process that holds the
lock, one file operation at a time, and each of these may fail.
-/

namespace Condr

/-- What became of one file operation. -/
inductive FileOutcome where
  | done
  /-- It failed and changed nothing. -/
  | failed
  /-- It took effect, and failed after that. -/
  | late
  /-- A new file was left with the first part of its text: without the last digits of the
  expiry, or with less than that. -/
  | torn (dropped : Option ℕ)
deriving DecidableEq

/-- The pairing that a connection completes. -/
structure Pairing where
  conn : ℕ
  remote : PublicKey
  name : String
  secret : Secret

/-- The invite as the lock's holder read it. -/
structure CheckedInvite where
  checkedAt : ℕ
  expiresAt : ℕ

/-- What the holder of the lock does next. -/
inductive Section where
  | createRemove (serial : ℕ) (invite : Invite)
  | createWrite (serial : ℕ) (invite : Invite)
  | pairCheck (pairing : Pairing)
  | pairRead (pairing : Pairing) (checked : CheckedInvite)
  | pairWrite (pairing : Pairing) (checked : CheckedInvite) (client : AuthorizedClient)
      (clients : List AuthorizedClient)
  | pairRemove (pairing : Pairing)
  | seenRead (remote : PublicKey) (name : String) (push : Bool)
  | seenWrite (update : ListUpdate) (clients : List AuthorizedClient)
  | revokeRead (front : String)
  | revokeWrite (key : PublicKey) (clients : List AuthorizedClient)

/-- The Server's side of a connection. -/
inductive Connection where
  | fresh
  | closed
  /-- The peer's first message authenticated its key. -/
  | greeted (remote : PublicKey)
  /-- The store did not list the key. -/
  | unlisted (remote : PublicKey)
  | transport (remote : PublicKey) (psk : Secret) (pairing : Option Secret) (verified : Bool)
  /-- A Peer-to-peer connection, whose peer is authenticated by the transport. -/
  | p2p (remote : PublicKey) (pairing : Option Secret)

def Connection.clearPairing : Connection → Connection
  | transport remote psk _ verified => transport remote psk none verified
  | p2p remote _ => p2p remote none
  | other => other

def Connection.remote : Connection → Option PublicKey
  | transport remote _ _ _ => some remote
  | p2p remote _ => some remote
  | _ => none

/-- What happened, for the statements about runs. -/
inductive PairingEvent where
  /-- A record of the peer with this key was opened under the pre-shared key. -/
  | decrypted (conn : ℕ) (remote : PublicKey) (psk : Secret)
  /-- A Peer-to-peer peer presented the secret of the pending invite. -/
  | presented (conn : ℕ) (remote : PublicKey) (secret : Secret)
  /-- The device was added with the invite of this number. -/
  | paired (conn : ℕ) (remote : PublicKey) (secret : Secret) (serial : ℕ)
  /-- The device was removed; with the number of the invite that was pending, and the number
  of the next one. -/
  | revoked (key : PublicKey) (pending : Option ℕ) (next : ℕ)

structure PairingState where
  now : ℕ
  store : IdentityStore
  always : List PublicKey
  holder : Option Section
  connections : ℕ → Connection
  /-- The number of the next invite, and of the one in the file. -/
  serial : ℕ
  pending : ℕ
  /-- Newest first. -/
  history : List PairingEvent
  /-- The list at the start, and its updates since, oldest first. -/
  start : List AuthorizedClient
  updates : List ListUpdate

namespace PairingState

def release (state : PairingState) : PairingState := { state with holder := none }

def hold (state : PairingState) (holder : Section) : PairingState :=
  { state with holder := some holder }

def connect (state : PairingState) (conn : ℕ) (connection : Connection) : PairingState :=
  { state with connections := Function.update state.connections conn connection }

def note (state : PairingState) (event : PairingEvent) : PairingState :=
  { state with history := event :: state.history }

/-- `write_authorized`, once it has taken effect. -/
def writeClients (state : PairingState) (update : ListUpdate) (clients : List AuthorizedClient) :
    PairingState :=
  { state with
    store := { state.store with clients := clients }
    updates := state.updates ++ [update] }

def writeInvite (state : PairingState) (serial : ℕ) (file : InviteFile) : PairingState :=
  { state with store := { state.store with invite := some file }, pending := serial }

def removeInvite (state : PairingState) : PairingState :=
  { state with store := { state.store with invite := none } }

/-- The number of the invite that could be redeemed now. -/
def redeemable (state : PairingState) : Option ℕ :=
  match readInvite state.store.invite state.now with
  | .ok (some _) => some state.pending
  | _ => none

/-- The file after a write of an invite that stopped early. -/
def tornInvite (invite : Invite) : Option ℕ → InviteFile
  | none => .malformed
  | some dropped =>
      if invite.expiresAt / 10 ^ dropped = 0 then .malformed
      else .invite { invite with expiresAt := invite.expiresAt / 10 ^ dropped }

/-- The next file operation of the process that holds the lock. -/
def advance (state : PairingState) (outcome : FileOutcome) : Option PairingState :=
  match state.holder with
  | none => none
  | some (.createRemove serial invite) =>
      -- a failed removal is ignored
      if outcome = .done ∨ outcome = .late then
        some (state.removeInvite.hold (.createWrite serial invite))
      else some (state.hold (.createWrite serial invite))
  | some (.createWrite serial invite) =>
      -- an existing file is refused
      if state.store.invite.isSome then some state.release
      else match outcome with
      | .failed => some state.release
      | .torn dropped => some (state.writeInvite serial (tornInvite invite dropped)).release
      | .done | .late => some (state.writeInvite serial (.invite invite)).release
  | some (.pairCheck pairing) =>
      if outcome = .done then
        match readInvite state.store.invite state.now with
        | .ok (some current) =>
            if current.secret = pairing.secret then
              some (state.hold (.pairRead pairing ⟨state.now, current.expiresAt⟩))
            else some state.release
        | _ => some state.release
      else some state.release
  | some (.pairRead pairing checked) =>
      if outcome = .done then
        if state.store.clients.any fun client => client.key == pairing.remote then
          some (state.hold (.pairRemove pairing))
        else
          let client : AuthorizedClient := {
            key := pairing.remote
            name := singleSpaced pairing.name
            pairedAt := state.now
            lastSeen := state.now
            push := false }
          some (state.hold (.pairWrite pairing checked client (state.store.clients ++ [client])))
      else some state.release
  | some (.pairWrite pairing _ client clients) =>
      let written := (state.writeClients (.add client) clients).note
        (.paired pairing.conn pairing.remote pairing.secret state.pending)
      match outcome with
      | .done => some (written.hold (.pairRemove pairing))
      | .late => some written.release
      | .failed | .torn _ => some state.release
  | some (.pairRemove pairing) =>
      match outcome with
      | .done =>
          some ((state.removeInvite.connect pairing.conn
            (state.connections pairing.conn).clearPairing).release)
      | .late => some state.removeInvite.release
      | .failed | .torn _ => some state.release
  | some (.seenRead remote name push) =>
      if outcome = .done ∧ state.store.clients.any (fun client => client.key == remote) then
        let update := ListUpdate.see remote state.now name push
        some (state.hold (.seenWrite update (update.apply state.store.clients)))
      else some state.release
  | some (.seenWrite update clients) =>
      if outcome = .done ∨ outcome = .late then some (state.writeClients update clients).release
      else some state.release
  | some (.revokeRead front) =>
      if outcome = .done then
        match state.store.clients.filter fun client => client.key.matchesPrefix front with
        | [client] =>
            some (state.hold (.revokeWrite client.key
              ((ListUpdate.remove client.key).apply state.store.clients)))
        | _ => some state.release
      else some state.release
  | some (.revokeWrite key clients) =>
      if outcome = .done ∨ outcome = .late then
        some (((state.writeClients (.remove key) clients).note
          (.revoked key state.redeemable state.serial)).release)
      else some state.release

end PairingState

inductive PairingAction where
  | tick (elapsed : ℕ)
  /-- `create_invite`, called before it gets the lock. -/
  | createInvite (secret : Secret) (calledAt : ℕ)
  | completePairing (conn : ℕ) (name : String)
  | recordSeen (conn : ℕ) (name : String) (push : Bool)
  | revoke (front : String)
  | advance (outcome : FileOutcome)
  /-- The first message of a handshake, with the key that it authenticates. -/
  | greet (conn : ℕ) (remote : PublicKey)
  | readAuthorized (conn : ℕ)
  | readInvite (conn : ℕ)
  /-- A record that the peer sealed under a pre-shared key. -/
  | receive (conn : ℕ) (sealing : Secret)
  | acceptP2p (conn : ℕ) (remote : PublicKey)
  | presentInvite (conn : ℕ) (secret : Secret)
  | drop (conn : ℕ)
deriving DecidableEq

namespace PairingState

/-- The pairing that `complete_pairing` of a connection asks the store for: the peer must have
proved its invite. -/
def provenPairing (state : PairingState) (conn : ℕ) (name : String) : Option Pairing :=
  match state.connections conn with
  | .transport remote _ (some secret) true => some { conn, remote, name, secret }
  | .p2p remote (some secret) => some { conn, remote, name, secret }
  | _ => none

/-- The state after an action, where the action can be taken. -/
def perform (state : PairingState) : PairingAction → Option PairingState
  | .tick elapsed => some { state with now := state.now + elapsed }
  | .createInvite secret calledAt =>
      if state.holder.isNone ∧ calledAt ≤ state.now then
        some ({ state with serial := state.serial + 1 }.hold
          (.createRemove state.serial { secret, expiresAt := calledAt + inviteTtl }))
      else none
  | .completePairing conn name =>
      if state.holder.isNone then
        (state.provenPairing conn name).map fun pairing => state.hold (.pairCheck pairing)
      else none
  | .recordSeen conn name push =>
      if state.holder.isNone then
        (state.connections conn).remote.map fun remote => state.hold (.seenRead remote name push)
      else none
  | .revoke front =>
      if state.holder.isNone then some (state.hold (.revokeRead front)) else none
  | .advance outcome => state.advance outcome
  | .greet conn remote =>
      match state.connections conn with
      | .fresh => some (state.connect conn (.greeted remote))
      | _ => none
  | .readAuthorized conn =>
      match state.connections conn with
      | .greeted remote =>
          if state.store.isAuthorized state.always remote then
            some (state.connect conn (.transport remote ⟨0⟩ none false))
          else some (state.connect conn (.unlisted remote))
      | _ => none
  | .readInvite conn =>
      match state.connections conn with
      | .unlisted remote =>
          match Condr.readInvite state.store.invite state.now with
          | .ok (some invite) =>
              some (state.connect conn
                (.transport remote invite.secret (some invite.secret) false))
          | _ => some (state.connect conn .closed)
      | _ => none
  | .receive conn sealing =>
      match state.connections conn with
      | .transport remote psk pairing _ =>
          if sealing = psk then
            some ((state.connect conn (.transport remote psk pairing true)).note
              (.decrypted conn remote psk))
          else some state
      | _ => none
  | .acceptP2p conn remote =>
      match state.connections conn with
      | .fresh => some (state.connect conn (.p2p remote none))
      | _ => none
  | .presentInvite conn secret =>
      -- whether the peer is listed was read before, and may have changed
      match state.connections conn with
      | .p2p remote none =>
          match Condr.readInvite state.store.invite state.now with
          | .ok (some invite) =>
              if invite.secret = secret then
                some ((state.connect conn (.p2p remote (some secret))).note
                  (.presented conn remote secret))
              else some (state.connect conn .closed)
          | _ => some (state.connect conn .closed)
      | _ => none
  | .drop conn => some (state.connect conn .closed)

/-- The invites that added a device, newest first. -/
def pairedSerials (state : PairingState) : List ℕ :=
  state.history.filterMap fun
    | .paired _ _ _ serial => some serial
    | _ => none

/-- Any store, with nothing under way. -/
structure Initial (state : PairingState) : Prop where
  holder : state.holder = none
  connections : ∀ conn, state.connections conn = .fresh
  serial : state.pending < state.serial
  history : state.history = []
  start : state.start = state.store.clients
  updates : state.updates = []

end PairingState

def pairingSystem : Transition.System PairingState PairingAction where
  initial := PairingState.Initial
  step state action next := state.perform action = some next

/-- The file operation that leaves a used invite in its place: its removal fails, or the list
with the device is written and the write fails after that. -/
def PairingAction.KeepsUsedInvite (state : PairingState) : PairingAction → Prop
  | .advance outcome =>
      match state.holder with
      | some (.pairRemove _) =>
          outcome ≠ .done ∧ outcome ≠ .late ∧ state.pending ∈ state.pairedSerials
      | some (.pairWrite _ _ _ _) => outcome = .late
      | _ => False
  | _ => False

/-- The runs in which no used invite stays in its place. -/
def consumingSystem : Transition.System PairingState PairingAction where
  initial := PairingState.Initial
  step state action next :=
    pairingSystem.step state action next ∧ ¬action.KeepsUsedInvite state

end Condr
