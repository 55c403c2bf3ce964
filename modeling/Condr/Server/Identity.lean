import Condr.Session.Path

/-!
# The identity store

The devices that a Server accepts and the one invite that is pending, as they stand in the files
of its identity directory. Every change of the list of devices is one update of it.
-/

namespace Condr

/-- A device's public key, by the fingerprint that shows all of it. -/
structure PublicKey where
  fingerprint : String
deriving DecidableEq

structure Secret where
  bytes : BitVec 256
deriving DecidableEq

def PublicKey.matchesPrefix (key : PublicKey) (front : String) : Bool :=
  !front.isEmpty && front.toList.isPrefixOf key.fingerprint.toList

structure AuthorizedClient where
  key : PublicKey
  name : String
  pairedAt : ℕ
  lastSeen : ℕ
  push : Bool
deriving DecidableEq

structure Invite where
  secret : Secret
  expiresAt : ℕ
deriving DecidableEq

/-- What `pending-invite` holds: an invite, or text that is none. -/
inductive InviteFile where
  | malformed
  | invite (invite : Invite)
deriving DecidableEq

structure IdentityStore where
  /-- `authorized-clients.json`. -/
  clients : List AuthorizedClient
  invite : Option InviteFile

/-- `INVITE_TTL`, in seconds. -/
def inviteTtl : ℕ := 10 * 60

/-- A device's name on one line. -/
def singleSpaced (name : String) : String :=
  " ".intercalate
    (((name.toList.splitOnP isWhiteSpace).filter fun word => !word.isEmpty).map String.ofList)

/-- The pending invite, if one exists and has not expired. -/
def readInvite (file : Option InviteFile) (now : ℕ) : Except Unit (Option Invite) :=
  match file with
  | none => .ok none
  | some .malformed => .error ()
  | some (.invite invite) => .ok (if now < invite.expiresAt then some invite else none)

namespace IdentityStore

def keys (store : IdentityStore) : List PublicKey := store.clients.map (·.key)

/-- `is_authorized`, with the devices that need no store. -/
def isAuthorized (store : IdentityStore) (always : List PublicKey) (remote : PublicKey) : Bool :=
  always.contains remote || store.clients.any fun client => client.key == remote

end IdentityStore

/-! ## Updates of the list -/

inductive ListUpdate where
  | add (client : AuthorizedClient)
  | see (key : PublicKey) (now : ℕ) (name : String) (push : Bool)
  | remove (key : PublicKey)

/-- The first entry of the key is changed. -/
def modifyClient (key : PublicKey) (change : AuthorizedClient → AuthorizedClient) :
    List AuthorizedClient → List AuthorizedClient
  | [] => []
  | client :: rest =>
      if client.key = key then change client :: rest
      else client :: modifyClient key change rest

/-- `record_seen` on an entry: an empty name keeps the old one. -/
def AuthorizedClient.seen (client : AuthorizedClient) (now : ℕ) (name : String) (push : Bool) :
    AuthorizedClient where
  key := client.key
  name := if (singleSpaced name).isEmpty then client.name else singleSpaced name
  pairedAt := client.pairedAt
  lastSeen := now
  push := push

def ListUpdate.apply (clients : List AuthorizedClient) : ListUpdate → List AuthorizedClient
  | add client => clients ++ [client]
  | see key now name push => modifyClient key (·.seen now name push) clients
  | remove key => clients.filter fun client => client.key != key

theorem map_key_modifyClient {key : PublicKey} {change : AuthorizedClient → AuthorizedClient}
    (keeps : ∀ client, (change client).key = client.key) (clients : List AuthorizedClient) :
    (modifyClient key change clients).map (·.key) = clients.map (·.key) := by
  induction clients with
  | nil => rfl
  | cons client rest induction =>
      rw [modifyClient]
      split
      · simp [keeps]
      · simp [induction]

theorem ListUpdate.map_key_apply (clients : List AuthorizedClient) (update : ListUpdate) :
    (update.apply clients).map (·.key) = match update with
      | add client => clients.map (·.key) ++ [client.key]
      | see _ _ _ _ => clients.map (·.key)
      | remove key => (clients.map (·.key)).filter (· != key) := by
  cases update with
  | add client => simp [apply]
  | see key now name push =>
      rw [apply, map_key_modifyClient]
      intro client
      rfl
  | remove key => simp [apply, List.filter_map, Function.comp_def]

end Condr
