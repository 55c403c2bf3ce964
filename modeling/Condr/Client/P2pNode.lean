import Condr.Foundation.Transition
import Mathlib.Data.List.Basic
import Mathlib.Logic.Function.Basic
import Mathlib.Tactic.Common

/-!
# The endpoint of a node that only dials

The endpoint is bound by the first dial that needs it, and handed out under a lock that is given
back before the connection is counted. The last clone of a stream drops its guard; the guard that
brings its counter to zero schedules a release, which closes whatever endpoint is bound by then,
if its count is zero.
-/

namespace Condr

/-- A dial in progress, with the endpoint it obtained. Once it is connected `guard` takes a
counter, and counts the connection on it. -/
structure P2pDial where
  endpoint : ℕ
  counter : Option ℕ

/-- A stream that was not dropped, with the endpoint it was made from and its guard's counter. -/
structure P2pStream where
  endpoint : ℕ
  counter : ℕ

/-- A delayed release, with the counter of the guard that scheduled it, and the endpoints that had
a stream since that guard was dropped. -/
structure P2pRelease where
  counter : ℕ
  used : ℕ → Bool

/-- Endpoints and counters are numbered together; the counter of an endpoint has its number. -/
structure P2pNode where
  bound : Option ℕ
  connections : ℕ → ℕ
  dials : List P2pDial
  streams : List P2pStream
  /-- In the order they were scheduled in. They may run in any other. -/
  releases : List P2pRelease
  /-- The endpoints that a stream was made from. -/
  carried : ℕ → Bool
  next : ℕ

inductive P2pAction where
  /-- A dial begins: it obtains the endpoint, which is bound where it is not. -/
  | obtain
  /-- A dial fails before it takes a counter. -/
  | fail (dial : ℕ)
  /-- `guard` takes the counter of the endpoint that is bound, or one of its own. -/
  | takeCounter (dial : ℕ)
  /-- `guard` counts, and the dial returns its stream. -/
  | count (dial : ℕ)
  /-- The last clone of a stream is dropped. -/
  | drop (stream : ℕ)
  /-- `release_if_idle`, once its delay is over. -/
  | release (release : ℕ)
  | close

namespace P2pNode

def init : P2pNode where
  bound := none
  connections := fun _ => 0
  dials := []
  streams := []
  releases := []
  carried := fun _ => false
  next := 0

def counterOf (node : P2pNode) : ℕ := node.bound.getD node.next

/-- A number that was not given yet becomes one of a new counter. -/
def fresh (node : P2pNode) : P2pNode :=
  { node with
    connections := Function.update node.connections node.next 0
    next := node.next + 1 }

/-- `endpoint`: binds it when needed. -/
def endpoint (node : P2pNode) : P2pNode :=
  match node.bound with
  | some _ => node
  | none => { node.fresh with bound := some node.next }

def obtainEndpoint (node : P2pNode) : P2pNode :=
  { node.endpoint with dials := node.dials ++ [⟨node.counterOf, none⟩] }

def failDial (node : P2pNode) (index : ℕ) : P2pNode :=
  { node with dials := node.dials.eraseIdx index }

/-- The first half of `guard`. -/
def takeCounter (node : P2pNode) (index : ℕ) (dial : P2pDial) : P2pNode :=
  let taken := { dial with counter := some node.counterOf }
  match node.bound with
  | some _ => { node with dials := node.dials.set index taken }
  | none => { node.fresh with dials := node.dials.set index taken }

/-- The second half of `guard`. -/
def countStream (node : P2pNode) (index : ℕ) (endpoint counter : ℕ) : P2pNode :=
  { node with
    connections := Function.update node.connections counter (node.connections counter + 1)
    dials := node.dials.eraseIdx index
    streams := node.streams ++ [⟨endpoint, counter⟩]
    releases := node.releases.map fun release =>
      { release with used := fun other => release.used other || other == endpoint }
    carried := fun other => node.carried other || other == endpoint }

/-- The guard of a stream is dropped: `fetch_sub`, and a release where that was the last one. -/
def dropStream (node : P2pNode) (index : ℕ) (stream : P2pStream) : P2pNode :=
  let left := node.streams.eraseIdx index
  { node with
    connections :=
      Function.update node.connections stream.counter (node.connections stream.counter - 1)
    streams := left
    releases :=
      if node.connections stream.counter = 1 then
        node.releases ++ [{
          counter := stream.counter
          used := fun endpoint => left.any fun stream => stream.endpoint == endpoint }]
      else node.releases }

/-- `release_if_idle`. -/
def releaseIfIdle (node : P2pNode) (index : ℕ) : P2pNode :=
  { node with
    bound := node.bound.filter fun endpoint => node.connections endpoint != 0
    releases := node.releases.eraseIdx index }

def perform (node : P2pNode) : P2pAction → Option P2pNode
  | .obtain => some node.obtainEndpoint
  | .fail index =>
      match node.dials[index]? with
      | some ⟨_, none⟩ => some (node.failDial index)
      | _ => none
  | .takeCounter index =>
      match node.dials[index]? with
      | some ⟨endpoint, none⟩ => some (node.takeCounter index ⟨endpoint, none⟩)
      | _ => none
  | .count index =>
      match node.dials[index]? with
      | some ⟨endpoint, some counter⟩ => some (node.countStream index endpoint counter)
      | _ => none
  | .drop index => (node.streams[index]?).map (node.dropStream index)
  | .release index => (node.releases[index]?).map fun _ => node.releaseIfIdle index
  | .close => some { node with bound := none }

/-- A dial that obtained the endpoint has not ended. -/
def Dialled (node : P2pNode) (endpoint : ℕ) : Prop :=
  ∃ dial ∈ node.dials, dial.endpoint = endpoint

def Carries (node : P2pNode) (endpoint : ℕ) : Prop :=
  ∃ stream ∈ node.streams, stream.endpoint = endpoint

/-- No dial that obtained the endpoint is in progress, and no stream made from it is alive or was
since the guard that scheduled the release was dropped. -/
def Unused (node : P2pNode) (release : P2pRelease) (endpoint : ℕ) : Prop :=
  ¬node.Dialled endpoint ∧ ¬node.Carries endpoint ∧ release.used endpoint = false

/-- An endpoint that stays bound after its streams has its release. -/
def Scheduled (node : P2pNode) : Prop :=
  ∀ endpoint, node.bound = some endpoint → node.carried endpoint = true →
    ¬node.Carries endpoint → node.dials = [] →
      ∃ release ∈ node.releases, release.counter = endpoint

/-- The release at the place closes the endpoint: it is bound before and not after. -/
def Closes (node : P2pNode) (index endpoint : ℕ) : Prop :=
  node.bound = some endpoint ∧ ∃ next, node.perform (.release index) = some next ∧ next.bound = none

/-- What a release closes is unused. -/
def ClosesUnused (node : P2pNode) : Prop :=
  ∀ index release endpoint, node.releases[index]? = some release → node.Closes index endpoint →
    node.Unused release endpoint

/-- No release that was scheduled later is one for the endpoint. -/
def Latest (node : P2pNode) (index endpoint : ℕ) : Prop :=
  ∀ later ∈ node.releases.drop (index + 1), later.counter ≠ endpoint

/-- No other endpoint was bound since the dial obtained its own. -/
def StillBound (node : P2pNode) (index : ℕ) : Prop :=
  ∀ dial endpoint, node.dials[index]? = some dial → node.bound = some endpoint →
    dial.endpoint = endpoint

/-- What the step must find: a guard is taken for the endpoint that is bound. -/
def Careful (node : P2pNode) : P2pAction → Prop
  | .takeCounter index => node.StillBound index
  | _ => True

end P2pNode

/-- A node that only dials. -/
def p2pSystem : Transition.System P2pNode P2pAction where
  initial := (· = .init)
  step node action next := node.perform action = some next

/-- The node in runs whose guards are of the endpoints that their dials obtained. -/
def carefulP2pSystem : Transition.System P2pNode P2pAction where
  initial := (· = .init)
  step node action next := node.perform action = some next ∧ node.Careful action

end Condr
