import Condr.Terminal.InputQueueOrder

/-!
# One call among others

The accesses of one call are followed through a run, whatever the others do between them. A refused
call gives back all that it took and queues nothing; an accepted one queues its entry, once.
-/

namespace Condr.InputQueue

/-! ## Requests -/

inductive Request where
  | write (bytes : List UInt8)
  | submit (text enter : List UInt8)
  | reply (bytes : List UInt8)
  | control (bytes : List UInt8)
deriving DecidableEq

namespace Request

def call : Request → Call
  | write bytes => tryWrite bytes
  | submit text enter => trySubmit text enter
  | reply bytes => writeTerminalReply bytes
  | control bytes => tryWriteControl bytes

/-- The entry it asks for. -/
def input : Request → QueuedInput
  | write bytes => { bytes, submitSplit := none, permit := .user }
  | submit text enter =>
      { bytes := text ++ enter, submitSplit := some text.length, permit := .user }
  | reply bytes => { bytes, submitSplit := none, permit := .reply }
  | control bytes => { bytes, submitSplit := none, permit := .control }

end Request

/-- A call asks for its entry until it is decided. -/
inductive Progress where
  | asking (input : QueuedInput)
  | decided (result : Except InputError Unit)

/-- It was not accepted, so far. -/
def Progress.Untaken : Progress → Prop
  | asking _ | decided (.error _) => True
  | decided (.ok ()) => False

def Call.progress : Call → Progress
  | userStart bytes split | userEntry bytes split | userBytes bytes split | userCheck bytes split
  | userSend bytes split => .asking { bytes, submitSplit := split, permit := .user }
  | userRefund => .decided (.error .byteBudgetFull)
  | controlStart bytes | controlEntry bytes | controlCheck bytes | controlSend bytes =>
      .asking { bytes, submitSplit := none, permit := .control }
  | replyStart bytes | replyLock bytes | replyCheck bytes | replyLook bytes | replyToken bytes
  | replySend bytes => .asking { bytes, submitSplit := none, permit := .reply }
  | userDrop _ error | userDropEntry error | controlDrop error => .decided (.error error)
  | replyUnlock result | finished result => .decided result

theorem Request.starts (request : Request) : request.call.Starts := by
  cases request <;> exact ⟨rfl, rfl⟩

theorem Request.progress_call (request : Request) :
    request.call.progress = .asking request.input := by
  cases request <;> rfl

/-! ## What one access decides -/

/-- An access that logs and queues nothing. -/
structure SameLogs (shared next : Shared) : Prop where
  sent : next.sent = shared.sent
  queue : next.queue = shared.queue
  replies : next.replies = shared.replies
  pending : next.pending = shared.pending

/-- An access that accepts an entry. -/
inductive Takes (shared next : Shared) (input : QueuedInput) : Prop where
  | queued (permit : input.permit ≠ .reply) (sent : next.sent = shared.sent ++ [input])
      (queue : next.queue = shared.queue ++ [input]) (replies : next.replies = shared.replies)
      (pending : next.pending = shared.pending)
  /-- The reply that travels with the token. -/
  | first (permit : input.permit = .reply) (sent : next.sent = shared.sent ++ [input])
      (queue : next.queue = shared.queue ++ [input])
      (replies : next.replies = shared.replies ++ [input.bytes])
      (pending : next.pending = shared.pending)
  /-- A reply behind it. -/
  | behind (permit : input.permit = .reply) (sent : next.sent = shared.sent)
      (queue : next.queue = shared.queue)
      (replies : next.replies = shared.replies ++ [input.bytes])
      (pending : next.pending = shared.pending ++ [input.bytes])

inductive Outcome (shared next : Shared) : Progress → Progress → Prop where
  | waits (progress : Progress) (same : SameLogs shared next) :
      Outcome shared next progress progress
  | refused (input : QueuedInput) (error : InputError) (same : SameLogs shared next) :
      Outcome shared next (.asking input) (.decided (.error error))
  /-- There is nothing to write. -/
  | nothing {input : QueuedInput} (empty : input.bytes = []) (same : SameLogs shared next) :
      Outcome shared next (.asking input) (.decided (.ok ()))
  | taken {input : QueuedInput} (takes : Takes shared next input) :
      Outcome shared next (.asking input) (.decided (.ok ()))

theorem SameLogs.refl (shared : Shared) : SameLogs shared shared := ⟨rfl, rfl, rfl, rfl⟩

theorem outcome_advance {shared next : Shared} {call after : Call}
    (advanced : advance shared call = some (next, after)) :
    Outcome shared next call.progress after.progress := by
  cases call with
  | userStart _ _ | controlStart _ | replyStart _ =>
      simp only [advance] at advanced
      split_ifs at advanced with empty <;> cases advanced
      · exact .nothing (List.isEmpty_iff.mp empty) (.refl _)
      · exact .waits _ (.refl _)
      · exact .refused _ _ (.refl _)
  | userEntry _ _ | controlEntry _ =>
      simp only [advance] at advanced
      split_ifs at advanced <;> cases advanced
      · exact .waits _ ⟨rfl, rfl, rfl, rfl⟩
      · exact .refused _ _ (.refl _)
  | userBytes _ _ =>
      simp only [advance] at advanced
      split_ifs at advanced <;> cases advanced
      · exact .waits _ ⟨rfl, rfl, rfl, rfl⟩
      · exact .refused _ _ (.refl _)
  | userCheck _ _ | controlCheck _ | replyCheck _ =>
      simp only [advance] at advanced
      split_ifs at advanced <;> cases advanced
      · exact .waits _ (.refl _)
      · exact .refused _ _ (.refl _)
  | userRefund | userDrop _ _ | userDropEntry _ | controlDrop _ | replyUnlock _ =>
      simp only [advance] at advanced
      cases advanced
      exact .waits _ ⟨rfl, rfl, rfl, rfl⟩
  | userSend _ _ | controlSend _ =>
      simp only [advance] at advanced
      split at advanced
      · next sent =>
          cases advanced
          rcases trySend_ok sent with ⟨-, -, rfl⟩
          exact .taken (.queued (by simp) rfl rfl rfl rfl)
      · cases advanced
        exact .refused _ _ (.refl _)
  | replyLock _ =>
      simp only [advance] at advanced
      split_ifs at advanced
      cases advanced
      exact .waits _ ⟨rfl, rfl, rfl, rfl⟩
  | replyLook _ =>
      simp only [advance] at advanced
      split_ifs at advanced <;> cases advanced
      · exact .taken (.behind rfl rfl rfl rfl rfl)
      · exact .waits _ ⟨rfl, rfl, rfl, rfl⟩
  | replyToken _ =>
      simp only [advance] at advanced
      split_ifs at advanced <;> cases advanced
      · exact .waits _ (.refl _)
      · exact .refused _ _ ⟨rfl, rfl, rfl, rfl⟩
  | replySend _ =>
      simp only [advance] at advanced
      split at advanced
      · next sent =>
          cases advanced
          rcases trySend_ok sent with ⟨-, -, rfl⟩
          exact .taken (.first rfl rfl rfl rfl rfl)
      · cases advanced
        exact .refused _ _ ⟨rfl, rfl, rfl, rfl⟩
  | finished _ => cases advanced

/-! ## The accesses of one call -/

/-- What was shared before an access and after it. -/
abbrev Access := Shared × Shared

/-- The accesses of a call one after another, with anything between them. -/
inductive Runs (start : Call) : List Access → Call → Prop where
  | start : Runs start [] start
  | next {accesses : List Access} {shared next : Shared} {call after : Call}
      (runs : Runs start accesses call) (covers : Covers shared call.held)
      (advanced : advance shared call = some (next, after)) :
      Runs start (accesses ++ [(shared, next)]) after

/-- What the accesses of a call change of one counter, in sum, is `change`. -/
def Moves (count : Shared → ℕ) (accesses : List Access) (change : ℕ) : Prop :=
  (accesses.map fun access => count access.2).sum =
    (accesses.map fun access => count access.1).sum + change

theorem moves_append {count : Shared → ℕ} {accesses : List Access} {shared next : Shared}
    {held after : ℕ} (moves : Moves count accesses held)
    (moved : count next + held = count shared + after) :
    Moves count (accesses ++ [(shared, next)]) after := by
  simp only [Moves, List.map_append, List.map_singleton, List.sum_append,
    List.sum_singleton] at moves ⊢
  omega

/-- A call changes each counter, in sum, by what it holds. -/
structure Reserved (accesses : List Access) (held : Held) : Prop where
  entries : Moves Shared.pendingEntries accesses held.entries
  bytes : Moves Shared.pendingBytes accesses held.bytes
  controls : Moves Shared.pendingControlEntries accesses held.controls
  tokens : Moves (fun shared => shared.tokenQueued.toNat) accesses held.tokens
  locks : Moves (fun shared => shared.locked.toNat) accesses held.locks

theorem reserved_nil : Reserved [] ⟨0, 0, 0, 0, 0⟩ := ⟨rfl, rfl, rfl, rfl, rfl⟩

theorem reserved_append {accesses : List Access} {shared next : Shared} {held after : Held}
    (reserved : Reserved accesses held) (same : SameLogs shared next)
    (balanced : Balanced shared next held after) :
    Reserved (accesses ++ [(shared, next)]) after := by
  have entries := balanced.entries
  have bytes := balanced.bytes
  have controls := balanced.controls
  have tokens := balanced.tokens
  simp only [Shared.queuedEntries, Shared.queuedBytes, Shared.queuedControls, Shared.queuedTokens,
    same.queue] at entries bytes controls tokens
  refine ⟨?_, ?_, ?_, ?_, moves_append reserved.locks balanced.locks⟩
  · exact moves_append reserved.entries (by omega)
  · exact moves_append reserved.bytes (by omega)
  · exact moves_append reserved.controls (by omega)
  · exact moves_append reserved.tokens (by omega)

section Runs

variable {start call : Call} {accesses : List Access}

/-- Until it is accepted a call logs nothing, and has changed the counters by what it holds. -/
theorem runs_untaken (starts : start.Starts) (runs : Runs start accesses call)
    (untaken : call.progress.Untaken) :
    Reserved accesses call.held ∧ ∀ access ∈ accesses, SameLogs access.1 access.2 := by
  induction runs with
  | start =>
      rw [starts.held]
      exact ⟨reserved_nil, fun access contained => absurd contained List.not_mem_nil⟩
  | @next accesses shared next call after runs covers advanced ih =>
      have balanced := balanced_advance advanced covers
      have before : call.progress.Untaken ∧ SameLogs shared next := by
        generalize call.progress = first, after.progress = last,
          outcome_advance advanced = outcome at untaken
        cases outcome with
        | waits _ same => exact ⟨untaken, same⟩
        | refused _ _ same => exact ⟨trivial, same⟩
        | nothing _ _ => cases untaken
        | taken _ => cases untaken
      rcases ih before.1 with ⟨reserved, same⟩
      refine ⟨reserved_append reserved before.2 balanced, ?_⟩
      intro access contained
      rcases List.mem_append.mp contained with earlier | last
      · exact same access earlier
      · rw [List.mem_singleton.mp last]
        exact before.2

/-- Just one access takes the entry, and no other logs anything. -/
def TakenOnce (accesses : List Access) (input : QueuedInput) : Prop :=
  ∃ before access behind, accesses = before ++ access :: behind ∧
    Takes access.1 access.2 input ∧ ∀ other ∈ before ++ behind, SameLogs other.1 other.2

theorem takenOnce_append {input : QueuedInput} {shared next : Shared}
    (once : TakenOnce accesses input) (same : SameLogs shared next) :
    TakenOnce (accesses ++ [(shared, next)]) input := by
  rcases once with ⟨before, access, behind, rfl, takes, others⟩
  refine ⟨before, access, behind ++ [(shared, next)], by simp, takes, ?_⟩
  intro other contained
  rw [← List.append_assoc] at contained
  rcases List.mem_append.mp contained with earlier | last
  · exact others other earlier
  · rw [List.mem_singleton.mp last]
    exact same

theorem runs_asking {request : Request} {input : QueuedInput}
    (runs : Runs request.call accesses call) (asking : call.progress = .asking input) :
    input = request.input := by
  induction runs with
  | start =>
      rw [request.progress_call] at asking
      cases asking
      rfl
  | @next accesses shared next call after runs covers advanced ih =>
      apply ih
      have outcome := outcome_advance advanced
      rw [asking] at outcome
      generalize call.progress = progress at outcome ⊢
      cases outcome
      rfl

/-- A call that returns without an error had nothing to write, or took its entry, once. -/
theorem runs_accepted {request : Request} (runs : Runs request.call accesses call)
    (accepted : call.progress = .decided (.ok ())) :
    request.input.bytes = [] ∨ TakenOnce accesses request.input := by
  induction runs with
  | start =>
      rw [request.progress_call] at accepted
      cases accepted
  | @next accesses shared next call after runs covers advanced ih =>
      have outcome := outcome_advance advanced
      rw [accepted] at outcome
      generalize asked : call.progress = progress at outcome
      cases outcome with
      | waits _ same =>
          rcases ih asked with empty | once
          · exact .inl empty
          · exact .inr (takenOnce_append once same)
      | nothing empty same =>
          rw [runs_asking runs asked] at empty
          exact .inl empty
      | taken takes =>
          have untaken : call.progress.Untaken := by
            rw [asked]
            trivial
          rw [runs_asking runs asked] at takes
          refine .inr ⟨accesses, (shared, next), [], rfl, takes, ?_⟩
          rw [List.append_nil]
          exact (runs_untaken request.starts runs untaken).2

end Runs

/-! ## Runs of the system -/

/-- A run to a state, and the accesses that the call made as the `index`-th made in it. -/
inductive Trace (index : ℕ) : State → List Access → Prop where
  | start : Trace index ⟨Shared.initial, [], .idle⟩ []
  | own {shared next : Shared} {front back : List Call} {call after : Call} {writer : Writer}
      {accesses : List Access} (traced : Trace index ⟨shared, front ++ call :: back, writer⟩ accesses)
      (own : front.length = index) (advanced : advance shared call = some (next, after)) :
      Trace index ⟨next, front ++ after :: back, writer⟩ (accesses ++ [(shared, next)])
  | other {shared next : Shared} {front back : List Call} {call after : Call} {writer : Writer}
      {accesses : List Access} (traced : Trace index ⟨shared, front ++ call :: back, writer⟩ accesses)
      (other : front.length ≠ index) (advanced : advance shared call = some (next, after)) :
      Trace index ⟨next, front ++ after :: back, writer⟩ accesses
  | step {state next : State} {action : Action} {accesses : List Access}
      (traced : Trace index state accesses) (steps : Step state action next)
      (foreign : action ≠ .advance) : Trace index next accesses

theorem Trace.reachable {index : ℕ} {state : State} {accesses : List Access}
    (traced : Trace index state accesses) : system.Reachable state := by
  induction traced with
  | start => exact .start rfl
  | own _ _ advanced reached => exact reached.next (Step.advance advanced)
  | other _ _ advanced reached => exact reached.next (Step.advance advanced)
  | step _ steps _ reached => exact reached.next steps

/-- A call that makes no access stays where it is. -/
theorem calls_step {state next : State} {action : Action} (steps : Step state action next)
    (foreign : action ≠ .advance) :
    next.calls = state.calls ∨ ∃ request : Request, next.calls = state.calls ++ [request.call] := by
  cases steps with
  | tryWrite bytes => exact .inr ⟨.write bytes, rfl⟩
  | trySubmit text enter => exact .inr ⟨.submit text enter, rfl⟩
  | writeTerminalReply bytes => exact .inr ⟨.reply bytes, rfl⟩
  | tryWriteControl bytes => exact .inr ⟨.control bytes, rfl⟩
  | advance _ => exact absurd rfl foreign
  | write _ | fail _ | abandon _ | stop | halt => exact .inl rfl

/-- The accesses of the calls of a run that has `calls`. -/
structure Follows (index : ℕ) (calls : List Call) (accesses : List Access) : Prop where
  made : ∀ {call : Call}, calls[index]? = some call →
    ∃ request : Request, Runs request.call accesses call
  unmade : calls.length ≤ index → accesses = []

theorem follows_append {index : ℕ} {calls : List Call} {accesses : List Access}
    (follows : Follows index calls accesses) (request : Request) :
    Follows index (calls ++ [request.call]) accesses := by
  constructor
  · intro call found
    rcases Nat.lt_trichotomy index calls.length with earlier | last | later
    · rw [List.getElem?_append_left earlier] at found
      exact follows.made found
    · subst last
      rw [List.getElem?_append_right (Nat.le_refl _), Nat.sub_self] at found
      cases found
      rw [follows.unmade (Nat.le_refl _)]
      exact ⟨request, .start⟩
    · rw [List.getElem?_eq_none (by simp; omega)] at found
      cases found
  · intro short
    rw [List.length_append] at short
    exact follows.unmade (by omega)

theorem getElem?_replace {index : ℕ} {front back : List Call} {call after : Call}
    (other : front.length ≠ index) :
    (front ++ call :: back)[index]? = (front ++ after :: back)[index]? := by
  rcases Nat.lt_or_gt_of_ne other with behind | before
  · rw [List.getElem?_append_right (Nat.le_of_lt behind),
      List.getElem?_append_right (Nat.le_of_lt behind)]
    rcases Nat.exists_eq_succ_of_ne_zero (Nat.sub_ne_zero_of_lt behind) with ⟨distance, eq⟩
    rw [eq]
    rfl
  · rw [List.getElem?_append_left before, List.getElem?_append_left before]

theorem Trace.follows {index : ℕ} {state : State} {accesses : List Access}
    (traced : Trace index state accesses) (running : state.Running) :
    Follows index state.calls accesses := by
  induction traced with
  | start =>
      constructor
      · intro call found
        cases found
      · intro _
        rfl
  | @own shared next front back call after writer accesses traced own advanced ih =>
      have before := running.before (Step.advance advanced)
      have covers := (accounts_of_reachable traced.reachable before).covers_call
      constructor
      · intro found at_index
        subst own
        rw [List.getElem?_append_right (Nat.le_refl _), Nat.sub_self] at at_index
        cases at_index
        rcases @(ih before).made call (by simp) with ⟨request, runs⟩
        exact ⟨request, runs.next covers advanced⟩
      · intro short
        simp at short
        omega
  | @other shared next front back call after writer accesses traced other advanced ih =>
      have follows := ih (running.before (Step.advance advanced))
      constructor
      · intro found at_index
        apply follows.made
        rwa [getElem?_replace other]
      · intro short
        apply follows.unmade
        simpa using short
  | step traced steps foreign ih =>
      have follows := ih (running.before steps)
      rcases calls_step steps foreign with same | ⟨request, more⟩
      · rwa [same]
      · rw [more]
        exact follows_append follows request

end Condr.InputQueue
