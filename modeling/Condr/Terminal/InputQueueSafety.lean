import Condr.Terminal.InputQueue

/-!
# The counters and the order of a terminal's input

Each counter is what the channel, the writer and the calls under way hold of it, so an admitted
entry always finds room, and what was accepted is what was written, what is being written and what
waits, in order. One access moves what is held from one holder to another, which every fact here
is derived from.
-/

namespace Condr.InputQueue

/-! ## What is held -/

namespace Call

def entries : Call → ℕ
  | userBytes .. | userRefund | userCheck .. | userSend .. | userDrop .. | userDropEntry _ => 1
  | _ => 0

def heldBytes : Call → ℕ
  | userCheck bytes _ | userSend bytes _ | userDrop bytes _ => bytes.length
  | _ => 0

def controls : Call → ℕ
  | controlCheck _ | controlSend _ | controlDrop _ => 1
  | _ => 0

def tokens : Call → ℕ
  | replyToken _ | replySend _ => 1
  | _ => 0

def locks : Call → ℕ
  | replyCheck _ | replyLook _ | replyToken _ | replySend _ | replyUnlock _ => 1
  | _ => 0

/-- The error it returns or will return. -/
def error : Call → Option InputError
  | userDrop _ error | userDropEntry error | controlDrop error => some error
  | replyUnlock (.error error) | finished (.error error) => some error
  | _ => none

theorem tokens_le_locks (call : Call) : call.tokens ≤ call.locks := by
  cases call <;> simp [tokens, locks]

end Call

namespace Writer

/-- The entry whose permits the writer has. -/
def entry : Writer → Option QueuedInput
  | received entry | writing entry _ | entering entry _ | written entry | releasing entry =>
      some entry
  | _ => none

def entries (writer : Writer) : ℕ :=
  (writer.entry.elim 0 QueuedInput.entries) + if writer = .releasingEntry then 1 else 0

def heldBytes (writer : Writer) : ℕ := writer.entry.elim 0 QueuedInput.userBytes

def controls (writer : Writer) : ℕ := writer.entry.elim 0 QueuedInput.controls

/-- The token is given back before the rest. -/
def tokens : Writer → ℕ
  | received entry | writing entry _ | entering entry _ | written entry => entry.tokens
  | _ => 0

end Writer

namespace Shared

def queuedEntries (shared : Shared) : ℕ := (shared.queue.map QueuedInput.entries).sum
def queuedBytes (shared : Shared) : ℕ := (shared.queue.map QueuedInput.userBytes).sum
def queuedControls (shared : Shared) : ℕ := (shared.queue.map QueuedInput.controls).sum
def queuedTokens (shared : Shared) : ℕ := (shared.queue.map QueuedInput.tokens).sum

end Shared

/-- What one holder has of each counter. -/
structure Held where
  entries : ℕ
  bytes : ℕ
  controls : ℕ
  tokens : ℕ
  locks : ℕ

def Call.held (call : Call) : Held where
  entries := call.entries
  bytes := call.heldBytes
  controls := call.controls
  tokens := call.tokens
  locks := call.locks

def Writer.held (writer : Writer) : Held where
  entries := writer.entries
  bytes := writer.heldBytes
  controls := writer.controls
  tokens := writer.tokens
  locks := 0

/-- A call that has done nothing yet. -/
structure Call.Starts (call : Call) : Prop where
  held : call.held = ⟨0, 0, 0, 0, 0⟩
  error : call.error = none

/-- The counters have what a holder holds. -/
structure Covers (shared : Shared) (held : Held) : Prop where
  entries : held.entries ≤ shared.pendingEntries
  bytes : held.bytes ≤ shared.pendingBytes
  controls : held.controls ≤ shared.pendingControlEntries
  tokens : held.tokens ≤ shared.tokenQueued.toNat
  locks : held.locks ≤ shared.locked.toNat

/-- An access changes each counter by what its holder and the channel come to hold. -/
structure Balanced (shared next : Shared) (held after : Held) : Prop where
  entries : next.pendingEntries + held.entries + shared.queuedEntries =
    shared.pendingEntries + after.entries + next.queuedEntries
  bytes : next.pendingBytes + held.bytes + shared.queuedBytes =
    shared.pendingBytes + after.bytes + next.queuedBytes
  controls : next.pendingControlEntries + held.controls + shared.queuedControls =
    shared.pendingControlEntries + after.controls + next.queuedControls
  tokens : next.tokenQueued.toNat + held.tokens + shared.queuedTokens =
    shared.tokenQueued.toNat + after.tokens + next.queuedTokens
  locks : next.locked.toNat + held.locks = shared.locked.toNat + after.locks

theorem trySend_ok {shared next : Shared} {input : QueuedInput}
    (sent : shared.trySend input = .ok next) :
    shared.connected = true ∧ shared.queue.length < channelCapacity ∧
      next = { shared with queue := shared.queue ++ [input], sent := shared.sent ++ [input] } := by
  unfold Shared.trySend at sent
  split_ifs at sent with gone room
  cases sent
  exact ⟨by simpa using gone, room, rfl⟩

theorem Balanced.same {shared : Shared} {held after : Held} (same : held = after) :
    Balanced shared shared held after := by
  subst same
  exact ⟨rfl, rfl, rfl, rfl, rfl⟩

/-- An entry that is sent takes along what its call held. -/
theorem balanced_trySend {shared next : Shared} {input : QueuedInput} {held after : Held}
    (sent : shared.trySend input = .ok next) (entries : held.entries = after.entries + input.entries)
    (bytes : held.bytes = after.bytes + input.userBytes)
    (controls : held.controls = after.controls + input.controls)
    (tokens : held.tokens = after.tokens + input.tokens) (locks : held.locks = after.locks) :
    Balanced shared next held after := by
  rcases trySend_ok sent with ⟨-, -, rfl⟩
  constructor
  · simp only [Shared.queuedEntries, List.map_append, List.map_singleton, List.sum_append,
      List.sum_singleton]
    omega
  · simp only [Shared.queuedBytes, List.map_append, List.map_singleton, List.sum_append,
      List.sum_singleton]
    omega
  · simp only [Shared.queuedControls, List.map_append, List.map_singleton, List.sum_append,
      List.sum_singleton]
    omega
  · simp only [Shared.queuedTokens, List.map_append, List.map_singleton, List.sum_append,
      List.sum_singleton]
    omega
  · dsimp only
    omega

theorem balanced_advance {shared next : Shared} {call after : Call}
    (advanced : advance shared call = some (next, after)) (covers : Covers shared call.held) :
    Balanced shared next call.held after.held := by
  have entry := covers.entries
  have bytes := covers.bytes
  have control := covers.controls
  have token := covers.tokens
  have lock := covers.locks
  cases call with
  | userStart _ _ | controlStart _ | replyStart _ =>
      simp only [advance] at advanced
      split_ifs at advanced <;> cases advanced <;> exact .same rfl
  | userCheck _ _ | controlCheck _ | replyCheck _ =>
      simp only [advance] at advanced
      split_ifs at advanced <;> cases advanced <;> exact .same rfl
  | userEntry content split =>
      simp only [advance] at advanced
      split_ifs at advanced <;> cases advanced
      · exact ⟨by simp [Call.held, Call.entries, Shared.queuedEntries], rfl, rfl, rfl, rfl⟩
      · exact .same rfl
  | userBytes content split =>
      simp only [advance] at advanced
      split_ifs at advanced <;> cases advanced
      · exact ⟨rfl, by simp [Call.held, Call.heldBytes, Shared.queuedBytes], rfl, rfl, rfl⟩
      · exact .same rfl
  | userRefund =>
      simp only [advance] at advanced
      cases advanced
      refine ⟨?_, rfl, rfl, rfl, rfl⟩
      simp only [Call.held, Call.entries, Shared.queuedEntries] at entry ⊢
      omega
  | userSend content split =>
      simp only [advance] at advanced
      split at advanced
      · next sent =>
          cases advanced
          exact balanced_trySend sent rfl (by simp [Call.held, Call.heldBytes, QueuedInput.userBytes])
            rfl rfl rfl
      · cases advanced
        exact .same rfl
  | userDrop content error =>
      simp only [advance] at advanced
      cases advanced
      refine ⟨rfl, ?_, rfl, rfl, rfl⟩
      simp only [Call.held, Call.heldBytes, Shared.queuedBytes] at bytes ⊢
      omega
  | userDropEntry error =>
      simp only [advance] at advanced
      cases advanced
      refine ⟨?_, rfl, rfl, rfl, rfl⟩
      simp only [Call.held, Call.entries, Shared.queuedEntries] at entry ⊢
      omega
  | controlEntry content =>
      simp only [advance] at advanced
      split_ifs at advanced <;> cases advanced
      · exact ⟨rfl, rfl, by simp [Call.held, Call.controls, Shared.queuedControls], rfl, rfl⟩
      · exact .same rfl
  | controlSend content =>
      simp only [advance] at advanced
      split at advanced
      · next sent =>
          cases advanced
          exact balanced_trySend sent rfl rfl rfl rfl rfl
      · cases advanced
        exact .same rfl
  | controlDrop error =>
      simp only [advance] at advanced
      cases advanced
      refine ⟨rfl, rfl, ?_, rfl, rfl⟩
      simp only [Call.held, Call.controls, Shared.queuedControls] at control ⊢
      omega
  | replyLock content =>
      simp only [advance] at advanced
      split_ifs at advanced with held
      cases advanced
      refine ⟨rfl, rfl, rfl, rfl, ?_⟩
      simp [Call.held, Call.locks, held]
  | replyLook content =>
      simp only [advance] at advanced
      split_ifs at advanced with queued <;> cases advanced
      · exact ⟨rfl, rfl, rfl, rfl, rfl⟩
      · refine ⟨rfl, rfl, rfl, ?_, rfl⟩
        simp [Call.held, Call.tokens, queued, Shared.queuedTokens]
  | replyToken content =>
      simp only [advance] at advanced
      split_ifs at advanced <;> cases advanced
      · exact .same rfl
      · refine ⟨rfl, rfl, rfl, ?_, rfl⟩
        simp only [Call.held, Call.tokens, Shared.queuedTokens, Bool.toNat_false] at token ⊢
        have most := Bool.toNat_le shared.tokenQueued
        omega
  | replySend content =>
      simp only [advance] at advanced
      split at advanced
      · next middle sent =>
          cases advanced
          have balanced := @balanced_trySend shared middle _
            (Call.replySend content).held (Call.replyUnlock (.ok ())).held sent rfl rfl rfl rfl rfl
          exact ⟨balanced.entries, balanced.bytes, balanced.controls, balanced.tokens,
            balanced.locks⟩
      · cases advanced
        refine ⟨rfl, rfl, rfl, ?_, rfl⟩
        simp only [Call.held, Call.tokens, Shared.queuedTokens, Bool.toNat_false] at token ⊢
        have most := Bool.toNat_le shared.tokenQueued
        omega
  | replyUnlock result =>
      simp only [advance] at advanced
      cases advanced
      refine ⟨rfl, rfl, rfl, rfl, ?_⟩
      simp only [Call.held, Call.locks, Bool.toNat_false] at lock ⊢
      have most := Bool.toNat_le shared.locked
      omega
  | finished result => cases advanced

theorem balanced_write {shared next : Shared} {writer after : Writer}
    (advanced : writer.advance shared = some (next, after)) (running : shared.stopping = false)
    (covers : Covers shared writer.held) : Balanced shared next writer.held after.held := by
  have entries := covers.entries
  have bytes := covers.bytes
  have controls := covers.controls
  have tokens := covers.tokens
  cases writer with
  | idle =>
      simp only [Writer.advance, running, Bool.false_eq_true, if_false] at advanced
      cases advanced
      exact .same rfl
  | receiving =>
      simp only [Writer.advance] at advanced
      split at advanced
      · cases advanced
        exact .same rfl
      · next entry queue queued =>
          cases advanced
          constructor
          · simp [Writer.held, Writer.entries, Writer.entry, Shared.queuedEntries, queued]
            omega
          · simp [Writer.held, Writer.heldBytes, Writer.entry, Shared.queuedBytes, queued]
            omega
          · simp [Writer.held, Writer.controls, Writer.entry, Shared.queuedControls, queued]
            omega
          · simp [Writer.held, Writer.tokens, Shared.queuedTokens, queued]
            omega
          · rfl
  | received entry =>
      simp only [Writer.advance, running, Bool.false_eq_true, if_false] at advanced
      cases advanced
      exact .same rfl
  | writing entry content =>
      simp only [Writer.advance] at advanced
      split_ifs at advanced <;> cases advanced <;> exact ⟨rfl, rfl, rfl, rfl, rfl⟩
  | entering entry content =>
      simp only [Writer.advance] at advanced
      cases advanced
      exact ⟨rfl, rfl, rfl, rfl, rfl⟩
  | written entry =>
      simp only [Writer.advance] at advanced
      split_ifs at advanced with reply
      · split at advanced
        · cases advanced
          exact ⟨rfl, rfl, rfl, rfl, rfl⟩
        · cases advanced
          refine ⟨rfl, rfl, rfl, ?_, rfl⟩
          simp only [Writer.held, Writer.tokens, QueuedInput.tokens, reply, if_true,
            Shared.queuedTokens, Bool.toNat_false] at tokens ⊢
          have most := Bool.toNat_le shared.tokenQueued
          omega
      · cases advanced
        refine ⟨rfl, rfl, rfl, ?_, rfl⟩
        simp [Writer.held, Writer.tokens, QueuedInput.tokens, reply]
  | releasing entry =>
      simp only [Writer.advance] at advanced
      split at advanced
      · next user =>
          cases advanced
          refine ⟨?_, ?_, ?_, rfl, rfl⟩
          · simp [Writer.held, Writer.entries, Writer.entry, QueuedInput.entries, user,
              Shared.queuedEntries]
          · simp only [Writer.held, Writer.heldBytes, Writer.entry, QueuedInput.userBytes, user,
              Option.elim_some, Option.elim_none, if_true, Shared.queuedBytes] at bytes ⊢
            omega
          · simp [Writer.held, Writer.controls, Writer.entry, QueuedInput.controls, user,
              Shared.queuedControls]
      · next control =>
          cases advanced
          refine ⟨?_, ?_, ?_, rfl, rfl⟩
          · simp [Writer.held, Writer.entries, Writer.entry, QueuedInput.entries, control,
              Shared.queuedEntries]
          · simp [Writer.held, Writer.heldBytes, Writer.entry, QueuedInput.userBytes, control,
              Shared.queuedBytes]
          · simp only [Writer.held, Writer.controls, Writer.entry, QueuedInput.controls, control,
              Option.elim_some, Option.elim_none, if_true, Shared.queuedControls] at controls ⊢
            omega
      · next reply =>
          cases advanced
          refine ⟨?_, ?_, ?_, rfl, rfl⟩
          · simp [Writer.held, Writer.entries, Writer.entry, QueuedInput.entries, reply]
          · simp [Writer.held, Writer.heldBytes, Writer.entry, QueuedInput.userBytes, reply]
          · simp [Writer.held, Writer.controls, Writer.entry, QueuedInput.controls, reply]
  | releasingEntry =>
      simp only [Writer.advance] at advanced
      cases advanced
      refine ⟨?_, rfl, rfl, rfl, rfl⟩
      simp only [Writer.held, Writer.entries, Writer.entry, Option.elim_none, if_true,
        Shared.queuedEntries] at entries ⊢
      simp
      omega
  | exited => cases advanced

/-! ## What an access keeps -/

/-- What no access of a call changes, and the bounds that every access keeps. -/
structure Kept (shared next : Shared) : Prop where
  entries : shared.pendingEntries ≤ inputQueueCapacity → next.pendingEntries ≤ inputQueueCapacity
  bytes : shared.pendingBytes ≤ maxPendingInputBytes → next.pendingBytes ≤ maxPendingInputBytes
  controls : shared.pendingControlEntries ≤ terminalControlQueueReserve →
    next.pendingControlEntries ≤ terminalControlQueueReserve
  connected : next.connected = shared.connected
  stopping : next.stopping = shared.stopping

theorem Kept.of_same {shared next : Shared}
    (entries : next.pendingEntries ≤ shared.pendingEntries)
    (bytes : next.pendingBytes ≤ shared.pendingBytes)
    (controls : next.pendingControlEntries ≤ shared.pendingControlEntries)
    (connected : next.connected = shared.connected) (stopping : next.stopping = shared.stopping) :
    Kept shared next :=
  ⟨Nat.le_trans entries, Nat.le_trans bytes, Nat.le_trans controls, connected, stopping⟩

theorem Kept.of_counts {shared next : Shared}
    (entries : next.pendingEntries = shared.pendingEntries)
    (bytes : next.pendingBytes = shared.pendingBytes)
    (controls : next.pendingControlEntries = shared.pendingControlEntries)
    (connected : next.connected = shared.connected) (stopping : next.stopping = shared.stopping) :
    Kept shared next :=
  .of_same (Nat.le_of_eq entries) (Nat.le_of_eq bytes) (Nat.le_of_eq controls) connected stopping

theorem Kept.refl (shared : Shared) : Kept shared shared := .of_counts rfl rfl rfl rfl rfl

/-- What an access of a call adds to the logs, and where it adds it. -/
inductive Logged (shared next : Shared) : Call → Prop where
  | nothing (call : Call) (sent : next.sent = shared.sent) (queue : next.queue = shared.queue)
      (replies : next.replies = shared.replies) (pending : next.pending = shared.pending) :
      Logged shared next call
  | entry (call : Call) {input : QueuedInput} (sent : next.sent = shared.sent ++ [input])
      (queue : next.queue = shared.queue ++ [input]) (permit : input.permit ≠ .reply)
      (replies : next.replies = shared.replies) (pending : next.pending = shared.pending) :
      Logged shared next call
  /-- The reply that travels with the token. -/
  | token {bytes : List UInt8} {input : QueuedInput} (content : input.bytes = bytes)
      (permit : input.permit = .reply) (sent : next.sent = shared.sent ++ [input])
      (queue : next.queue = shared.queue ++ [input])
      (replies : next.replies = shared.replies ++ [bytes])
      (pending : next.pending = shared.pending) : Logged shared next (.replySend bytes)
  /-- A reply behind it. -/
  | behind {bytes : List UInt8} (queued : shared.tokenQueued = true)
      (sent : next.sent = shared.sent) (queue : next.queue = shared.queue)
      (replies : next.replies = shared.replies ++ [bytes])
      (pending : next.pending = shared.pending ++ [bytes]) :
      Logged shared next (.replyLook bytes)

/-- What no access of a call touches. -/
structure Untouched (shared next : Shared) : Prop where
  done : next.done = shared.done
  output : next.output = shared.output

theorem effect_advance {shared next : Shared} {call after : Call}
    (advanced : advance shared call = some (next, after)) :
    Kept shared next ∧ Logged shared next call ∧ Untouched shared next := by
  cases call with
  | userStart _ _ | controlStart _ | replyStart _ =>
      simp only [advance] at advanced
      split_ifs at advanced <;> cases advanced <;>
        exact ⟨.refl _, .nothing _ rfl rfl rfl rfl, rfl, rfl⟩
  | userCheck _ _ | controlCheck _ | replyCheck _ =>
      simp only [advance] at advanced
      split_ifs at advanced <;> cases advanced <;>
        exact ⟨.refl _, .nothing _ rfl rfl rfl rfl, rfl, rfl⟩
  | userEntry content split =>
      simp only [advance] at advanced
      split_ifs at advanced with room <;> cases advanced
      · exact ⟨⟨fun _ => room, id, id, rfl, rfl⟩, .nothing _ rfl rfl rfl rfl, rfl, rfl⟩
      · exact ⟨.refl _, .nothing _ rfl rfl rfl rfl, rfl, rfl⟩
  | userBytes content split =>
      simp only [advance] at advanced
      split_ifs at advanced with room <;> cases advanced
      · exact ⟨⟨id, fun _ => room, id, rfl, rfl⟩, .nothing _ rfl rfl rfl rfl, rfl, rfl⟩
      · exact ⟨.refl _, .nothing _ rfl rfl rfl rfl, rfl, rfl⟩
  | controlEntry content =>
      simp only [advance] at advanced
      split_ifs at advanced with room <;> cases advanced
      · exact ⟨⟨id, id, fun _ => room, rfl, rfl⟩, .nothing _ rfl rfl rfl rfl, rfl, rfl⟩
      · exact ⟨.refl _, .nothing _ rfl rfl rfl rfl, rfl, rfl⟩
  | userRefund | userDrop _ _ | userDropEntry _ | controlDrop _ | replyUnlock _ =>
      simp only [advance] at advanced
      cases advanced
      exact ⟨.of_same (by simp) (by simp) (by simp) rfl rfl, .nothing _ rfl rfl rfl rfl, rfl, rfl⟩
  | userSend content split =>
      simp only [advance] at advanced
      split at advanced
      · next sent =>
          cases advanced
          rcases trySend_ok sent with ⟨-, -, rfl⟩
          exact ⟨.of_counts rfl rfl rfl rfl rfl, .entry _ rfl rfl (by simp) rfl rfl, rfl, rfl⟩
      · cases advanced
        exact ⟨.refl _, .nothing _ rfl rfl rfl rfl, rfl, rfl⟩
  | controlSend content =>
      simp only [advance] at advanced
      split at advanced
      · next sent =>
          cases advanced
          rcases trySend_ok sent with ⟨-, -, rfl⟩
          exact ⟨.of_counts rfl rfl rfl rfl rfl, .entry _ rfl rfl (by simp) rfl rfl, rfl, rfl⟩
      · cases advanced
        exact ⟨.refl _, .nothing _ rfl rfl rfl rfl, rfl, rfl⟩
  | replyLock content =>
      simp only [advance] at advanced
      split_ifs at advanced
      cases advanced
      exact ⟨.of_counts rfl rfl rfl rfl rfl, .nothing _ rfl rfl rfl rfl, rfl, rfl⟩
  | replyLook content =>
      simp only [advance] at advanced
      split_ifs at advanced with queued <;> cases advanced
      · exact ⟨.of_counts rfl rfl rfl rfl rfl, .behind queued rfl rfl rfl rfl, rfl, rfl⟩
      · exact ⟨.of_counts rfl rfl rfl rfl rfl, .nothing _ rfl rfl rfl rfl, rfl, rfl⟩
  | replyToken content =>
      simp only [advance] at advanced
      split_ifs at advanced <;> cases advanced
      · exact ⟨.refl _, .nothing _ rfl rfl rfl rfl, rfl, rfl⟩
      · exact ⟨.of_counts rfl rfl rfl rfl rfl, .nothing _ rfl rfl rfl rfl, rfl, rfl⟩
  | replySend content =>
      simp only [advance] at advanced
      split at advanced
      · next sent =>
          cases advanced
          rcases trySend_ok sent with ⟨-, -, rfl⟩
          exact ⟨.of_counts rfl rfl rfl rfl rfl, .token rfl rfl rfl rfl rfl rfl, rfl, rfl⟩
      · cases advanced
        exact ⟨.of_counts rfl rfl rfl rfl rfl, .nothing _ rfl rfl rfl rfl, rfl, rfl⟩
  | finished result => cases advanced

theorem kept_write {shared next : Shared} {writer after : Writer}
    (advanced : writer.advance shared = some (next, after)) (running : shared.stopping = false) :
    Kept shared next := by
  cases writer with
  | idle | received _ =>
      simp only [Writer.advance, running, Bool.false_eq_true, if_false] at advanced
      cases advanced
      exact .refl _
  | receiving =>
      simp only [Writer.advance] at advanced
      split at advanced <;> cases advanced
      · exact .refl _
      · exact .of_counts rfl rfl rfl rfl rfl
  | writing entry content =>
      simp only [Writer.advance] at advanced
      split_ifs at advanced <;> cases advanced <;> exact .of_counts rfl rfl rfl rfl rfl
  | written entry =>
      simp only [Writer.advance] at advanced
      split_ifs at advanced
      · split at advanced <;> cases advanced <;> exact .of_counts rfl rfl rfl rfl rfl
      · cases advanced
        exact .refl _
  | releasing entry =>
      simp only [Writer.advance] at advanced
      split at advanced <;> cases advanced
      · exact .of_same (Nat.le_refl _) (Nat.sub_le _ _) (Nat.le_refl _) rfl rfl
      · exact .of_same (Nat.le_refl _) (Nat.le_refl _) (Nat.sub_le _ _) rfl rfl
      · exact .refl _
  | entering _ _ | releasingEntry =>
      simp only [Writer.advance] at advanced
      cases advanced
      exact .of_same (by simp) (by simp) (by simp) rfl rfl
  | exited => cases advanced

/-! ## The counters -/

/-- What the calls under way hold together. -/
def callsHeld (field : Held → ℕ) (calls : List Call) : ℕ :=
  (calls.map fun call => field call.held).sum

theorem callsHeld_replace (field : Held → ℕ) (front back : List Call) (call : Call) :
    callsHeld field (front ++ call :: back) =
      callsHeld field front + field call.held + callsHeld field back := by
  simp [callsHeld, Nat.add_assoc]

theorem callsHeld_tokens_le (calls : List Call) :
    callsHeld Held.tokens calls ≤ callsHeld Held.locks calls := by
  induction calls with
  | nil => exact Nat.le_refl _
  | cons call rest ih =>
      have first := Call.tokens_le_locks call
      simp only [callsHeld, List.map_cons, List.sum_cons] at ih ⊢
      exact Nat.add_le_add first ih

/-- Each counter is what the channel, the writer and the calls hold of it. -/
structure Accounts (state : State) : Prop where
  entries : state.shared.pendingEntries = state.shared.queuedEntries +
    state.writer.held.entries + callsHeld Held.entries state.calls
  bytes : state.shared.pendingBytes = state.shared.queuedBytes +
    state.writer.held.bytes + callsHeld Held.bytes state.calls
  controls : state.shared.pendingControlEntries = state.shared.queuedControls +
    state.writer.held.controls + callsHeld Held.controls state.calls
  tokens : state.shared.tokenQueued.toNat = state.shared.queuedTokens +
    state.writer.held.tokens + callsHeld Held.tokens state.calls
  locks : state.shared.locked.toNat = callsHeld Held.locks state.calls
  entriesLe : state.shared.pendingEntries ≤ inputQueueCapacity
  bytesLe : state.shared.pendingBytes ≤ maxPendingInputBytes
  controlsLe : state.shared.pendingControlEntries ≤ terminalControlQueueReserve
  connected : state.shared.connected = true
  /-- Replies wait only behind one that travels or is being written. -/
  pendingEmpty : state.shared.queuedTokens + state.writer.held.tokens = 0 →
    state.shared.pending = []

section Accounts

variable {shared next : Shared} {front back : List Call} {call after : Call}
  {calls : List Call} {writer written : Writer}

theorem Accounts.covers_call (accounts : Accounts ⟨shared, front ++ call :: back, writer⟩) :
    Covers shared call.held := by
  have entries := accounts.entries
  have bytes := accounts.bytes
  have controls := accounts.controls
  have tokens := accounts.tokens
  have locks := accounts.locks
  dsimp only at entries bytes controls tokens locks
  rw [callsHeld_replace] at entries bytes controls tokens locks
  constructor <;> omega

theorem Accounts.covers_writer (accounts : Accounts ⟨shared, calls, writer⟩) :
    Covers shared writer.held := by
  have entries := accounts.entries
  have bytes := accounts.bytes
  have controls := accounts.controls
  have tokens := accounts.tokens
  dsimp only at entries bytes controls tokens
  constructor
  · omega
  · omega
  · omega
  · omega
  · exact Nat.zero_le _

/-- A reply that waits has one before it in the channel or at the writer. -/
theorem Accounts.token_ahead {bytes : List UInt8}
    (accounts : Accounts ⟨shared, front ++ .replyLook bytes :: back, writer⟩)
    (queued : shared.tokenQueued = true) : shared.queuedTokens + writer.held.tokens = 1 := by
  have tokens := accounts.tokens
  have locks := accounts.locks
  dsimp only at tokens locks
  rw [callsHeld_replace] at tokens locks
  have most := Bool.toNat_le shared.locked
  have before := callsHeld_tokens_le front
  have behind := callsHeld_tokens_le back
  have own : Held.locks (Call.replyLook bytes).held = 1 := rfl
  have none : Held.tokens (Call.replyLook bytes).held = 0 := rfl
  rw [queued, Bool.toNat_true] at tokens
  omega

/-- While a call has the token, no reply waits. -/
theorem Accounts.pending_of_token {bytes : List UInt8}
    (accounts : Accounts ⟨shared, front ++ .replySend bytes :: back, writer⟩) :
    shared.pending = [] := by
  apply accounts.pendingEmpty
  have tokens := accounts.tokens
  dsimp only at tokens ⊢
  rw [callsHeld_replace] at tokens
  have most := Bool.toNat_le shared.tokenQueued
  have own : Held.tokens (Call.replySend bytes).held = 1 := rfl
  omega

theorem queuedTokens_push {input : QueuedInput} (queue : next.queue = shared.queue ++ [input]) :
    next.queuedTokens = shared.queuedTokens + input.tokens := by
  simp [Shared.queuedTokens, queue]

theorem accounts_advance (accounts : Accounts ⟨shared, front ++ call :: back, writer⟩)
    (advanced : advance shared call = some (next, after)) :
    Accounts ⟨next, front ++ after :: back, writer⟩ := by
  have balanced := balanced_advance advanced accounts.covers_call
  rcases effect_advance advanced with ⟨kept, logged, -⟩
  have entries := accounts.entries
  have bytes := accounts.bytes
  have controls := accounts.controls
  have tokens := accounts.tokens
  have locks := accounts.locks
  dsimp only at entries bytes controls tokens locks
  rw [callsHeld_replace] at entries bytes controls tokens locks
  refine ⟨?_, ?_, ?_, ?_, ?_, kept.entries accounts.entriesLe, kept.bytes accounts.bytesLe,
    kept.controls accounts.controlsLe, kept.connected.trans accounts.connected, ?_⟩
  · have balance := balanced.entries
    dsimp only
    rw [callsHeld_replace]
    omega
  · have balance := balanced.bytes
    dsimp only
    rw [callsHeld_replace]
    omega
  · have balance := balanced.controls
    dsimp only
    rw [callsHeld_replace]
    omega
  · have balance := balanced.tokens
    dsimp only
    rw [callsHeld_replace]
    omega
  · have balance := balanced.locks
    dsimp only
    rw [callsHeld_replace]
    omega
  · intro absent
    dsimp only at absent ⊢
    cases logged with
    | nothing _ sent queue replies pending =>
        rw [pending]
        apply accounts.pendingEmpty
        rwa [Shared.queuedTokens, queue] at absent
    | entry _ sent queue permit replies pending =>
        rw [pending]
        apply accounts.pendingEmpty
        rw [queuedTokens_push queue] at absent
        dsimp only
        omega
    | @token bytes input content permit sent queue replies pending =>
        have one : input.tokens = 1 := by rw [QueuedInput.tokens, if_pos permit]
        rw [queuedTokens_push queue] at absent
        omega
    | behind queued sent queue replies pending =>
        have ahead := accounts.token_ahead queued
        have same : next.queuedTokens = shared.queuedTokens := by
          rw [Shared.queuedTokens, queue, Shared.queuedTokens]
        omega

/-- The writer leaves no reply behind when it gives the token back. -/
theorem pending_of_write (running : shared.stopping = false)
    (advanced : writer.advance shared = some (next, written))
    (empty : shared.queuedTokens + writer.held.tokens = 0 → shared.pending = [])
    (absent : next.queuedTokens + written.held.tokens = 0) : next.pending = [] := by
  cases writer with
  | idle | received _ =>
      simp only [Writer.advance, running, Bool.false_eq_true, if_false] at advanced
      cases advanced
      exact empty absent
  | receiving =>
      simp only [Writer.advance] at advanced
      split at advanced
      · cases advanced
        exact empty absent
      · next entry queue queued =>
          cases advanced
          apply empty
          simp only [Shared.queuedTokens, Writer.held, Writer.tokens, queued, List.map_cons,
            List.sum_cons] at absent ⊢
          omega
  | writing entry content =>
      simp only [Writer.advance] at advanced
      split_ifs at advanced <;> cases advanced <;> exact empty absent
  | entering entry content =>
      simp only [Writer.advance] at advanced
      cases advanced
      exact empty absent
  | written entry =>
      simp only [Writer.advance] at advanced
      split_ifs at advanced with reply
      · split at advanced
        · cases advanced
          simp [Writer.held, Writer.tokens, QueuedInput.tokens, reply] at absent
        · next none =>
            cases advanced
            exact none
      · cases advanced
        apply empty
        simpa [Writer.held, Writer.tokens, QueuedInput.tokens, reply] using absent
  | releasing entry =>
      simp only [Writer.advance] at advanced
      split at advanced <;> cases advanced <;> exact empty absent
  | releasingEntry =>
      simp only [Writer.advance] at advanced
      cases advanced
      exact empty absent
  | exited => cases advanced

theorem accounts_write (accounts : Accounts ⟨shared, calls, writer⟩)
    (running : shared.stopping = false)
    (advanced : writer.advance shared = some (next, written)) :
    Accounts ⟨next, calls, written⟩ := by
  have balanced := balanced_write advanced running accounts.covers_writer
  have kept := kept_write advanced running
  have entries := accounts.entries
  have bytes := accounts.bytes
  have controls := accounts.controls
  have tokens := accounts.tokens
  have locks := accounts.locks
  dsimp only at entries bytes controls tokens locks
  refine ⟨?_, ?_, ?_, ?_, ?_, kept.entries accounts.entriesLe, kept.bytes accounts.bytesLe,
    kept.controls accounts.controlsLe, kept.connected.trans accounts.connected,
    pending_of_write running advanced accounts.pendingEmpty⟩
  · have balance := balanced.entries
    dsimp only
    omega
  · have balance := balanced.bytes
    dsimp only
    omega
  · have balance := balanced.controls
    dsimp only
    omega
  · have balance := balanced.tokens
    dsimp only
    omega
  · have balance := balanced.locks
    dsimp only [Writer.held] at balance ⊢
    omega

theorem accounts_call {state : State} (accounts : Accounts state) {call : Call}
    (nothing : call.held = ⟨0, 0, 0, 0, 0⟩) :
    Accounts { state with calls := state.calls ++ [call] } := by
  have same : ∀ field : Held → ℕ, field ⟨0, 0, 0, 0, 0⟩ = 0 →
      callsHeld field (state.calls ++ [call]) = callsHeld field state.calls := by
    intro field zero
    simp [callsHeld, nothing, zero]
  refine ⟨?_, ?_, ?_, ?_, ?_, accounts.entriesLe, accounts.bytesLe, accounts.controlsLe,
    accounts.connected, accounts.pendingEmpty⟩
  · dsimp only
    rw [same _ rfl, accounts.entries]
  · dsimp only
    rw [same _ rfl, accounts.bytes]
  · dsimp only
    rw [same _ rfl, accounts.controls]
  · dsimp only
    rw [same _ rfl, accounts.tokens]
  · dsimp only
    rw [same _ rfl, accounts.locks]

end Accounts

theorem stopping_write {shared next : Shared} {writer written : Writer}
    (advanced : writer.advance shared = some (next, written)) :
    next.stopping = shared.stopping := by
  cases writer with
  | idle | received _ | writing _ _ =>
      simp only [Writer.advance] at advanced
      split_ifs at advanced <;> cases advanced <;> rfl
  | receiving =>
      simp only [Writer.advance] at advanced
      split at advanced <;> cases advanced <;> rfl
  | written entry =>
      simp only [Writer.advance] at advanced
      split_ifs at advanced
      · split at advanced <;> cases advanced <;> rfl
      · cases advanced
        rfl
  | releasing entry =>
      simp only [Writer.advance] at advanced
      split at advanced <;> cases advanced <;> rfl
  | entering _ _ | releasingEntry =>
      simp only [Writer.advance] at advanced
      cases advanced
      rfl
  | exited => cases advanced

/-- A state before one that runs is running. -/
theorem State.Running.before {state next : State} {action : Action}
    (steps : Step state action next) (running : next.Running) : state.Running := by
  cases steps with
  | tryWrite _ | trySubmit _ _ | writeTerminalReply _ | tryWriteControl _ => exact running
  | advance advanced =>
      rcases effect_advance advanced with ⟨kept, -, -⟩
      exact ⟨kept.stopping.symm.trans running.1, running.2⟩
  | write advanced =>
      refine ⟨(stopping_write advanced).symm.trans running.1, ?_⟩
      rintro rfl
      cases advanced
  | fail _ => exact absurd rfl running.2
  | abandon stopping =>
      have flag := running.1
      dsimp only at flag
      rw [stopping] at flag
      cases flag
  | stop => exact running
  | halt => cases running.1

/-- What holds at the start, and is kept by each call, each access and `stop`, holds as long as the
writer runs. -/
theorem running_invariant {property : State → Prop}
    (initial : property ⟨Shared.initial, [], .idle⟩)
    (call : ∀ {state : State} {call : Call}, property state → call.Starts →
      property { state with calls := state.calls ++ [call] })
    (access : ∀ {shared next : Shared} {front back : List Call} {call after : Call}
      {writer : Writer}, property ⟨shared, front ++ call :: back, writer⟩ →
      advance shared call = some (next, after) → property ⟨next, front ++ after :: back, writer⟩)
    (write : ∀ {shared next : Shared} {calls : List Call} {writer written : Writer},
      property ⟨shared, calls, writer⟩ → shared.stopping = false →
      writer.advance shared = some (next, written) → property ⟨next, calls, written⟩)
    (stop : ∀ {state : State}, property state →
      property { state with shared := { state.shared with accepting := false } })
    {state : State} (reached : system.Reachable state) (running : state.Running) :
    property state := by
  refine reached.invariant (fun state => state.Running → property state) ?_ ?_ running
  · rintro state rfl -
    exact initial
  · intro state action next holds steps running
    have before := running.before steps
    have held := holds before
    cases steps with
    | tryWrite _ | trySubmit _ _ | writeTerminalReply _ | tryWriteControl _ =>
        exact call held ⟨rfl, rfl⟩
    | advance advanced => exact access held advanced
    | write advanced => exact write held before.1 advanced
    | fail _ => exact absurd rfl running.2
    | abandon stopping =>
        have flag := before.1
        dsimp only at flag
        rw [stopping] at flag
        cases flag
    | stop => exact stop held
    | halt => cases running.1

/-- The counters are right as long as the writer runs. -/
theorem accounts_of_reachable {state : State} (reached : system.Reachable state)
    (running : state.Running) : Accounts state := by
  refine @running_invariant Accounts ?_ (fun accounts starts => accounts_call accounts starts.held)
    accounts_advance accounts_write ?_ state reached running
  · refine ⟨rfl, rfl, rfl, rfl, rfl, ?_, ?_, ?_, rfl, fun _ => rfl⟩ <;> decide
  · intro state accounts
    exact ⟨accounts.entries, accounts.bytes, accounts.controls, accounts.tokens, accounts.locks,
      accounts.entriesLe, accounts.bytesLe, accounts.controlsLe, accounts.connected,
      accounts.pendingEmpty⟩

end Condr.InputQueue
