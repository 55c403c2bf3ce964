import Condr.Terminal.InputQueueTrace

/-!
# A terminal's input queue

While the writer runs it comes to an empty queue by itself, so nothing that was accepted stays
behind: a reply that waits has the token ahead of it, and no call that holds the lock waits for
another. When the queue is empty the counters are what the calls under way have reserved.
-/

namespace Condr.InputQueue

/-! ## The empty queue -/

/-- The writer is between two entries. -/
def Writer.Waits (writer : Writer) : Prop := writer = .idle ∨ writer = .receiving

/-- All that was accepted is written, and no reply waits. -/
structure Drained (state : State) : Prop where
  queue : state.shared.queue = []
  pending : state.shared.pending = []
  entries : ordered (state.shared.sent.map QueuedInput.logged) = ordered state.shared.done
  replies : state.shared.replies = repliesOf state.shared.done
  output : state.shared.output = (state.shared.done.map Prod.snd).flatten

/-- The counters are what the calls under way hold. -/
structure ReservedBy (shared : Shared) (calls : List Call) : Prop where
  entries : shared.pendingEntries = callsHeld Held.entries calls
  bytes : shared.pendingBytes = callsHeld Held.bytes calls
  controls : shared.pendingControlEntries = callsHeld Held.controls calls
  tokens : shared.tokenQueued.toNat = callsHeld Held.tokens calls

section Waits

variable {state : State}

theorem Writer.Waits.held {writer : Writer} (waits : writer.Waits) :
    writer.held = ⟨0, 0, 0, 0, 0⟩ := by
  rcases waits with rfl | rfl <;> rfl

theorem reservedBy_of_waits (accounts : Accounts state) (waits : state.writer.Waits)
    (empty : state.shared.queue = []) : ReservedBy state.shared state.calls := by
  have entries := accounts.entries
  have bytes := accounts.bytes
  have controls := accounts.controls
  have tokens := accounts.tokens
  simp only [waits.held, Shared.queuedEntries, Shared.queuedBytes, Shared.queuedControls,
    Shared.queuedTokens, empty, List.map_nil, List.sum_nil] at entries bytes controls tokens
  constructor
  all_goals omega

theorem drained_of_waits (safe : Safe state) (waits : state.writer.Waits)
    (empty : state.shared.queue = []) : Drained state := by
  have pending : state.shared.pending = [] := by
    apply safe.accounts.pendingEmpty
    rw [waits.held, Shared.queuedTokens, empty]
    rfl
  have current : state.writer.current = [] := by rcases waits with eq | eq <;> rw [eq] <;> rfl
  have begun : state.writer.begun = [] := by rcases waits with eq | eq <;> rw [eq] <;> rfl
  have entries := safe.logs.entries
  have replies := safe.logs.replies
  have output := safe.logs.output
  rw [current, empty, List.append_nil, List.map_nil, List.append_nil] at entries replies
  rw [pending, List.append_nil] at replies
  rw [begun, List.append_nil] at output
  exact ⟨empty, pending, entries, replies, output⟩

theorem callsHeld_finished {calls : List Call} (field : Held → ℕ)
    (zero : field ⟨0, 0, 0, 0, 0⟩ = 0) (finished : ∀ call ∈ calls, call.IsFinished) :
    callsHeld field calls = 0 := by
  induction calls with
  | nil => rfl
  | cons call rest ih =>
      have own : field call.held = 0 := by
        have done := finished call List.mem_cons_self
        cases call <;> first | exact zero | cases done
      have others := ih fun other contained => finished other (List.mem_cons_of_mem _ contained)
      simp only [callsHeld, List.map_cons, List.sum_cons] at others ⊢
      omega

end Waits

/-! ## The writer comes to it -/

/-- How far the writer is from its next entry. -/
def Writer.rank : Writer → ℕ
  | received _ => 8
  | writing _ _ => 7
  | entering _ _ => 6
  | written _ => 5
  | releasing _ => 4
  | releasingEntry => 3
  | idle => 2
  | receiving => 1
  | exited => 0

def distance (shared : Shared) (writer : Writer) : ℕ :=
  10 * shared.queue.length + 10 * shared.pending.length + writer.rank

/-- With the lock free the writer makes an access that brings it closer, unless nothing is left. -/
theorem closer {shared : Shared} {writer : Writer} (running : shared.stopping = false)
    (free : shared.locked = false) (alive : writer ≠ .exited) :
    (writer = .receiving ∧ shared.queue = []) ∨
      ∃ next written, writer.advance shared = some (next, written) ∧
        next.locked = false ∧ written ≠ .exited ∧ distance next written < distance shared writer := by
  cases writer with
  | idle =>
      right
      refine ⟨shared, .receiving, by simp [Writer.advance, running], free, by simp, ?_⟩
      simp [distance, Writer.rank]
  | receiving =>
      cases queued : shared.queue with
      | nil => exact .inl ⟨rfl, rfl⟩
      | cons entry queue =>
          right
          refine ⟨{ shared with queue }, .received entry, by simp [Writer.advance, queued], free,
            by simp, ?_⟩
          simp only [distance, Writer.rank, queued, List.length_cons]
          omega
  | received entry =>
      right
      refine ⟨shared, .writing entry entry.bytes, by simp [Writer.advance, running], free,
        by simp, ?_⟩
      simp [distance, Writer.rank]
  | writing entry bytes =>
      right
      by_cases whole : (entry.splitBytes bytes).2.isEmpty
      · refine ⟨{ shared with
            output := shared.output ++ (entry.splitBytes bytes).1
            done := shared.done ++ [(entry.permit, bytes)] }, .written entry, ?_, free, by simp, ?_⟩
        · simp only [Writer.advance, whole, if_true]
        · simp [distance, Writer.rank]
      · refine ⟨{ shared with output := shared.output ++ (entry.splitBytes bytes).1 },
          .entering entry bytes, ?_, free, by simp, ?_⟩
        · simp only [Writer.advance, whole, if_false, Bool.false_eq_true]
        · simp [distance, Writer.rank]
  | entering entry bytes =>
      right
      refine ⟨_, .written entry, rfl, free, by simp, ?_⟩
      simp [distance, Writer.rank]
  | written entry =>
      right
      by_cases reply : entry.permit = .reply
      · cases waiting : shared.pending with
        | nil =>
            refine ⟨{ shared with tokenQueued := false }, .releasing entry, ?_, free,
              by simp, ?_⟩
            · simp [Writer.advance, reply, free, waiting]
            · simp [distance, Writer.rank]
        | cons next pending =>
            refine ⟨{ shared with pending }, .writing entry next, ?_, free, by simp, ?_⟩
            · simp [Writer.advance, reply, free, waiting]
            · simp only [distance, Writer.rank, waiting, List.length_cons]
              omega
      · refine ⟨shared, .releasing entry, by simp [Writer.advance, reply], free, by simp, ?_⟩
        simp [distance, Writer.rank]
  | releasing entry =>
      right
      cases permit : entry.permit with
      | user =>
          refine ⟨{ shared with pendingBytes := shared.pendingBytes - entry.bytes.length },
            .releasingEntry, by simp [Writer.advance, permit], free, by simp, ?_⟩
          simp [distance, Writer.rank]
      | control =>
          refine ⟨{ shared with pendingControlEntries := shared.pendingControlEntries - 1 }, .idle,
            by simp [Writer.advance, permit], free, by simp, ?_⟩
          simp [distance, Writer.rank]
      | reply =>
          refine ⟨shared, .idle, by simp [Writer.advance, permit], free, by simp, ?_⟩
          simp [distance, Writer.rank]
  | releasingEntry =>
      right
      refine ⟨_, .idle, rfl, free, by simp, ?_⟩
      simp [distance, Writer.rank]
  | exited => exact absurd rfl alive

/-- A step of a call under way or of the writer. -/
def Unaided (state next : State) : Prop := Step state .advance next ∨ Step state .write next

abbrev Continues : State → State → Prop := Relation.ReflTransGen Unaided

theorem continues_free {calls : List Call} {shared : Shared} {writer : Writer}
    (running : shared.stopping = false) (free : shared.locked = false)
    (alive : writer ≠ .exited) :
    ∃ last, Continues ⟨shared, calls, writer⟩ last ∧ last.writer = .receiving ∧
      last.shared.queue = [] ∧ last.Running := by
  generalize far : distance shared writer = measure
  induction measure using Nat.strongRecOn generalizing shared writer with
  | _ measure ih =>
      subst far
      rcases closer running free alive with ⟨receiving, empty⟩ |
        ⟨next, written, advanced, stillFree, stillAlive, nearer⟩
      · exact ⟨_, .refl, receiving, empty, running, alive⟩
      · have stillRunning := (stopping_write advanced).trans running
        rcases ih _ nearer stillRunning stillFree stillAlive rfl with
          ⟨last, continues, receiving, empty, lastRunning⟩
        exact ⟨last, continues.head (.inr (Step.write advanced)), receiving, empty, lastRunning⟩

/-! ## The lock is given back -/

/-- How many accesses a call that has the lock still makes. -/
def Call.lockRank : Call → ℕ
  | replyCheck _ => 5
  | replyLook _ => 4
  | replyToken _ => 3
  | replySend _ => 2
  | replyUnlock _ => 1
  | _ => 0

/-- A call that has the lock waits for nothing. -/
theorem unlocks_advance {shared : Shared} {call : Call} (holds : call.locks = 1) :
    ∃ next after, advance shared call = some (next, after) ∧
      (next.locked = false ∨ after.locks = 1 ∧ after.lockRank < call.lockRank) := by
  cases call with
  | replyCheck _ | replyToken _ =>
      simp only [advance]
      split_ifs
      · exact ⟨_, _, rfl, .inr ⟨rfl, by simp [Call.lockRank]⟩⟩
      · exact ⟨_, _, rfl, .inr ⟨rfl, by simp [Call.lockRank]⟩⟩
  | replyLook _ =>
      simp only [advance]
      split_ifs
      · exact ⟨_, _, rfl, .inr ⟨rfl, by simp [Call.lockRank]⟩⟩
      · exact ⟨_, _, rfl, .inr ⟨rfl, by simp [Call.lockRank]⟩⟩
  | replySend _ =>
      simp only [advance]
      split
      · exact ⟨_, _, rfl, .inr ⟨rfl, by simp [Call.lockRank]⟩⟩
      · exact ⟨_, _, rfl, .inr ⟨rfl, by simp [Call.lockRank]⟩⟩
  | replyUnlock _ => exact ⟨_, _, rfl, .inl rfl⟩
  | _ => cases holds

theorem continues_unlocked {shared : Shared} {front back : List Call} {call : Call}
    {writer : Writer} (holds : call.locks = 1) :
    ∃ next calls, Continues ⟨shared, front ++ call :: back, writer⟩ ⟨next, calls, writer⟩ ∧
      next.locked = false ∧ next.stopping = shared.stopping := by
  generalize far : call.lockRank = measure
  induction measure using Nat.strongRecOn generalizing shared call with
  | _ measure ih =>
      subst far
      rcases @unlocks_advance shared call holds with ⟨next, after, advanced, outcome⟩
      have kept := (effect_advance advanced).1.stopping
      have step : Unaided ⟨shared, front ++ call :: back, writer⟩
          ⟨next, front ++ after :: back, writer⟩ := .inl (Step.advance advanced)
      rcases outcome with free | ⟨still, nearer⟩
      · exact ⟨next, _, .single step, free, kept⟩
      · rcases ih _ nearer still rfl with ⟨last, calls, continues, free, same⟩
        exact ⟨last, calls, continues.head step, free, same.trans kept⟩

/-- While the writer runs, the calls under way and the writer come to an empty queue. -/
theorem continues_empty {state : State} (accounts : Accounts state) (running : state.Running) :
    ∃ last, Continues state last ∧ last.writer = .receiving ∧ last.shared.queue = [] ∧
      last.Running := by
  rcases state with ⟨shared, calls, writer⟩
  cases locked : shared.locked with
  | false => exact continues_free running.1 locked running.2
  | true =>
      have held := accounts.locks
      dsimp only at held
      rw [locked, Bool.toNat_true] at held
      have holder : ∃ call ∈ calls, call.locks ≠ 0 := by
        by_contra none
        push Not at none
        have zero : callsHeld Held.locks calls = 0 :=
          List.sum_eq_zero (by simpa [Call.held] using none)
        omega
      rcases holder with ⟨call, contained, holds⟩
      have one : call.locks = 1 := by cases call <;> first | rfl | exact absurd rfl holds
      rcases List.append_of_mem contained with ⟨front, back, rfl⟩
      rcases @continues_unlocked shared front back call writer one with
        ⟨next, calls, unlocking, free, same⟩
      rcases @continues_free calls next writer (same.trans running.1) free running.2 with
        ⟨last, draining, receiving, empty, lastRunning⟩
      exact ⟨last, unlocking.trans draining, receiving, empty, lastRunning⟩

/-! ## The logs only grow -/

structure Grows (shared next : Shared) : Prop where
  sent : shared.sent <+: next.sent
  replies : shared.replies <+: next.replies
  done : shared.done <+: next.done
  output : shared.output <+: next.output

theorem prefix_of_eq {α : Type} {front back : List α} (same : back = front) : front <+: back := by
  subst same
  exact List.prefix_refl _

theorem prefix_of_append {α : Type} {front back rest : List α} (more : back = front ++ rest) :
    front <+: back := by
  subst more
  exact List.prefix_append ..

theorem Grows.refl (shared : Shared) : Grows shared shared :=
  ⟨List.prefix_refl _, List.prefix_refl _, List.prefix_refl _, List.prefix_refl _⟩

theorem Grows.trans {first middle last : Shared} (front : Grows first middle)
    (back : Grows middle last) : Grows first last :=
  ⟨front.sent.trans back.sent, front.replies.trans back.replies, front.done.trans back.done,
    front.output.trans back.output⟩

theorem grows_advance {shared next : Shared} {call after : Call}
    (advanced : advance shared call = some (next, after)) : Grows shared next := by
  rcases effect_advance advanced with ⟨-, logged, done, output⟩
  have keepsDone := prefix_of_eq done
  have keepsOutput := prefix_of_eq output
  cases logged with
  | nothing _ sent queue replies pending =>
      exact ⟨prefix_of_eq sent, prefix_of_eq replies, keepsDone, keepsOutput⟩
  | entry _ sent queue permit replies pending =>
      exact ⟨prefix_of_append sent, prefix_of_eq replies, keepsDone, keepsOutput⟩
  | token content permit sent queue replies pending =>
      exact ⟨prefix_of_append sent, prefix_of_append replies, keepsDone, keepsOutput⟩
  | behind queued sent queue replies pending =>
      exact ⟨prefix_of_eq sent, prefix_of_append replies, keepsDone, keepsOutput⟩

theorem grows_write {shared next : Shared} {writer written : Writer}
    (advanced : writer.advance shared = some (next, written)) : Grows shared next := by
  have kept : ∀ {next : Shared}, next.sent = shared.sent → next.replies = shared.replies →
      next.done = shared.done → next.output = shared.output → Grows shared next := by
    intro next sent replies done output
    exact ⟨prefix_of_eq sent, prefix_of_eq replies, prefix_of_eq done, prefix_of_eq output⟩
  cases writer with
  | idle | received _ =>
      simp only [Writer.advance] at advanced
      split_ifs at advanced <;> cases advanced <;> exact kept rfl rfl rfl rfl
  | receiving =>
      simp only [Writer.advance] at advanced
      split at advanced <;> cases advanced <;> exact kept rfl rfl rfl rfl
  | writing entry bytes =>
      simp only [Writer.advance] at advanced
      split_ifs at advanced <;> cases advanced
      · exact ⟨List.prefix_refl _, List.prefix_refl _, List.prefix_append ..,
          List.prefix_append ..⟩
      · exact ⟨List.prefix_refl _, List.prefix_refl _, List.prefix_refl _, List.prefix_append ..⟩
  | entering entry bytes =>
      simp only [Writer.advance] at advanced
      cases advanced
      exact ⟨List.prefix_refl _, List.prefix_refl _, List.prefix_append .., List.prefix_append ..⟩
  | written entry =>
      simp only [Writer.advance] at advanced
      split_ifs at advanced
      · split at advanced <;> cases advanced <;> exact kept rfl rfl rfl rfl
      · cases advanced
        exact .refl _
  | releasing entry =>
      simp only [Writer.advance] at advanced
      split at advanced <;> cases advanced <;> exact kept rfl rfl rfl rfl
  | releasingEntry =>
      simp only [Writer.advance] at advanced
      cases advanced
      exact kept rfl rfl rfl rfl
  | exited => cases advanced

section Continues

variable {state last : State}

theorem Continues.grows (continues : Continues state last) : Grows state.shared last.shared := by
  induction continues with
  | refl => exact .refl _
  | tail _ step ih =>
      apply ih.trans
      rcases step with access | write
      · cases access with
        | advance advanced => exact grows_advance advanced
      · cases write with
        | write advanced => exact grows_write advanced

theorem Continues.reachable (continues : Continues state last)
    (reached : system.Reachable state) : system.Reachable last := by
  induction continues with
  | refl => exact reached
  | tail _ step ih =>
      rcases step with access | write
      · exact ih.next access
      · exact ih.next write

end Continues

/-! ## The whole -/

/-- What the queue keeps to in a state. -/
structure Orderly (state : State) : Prop where
  /-- What was accepted is written once, in order and in one piece, or waits. -/
  logs : Logs state
  /-- A call that has its permit or the token finds room. -/
  room : ∀ call ∈ state.calls,
    call.error ≠ some .channelFull ∧ (call.Sends → state.shared.queue.length < channelCapacity)
  /-- A refused call changed nothing, whatever was done between its accesses. -/
  refused : ∀ {index : ℕ} {accesses : List Access} {error : InputError},
    Trace index state accesses → state.calls[index]? = some (.finished (.error error)) →
    Reserved accesses ⟨0, 0, 0, 0, 0⟩ ∧ ∀ access ∈ accesses, SameLogs access.1 access.2
  /-- An accepted one queued its entry, once. -/
  accepted : ∀ {index : ℕ} {accesses : List Access}, Trace index state accesses →
    state.calls[index]? = some (.finished (.ok ())) →
    ∃ request : Request, Runs request.call accesses (.finished (.ok ())) ∧
      (request.input.bytes = [] ∨ TakenOnce accesses request.input)
  /-- With nothing queued and nothing written, the counters are what calls under way hold. -/
  quiet : state.writer.Waits → state.shared.queue = [] →
    Drained state ∧ ReservedBy state.shared state.calls
  settled : state.writer.Waits → state.shared.queue = [] → (∀ call ∈ state.calls, call.IsFinished) →
    state.shared.pendingBytes = 0 ∧ state.shared.pendingEntries = 0 ∧
      state.shared.pendingControlEntries = 0 ∧ state.shared.tokenQueued = false
  /-- The calls under way and the writer come to write all that was accepted. -/
  drains : ∃ last, Continues state last ∧ last.Running ∧ last.writer = .receiving ∧ Drained last ∧
    Grows state.shared last.shared

theorem settled_of_waits {state : State} (accounts : Accounts state) (waits : state.writer.Waits)
    (empty : state.shared.queue = []) (finished : ∀ call ∈ state.calls, call.IsFinished) :
    state.shared.pendingBytes = 0 ∧ state.shared.pendingEntries = 0 ∧
      state.shared.pendingControlEntries = 0 ∧ state.shared.tokenQueued = false := by
  have reserved := reservedBy_of_waits accounts waits empty
  refine ⟨reserved.bytes.trans (callsHeld_finished _ rfl finished),
    reserved.entries.trans (callsHeld_finished _ rfl finished),
    reserved.controls.trans (callsHeld_finished _ rfl finished), ?_⟩
  apply Bool.toNat_eq_zero.mp
  exact reserved.tokens.trans (callsHeld_finished _ rfl finished)

theorem input_queue {state : State} (reached : system.Reachable state)
    (running : state.Running) : Orderly state := by
  have safe := safe_of_reachable reached running
  refine ⟨safe.logs, ?_, ?_, ?_, ?_, settled_of_waits safe.accounts, ?_⟩
  · intro call contained
    refine ⟨safe.room call contained, fun sends => ?_⟩
    rcases List.append_of_mem contained with ⟨front, back, parts⟩
    have accounts := safe.accounts
    rcases state with ⟨shared, calls, writer⟩
    dsimp only at parts
    subst parts
    exact room_of_sends accounts sends
  · intro index accesses error traced refused
    rcases (traced.follows running).made refused with ⟨request, runs⟩
    exact runs_untaken request.starts runs trivial
  · intro index accesses traced accepted
    rcases (traced.follows running).made accepted with ⟨request, runs⟩
    exact ⟨request, runs, runs_accepted runs rfl⟩
  · intro waits empty
    exact ⟨drained_of_waits safe waits empty, reservedBy_of_waits safe.accounts waits empty⟩
  · rcases continues_empty safe.accounts running with
      ⟨last, continues, receiving, empty, lastRunning⟩
    have lastSafe := safe_of_reachable (continues.reachable reached) lastRunning
    exact ⟨last, continues, lastRunning, receiving,
      drained_of_waits lastSafe (.inr receiving) empty, continues.grows⟩

/-! ## An interleaving -/

/-- The next access of a call, or of the writer. -/
def State.move (state : State) : Option ℕ → Option State
  | none => do
      let (shared, writer) ← state.writer.advance state.shared
      return { state with shared, writer }
  | some index => do
      let (shared, call) ← advance state.shared (← state.calls[index]?)
      return { state with shared, calls := state.calls.set index call }

theorem step_of_move {state next : State} {who : Option ℕ} (moved : state.move who = some next) :
    ∃ action, Step state action next := by
  rcases state with ⟨shared, calls, writer⟩
  cases who with
  | none =>
      rcases Option.bind_eq_some_iff.mp moved with ⟨⟨after, writing⟩, advanced, same⟩
      cases same
      exact ⟨.write, .write advanced⟩
  | some index =>
      rcases Option.bind_eq_some_iff.mp moved with ⟨call, found, moved⟩
      rcases Option.bind_eq_some_iff.mp moved with ⟨⟨after, next⟩, advanced, same⟩
      cases same
      rcases List.getElem?_eq_some_iff.mp found with ⟨inside, rfl⟩
      have parts : calls = calls.take index ++ calls[index] :: calls.drop (index + 1) := by simp
      have step := @Step.advance shared after (calls.take index) (calls.drop (index + 1)) _ _
        writer advanced
      rw [← parts] at step
      refine ⟨.advance, ?_⟩
      simpa [List.set_eq_take_append_cons_drop, inside] using step

theorem reachable_of_moves {state last : State} {moves : List (Option ℕ)}
    (reached : system.Reachable state) (moved : moves.foldlM State.move state = some last) :
    system.Reachable last := by
  induction moves generalizing state with
  | nil =>
      cases moved
      exact reached
  | cons who moves induction =>
      rcases Option.bind_eq_some_iff.mp moved with ⟨next, first, rest⟩
      rcases step_of_move first with ⟨action, step⟩
      exact induction (reached.next step) rest

/-- A submission and a reply are written, and a third call has reserved its byte and not sent
it. -/
def midway : State where
  shared := { Shared.initial with
    pendingBytes := 1
    pendingEntries := 1
    sent := [{ bytes := [104, 13], submitSplit := some 1, permit := .user },
      { bytes := [7], submitSplit := none, permit := .reply }]
    replies := [[7]]
    done := [(.user, [104, 13]), (.reply, [7])]
    output := [104, 13, 7] }
  calls := [.finished (.ok ()), .finished (.ok ()), .userCheck [105] none]
  writer := .idle

/-- The reply comes while the submission is sent, and the third call before its Enter. -/
def midwayMoves : List (Option ℕ) :=
  [some 0, some 0, some 1, some 1, some 0, some 1, some 0, some 0, none, none, some 1, some 1,
    none, none, some 2, some 2, some 1, some 1, some 2, none, none, none, none, none, none, none,
    none, none, none]

theorem midway_reachable : system.Reachable midway := by
  have started : system.Reachable
      ⟨Shared.initial, [trySubmit [104] [13], writeTerminalReply [7], tryWrite [105]], .idle⟩ :=
    .next (.next (.next (.start rfl) (Step.trySubmit [104] [13]))
      (Step.writeTerminalReply [7])) (Step.tryWrite [105])
  exact @reachable_of_moves _ midway midwayMoves started rfl

theorem input_queue_midway : Orderly midway :=
  input_queue midway_reachable ⟨rfl, by decide⟩

/-- With an empty queue and a writer that waits, a call under way may have its reservation. -/
theorem reserved_while_empty :
    ¬ ∀ state : State, system.Reachable state → state.Running → state.writer.Waits →
      state.shared.queue = [] →
      state.shared.pendingBytes = 0 ∧ state.shared.pendingEntries = 0 ∧
        state.shared.pendingControlEntries = 0 ∧ state.shared.tokenQueued = false := by
  intro claimed
  have zero := claimed midway midway_reachable ⟨rfl, by decide⟩ (.inl rfl) rfl
  cases zero.1

end Condr.InputQueue
