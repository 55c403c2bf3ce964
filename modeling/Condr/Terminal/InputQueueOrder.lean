import Condr.Terminal.InputQueueSafety

/-!
# Input is written in order, once

As long as the writer runs, what was accepted is what was written, what is being written and what
waits: the user and control entries in the order they were sent, and the replies in theirs. The
bytes the writer was given are those of the entries one after another, so nothing stands between a
submission's text and its Enter.
-/

namespace Condr.InputQueue

/-! ## Logs -/

def QueuedInput.logged (entry : QueuedInput) : Permit × List UInt8 := (entry.permit, entry.bytes)

/-- The user and control entries of a log. -/
def ordered (log : List (Permit × List UInt8)) : List (Permit × List UInt8) :=
  log.filter fun entry => entry.1 ≠ .reply

def repliesOf (log : List (Permit × List UInt8)) : List (List UInt8) :=
  (log.filter fun entry => entry.1 = .reply).map Prod.snd

theorem ordered_append (front back : List (Permit × List UInt8)) :
    ordered (front ++ back) = ordered front ++ ordered back := List.filter_append ..

theorem repliesOf_append (front back : List (Permit × List UInt8)) :
    repliesOf (front ++ back) = repliesOf front ++ repliesOf back := by
  simp [repliesOf]

namespace Writer

/-- What the writer has still to write, in whole. -/
def current : Writer → List (Permit × List UInt8)
  | received entry => [entry.logged]
  | writing entry bytes | entering entry bytes => [(entry.permit, bytes)]
  | _ => []

/-- What the writer wrote of it. -/
def begun : Writer → List UInt8
  | entering entry bytes => (entry.splitBytes bytes).1
  | _ => []

end Writer

structure Logs (state : State) : Prop where
  entries : ordered (state.shared.sent.map QueuedInput.logged) =
    ordered (state.shared.done ++ state.writer.current ++
      state.shared.queue.map QueuedInput.logged)
  replies : state.shared.replies =
    repliesOf (state.shared.done ++ state.writer.current ++
      state.shared.queue.map QueuedInput.logged) ++ state.shared.pending
  output : state.shared.output =
    (state.shared.done.map Prod.snd).flatten ++ state.writer.begun

theorem splitBytes_append (entry : QueuedInput) (bytes : List UInt8) :
    (entry.splitBytes bytes).1 ++ (entry.splitBytes bytes).2 = bytes := by
  rw [QueuedInput.splitBytes, List.splitAt_eq]
  exact List.take_append_drop _ _

theorem repliesOf_of_noToken {queue : List QueuedInput}
    (noToken : (queue.map QueuedInput.tokens).sum = 0) :
    repliesOf (queue.map QueuedInput.logged) = [] := by
  induction queue with
  | nil => rfl
  | cons entry rest ih =>
      rw [List.map_cons, List.sum_cons] at noToken
      have foreign : entry.permit ≠ .reply := by
        intro reply
        rw [QueuedInput.tokens, if_pos reply] at noToken
        omega
      have later := ih (by omega)
      simp only [repliesOf, List.map_cons, List.filter_cons] at later ⊢
      simpa [QueuedInput.logged, foreign] using later

section Logs

variable {shared next : Shared} {front back : List Call} {call after : Call}
  {calls : List Call} {writer written : Writer}

theorem logs_advance (accounts : Accounts ⟨shared, front ++ call :: back, writer⟩)
    (logs : Logs ⟨shared, front ++ call :: back, writer⟩)
    (advanced : advance shared call = some (next, after)) :
    Logs ⟨next, front ++ after :: back, writer⟩ := by
  rcases effect_advance advanced with ⟨-, logged, done, output⟩
  have entries := logs.entries
  have replied := logs.replies
  have given := logs.output
  dsimp only at entries replied given
  refine ⟨?_, ?_, ?_⟩
  · dsimp only
    rw [done]
    cases logged with
    | nothing _ sent queue replies pending => rw [sent, queue, entries]
    | entry _ sent queue permit replies pending =>
        rw [sent, queue, List.map_append, List.map_append, ordered_append, entries,
          ← ordered_append]
        simp
    | token content permit sent queue replies pending =>
        rw [sent, queue, List.map_append, List.map_append, ordered_append, entries,
          ← ordered_append]
        simp
    | behind queued sent queue replies pending => rw [sent, queue, entries]
  · dsimp only
    rw [done]
    cases logged with
    | nothing _ sent queue replies pending => rw [replies, queue, pending, replied]
    | @entry _ input sent queue permit replies pending =>
        have none : repliesOf [input.logged] = [] := by
          simp [repliesOf, QueuedInput.logged, permit]
        rw [replies, queue, pending, replied, List.map_append, List.map_singleton,
          ← List.append_assoc, repliesOf_append _ [input.logged], none, List.append_nil]
    | @token bytes input content permit sent queue replies pending =>
        have one : repliesOf [input.logged] = [bytes] := by
          simp [repliesOf, QueuedInput.logged, permit, content]
        have empty := accounts.pending_of_token
        rw [replies, queue, pending, replied, empty, List.map_append, List.map_singleton,
          ← List.append_assoc, repliesOf_append _ [input.logged], one, List.append_nil,
          List.append_nil]
    | behind queued sent queue replies pending =>
        rw [replies, queue, pending, replied, List.append_assoc]
  · dsimp only
    rw [output, done, given]

theorem logs_write (accounts : Accounts ⟨shared, calls, writer⟩)
    (logs : Logs ⟨shared, calls, writer⟩) (running : shared.stopping = false)
    (advanced : writer.advance shared = some (next, written)) :
    Logs ⟨next, calls, written⟩ := by
  have entries := logs.entries
  have replied := logs.replies
  have given := logs.output
  dsimp only at entries replied given
  cases writer with
  | idle =>
      simp only [Writer.advance, running, Bool.false_eq_true, if_false] at advanced
      cases advanced
      exact ⟨entries, replied, given⟩
  | receiving =>
      simp only [Writer.advance] at advanced
      split at advanced
      · cases advanced
        exact ⟨entries, replied, given⟩
      · next entry queue queued =>
          cases advanced
          rw [queued] at entries replied
          refine ⟨?_, ?_, given⟩
          · simpa [Writer.current] using entries
          · simpa [Writer.current] using replied
  | received entry =>
      simp only [Writer.advance, running, Bool.false_eq_true, if_false] at advanced
      cases advanced
      exact ⟨entries, replied, given⟩
  | writing entry content =>
      simp only [Writer.advance] at advanced
      split_ifs at advanced with whole <;> cases advanced
      · refine ⟨?_, ?_, ?_⟩
        · simpa [Writer.current] using entries
        · simpa [Writer.current] using replied
        · have text := splitBytes_append entry content
          rw [List.isEmpty_iff.mp whole, List.append_nil] at text
          dsimp only
          rw [given, text]
          simp [Writer.begun]
      · refine ⟨entries, replied, ?_⟩
        dsimp only
        rw [given]
        simp [Writer.begun]
  | entering entry content =>
      simp only [Writer.advance] at advanced
      cases advanced
      refine ⟨?_, ?_, ?_⟩
      · simpa [Writer.current] using entries
      · simpa [Writer.current] using replied
      · dsimp only
        rw [given, Writer.begun, List.append_assoc, splitBytes_append]
        simp [Writer.begun]
  | written entry =>
      simp only [Writer.advance] at advanced
      split_ifs at advanced with reply
      · split at advanced
        · next first rest waiting =>
            cases advanced
            have noToken : shared.queuedTokens = 0 := by
              have tokens := accounts.tokens
              have most := Bool.toNat_le shared.tokenQueued
              have own : (Writer.written entry).held.tokens = 1 := by
                simp [Writer.held, Writer.tokens, QueuedInput.tokens, reply]
              dsimp only at tokens
              omega
            have noReply : repliesOf (shared.queue.map QueuedInput.logged) = [] :=
              repliesOf_of_noToken noToken
            refine ⟨?_, ?_, given⟩
            · rw [ordered_append, ordered_append] at entries ⊢
              simpa [Writer.current, ordered, reply] using entries
            · rw [repliesOf_append, repliesOf_append] at replied ⊢
              rw [waiting, noReply] at replied
              dsimp only
              rw [noReply, replied]
              simp [Writer.current, repliesOf, reply]
        · cases advanced
          exact ⟨entries, replied, given⟩
      · cases advanced
        exact ⟨entries, replied, given⟩
  | releasing entry =>
      simp only [Writer.advance] at advanced
      split at advanced <;> cases advanced <;> exact ⟨entries, replied, given⟩
  | releasingEntry =>
      simp only [Writer.advance] at advanced
      cases advanced
      exact ⟨entries, replied, given⟩
  | exited => cases advanced

end Logs

/-! ## Room in the channel -/

namespace Call

/-- It has its permit or the token, and sends next. -/
def Sends : Call → Prop
  | userSend .. | controlSend _ | replySend _ => True
  | _ => False

def IsFinished : Call → Prop
  | finished _ => True
  | _ => False

end Call

theorem length_queue (queue : List QueuedInput) :
    queue.length = (queue.map QueuedInput.entries).sum + (queue.map QueuedInput.controls).sum +
      (queue.map QueuedInput.tokens).sum := by
  induction queue with
  | nil => rfl
  | cons entry rest ih =>
      have one : entry.entries + entry.controls + entry.tokens = 1 := by
        rcases entry with ⟨bytes, split, _ | _ | _⟩ <;> rfl
      simp only [List.length_cons, List.map_cons, List.sum_cons]
      omega

/-- A call that sends is one of those that the channel has room for. -/
theorem room_of_sends {shared : Shared} {front back : List Call} {call : Call} {writer : Writer}
    (accounts : Accounts ⟨shared, front ++ call :: back, writer⟩) (sends : call.Sends) :
    shared.queue.length < channelCapacity := by
  have entries := accounts.entries
  have controls := accounts.controls
  have tokens := accounts.tokens
  have entriesLe := accounts.entriesLe
  have controlsLe := accounts.controlsLe
  have most := Bool.toNat_le shared.tokenQueued
  dsimp only at entries controls tokens entriesLe controlsLe
  rw [callsHeld_replace] at entries controls tokens
  have own : Held.entries call.held + Held.controls call.held + Held.tokens call.held = 1 := by
    cases call <;> first | rfl | cases sends
  rw [length_queue]
  simp only [Shared.queuedEntries, Shared.queuedControls, Shared.queuedTokens] at *
  rw [inputQueueCapacity] at entriesLe
  rw [terminalControlQueueReserve, inputQueueCapacity] at controlsLe
  rw [channelCapacity, inputQueueCapacity, terminalReplyQueueReserve, terminalControlQueueReserve,
    inputQueueCapacity]
  omega

theorem trySend_channelFull {shared : Shared} {input : QueuedInput}
    (refused : shared.trySend input = .error .channelFull) :
    channelCapacity ≤ shared.queue.length := by
  unfold Shared.trySend at refused
  split_ifs at refused with gone room
  · cases refused
  · exact Nat.le_of_not_lt room

/-- Only a send that finds no room fails for it. -/
theorem channelFull_advance {shared next : Shared} {call after : Call}
    (advanced : advance shared call = some (next, after))
    (full : after.error = some .channelFull) :
    call.error = some .channelFull ∨ call.Sends ∧ channelCapacity ≤ shared.queue.length := by
  cases call with
  | userSend _ _ | controlSend _ | replySend _ =>
      simp only [advance] at advanced
      split at advanced
      · cases advanced
        cases full
      · next error refused =>
          cases advanced
          cases full
          exact .inr ⟨trivial, trySend_channelFull refused⟩
  | userDrop _ _ | userDropEntry _ | controlDrop _ =>
      simp only [advance] at advanced
      cases advanced
      exact .inl full
  | replyUnlock result =>
      simp only [advance] at advanced
      cases advanced
      exact .inl (by cases result <;> exact full)
  | userRefund =>
      simp only [advance] at advanced
      cases advanced
      cases full
  | finished _ => cases advanced
  | _ =>
      simp only [advance] at advanced
      split_ifs at advanced <;> cases advanced <;> cases full

/-! ## The invariant -/

structure Safe (state : State) : Prop where
  accounts : Accounts state
  logs : Logs state
  room : ∀ call ∈ state.calls, call.error ≠ some .channelFull

theorem safe_of_reachable {state : State} (reached : system.Reachable state)
    (running : state.Running) : Safe state := by
  refine @running_invariant Safe ?_ ?_ ?_ ?_ ?_ state reached running
  · refine ⟨accounts_of_reachable (.start rfl) ⟨rfl, by simp⟩, ⟨rfl, rfl, rfl⟩, ?_⟩
    intro call contained
    cases contained
  · intro state call safe starts
    refine ⟨accounts_call safe.accounts starts.held, ⟨safe.logs.entries, safe.logs.replies,
      safe.logs.output⟩, ?_⟩
    intro other contained
    rcases List.mem_append.mp contained with before | last
    · exact safe.room other before
    · rw [List.mem_singleton.mp last, starts.error]
      simp
  · intro shared next front back call after writer safe advanced
    refine ⟨accounts_advance safe.accounts advanced,
      logs_advance safe.accounts safe.logs advanced, ?_⟩
    intro other contained full
    rw [List.mem_append, List.mem_cons] at contained
    rcases contained with before | rfl | behind
    · exact safe.room other (by simp [before]) full
    · rcases channelFull_advance advanced full with earlier | ⟨sends, noRoom⟩
      · exact safe.room call (by simp) earlier
      · exact absurd (room_of_sends safe.accounts sends) (Nat.not_lt.mpr noRoom)
    · exact safe.room other (by simp [behind]) full
  · intro shared next calls writer written safe running advanced
    exact ⟨accounts_write safe.accounts running advanced,
      logs_write safe.accounts safe.logs running advanced, safe.room⟩
  · intro state safe
    have accounts := safe.accounts
    exact ⟨⟨accounts.entries, accounts.bytes, accounts.controls, accounts.tokens, accounts.locks,
      accounts.entriesLe, accounts.bytesLe, accounts.controlsLe, accounts.connected,
      accounts.pendingEmpty⟩, ⟨safe.logs.entries, safe.logs.replies, safe.logs.output⟩,
      safe.room⟩

end Condr.InputQueue
