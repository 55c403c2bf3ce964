import Condr.Foundation.Transition
import Mathlib.Data.List.Basic
import Mathlib.Order.Basic

/-!
# Snapshot persistence

The Server schedules a Session Snapshot after every change and one worker writes the latest.
Each lock section of a scheduler, of the shutdown and of the worker is one step, as is each
write, which may fail in any way; the clock is whatever the steps read from it.
-/

namespace Condr.Persistence

universe u v

/-- Milliseconds on the monotonic clock. -/
abbrev Time := ℕ

def retryDelay : Time := 1000
def shutdownWriteAttempts : ℕ := 4

structure WorkerState (Snapshot : Type u) where
  pending : Option Snapshot
  deadline : Option Time
  stopping : Bool
deriving DecidableEq

/-- Where the worker is in its loop. -/
inductive Worker (Snapshot : Type u) (Error : Type v) where
  /-- In `wait_for_snapshot`, or asleep before it. -/
  | waiting (shutdownWriteAttempts : ℕ)
  | writing (snapshot : Snapshot) (shutdownWriteAttempts : ℕ)
  | failed (snapshot : Snapshot) (error : Error) (shutdownWriteAttempts : ℕ)
  | wrote
  | exited (result : Except Error Unit)

section Code

variable {Snapshot : Type u} {Error : Type v}

namespace WorkerState

variable (state : WorkerState Snapshot)

def initial : WorkerState Snapshot := ⟨none, none, false⟩

def schedule (snapshot : Snapshot) (now debounce : Time) : WorkerState Snapshot :=
  if state.stopping then state
  else { state with pending := some snapshot, deadline := some (now + debounce) }

/-- The lock section of `shutdown`. -/
def stop : WorkerState Snapshot := { state with stopping := true }

/-- One look of `wait_for_snapshot`: what it returns, or `none` where it waits on. -/
def waitForSnapshot (now : Time) : WorkerState Snapshot × Option (Option Snapshot) :=
  if state.stopping then ({ state with pending := none }, some state.pending)
  else
    match state.deadline with
    | none => (state, none)
    | some deadline =>
        if deadline ≤ now then ({ state with pending := none, deadline := none }, some state.pending)
        else (state, none)

/-- The lock section after a failed write. -/
def afterFailure (snapshot : Snapshot) (error : Error) (attempts : ℕ) (now : Time) :
    WorkerState Snapshot × Worker Snapshot Error :=
  if state.stopping then
    if state.pending.isSome then (state, .waiting 0)
    else if shutdownWriteAttempts ≤ attempts + 1 then (state, .exited (.error error))
    else ({ state with pending := some snapshot }, .waiting (attempts + 1))
  else if state.pending.isNone then
    ({ state with pending := some snapshot, deadline := some (now + retryDelay) },
      .waiting attempts)
  else (state, .waiting attempts)

/-- The lock section after a write that landed. -/
def afterWrite : Worker Snapshot Error :=
  if state.stopping && state.pending.isNone then .exited (.ok ()) else .waiting 0

end WorkerState

end Code

/-- A snapshot with its place in the order of the accepted ones. -/
structure Scheduled (Snapshot : Type u) where
  index : ℕ
  snapshot : Snapshot
deriving DecidableEq

/-- The shared state and the worker, with what happened so far: the snapshots accepted, the
writes that landed and the failures logged or returned. -/
structure Run (Snapshot : Type u) (Error : Type v) where
  shared : WorkerState (Scheduled Snapshot)
  worker : Worker (Scheduled Snapshot) Error
  accepted : List Snapshot
  written : List (Scheduled Snapshot)
  reported : List (Scheduled Snapshot)

inductive Action (Snapshot : Type u) (Error : Type v) where
  | schedule (snapshot : Snapshot) (now debounce : Time)
  | stop
  | look (now : Time)
  | write (result : Except Error Unit)
  /-- The lock section after a write. -/
  | settle (now : Time)

variable {Snapshot : Type u} {Error : Type v}

namespace Run

def initial : Run Snapshot Error where
  shared := .initial
  worker := .waiting 0
  accepted := []
  written := []
  reported := []

def perform (run : Run Snapshot Error) : Action Snapshot Error → Option (Run Snapshot Error)
  | .schedule snapshot now debounce =>
      some { run with
        shared := run.shared.schedule ⟨run.accepted.length, snapshot⟩ now debounce
        accepted := if run.shared.stopping then run.accepted else run.accepted ++ [snapshot] }
  | .stop => some { run with shared := run.shared.stop }
  | .look now =>
      match run.worker, run.shared.waitForSnapshot now with
      | .waiting _, (shared, some none) => some { run with shared, worker := .exited (.ok ()) }
      | .waiting attempts, (shared, some (some snapshot)) =>
          some { run with shared, worker := .writing snapshot attempts }
      | .waiting attempts, (shared, none) => some { run with shared, worker := .waiting attempts }
      | _, _ => none
  | .write (.ok ()) =>
      match run.worker with
      | .writing snapshot _ =>
          some { run with worker := .wrote, written := run.written ++ [snapshot] }
      | _ => none
  | .write (.error error) =>
      match run.worker with
      | .writing snapshot attempts => some { run with worker := .failed snapshot error attempts }
      | _ => none
  | .settle now =>
      match run.worker with
      | .wrote => some { run with worker := run.shared.afterWrite }
      | .failed snapshot error attempts =>
          let next := run.shared.afterFailure snapshot error attempts now
          -- A failure during the shutdown is reported when the worker gives up on it.
          let reports :=
            !run.shared.stopping || (run.shared.pending.isNone &&
              decide (shutdownWriteAttempts ≤ attempts + 1))
          some { run with
            shared := next.1
            worker := next.2
            reported := if reports then run.reported ++ [snapshot] else run.reported }
      | _ => none

/-- `shutdown` joined the worker, which returned `result`. -/
def ShutdownReturned (run : Run Snapshot Error) (result : Except Error Unit) : Prop :=
  run.shared.stopping = true ∧ run.worker = .exited result

end Run

/-- Any interleaving of the schedulers, the shutdown and the worker. -/
def system (Snapshot : Type u) (Error : Type v) :
    Transition.System (Run Snapshot Error) (Action Snapshot Error) where
  initial run := run = .initial
  step run action next := run.perform action = some next

end Condr.Persistence
