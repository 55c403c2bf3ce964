import Condr.Server.PersistenceOrder

/-!
# What becomes of a scheduled snapshot

An accepted snapshot is written, superseded or reported, or the worker still has it. In the
last case the worker can always go on, and a bounded number of its writes decides: the rounds
it may still need count down with each one, whatever the schedulers and the shutdown do
meanwhile and however the writes end.
-/

namespace Condr.Persistence

universe u v

variable {Snapshot : Type u} {Error : Type v}

/-- What became of the snapshot accepted at `index`. -/
inductive Fate (run : Run Snapshot Error) (index : ℕ) : Prop where
  | written (entry : Scheduled Snapshot) (member : entry ∈ run.written) (this : entry.index = index)
  | superseded (later : index + 1 < run.accepted.length)
  | reported (entry : Scheduled Snapshot) (member : entry ∈ run.reported)
      (this : entry.index = index)

/-- The lock section after a write. -/
def Action.settles : Action Snapshot Error → Bool
  | .settle _ => true
  | _ => false

namespace Run

/-- The worker has the snapshot in hand, or will find it. -/
def Holds (run : Run Snapshot Error) (index : ℕ) : Prop :=
  ∃ entry, (run.inHand = some entry ∨ run.shared.pending = some entry) ∧ entry.index = index

/-- How many of the worker's writes decide about the last snapshot. -/
def rounds (run : Run Snapshot Error) : ℕ :=
  match run.worker with
  | .waiting attempts => shutdownWriteAttempts - attempts
  | .writing _ attempts | .failed _ _ attempts =>
      if run.shared.pending.isSome then shutdownWriteAttempts + 1
      else shutdownWriteAttempts - attempts
  | .wrote => shutdownWriteAttempts + 1
  | .exited _ => 0

/-- The worker has attempts left for the shutdown. -/
def Tries (run : Run Snapshot Error) : Prop :=
  match run.worker with
  | .waiting attempts | .writing _ attempts | .failed _ _ attempts =>
      attempts < shutdownWriteAttempts
  | .wrote | .exited _ => True

variable {run next : Run Snapshot Error}

theorem rounds_le (run : Run Snapshot Error) : run.rounds ≤ shutdownWriteAttempts + 1 := by
  unfold rounds
  split
  · omega
  · split <;> omega
  · split <;> omega
  · omega
  · omega

/-! ## One step -/

/-- What was accepted, written or reported stays so. -/
structure Grows (run next : Run Snapshot Error) : Prop where
  accepted : run.accepted <+: next.accepted
  written : run.written <+: next.written
  reported : run.reported <+: next.reported

theorem grows_refl (run : Run Snapshot Error) : run.Grows run :=
  ⟨List.prefix_rfl, List.prefix_rfl, List.prefix_rfl⟩

theorem grows_look (now : Time) (steps : run.perform (.look now) = some next) :
    run.Grows next := by
  simp only [perform] at steps
  split at steps
  · cases steps
    exact ⟨List.prefix_rfl, List.prefix_rfl, List.prefix_rfl⟩
  · cases steps
    exact ⟨List.prefix_rfl, List.prefix_rfl, List.prefix_rfl⟩
  · cases steps
    exact ⟨List.prefix_rfl, List.prefix_rfl, List.prefix_rfl⟩
  · cases steps

theorem grows_settle (now : Time) (steps : run.perform (.settle now) = some next) :
    run.Grows next := by
  simp only [perform] at steps
  split at steps
  · cases steps
    exact ⟨List.prefix_rfl, List.prefix_rfl, List.prefix_rfl⟩
  · cases steps
    refine ⟨List.prefix_rfl, List.prefix_rfl, ?_⟩
    dsimp only
    split
    · exact List.prefix_append _ _
    · exact List.prefix_rfl
  · cases steps

theorem grows_perform (action : Action Snapshot Error) (steps : run.perform action = some next) :
    run.Grows next := by
  cases action with
  | schedule snapshot now debounce =>
      cases steps
      refine ⟨?_, List.prefix_rfl, List.prefix_rfl⟩
      dsimp only
      split
      · exact List.prefix_rfl
      · exact List.prefix_append _ _
  | stop =>
      cases steps
      exact ⟨List.prefix_rfl, List.prefix_rfl, List.prefix_rfl⟩
  | look now => exact grows_look now steps
  | write result =>
      cases writing : run.worker with
      | writing snapshot attempts =>
          cases result with
          | ok value =>
              simp only [perform, writing] at steps
              cases steps
              exact ⟨List.prefix_rfl, List.prefix_append _ _, List.prefix_rfl⟩
          | error error =>
              simp only [perform, writing] at steps
              cases steps
              exact ⟨List.prefix_rfl, List.prefix_rfl, List.prefix_rfl⟩
      | _ => cases result <;> simp [perform, writing] at steps
  | settle now => exact grows_settle now steps

theorem Grows.fate (grows : run.Grows next) {index : ℕ} (fate : Fate run index) :
    Fate next index := by
  cases fate with
  | written entry member this => exact .written entry (grows.written.subset member) this
  | superseded later => exact .superseded (Nat.lt_of_lt_of_le later grows.accepted.length_le)
  | reported entry member this => exact .reported entry (grows.reported.subset member) this

/-- With nothing pending, the worker has the last accepted snapshot in hand. -/
theorem Ordered.held_is_last (ordered : run.Ordered) {snapshot : Scheduled Snapshot}
    (held : run.inHand = some snapshot) (empty : run.shared.pending = none) :
    snapshot.index + 1 = run.accepted.length := by
  have working : ¬run.GaveUp := by
    rintro ⟨error, gaveUp⟩
    simp [inHand, gaveUp] at held
  have latest := ordered.latest working
  simpa [chain, held, empty] using latest

theorem settle_wrote_cases (wrote : run.worker = .wrote) {now : Time}
    (steps : run.perform (.settle now) = some next) :
    next.worker = .exited (.ok ()) ∨ next.worker = .waiting 0 := by
  simp only [perform, wrote] at steps
  cases steps
  simp only [WorkerState.afterWrite]
  split
  · exact .inl rfl
  · exact .inr rfl

/-- A failed snapshot makes room for the pending one, or is reported, or is tried again. -/
theorem settle_failed_cases {snapshot : Scheduled Snapshot} {error : Error} {attempts : ℕ}
    (failed : run.worker = .failed snapshot error attempts) {now : Time}
    (steps : run.perform (.settle now) = some next) :
    (run.shared.pending.isSome ∧
        (next.worker = .waiting 0 ∨ next.worker = .waiting attempts)) ∨
      (run.shared.pending = none ∧ snapshot ∈ next.reported ∧
        (next.worker = .waiting attempts ∨ next.worker = .exited (.error error))) ∨
      (run.shared.pending = none ∧ attempts + 1 < shutdownWriteAttempts ∧
        next.worker = .waiting (attempts + 1)) := by
  simp only [perform, failed, WorkerState.afterFailure] at steps
  cases steps
  cases pending : run.shared.pending with
  | some later =>
      left
      cases stopping : run.shared.stopping with
      | true => simp
      | false => simp
  | none =>
      right
      cases stopping : run.shared.stopping with
      | false => simp
      | true =>
          by_cases givesUp : shutdownWriteAttempts ≤ attempts + 1
          · simp [givesUp]
          · right
            simp only [Option.isSome_none, Bool.false_eq_true, if_true, if_false, givesUp]
            exact ⟨trivial, by omega, trivial⟩

theorem tries_perform (tries : run.Tries) (action : Action Snapshot Error)
    (steps : run.perform action = some next) : next.Tries := by
  cases action with
  | schedule snapshot now debounce =>
      cases steps
      exact tries
  | stop =>
      cases steps
      exact tries
  | look now =>
      simp only [perform] at steps
      split at steps
      · cases steps
        trivial
      · next waiting _ =>
          cases steps
          simpa [Tries, waiting] using tries
      · next waiting _ =>
          cases steps
          simpa [Tries, waiting] using tries
      · cases steps
  | write result =>
      cases writing : run.worker with
      | writing snapshot attempts =>
          cases result with
          | ok value =>
              simp only [perform, writing] at steps
              cases steps
              trivial
          | error error =>
              simp only [perform, writing] at steps
              cases steps
              simpa [Tries, writing] using tries
      | _ => cases result <;> simp [perform, writing] at steps
  | settle now =>
      cases worker : run.worker with
      | wrote =>
          rcases settle_wrote_cases worker steps with ended | waits
          · simp [Tries, ended]
          · simp [Tries, waits, shutdownWriteAttempts]
      | failed snapshot error attempts =>
          simp only [Tries, worker] at tries
          rcases settle_failed_cases worker steps with
            ⟨_, waits | waits⟩ | ⟨_, _, waits | ended⟩ | ⟨_, left, waits⟩
          · simp [Tries, waits, shutdownWriteAttempts]
          · simpa [Tries, waits] using tries
          · simpa [Tries, waits] using tries
          · simp [Tries, ended]
          · simpa [Tries, waits] using left
      | _ => simp [perform, worker] at steps

/-- A look that returns takes the pending snapshot away. -/
theorem waitForSnapshot_taken {state after : WorkerState (Scheduled Snapshot)} {now : Time}
    {taken : Option (Scheduled Snapshot)}
    (returns : state.waitForSnapshot now = (after, some taken)) :
    taken = state.pending ∧ after.pending = none := by
  unfold WorkerState.waitForSnapshot at returns
  split at returns
  · cases returns
    exact ⟨rfl, rfl⟩
  · split at returns
    · cases returns
    · split at returns
      · cases returns
        exact ⟨rfl, rfl⟩
      · cases returns

theorem rounds_look (now : Time) (steps : run.perform (.look now) = some next) :
    next.rounds ≤ run.rounds := by
  cases waiting : run.worker with
  | waiting attempts =>
      have before : run.rounds = shutdownWriteAttempts - attempts := by simp [rounds, waiting]
      simp only [perform, waiting] at steps
      rw [before]
      split at steps
      · cases steps
        simp [rounds]
      · next same returns =>
          cases same
          cases steps
          simp [rounds, (waitForSnapshot_taken returns).2]
      · next same _ =>
          cases same
          cases steps
          simp [rounds]
      · cases steps
  | _ => simp [perform, waiting] at steps

/-- Until the last snapshot has its fate, a write that fails leaves one round less. -/
theorem rounds_settle (ordered : run.Ordered) (tries : run.Tries) {index : ℕ}
    (last : index + 1 = run.accepted.length) (undecided : ¬Fate next index) (now : Time)
    (steps : run.perform (.settle now) = some next) : next.rounds + 1 ≤ run.rounds := by
  cases worker : run.worker with
  | wrote =>
      rcases settle_wrote_cases worker steps with ended | waits
      · simp [rounds, worker, ended]
      · simp [rounds, worker, waits]
  | failed snapshot error attempts =>
      simp only [Tries, worker] at tries
      rcases settle_failed_cases worker steps with
        ⟨pending, waits | waits⟩ | ⟨empty, reported, _⟩ | ⟨empty, left, waits⟩
      · simp [rounds, worker, pending, waits]
      · simp only [rounds, worker, pending, waits, if_true]
        omega
      · have held : run.inHand = some snapshot := by simp [inHand, worker]
        have isLast := ordered.held_is_last held empty
        exact absurd (.reported snapshot reported (by omega)) undecided
      · simp only [rounds, worker, empty, waits, Option.isSome_none, Bool.false_eq_true, if_false]
        omega
  | _ => simp [perform, worker] at steps

/-- No other step takes rounds, unless it decides. -/
theorem rounds_perform (ordered : run.Ordered) (tries : run.Tries) {index : ℕ}
    (last : index + 1 = run.accepted.length) (undecided : ¬Fate next index)
    (action : Action Snapshot Error) (steps : run.perform action = some next) :
    next.rounds + (if action.settles then 1 else 0) ≤ run.rounds := by
  cases action with
  | schedule snapshot now debounce =>
      cases stopping : run.shared.stopping with
      | true =>
          simp only [perform, stopping, if_true, WorkerState.schedule] at steps
          cases steps
          exact Nat.le_refl _
      | false =>
          simp only [perform, stopping] at steps
          cases steps
          exact absurd (.superseded (by simp [last])) undecided
  | stop =>
      cases steps
      exact Nat.le_refl _
  | look now => exact rounds_look now steps
  | write result =>
      cases writing : run.worker with
      | writing snapshot attempts =>
          cases result with
          | ok value =>
              simp only [perform, writing] at steps
              cases steps
              cases pending : run.shared.pending with
              | some later => simp [rounds, writing, pending, Action.settles]
              | none =>
                  have held : run.inHand = some snapshot := by simp [inHand, writing]
                  have isLast := ordered.held_is_last held pending
                  exact absurd (.written snapshot (by simp) (by omega)) undecided
          | error error =>
              simp only [perform, writing] at steps
              cases steps
              simp [rounds, writing, Action.settles]
      | _ => cases result <;> simp [perform, writing] at steps
  | settle now => exact rounds_settle ordered tries last undecided now steps

/-! ## Runs -/

theorem grows_runLabels {actions : List (Action Snapshot Error)}
    (runs : Transition.System.runLabels perform run actions = some next) : run.Grows next := by
  induction actions generalizing run with
  | nil =>
      cases runs
      exact grows_refl _
  | cons action rest induction =>
      rcases Option.bind_eq_some_iff.mp runs with ⟨middle, steps, later⟩
      have first := grows_perform action steps
      have second := induction later
      exact ⟨first.accepted.trans second.accepted, first.written.trans second.written,
        first.reported.trans second.reported⟩

/-- As long as the last snapshot has no fate, the writes and the rounds left stay within the
rounds there were. -/
theorem rounds_runLabels (ordered : run.Ordered) (tries : run.Tries) {index : ℕ}
    (last : index + 1 = run.accepted.length) {actions : List (Action Snapshot Error)}
    (runs : Transition.System.runLabels perform run actions = some next)
    (undecided : ¬Fate next index) :
    next.rounds + actions.countP Action.settles ≤ run.rounds ∧ next.Tries ∧ next.Ordered := by
  induction actions generalizing run with
  | nil =>
      cases runs
      exact ⟨Nat.le_refl _, tries, ordered⟩
  | cons action rest induction =>
      rcases Option.bind_eq_some_iff.mp runs with ⟨middle, steps, later⟩
      have grown := grows_runLabels later
      have still : ¬Fate middle index := fun fate => undecided (grown.fate fate)
      have same : index + 1 = middle.accepted.length := by
        have longer := (grows_perform action steps).accepted.length_le
        by_contra different
        exact still (.superseded (by omega))
      have first := rounds_perform ordered tries last still action steps
      have kept := ordered_perform ordered action steps
      rcases induction kept (tries_perform tries action steps) same later with
        ⟨second, triesOn, orderedOn⟩
      refine ⟨?_, triesOn, orderedOn⟩
      rw [List.countP_cons]
      omega

/-- While the worker has not given up, the last accepted snapshot is written or in its hand. -/
theorem Ordered.fate_of_last (ordered : run.Ordered) (working : ¬run.GaveUp) {index : ℕ}
    (last : index + 1 = run.accepted.length) : Fate run index ∨ run.Holds index := by
  have latest := ordered.latest working
  cases found : run.chain.getLast? with
  | none =>
      rw [found, Option.elim_none] at latest
      omega
  | some entry =>
      rw [found, Option.elim_some] at latest
      have this : entry.index = index := by omega
      have member := List.mem_of_getLast? found
      simp only [Run.chain, List.mem_append, Option.mem_toList] at member
      rcases member with written | held | pending
      · exact .inl (.written entry written this)
      · exact .inr ⟨entry, .inl held, this⟩
      · exact .inr ⟨entry, .inr pending, this⟩

theorem Ordered.fate (ordered : run.Ordered) {index : ℕ} (inside : index < run.accepted.length) :
    Fate run index ∨ run.Holds index := by
  by_cases last : index + 1 < run.accepted.length
  · exact .inl (.superseded last)
  · have isLast : index + 1 = run.accepted.length := by omega
    by_cases gaveUp : run.GaveUp
    · rcases ordered.gaveUp gaveUp with ⟨entry, member, this⟩
      exact .inl (.reported entry member (by omega))
    · exact ordered.fate_of_last gaveUp isLast

/-- A worker that still holds a snapshot has rounds left. -/
theorem rounds_pos (ordered : run.Ordered) (tries : run.Tries) {index : ℕ}
    (holds : run.Holds index) : 0 < run.rounds := by
  rcases holds with ⟨entry, held, _⟩
  cases worker : run.worker with
  | waiting attempts =>
      simp only [Tries, worker] at tries
      simp only [rounds, worker]
      omega
  | writing snapshot attempts =>
      simp only [Tries, worker] at tries
      simp only [rounds, worker]
      split <;> omega
  | failed snapshot error attempts =>
      simp only [Tries, worker] at tries
      simp only [rounds, worker]
      split <;> omega
  | wrote => simp [rounds, worker]
  | exited result =>
      have empty := (ordered.exited result worker).2
      simp [inHand, worker, empty] at held

/-- The worker's next writes decide about every snapshot accepted so far. -/
theorem decided_of_ordered (ordered : run.Ordered) (tries : run.Tries)
    {actions : List (Action Snapshot Error)}
    (runs : Transition.System.runLabels perform run actions = some next)
    (enough : shutdownWriteAttempts < actions.countP Action.settles) {index : ℕ}
    (inside : index < run.accepted.length) : Fate next index := by
  have grown := grows_runLabels runs
  by_cases last : index + 1 < run.accepted.length
  · exact grown.fate (.superseded last)
  · by_contra undecided
    have isLast : index + 1 = run.accepted.length := by omega
    rcases rounds_runLabels ordered tries isLast runs undecided with ⟨fewer, triesOn, orderedOn⟩
    have still : index < next.accepted.length := by
      have := grown.accepted.length_le
      omega
    rcases orderedOn.fate still with fate | holds
    · exact undecided fate
    · have left := rounds_pos orderedOn triesOn holds
      have most := run.rounds_le
      omega

/-- The pending snapshot is taken at every look from its deadline on, at once in a shutdown. -/
theorem Ordered.takes (ordered : run.Ordered) {attempts : ℕ} {snapshot : Scheduled Snapshot}
    (waiting : run.worker = .waiting attempts) (pending : run.shared.pending = some snapshot) :
    ∃ due, ∀ now, due ≤ now →
      ∃ next, run.perform (.look now) = some next ∧ next.worker = .writing snapshot attempts := by
  cases stopping : run.shared.stopping with
  | true =>
      refine ⟨0, ?_⟩
      intro now _
      simp [perform, waiting, WorkerState.waitForSnapshot, stopping, pending]
  | false =>
      have armed := (ordered.deadline stopping).mpr (by simp [pending])
      rcases Option.isSome_iff_exists.mp armed with ⟨deadline, isDeadline⟩
      refine ⟨deadline, ?_⟩
      intro now passed
      simp [perform, waiting, WorkerState.waitForSnapshot, stopping, pending, isDeadline, passed]

end Run

theorem reachable_tries {run : Run Snapshot Error}
    (reached : (system Snapshot Error).Reachable run) : run.Tries := by
  apply reached.invariant Run.Tries
  · rintro _ rfl
    simp [Run.Tries, Run.initial, shutdownWriteAttempts]
  · intro run action next tries steps
    exact Run.tries_perform tries action steps

/-- The promises of the persistence in a reachable state. -/
structure Persisted (run : Run Snapshot Error) : Prop where
  /-- The writes that landed are in schedule order, each of an accepted snapshot. -/
  inOrder : run.written.Pairwise fun earlier later => earlier.index < later.index
  accepted : ∀ entry ∈ run.written, run.accepted[entry.index]? = some entry.snapshot
  /-- No accepted snapshot is forgotten: what has no fate yet, the worker has or will find. -/
  fate : ∀ index < run.accepted.length, Fate run index ∨ run.Holds index
  /-- Whatever happens meanwhile, this many writes give all of them their fate. -/
  decided : ∀ actions next, Transition.System.runLabels Run.perform run actions = some next →
    shutdownWriteAttempts < actions.countP Action.settles →
    ∀ index < run.accepted.length, Fate next index
  /-- A waiting worker takes the pending snapshot at every look from some time on. -/
  takes : ∀ attempts snapshot, run.worker = .waiting attempts →
    run.shared.pending = some snapshot → ∃ due, ∀ now, due ≤ now →
      ∃ next, run.perform (.look now) = some next ∧ next.worker = .writing snapshot attempts
  /-- A write may end in any way, and is settled whatever it ended in. -/
  writes : ∀ snapshot attempts, run.worker = .writing snapshot attempts → ∀ result,
    (run.perform (.write result)).isSome
  settles : (run.worker = .wrote ∨ ∃ snapshot error attempts,
    run.worker = .failed snapshot error attempts) → ∀ now, (run.perform (.settle now)).isSome
  /-- The worker ends only once it is shut down, and leaves nothing waiting. -/
  worksOn : ∀ result, run.worker = .exited result →
    run.shared.stopping = true ∧ run.inHand = none ∧ run.shared.pending = none
  shutdown : run.ShutdownReturned (.ok ()) →
    run.written.getLast?.map Scheduled.snapshot = run.accepted.getLast?

theorem written_of_shutdown {run : Run Snapshot Error} (ordered : run.Ordered)
    (returned : run.ShutdownReturned (.ok ())) :
    run.written.getLast?.map Scheduled.snapshot = run.accepted.getLast? := by
  rcases returned with ⟨_, returned⟩
  have still : ¬run.GaveUp := Run.not_gaveUp_of_ne (by simp [returned])
  have latest := ordered.latest still
  simp only [Run.chain, Run.inHand, returned, (ordered.exited _ returned).2, Option.toList_none,
    List.append_nil] at latest
  cases found : run.written.getLast? with
  | none =>
      rw [found, Option.elim_none] at latest
      simp [List.length_eq_zero_iff.mp latest.symm]
  | some entry =>
      rw [found, Option.elim_some] at latest
      have member : entry ∈ run.chain :=
        List.mem_append_left _ (List.mem_of_getLast? found)
      rw [Option.map_some, ← ordered.accepted entry member, List.getLast?_eq_getElem?, ← latest]
      rfl

/-- In every interleaving, with writes that fail in any way: the writes that land are in
schedule order, every accepted snapshot is written, superseded or reported once the worker's
next writes have ended, and a shutdown that returns `Ok` wrote the last one. -/
theorem snapshots_persisted_in_order {run : Run Snapshot Error}
    (reached : (system Snapshot Error).Reachable run) : Persisted run := by
  have ordered := reachable_ordered reached
  have tries := reachable_tries reached
  have inChain : run.written.Sublist run.chain := List.sublist_append_left _ _
  refine ⟨ordered.increasing.sublist inChain,
    fun entry member => ordered.accepted entry (inChain.subset member),
    fun _ inside => ordered.fate inside, ?_, ?_, ?_, ?_, ?_, written_of_shutdown ordered⟩
  · intro actions next runs enough index inside
    exact Run.decided_of_ordered ordered tries runs enough inside
  · intro attempts snapshot waiting pending
    exact ordered.takes waiting pending
  · intro snapshot attempts writing result
    cases result with
    | ok value => simp [Run.perform, writing]
    | error error => simp [Run.perform, writing]
  · rintro (wrote | ⟨snapshot, error, attempts, failed⟩) now
    · simp [Run.perform, wrote]
    · simp [Run.perform, failed]
  · intro result ended
    rcases ordered.exited result ended with ⟨stopping, empty⟩
    exact ⟨stopping, by simp [Run.inHand, ended], empty⟩

/-- A failed write is retried, and the shutdown writes what was scheduled meanwhile. -/
def exampleRun : Option (Run String String) :=
  Transition.System.runLabels Run.perform .initial
    [.schedule "first" 0 250, .look 300, .write (.error "disk full"), .settle 300,
      .schedule "second" 400 250, .stop, .look 500, .write (.ok ()), .settle 600]

theorem snapshots_persisted_in_order_example :
    ∃ run, exampleRun = some run ∧ run.written = [⟨1, "second"⟩] ∧ Persisted run := by
  have ran : ∃ run, exampleRun = some run ∧ run.written = [⟨1, "second"⟩] := ⟨_, rfl, rfl⟩
  rcases ran with ⟨run, runs, written⟩
  exact ⟨run, runs, written, snapshots_persisted_in_order
    (.of_runLabels (fun _ _ _ performs => performs) (.start rfl) runs)⟩

end Condr.Persistence
