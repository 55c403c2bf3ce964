import Condr.Server.Persistence

/-!
# Snapshots are written in schedule order

The snapshots written, the one in the worker's hand and the pending one form a chain in
schedule order, whose last entry is the last snapshot accepted, until the worker gives up on
that one and says so.
-/

namespace Condr.Persistence

universe u v

variable {Snapshot : Type u} {Error : Type v}

namespace Run

/-- The snapshot the worker is writing, or failed to write and did not settle. -/
def inHand (run : Run Snapshot Error) : Option (Scheduled Snapshot) :=
  match run.worker with
  | .writing snapshot _ | .failed snapshot _ _ => some snapshot
  | _ => none

/-- What was written, is being written and waits to be written, in this order. -/
def chain (run : Run Snapshot Error) : List (Scheduled Snapshot) :=
  run.written ++ (run.inHand.toList ++ run.shared.pending.toList)

/-- The worker returned an error. -/
def GaveUp (run : Run Snapshot Error) : Prop := ∃ error, run.worker = .exited (.error error)

structure Ordered (run : Run Snapshot Error) : Prop where
  increasing : run.chain.Pairwise fun earlier later => earlier.index < later.index
  accepted : ∀ entry ∈ run.chain, run.accepted[entry.index]? = some entry.snapshot
  /-- The last accepted snapshot ends the chain. -/
  latest : ¬run.GaveUp → (run.chain.getLast?.elim 0 fun last => last.index + 1) = run.accepted.length
  gaveUp : run.GaveUp → ∃ last ∈ run.reported, last.index + 1 = run.accepted.length
  deadline : run.shared.stopping = false →
    (run.shared.deadline.isSome ↔ run.shared.pending.isSome)
  exited : ∀ result, run.worker = .exited result →
    run.shared.stopping = true ∧ run.shared.pending = none

theorem ordered_initial : (initial : Run Snapshot Error).Ordered where
  increasing := .nil
  accepted _ member := nomatch member
  latest _ := rfl
  gaveUp gaveUp := by
    rcases gaveUp with ⟨_, gaveUp⟩
    cases gaveUp
  deadline _ := by simp [initial, WorkerState.initial]
  exited _ exited := nomatch exited

variable {run next : Run Snapshot Error}

/-- A step that only moves snapshots along the chain keeps the order. -/
theorem Ordered.of_chain (ordered : run.Ordered) (moved : next.chain = run.chain)
    (accepted : next.accepted = run.accepted) (working : ¬run.GaveUp) (still : ¬next.GaveUp)
    (deadline : next.shared.stopping = false →
      (next.shared.deadline.isSome ↔ next.shared.pending.isSome))
    (exited : ∀ result, next.worker = .exited result →
      next.shared.stopping = true ∧ next.shared.pending = none) : next.Ordered where
  increasing := moved ▸ ordered.increasing
  accepted := by
    rw [moved, accepted]
    exact ordered.accepted
  latest _ := by
    rw [moved, accepted]
    exact ordered.latest working
  gaveUp gaveUp := absurd gaveUp still
  deadline := deadline
  exited := exited

/-- A snapshot that failed makes room for the pending one. -/
theorem Ordered.of_superseded (ordered : run.Ordered) {snapshot pending : Scheduled Snapshot}
    (held : run.inHand = some snapshot) (waits : run.shared.pending = some pending)
    (dropped : next.chain = run.written ++ [pending]) (accepted : next.accepted = run.accepted)
    (working : ¬run.GaveUp) (still : ¬next.GaveUp)
    (deadline : next.shared.stopping = false →
      (next.shared.deadline.isSome ↔ next.shared.pending.isSome))
    (exited : ∀ result, next.worker ≠ .exited result) : next.Ordered := by
  have chain : run.chain = run.written ++ [snapshot, pending] := by
    simp [Run.chain, held, waits]
  have shorter : next.chain.Sublist run.chain := by
    rw [dropped, chain]
    exact (List.sublist_cons_self snapshot [pending]).append_left _
  have latest := ordered.latest working
  refine ⟨ordered.increasing.sublist shorter, ?_, ?_, fun gaveUp => absurd gaveUp still,
    deadline, fun result ended => absurd ended (exited result)⟩
  · intro entry member
    rw [accepted]
    exact ordered.accepted entry (shorter.subset member)
  · intro _
    rw [accepted, ← latest, dropped, chain]
    simp

theorem not_gaveUp_of_ne (working : ∀ error, run.worker ≠ .exited (.error error)) :
    ¬run.GaveUp := by
  rintro ⟨error, gaveUp⟩
  exact working error gaveUp

theorem ordered_schedule (ordered : run.Ordered) (snapshot : Snapshot) (now debounce : Time)
    (accepts : run.shared.stopping = false) :
    Ordered { run with
      shared := run.shared.schedule ⟨run.accepted.length, snapshot⟩ now debounce
      accepted := run.accepted ++ [snapshot] } := by
  have working : ¬run.GaveUp := by
    rintro ⟨error, gaveUp⟩
    have := (ordered.exited _ gaveUp).1
    simp [accepts] at this
  have scheduled : run.shared.schedule ⟨run.accepted.length, snapshot⟩ now debounce =
      { run.shared with
        pending := some ⟨run.accepted.length, snapshot⟩
        deadline := some (now + debounce) } := by
    simp [WorkerState.schedule, accepts]
  have earlier (entry : Scheduled Snapshot)
      (member : entry ∈ run.written ++ run.inHand.toList) :
      run.accepted[entry.index]? = some entry.snapshot := by
    apply ordered.accepted
    rw [Run.chain, ← List.append_assoc]
    exact List.mem_append_left _ member
  rw [scheduled]
  constructor
  case increasing =>
    have increasing := ordered.increasing
    simp only [Run.chain, ← List.append_assoc] at increasing ⊢
    rw [List.pairwise_append] at increasing ⊢
    refine ⟨increasing.1, by simp, ?_⟩
    intro entry member last isLast
    rw [Option.mem_toList.mp isLast |> Option.some.inj |>.symm]
    exact (List.getElem?_eq_some_iff.mp (earlier entry member)).1
  case accepted =>
    intro entry member
    simp only [Run.chain, ← List.append_assoc] at member
    rcases List.mem_append.mp member with older | last
    · rw [List.getElem?_append_left (List.getElem?_eq_some_iff.mp (earlier entry older)).1]
      exact earlier entry older
    · rw [← Option.some.inj (Option.mem_toList.mp last)]
      simp
  case latest =>
    intro _
    simp [Run.chain]
  case gaveUp =>
    rintro ⟨error, gaveUp⟩
    exact absurd ⟨error, gaveUp⟩ working
  case deadline => exact fun _ => by simp
  case exited =>
    intro result ended
    have := (ordered.exited result ended).1
    simp [accepts] at this

theorem ordered_look (ordered : run.Ordered) {attempts : ℕ}
    (waiting : run.worker = .waiting attempts) (now : Time)
    (steps : run.perform (.look now) = some next) : next.Ordered := by
  have working : ¬run.GaveUp := not_gaveUp_of_ne (by simp [waiting])
  have handless : run.inHand = none := by simp [inHand, waiting]
  simp only [perform, waiting, WorkerState.waitForSnapshot] at steps
  by_cases stopping : run.shared.stopping = true
  · simp only [stopping, if_true] at steps
    cases pending : run.shared.pending with
    | none =>
        rw [pending] at steps
        cases steps
        exact ordered.of_chain (by simp [chain, inHand, waiting, pending]) rfl working
          (not_gaveUp_of_ne (by simp)) (by simp) (by simp)
    | some snapshot =>
        rw [pending] at steps
        cases steps
        exact ordered.of_chain (by simp [chain, inHand, waiting, pending]) rfl working
          (not_gaveUp_of_ne (by simp)) (by simp) (by simp)
  · have runs : run.shared.stopping = false := by simpa using stopping
    have armed := ordered.deadline runs
    simp only [runs, Bool.false_eq_true, if_false] at steps
    cases deadline : run.shared.deadline with
    | none =>
        simp only [deadline] at steps
        cases steps
        exact ordered.of_chain (by simp [chain, inHand, waiting]) rfl working
          (not_gaveUp_of_ne (by simp)) (fun _ => armed) (by simp)
    | some due =>
        by_cases passed : due ≤ now
        · simp only [deadline, passed, if_true] at steps
          -- The deadline is armed only with a pending snapshot, so the worker does not exit.
          cases pending : run.shared.pending with
          | none => simp [deadline, pending] at armed
          | some snapshot =>
              rw [pending] at steps
              cases steps
              exact ordered.of_chain (by simp [chain, inHand, waiting, pending]) rfl working
                (not_gaveUp_of_ne (by simp)) (by simp) (by simp)
        · simp only [deadline, passed, if_false] at steps
          cases steps
          exact ordered.of_chain (by simp [chain, inHand, waiting]) rfl working
            (not_gaveUp_of_ne (by simp)) (fun _ => armed) (by simp)

theorem ordered_write (ordered : run.Ordered) (result : Except Error Unit)
    (steps : run.perform (.write result) = some next) : next.Ordered := by
  have deadline := ordered.deadline
  cases writing : run.worker with
  | writing snapshot attempts =>
      have working : ¬run.GaveUp := not_gaveUp_of_ne (by simp [writing])
      cases result with
      | ok value =>
          simp only [perform, writing] at steps
          cases steps
          exact ordered.of_chain (by simp [chain, inHand, writing]) rfl working
            (not_gaveUp_of_ne (by simp)) deadline (by simp)
      | error error =>
          simp only [perform, writing] at steps
          cases steps
          exact ordered.of_chain (by simp [chain, inHand, writing]) rfl working
            (not_gaveUp_of_ne (by simp)) deadline (by simp)
  | _ => cases result <;> simp [perform, writing] at steps

theorem ordered_settle_wrote (ordered : run.Ordered) (wrote : run.worker = .wrote)
    (now : Time) (steps : run.perform (.settle now) = some next) : next.Ordered := by
  have working : ¬run.GaveUp := not_gaveUp_of_ne (by simp [wrote])
  simp only [perform, wrote] at steps
  cases steps
  by_cases ends : (run.shared.stopping && run.shared.pending.isNone) = true
  · have after : (run.shared.afterWrite : Worker (Scheduled Snapshot) Error) = .exited (.ok ()) := by
      simp only [WorkerState.afterWrite, ends, if_true]
    rw [after]
    simp only [Bool.and_eq_true, Option.isNone_iff_eq_none] at ends
    exact ordered.of_chain (by simp [chain, inHand, wrote]) rfl working
      (not_gaveUp_of_ne (by simp)) (fun runs => by simp [ends.1] at runs) (fun _ _ => ends)
  · have after : (run.shared.afterWrite : Worker (Scheduled Snapshot) Error) = .waiting 0 := by
      simp only [WorkerState.afterWrite, ends]
      rfl
    rw [after]
    exact ordered.of_chain (by simp [chain, inHand, wrote]) rfl working
      (not_gaveUp_of_ne (by simp)) ordered.deadline (by simp)

theorem ordered_settle_failed (ordered : run.Ordered) {snapshot : Scheduled Snapshot}
    {error : Error} {attempts : ℕ} (failed : run.worker = .failed snapshot error attempts)
    (now : Time) (steps : run.perform (.settle now) = some next) : next.Ordered := by
  have working : ¬run.GaveUp := not_gaveUp_of_ne (by simp [failed])
  have held : run.inHand = some snapshot := by simp [inHand, failed]
  simp only [perform, failed, WorkerState.afterFailure] at steps
  cases steps
  cases pending : run.shared.pending with
  | some later =>
      by_cases stopping : run.shared.stopping = true
      · simp only [stopping, if_true, Option.isSome_some]
        exact ordered.of_superseded held pending (by simp [chain, inHand, pending]) rfl working
          (not_gaveUp_of_ne (by simp)) (fun runs => by simp [stopping] at runs) (by simp)
      · simp only [stopping, Option.isNone_some, Bool.false_eq_true, if_false]
        exact ordered.of_superseded held pending (by simp [chain, inHand, pending]) rfl working
          (not_gaveUp_of_ne (by simp)) ordered.deadline (by simp)
  | none =>
      by_cases stopping : run.shared.stopping = true
      · by_cases givesUp : shutdownWriteAttempts ≤ attempts + 1
        · simp only [stopping, if_true, Option.isSome_none, Bool.false_eq_true, if_false, givesUp,
            Option.isNone_none, decide_true, Bool.and_self, Bool.or_true]
          have chain : run.chain = run.written ++ [snapshot] := by simp [chain, held, pending]
          have shorter : run.written.Sublist run.chain := chain ▸ List.sublist_append_left _ _
          have latest := ordered.latest working
          refine ⟨?_, ?_, ?_, ?_, fun runs => by simp [stopping] at runs,
            fun _ _ => ⟨stopping, pending⟩⟩
          · simpa [Run.chain, inHand, pending] using ordered.increasing.sublist shorter
          · intro entry member
            simp only [Run.chain, inHand, pending, Option.toList_none, List.append_nil] at member
            exact ordered.accepted entry (shorter.subset member)
          · intro still
            exact absurd ⟨error, rfl⟩ still
          · intro _
            exact ⟨snapshot, by simp, by simpa [chain] using latest⟩
        · simp only [stopping, if_true, Option.isSome_none, Bool.false_eq_true, if_false, givesUp]
          exact ordered.of_chain (by simp [chain, inHand, failed, pending]) rfl working
            (not_gaveUp_of_ne (by simp)) (fun runs => by simp at runs) (by simp)
      · simp only [stopping, Option.isNone_none, Bool.false_eq_true, if_false, if_true]
        exact ordered.of_chain (by simp [chain, inHand, failed, pending]) rfl working
          (not_gaveUp_of_ne (by simp)) (fun _ => by simp) (by simp)

theorem ordered_perform (ordered : run.Ordered) (action : Action Snapshot Error)
    (steps : run.perform action = some next) : next.Ordered := by
  cases action with
  | schedule snapshot now debounce =>
      cases steps
      cases stopping : run.shared.stopping with
      | false =>
          simpa only [stopping, Bool.false_eq_true, if_false] using
            ordered_schedule ordered snapshot now debounce stopping
      | true => simpa [WorkerState.schedule, stopping] using ordered
  | stop =>
      cases steps
      exact ⟨ordered.increasing, ordered.accepted, ordered.latest, ordered.gaveUp, nofun,
        fun result ended => ⟨rfl, (ordered.exited result ended).2⟩⟩
  | look now =>
      cases waiting : run.worker with
      | waiting attempts => exact ordered_look ordered waiting now steps
      | _ => simp [perform, waiting] at steps
  | write result => exact ordered_write ordered result steps
  | settle now =>
      cases worker : run.worker with
      | wrote => exact ordered_settle_wrote ordered worker now steps
      | failed snapshot error attempts => exact ordered_settle_failed ordered worker now steps
      | _ => simp [perform, worker] at steps

end Run

theorem reachable_ordered {run : Run Snapshot Error}
    (reached : (system Snapshot Error).Reachable run) : run.Ordered := by
  apply reached.invariant Run.Ordered
  · rintro _ rfl
    exact Run.ordered_initial
  · intro run action next ordered steps
    exact Run.ordered_perform ordered action steps

end Condr.Persistence
