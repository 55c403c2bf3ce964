import Condr.Agent.Detector
import Condr.Foundation.Runs

/-!
# Followers of the agent detector

Whoever applies what the detector publishes, in order, follows an agent of its own. The
two differ when a report names the agent and nothing is published of it, and a recorded
resume keeps another agent's conversation when such a report records none. These are the
only steps that do: without them every state of every run agrees.
-/

namespace Condr

/-- One call of the detector. -/
inductive Observation where
  | restore (resume : AgentResume)
  | process (result : ProcessProbeResult) (now : Instant)
  | event (event : AgentEvent)
  | status (status : ProgramStatus)
  | promptStart
  | reset
deriving DecidableEq

/-- What a follower holds after a result. -/
def follow (followed : Option AgentSnapshot) : AgentPublish → Option AgentSnapshot
  | .nothing => followed
  | .snapshot snapshot => some snapshot
  | .cleared => none

namespace AgentDetector

def observe (detector : AgentDetector) : Observation → AgentDetector × AgentPublish
  | .restore resume => (detector.restore resume, .nothing)
  | .process result now => detector.observeProcess result now
  | .event event => detector.observeEvent event
  | .status status => detector.observeStatus status
  | .promptStart => detector.observePromptStart
  | .reset => detector.observeReset

/-- The agent the detector tracks, as it would be published. -/
def snapshot (detector : AgentDetector) : Option AgentSnapshot :=
  match detector.agent, detector.state with
  | some kind, some state =>
      some { sessionId := detector.sessionId, kind, state, detail := detector.detail }
  | _, _ => none

/-- The fields that describe an agent are clear without one, and only what blocks or
failed has a detail. -/
structure WellFormed (detector : AgentDetector) : Prop where
  present : detector.agent.isSome = detector.state.isSome
  absent : detector.agent = none → detector.sessionId = none ∧ detector.promptId = none ∧
    detector.detail = none ∧ detector.programStatus = false ∧ detector.seeded = false
  detailed : detector.detail.isSome →
    detector.state = some .blocked ∨ detector.state = some .error

/-- A recorded resume is of the tracked agent. -/
def ResumesAgent (detector : AgentDetector) : Prop :=
  ∀ agent resume, detector.agent = some agent → detector.resume = some (some resume) →
    resume.kind = agent

/-- The event names the conversation to resume. -/
def namesConversation (event : AgentEvent) : Bool :=
  event.sessionId.isSome || event.startsSession

/-- A report that names the agent says something about it that is published. -/
def Announces (detector : AgentDetector) : Observation → Prop
  | .event event => detector.Unnamed → event.agent.spec.hooks.isSome →
      event.sessionId.isSome ∨ event.apply .unknown ≠ .unknown
  | .status status => detector.Unnamed → status.id = none →
      ∀ agent, reporter status = some (some agent) → status.state ≠ .clear
  | _ => True

/-- A resume is restored only for the agent tracked, and a report that names an agent
leaves no other agent's resume behind. -/
def KeepsResume (detector : AgentDetector) : Observation → Prop
  | .restore resume => ∀ agent, detector.agent = some agent → resume.kind = agent
  | .event event => detector.Unnamed → event.agent.spec.hooks.isSome →
      namesConversation event = true ∨
        ∀ resume, detector.resume = some (some resume) → resume.kind = event.agent
  | .status status => detector.Unnamed → status.id = none →
      ∀ agent, reporter status = some (some agent) →
        ∀ resume, detector.resume = some (some resume) → resume.kind = agent
  | _ => True

/-- A follower that held `followed` holds the detector's own agent after the result. -/
def Tracks (followed : Option AgentSnapshot) (result : AgentDetector × AgentPublish) : Prop :=
  follow followed result.2 = result.1.snapshot

variable {detector : AgentDetector}

theorem wellFormed_new : new.WellFormed where
  present := rfl
  absent _ := ⟨rfl, rfl, rfl, rfl, rfl⟩
  detailed detailed := absurd detailed (by decide)

namespace WellFormed

variable (wellFormed : detector.WellFormed)

include wellFormed in
theorem state_of_agent {agent : AgentKind} (tracked : detector.agent = some agent) :
    ∃ state, detector.state = some state := by
  have present := wellFormed.present
  rw [tracked] at present
  exact Option.isSome_iff_exists.mp present.symm

include wellFormed in
theorem state_none (absent : detector.agent = none) : detector.state = none := by
  have present := wellFormed.present
  rw [absent] at present
  exact Option.not_isSome_iff_eq_none.mp (by simpa using present.symm)

end WellFormed

theorem snapshot_none (absent : detector.agent = none) : detector.snapshot = none := by
  simp [snapshot, absent]

/-! ## Committing a state -/

section Commit

variable {agent : AgentKind} {state : AgentState} {next : AgentState}
  {sessionId detail : Option String}

theorem commit_snapshot (tracked : detector.agent = some agent)
    (known : detector.state = some state) :
    (detector.commit next sessionId detail).1.snapshot =
      some { sessionId, kind := agent, state := next, detail } := by
  simp only [commit, tracked, known]
  split
  · next same =>
      rcases same with ⟨rfl, rfl, rfl⟩
      simp [snapshot, tracked, known]
  · simp [snapshot]

/-- A commit says all there is to know of the agent, or changes nothing. -/
theorem commit_tracks (detector : AgentDetector) (tracked : detector.agent = some agent)
    (known : detector.state = some state) :
    Tracks detector.snapshot (detector.commit next sessionId detail) := by
  unfold Tracks
  rw [commit_snapshot tracked known]
  simp only [commit, tracked, known]
  split
  · next same =>
      rcases same with ⟨rfl, rfl, rfl⟩
      simp [follow, snapshot, tracked, known]
  · rfl

/-- A follower that knows of no agent learns of it exactly when something changes. -/
theorem commit_tracks_none_iff (detector : AgentDetector) (tracked : detector.agent = some agent)
    (known : detector.state = some state) :
    Tracks none (detector.commit next sessionId detail) ↔
      ¬(next = state ∧ sessionId = detector.sessionId ∧ detail = detector.detail) := by
  unfold Tracks
  rw [commit_snapshot tracked known]
  simp only [commit, tracked, known]
  split <;> simp_all [follow]

theorem commit_agent : (detector.commit next sessionId detail).1.agent = detector.agent := by
  unfold commit
  split
  · split <;> rfl
  · rfl

theorem commit_resume : (detector.commit next sessionId detail).1.resume = detector.resume := by
  unfold commit
  split
  · split <;> rfl
  · rfl

theorem commit_wellFormed (detector : AgentDetector) (tracked : detector.agent = some agent)
    (known : detector.state = some state)
    (allowed : detail.isSome → next = .blocked ∨ next = .error) :
    (detector.commit next sessionId detail).1.WellFormed := by
  simp only [commit, tracked, known]
  split
  · next same =>
      rcases same with ⟨rfl, rfl, rfl⟩
      exact ⟨by simp [tracked, known], by simp [tracked],
        fun detailed => by simpa [known] using allowed detailed⟩
  · exact ⟨by simp, by simp, fun detailed => by simpa using allowed detailed⟩

end Commit

/-! ## Naming the agent -/

theorem seed_of_not_unnamed (named : ¬detector.Unnamed) (agent : AgentKind) :
    detector.seed agent = detector := if_neg named

theorem seed_of_unnamed (unnamed : detector.Unnamed) (agent : AgentKind) :
    detector.seed agent =
      { detector with agent := some agent, seeded := true, state := some .unknown } :=
  if_pos unnamed

theorem seed_wellFormed (wellFormed : detector.WellFormed) (agent : AgentKind) :
    (detector.seed agent).WellFormed := by
  by_cases unnamed : detector.Unnamed
  · rw [seed_of_unnamed unnamed]
    have clear := wellFormed.absent unnamed.1
    exact ⟨rfl, by simp, by simp [clear.2.2.1]⟩
  · rw [seed_of_not_unnamed unnamed]
    exact wellFormed

/-! ## Hook events -/

/-- What an event commits, from what the detector knew. -/
def eventSession (detector : AgentDetector) (event : AgentEvent) : Option String :=
  event.sessionId.or (if event.startsSession then none else detector.sessionId)

def eventState (detector : AgentDetector) (state : AgentState) (event : AgentEvent) :
    AgentState :=
  if detector.programStatus then state else event.apply state

def eventDetail (detector : AgentDetector) (state : AgentState) (event : AgentEvent) :
    Option String :=
  if detector.programStatus then detector.detail
  else if event.apply state = .blocked then event.detail else none

theorem observePrompt_eq {agent : AgentKind} {event : AgentEvent} {next : AgentDetector}
    (accepted : detector.observePrompt agent event = some next) :
    ∃ promptId, next = { detector with promptId } := by
  unfold observePrompt at accepted
  split at accepted
  · split at accepted
    · exact ⟨_, (Option.some.inj accepted).symm⟩
    · exact ⟨_, (Option.some.inj accepted).symm⟩
    · split at accepted
      · cases accepted
      · exact ⟨detector.promptId, (Option.some.inj accepted).symm⟩
  · exact ⟨detector.promptId, (Option.some.inj accepted).symm⟩

/-- No event is late for an agent of which no turn is known. -/
theorem observePrompt_of_no_prompt (fresh : detector.promptId = none) (agent : AgentKind)
    (event : AgentEvent) : detector.observePrompt agent event ≠ none := by
  unfold observePrompt
  split
  · split <;> simp [fresh]
  · simp

/-- An event of the Pane's agent is late, or commits what it says beside the turn and the
conversation it names. -/
theorem observeOwnEvent_cases (detector : AgentDetector) (agent : AgentKind) (state : AgentState)
    (event : AgentEvent) :
    (detector.observePrompt agent event = none ∧
        detector.observeOwnEvent agent state event = (detector, .nothing)) ∨
      ∃ promptId restoring resume,
        (if namesConversation event then
            resume = some ((detector.eventSession event).map fun id => ⟨agent, id⟩)
          else resume = detector.resume) ∧
        detector.observeOwnEvent agent state event =
          { detector with promptId, restoring, resume }.commit
            (detector.eventState state event) (detector.eventSession event)
            (detector.eventDetail state event) := by
  cases accepted : detector.observePrompt agent event with
  | none => exact .inl ⟨rfl, by simp [observeOwnEvent, accepted]⟩
  | some next =>
      rcases observePrompt_eq accepted with ⟨promptId, rfl⟩
      by_cases names : namesConversation event
      · refine .inr ⟨promptId, none, some ((detector.eventSession event).map fun id => ⟨agent, id⟩),
          by simp [names], ?_⟩
        have named : (event.sessionId.isSome || event.startsSession) = true := names
        by_cases reports : detector.programStatus = true <;>
          simp [observeOwnEvent, accepted, observeConversation, named, reports, eventState,
            eventSession, eventDetail]
      · refine .inr ⟨promptId, detector.restoring, detector.resume, by simp [names], ?_⟩
        have unnamed : (event.sessionId.isSome || event.startsSession) = false := by
          simpa [namesConversation] using names
        by_cases reports : detector.programStatus = true <;>
          simp [observeOwnEvent, accepted, observeConversation, unnamed, reports, eventState,
            eventSession, eventDetail]

section OwnEvent

variable {agent : AgentKind} {state : AgentState} {event : AgentEvent}

theorem observeOwnEvent_tracks (tracked : detector.agent = some agent)
    (known : detector.state = some state) :
    Tracks detector.snapshot (detector.observeOwnEvent agent state event) := by
  rcases observeOwnEvent_cases detector agent state event with
    ⟨_, late⟩ | ⟨promptId, restoring, resume, _, commits⟩
  · rw [late]
    rfl
  · rw [commits]
    exact commit_tracks { detector with promptId, restoring, resume } tracked known

theorem observeOwnEvent_wellFormed (wellFormed : detector.WellFormed)
    (tracked : detector.agent = some agent) (known : detector.state = some state) :
    (detector.observeOwnEvent agent state event).1.WellFormed := by
  rcases observeOwnEvent_cases detector agent state event with
    ⟨_, late⟩ | ⟨promptId, restoring, resume, _, commits⟩
  · rw [late]
    exact wellFormed
  · rw [commits]
    apply commit_wellFormed { detector with promptId, restoring, resume } tracked known
    intro detailed
    by_cases reports : detector.programStatus = true
    · simp only [eventState, eventDetail, reports, if_true] at detailed ⊢
      have := wellFormed.detailed detailed
      rw [known] at this
      simpa using this
    · simp only [eventState, eventDetail, reports] at detailed ⊢
      by_cases blocks : event.apply state = .blocked
      · exact .inl blocks
      · simp [blocks] at detailed

theorem observeOwnEvent_agent :
    (detector.observeOwnEvent agent state event).1.agent = detector.agent := by
  rcases observeOwnEvent_cases detector agent state event with
    ⟨_, late⟩ | ⟨promptId, restoring, resume, _, commits⟩
  · rw [late]
  · rw [commits, commit_agent]

/-- The resume left by an event that was not late. -/
theorem observeOwnEvent_resume (fresh : detector.promptId = none) :
    (detector.observeOwnEvent agent state event).1.resume =
      if namesConversation event then
        some ((detector.eventSession event).map fun id => ⟨agent, id⟩)
      else detector.resume := by
  rcases observeOwnEvent_cases detector agent state event with
    ⟨late, _⟩ | ⟨promptId, restoring, resume, kept, commits⟩
  · exact absurd late (observePrompt_of_no_prompt fresh agent event)
  · rw [commits, commit_resume]
    by_cases names : namesConversation event
    · simpa [names] using kept
    · simpa [names] using kept

theorem observeOwnEvent_resumesAgent (resumes : detector.ResumesAgent)
    (tracked : detector.agent = some agent) :
    (detector.observeOwnEvent agent state event).1.ResumesAgent := by
  intro now resume nowTracked resumed
  rw [observeOwnEvent_agent, tracked] at nowTracked
  cases nowTracked
  rcases observeOwnEvent_cases detector agent state event with
    ⟨_, late⟩ | ⟨promptId, restoring, after, kept, commits⟩
  · rw [late] at resumed
    exact resumes _ _ tracked resumed
  · rw [commits, commit_resume] at resumed
    by_cases names : namesConversation event
    · simp only [names, if_true] at kept
      rw [kept] at resumed
      rcases Option.map_eq_some_iff.mp (Option.some.inj resumed) with ⟨_, _, rfl⟩
      rfl
    · simp only [names] at kept
      rw [if_neg (by simp)] at kept
      rw [kept] at resumed
      exact resumes _ _ tracked resumed

end OwnEvent

theorem observeEvent_of_no_hooks {event : AgentEvent}
    (bare : ¬event.agent.spec.hooks.isSome) :
    detector.observeEvent event = (detector, .nothing) := by
  simp [observeEvent, Option.not_isSome_iff_eq_none.mp bare]

theorem observeEvent_of_unnamed {event : AgentEvent} (unnamed : detector.Unnamed)
    (hooked : event.agent.spec.hooks.isSome) :
    detector.observeEvent event =
      (detector.seed event.agent).observeOwnEvent event.agent .unknown event := by
  rcases Option.isSome_iff_exists.mp hooked with ⟨hooks, found⟩
  simp [observeEvent, found, seed_of_unnamed unnamed]

/-- Where the agent has a name, an event is its own or changes nothing. -/
theorem observeEvent_of_named (event : AgentEvent) (named : ¬detector.Unnamed) :
    detector.observeEvent event = (detector, .nothing) ∨
      ∃ state, detector.agent = some event.agent ∧ detector.state = some state ∧
        detector.observeEvent event = detector.observeOwnEvent event.agent state event := by
  by_cases hooked : event.agent.spec.hooks.isSome
  · rcases Option.isSome_iff_exists.mp hooked with ⟨hooks, found⟩
    simp only [observeEvent, found, Option.isNone_some, seed_of_not_unnamed named]
    cases tracked : detector.agent with
    | none => exact .inl (by simp)
    | some agent =>
        cases known : detector.state with
        | none => exact .inl (by simp)
        | some state =>
            by_cases own : agent = event.agent
            · subst own
              exact .inr ⟨state, rfl, rfl, by simp⟩
            · exact .inl (by simp [own])
  · exact .inl (observeEvent_of_no_hooks hooked)

theorem seed_clear (wellFormed : detector.WellFormed) (unnamed : detector.Unnamed)
    (agent : AgentKind) :
    (detector.seed agent).agent = some agent ∧ (detector.seed agent).state = some .unknown ∧
      (detector.seed agent).sessionId = none ∧ (detector.seed agent).promptId = none ∧
      (detector.seed agent).detail = none ∧ (detector.seed agent).programStatus = false ∧
      (detector.seed agent).resume = detector.resume := by
  rcases wellFormed.absent unnamed.1 with ⟨session, prompt, detail, reports, _⟩
  rw [seed_of_unnamed unnamed]
  exact ⟨rfl, rfl, session, prompt, detail, reports, rfl⟩

theorem observeEvent_tracks_iff (wellFormed : detector.WellFormed) (event : AgentEvent) :
    Tracks detector.snapshot (detector.observeEvent event) ↔ detector.Announces (.event event) := by
  by_cases unnamed : detector.Unnamed
  · by_cases hooked : event.agent.spec.hooks.isSome
    · rcases seed_clear wellFormed unnamed event.agent with
        ⟨tracked, known, session, prompt, detail, reports, _⟩
      rw [observeEvent_of_unnamed unnamed hooked, snapshot_none unnamed.1]
      rcases observeOwnEvent_cases (detector.seed event.agent) event.agent .unknown
        event with ⟨late, _⟩ | ⟨promptId, restoring, resume, _, commits⟩
      · exact absurd late (observePrompt_of_no_prompt prompt _ _)
      · rw [commits, commit_tracks_none_iff
          { detector.seed event.agent with promptId, restoring, resume } tracked known]
        simp only [Announces, unnamed, hooked, forall_const, eventState, eventSession, eventDetail,
          reports, session, detail, Bool.false_eq_true, if_false, ite_self, Option.or_none]
        cases event.sessionId with
        | some id => simp
        | none =>
            by_cases speaks : event.apply .unknown = .unknown
            · simp [speaks]
            · simp [speaks]
    · rw [observeEvent_of_no_hooks hooked]
      simp [Tracks, follow, Announces, hooked]
  · simp only [Announces, unnamed, false_implies, iff_true]
    rcases observeEvent_of_named event unnamed with same | ⟨state, tracked, known, own⟩
    · rw [same]
      rfl
    · rw [own]
      exact observeOwnEvent_tracks tracked known

theorem observeEvent_wellFormed (wellFormed : detector.WellFormed) (event : AgentEvent) :
    (detector.observeEvent event).1.WellFormed := by
  by_cases unnamed : detector.Unnamed
  · by_cases hooked : event.agent.spec.hooks.isSome
    · have seeded := seed_clear wellFormed unnamed event.agent
      rw [observeEvent_of_unnamed unnamed hooked]
      exact observeOwnEvent_wellFormed (seed_wellFormed wellFormed event.agent) seeded.1 seeded.2.1
    · rw [observeEvent_of_no_hooks hooked]
      exact wellFormed
  · rcases observeEvent_of_named event unnamed with same | ⟨state, tracked, known, own⟩
    · rw [same]
      exact wellFormed
    · rw [own]
      exact observeOwnEvent_wellFormed wellFormed tracked known

theorem observeEvent_resumesAgent_iff (wellFormed : detector.WellFormed)
    (resumes : detector.ResumesAgent) (event : AgentEvent) :
    (detector.observeEvent event).1.ResumesAgent ↔ detector.KeepsResume (.event event) := by
  by_cases unnamed : detector.Unnamed
  · by_cases hooked : event.agent.spec.hooks.isSome
    · rcases seed_clear wellFormed unnamed event.agent with
        ⟨tracked, known, session, prompt, _, _, resume⟩
      rw [observeEvent_of_unnamed unnamed hooked]
      simp only [ResumesAgent, observeOwnEvent_agent, tracked, observeOwnEvent_resume prompt,
        KeepsResume, unnamed, hooked, forall_const, resume]
      by_cases names : namesConversation event
      · simp only [names, if_true, true_or, iff_true]
        rintro agent after ⟨rfl⟩ recorded
        rcases Option.map_eq_some_iff.mp (Option.some.inj recorded) with ⟨_, _, rfl⟩
        rfl
      · simp only [names, Bool.false_eq_true, if_false, false_or]
        constructor
        · intro left resume recorded
          exact left event.agent resume rfl recorded
        · rintro kept agent resume ⟨rfl⟩ recorded
          exact kept resume recorded
    · rw [observeEvent_of_no_hooks hooked]
      simp [KeepsResume, hooked, resumes]
  · simp only [KeepsResume, unnamed, false_implies, iff_true]
    rcases observeEvent_of_named event unnamed with same | ⟨state, tracked, known, own⟩
    · rw [same]
      exact resumes
    · rw [own]
      exact observeOwnEvent_resumesAgent resumes tracked

/-! ## Status reports -/

/-- The detector a status report is committed to, once the reporter had its chance to name
the agent. -/
def statusSeeded (detector : AgentDetector) (status : ProgramStatus) : AgentDetector :=
  match reporter status with
  | some (some reporter) => detector.seed reporter
  | _ => detector

theorem statusSeeded_cases (detector : AgentDetector) (status : ProgramStatus) :
    (detector.statusSeeded status = detector ∧
        (detector.Unnamed → ∀ agent, reporter status ≠ some (some agent))) ∨
      detector.Unnamed ∧ ∃ agent, reporter status = some (some agent) ∧
        detector.statusSeeded status = detector.seed agent := by
  by_cases unnamed : detector.Unnamed
  · cases found : reporter status with
    | none => exact .inl ⟨by simp [statusSeeded, found], by simp⟩
    | some named =>
        cases named with
        | none => exact .inl ⟨by simp [statusSeeded, found], by simp⟩
        | some agent => exact .inr ⟨unnamed, agent, rfl, by simp [statusSeeded, found]⟩
  · refine .inl ⟨?_, fun holds => absurd holds unnamed⟩
    unfold statusSeeded
    split
    · exact seed_of_not_unnamed unnamed _
    · rfl

/-- A report changes nothing beyond the name it gave, or commits its state. -/
theorem observeStatus_cases (detector : AgentDetector) {status : ProgramStatus}
    (root : status.id = none) :
    ((∀ agent, (detector.statusSeeded status).agent = some agent →
          (reporter status).any fun reporter => reporter ≠ some agent) ∧
        detector.observeStatus status = (detector.statusSeeded status, .nothing)) ∨
      ∃ agent programStatus, (detector.statusSeeded status).agent = some agent ∧
        detector.observeStatus status =
          { detector.statusSeeded status with programStatus }.commit (statusState status.state)
            (detector.statusSeeded status).sessionId
            (statusDetail status (statusState status.state)) := by
  have idle (unnamed : (detector.statusSeeded status).agent = none) :
      detector.observeStatus status = (detector.statusSeeded status, .nothing) := by
    rcases found : reporter status with _ | _ | reporter
    all_goals
      simp only [statusSeeded, found] at unnamed ⊢
      simp only [observeStatus, root, found, unnamed, Option.isSome_none, Bool.false_eq_true,
        if_false]
  have told (agent : AgentKind) (tracked : (detector.statusSeeded status).agent = some agent) :
      detector.observeStatus status =
        if (reporter status).any fun reporter => reporter ≠ some agent then
          (detector.statusSeeded status, .nothing)
        else
          let reporting :=
            if !(detector.statusSeeded status).programStatus && status.state ≠ .clear then
              { detector.statusSeeded status with programStatus := true }
            else detector.statusSeeded status
          reporting.commit (statusState status.state) reporting.sessionId
            (statusDetail status (statusState status.state)) := by
    rcases found : reporter status with _ | _ | reporter
    all_goals
      simp only [statusSeeded, found] at tracked ⊢
      simp only [observeStatus, root, found, tracked, Option.isSome_none, Bool.false_eq_true,
        if_false]
  cases tracked : (detector.statusSeeded status).agent with
  | none => exact .inl ⟨by simp, idle tracked⟩
  | some agent =>
      rw [told agent tracked]
      by_cases foreign : (reporter status).any fun reporter => reporter ≠ some agent
      · refine .inl ⟨?_, if_pos foreign⟩
        rintro _ ⟨rfl⟩
        exact foreign
      · by_cases starts : (!(detector.statusSeeded status).programStatus &&
            decide (status.state ≠ .clear)) = true
        · exact .inr ⟨agent, true, rfl, by simp only [foreign, starts, if_true]; rfl⟩
        · exact .inr ⟨agent, (detector.statusSeeded status).programStatus, rfl,
            by simp only [foreign, starts]; rfl⟩

theorem statusDetail_allowed (status : ProgramStatus) (state : AgentState)
    (detailed : (statusDetail status state).isSome) : state = .blocked ∨ state = .error := by
  cases state <;> simp_all [statusDetail]

theorem statusSeeded_wellFormed (wellFormed : detector.WellFormed) (status : ProgramStatus) :
    (detector.statusSeeded status).WellFormed := by
  rcases detector.statusSeeded_cases status with ⟨same, _⟩ | ⟨_, agent, _, seeded⟩
  · rw [same]
    exact wellFormed
  · rw [seeded]
    exact seed_wellFormed wellFormed agent

theorem observeStatus_of_child {status : ProgramStatus} (child : status.id ≠ none) :
    detector.observeStatus status = (detector, .nothing) := by
  simp [observeStatus, Option.isSome_iff_ne_none.mpr child]

theorem observeStatus_wellFormed (wellFormed : detector.WellFormed) (status : ProgramStatus) :
    (detector.observeStatus status).1.WellFormed := by
  by_cases root : status.id = none
  · have seeded := statusSeeded_wellFormed wellFormed status
    rcases observeStatus_cases detector root with
      ⟨_, same⟩ | ⟨agent, programStatus, tracked, commits⟩
    · rw [same]
      exact seeded
    · rcases seeded.state_of_agent tracked with ⟨state, known⟩
      rw [commits]
      exact commit_wellFormed { detector.statusSeeded status with programStatus }
        tracked known (statusDetail_allowed status _)
  · rw [observeStatus_of_child root]
    exact wellFormed

theorem statusState_eq_unknown_iff (state : ProgramState) :
    statusState state = .unknown ↔ state = .clear := by
  cases state <;> simp [statusState]

theorem observeStatus_tracks_iff (wellFormed : detector.WellFormed) (status : ProgramStatus) :
    Tracks detector.snapshot (detector.observeStatus status) ↔
      detector.Announces (.status status) := by
  by_cases root : status.id = none
  · rcases detector.statusSeeded_cases status with ⟨same, unreported⟩ | ⟨unnamed, agent, names, seeded⟩
    · have announces : detector.Announces (.status status) :=
        fun unnamed _ agent names => absurd names (unreported unnamed agent)
      simp only [announces, iff_true]
      rcases observeStatus_cases detector root with
        ⟨_, unchanged⟩ | ⟨agent, programStatus, tracked, commits⟩
      · rw [unchanged, same]
        rfl
      · rw [same] at tracked commits
        rcases wellFormed.state_of_agent tracked with ⟨state, known⟩
        rw [commits]
        exact commit_tracks { detector with programStatus } tracked known
    · rcases seed_clear wellFormed unnamed agent with ⟨tracked, known, session, _, detail, _, _⟩
      rcases observeStatus_cases detector root with
        ⟨foreign, _⟩ | ⟨_, programStatus, _, commits⟩
      · rw [seeded] at foreign
        have refused := foreign agent tracked
        simp [names] at refused
      · rw [seeded] at commits
        rw [commits, snapshot_none unnamed.1, commit_tracks_none_iff
          { detector.seed agent with programStatus } tracked known]
        simp only [Announces, unnamed, root, names, forall_const, Option.some.injEq, forall_eq',
          statusState_eq_unknown_iff, true_and, detail, not_and]
        constructor
        · intro changes cleared
          exact changes cleared (by simp [cleared, statusState, statusDetail])
        · intro speaks cleared
          exact absurd cleared speaks
  · rw [observeStatus_of_child root]
    simp [Tracks, follow, Announces, root]

theorem observeStatus_resumesAgent_iff (wellFormed : detector.WellFormed)
    (resumes : detector.ResumesAgent) (status : ProgramStatus) :
    (detector.observeStatus status).1.ResumesAgent ↔ detector.KeepsResume (.status status) := by
  by_cases root : status.id = none
  · have kept : (detector.observeStatus status).1.agent = (detector.statusSeeded status).agent ∧
        (detector.observeStatus status).1.resume = (detector.statusSeeded status).resume := by
      rcases observeStatus_cases detector root with
        ⟨_, same⟩ | ⟨_, programStatus, _, commits⟩
      · rw [same]
        exact ⟨rfl, rfl⟩
      · rw [commits, commit_agent, commit_resume]
        exact ⟨rfl, rfl⟩
    simp only [ResumesAgent, kept.1, kept.2]
    rcases detector.statusSeeded_cases status with ⟨same, unreported⟩ | ⟨unnamed, agent, names, seeded⟩
    · have keeps : detector.KeepsResume (.status status) :=
        fun unnamed _ agent names => absurd names (unreported unnamed agent)
      simp only [keeps, iff_true, same]
      exact resumes
    · rcases seed_clear wellFormed unnamed agent with ⟨tracked, _, _, _, _, _, resume⟩
      simp only [seeded, tracked, resume, KeepsResume, unnamed, root, names, forall_const,
        Option.some.injEq, forall_eq']
      constructor
      · intro left after recorded
        exact left agent after rfl recorded
      · rintro keeps _ after rfl recorded
        exact keeps after recorded
  · rw [observeStatus_of_child root]
    simp [KeepsResume, root, resumes]

/-! ## Process probes, prompts and resets -/

theorem observeProcess_tracks (wellFormed : detector.WellFormed) (result : ProcessProbeResult)
    (now : Instant) : Tracks detector.snapshot (detector.observeProcess result now) := by
  have absence (result : ProcessProbeResult) (probed : AgentDetector)
      (same : probed.snapshot = detector.snapshot)
      (absent : probed.agent = none → probed.state = none) :
      Tracks detector.snapshot (probed.observeAbsence result now) := by
    unfold observeAbsence
    split
    · next gone => exact same.symm
    · extract_lets misses exited
      split
      · rfl
      · exact same.symm
  cases result with
  | agent agent =>
      simp only [observeProcess, observeAgent]
      split
      · rfl
      · rfl
  | shellOnly => exact absence .shellOnly _ rfl wellFormed.state_none
  | unidentified => exact absence .unidentified _ rfl wellFormed.state_none

theorem observeAbsence_wellFormed (wellFormed : detector.WellFormed) (result : ProcessProbeResult)
    (now : Instant) : (detector.observeAbsence result now).1.WellFormed := by
  unfold observeAbsence
  split
  · exact ⟨wellFormed.present, wellFormed.absent, wellFormed.detailed⟩
  · extract_lets misses exited
    split
    · exact ⟨rfl, fun _ => ⟨rfl, rfl, rfl, rfl, rfl⟩, fun detailed => absurd detailed (by simp)⟩
    · exact ⟨wellFormed.present, wellFormed.absent, wellFormed.detailed⟩

theorem observeProcess_wellFormed (wellFormed : detector.WellFormed) (result : ProcessProbeResult)
    (now : Instant) : (detector.observeProcess result now).1.WellFormed := by
  have probed : { detector with lastProcessProbe := some now, lastProbe := some result }.WellFormed :=
    ⟨wellFormed.present, wellFormed.absent, wellFormed.detailed⟩
  cases result with
  | agent agent =>
      simp only [observeProcess, observeAgent]
      split
      · next tracked => exact ⟨wellFormed.present, by simp [tracked], wellFormed.detailed⟩
      · exact ⟨rfl, by simp, by simp⟩
  | shellOnly => exact observeAbsence_wellFormed probed .shellOnly now
  | unidentified => exact observeAbsence_wellFormed probed .unidentified now

theorem observeAbsence_resumesAgent (resumes : detector.ResumesAgent) (result : ProcessProbeResult)
    (now : Instant) : (detector.observeAbsence result now).1.ResumesAgent := by
  unfold observeAbsence
  split
  · exact resumes
  · extract_lets misses exited
    split
    · intro agent resume tracked
      cases tracked
    · exact resumes

theorem observeProcess_resumesAgent (resumes : detector.ResumesAgent) (result : ProcessProbeResult)
    (now : Instant) : (detector.observeProcess result now).1.ResumesAgent := by
  have probed : { detector with lastProcessProbe := some now, lastProbe := some result }.ResumesAgent :=
    resumes
  cases result with
  | agent agent =>
      simp only [observeProcess, observeAgent]
      split
      · exact resumes
      · rintro _ resume ⟨rfl⟩ recorded
        rcases Option.map_eq_some_iff.mp (Option.some.inj recorded) with ⟨_, _, rfl⟩
        rfl
  | shellOnly => exact observeAbsence_resumesAgent probed .shellOnly now
  | unidentified => exact observeAbsence_resumesAgent probed .unidentified now

/-- A prompt or a reset leaves the detector as it is, or commits `unknown` for the tracked
agent. -/
theorem observe_stale_cases (wellFormed : detector.WellFormed) {observation : Observation}
    (stale : observation = .promptStart ∨ observation = .reset) :
    detector.observe observation = (detector, .nothing) ∨
      ∃ agent state programStatus, detector.agent = some agent ∧ detector.state = some state ∧
        detector.observe observation =
          { detector with programStatus }.commit .unknown detector.sessionId none := by
  by_cases reports : detector.programStatus = true
  · have tracked : ∃ agent, detector.agent = some agent := by
      cases tracked : detector.agent with
      | some agent => exact ⟨agent, rfl⟩
      | none => simp [(wellFormed.absent tracked).2.2.2.1] at reports
    rcases tracked with ⟨agent, tracked⟩
    rcases wellFormed.state_of_agent tracked with ⟨state, known⟩
    rcases stale with rfl | rfl
    · by_cases active : detector.state = some .working ∨ detector.state = some .blocked
      · refine .inr ⟨agent, state, detector.programStatus, tracked, known, ?_⟩
        simp only [observe, observePromptStart, reports]
        rw [if_neg (by simpa [or_iff_not_imp_left] using active)]
        simp [← reports]
      · refine .inl ?_
        simp only [observe, observePromptStart, reports]
        rw [if_pos (by simpa [not_or] using active)]
    · exact .inr ⟨agent, state, false, tracked, known, by simp [observe, observeReset, reports]⟩
  · rcases stale with rfl | rfl
    · exact .inl (by simp [observe, observePromptStart, reports])
    · exact .inl (by simp [observe, observeReset, reports])

/-! ## One step -/

theorem observe_wellFormed (wellFormed : detector.WellFormed) (observation : Observation) :
    (detector.observe observation).1.WellFormed := by
  have stale (stale : observation = .promptStart ∨ observation = .reset) :
      (detector.observe observation).1.WellFormed := by
    rcases observe_stale_cases wellFormed stale with
      same | ⟨agent, state, programStatus, tracked, known, commits⟩
    · rw [same]
      exact wellFormed
    · rw [commits]
      exact commit_wellFormed { detector with programStatus } tracked known (by simp)
  cases observation with
  | restore resume => exact ⟨wellFormed.present, wellFormed.absent, wellFormed.detailed⟩
  | process result now => exact observeProcess_wellFormed wellFormed result now
  | event event => exact observeEvent_wellFormed wellFormed event
  | status status => exact observeStatus_wellFormed wellFormed status
  | promptStart => exact stale (.inl rfl)
  | reset => exact stale (.inr rfl)

theorem observe_tracks_iff (wellFormed : detector.WellFormed) (observation : Observation) :
    Tracks detector.snapshot (detector.observe observation) ↔ detector.Announces observation := by
  have stale (stale : observation = .promptStart ∨ observation = .reset) :
      Tracks detector.snapshot (detector.observe observation) := by
    rcases observe_stale_cases wellFormed stale with
      same | ⟨agent, state, programStatus, tracked, known, commits⟩
    · rw [same]
      rfl
    · rw [commits]
      exact commit_tracks { detector with programStatus } tracked known
  cases observation with
  | restore resume => exact iff_of_true rfl trivial
  | process result now => exact iff_of_true (observeProcess_tracks wellFormed result now) trivial
  | event event => exact observeEvent_tracks_iff wellFormed event
  | status status => exact observeStatus_tracks_iff wellFormed status
  | promptStart => exact iff_of_true (stale (.inl rfl)) trivial
  | reset => exact iff_of_true (stale (.inr rfl)) trivial

theorem observe_resumesAgent_iff (wellFormed : detector.WellFormed)
    (resumes : detector.ResumesAgent) (observation : Observation) :
    (detector.observe observation).1.ResumesAgent ↔ detector.KeepsResume observation := by
  have stale (stale : observation = .promptStart ∨ observation = .reset) :
      (detector.observe observation).1.ResumesAgent := by
    rcases observe_stale_cases wellFormed stale with
      same | ⟨agent, state, programStatus, tracked, known, commits⟩
    · rw [same]
      exact resumes
    · intro now resume
      rw [commits, commit_agent, commit_resume]
      exact resumes now resume
  cases observation with
  | restore resume =>
      constructor
      · intro left agent tracked
        exact left agent resume tracked rfl
      · rintro keeps agent _ tracked ⟨rfl⟩
        exact keeps agent tracked
  | process result now => exact iff_of_true (observeProcess_resumesAgent resumes result now) trivial
  | event event => exact observeEvent_resumesAgent_iff wellFormed resumes event
  | status status => exact observeStatus_resumesAgent_iff wellFormed resumes status
  | promptStart => exact iff_of_true (stale (.inl rfl)) trivial
  | reset => exact iff_of_true (stale (.inr rfl)) trivial

end AgentDetector

/-! ## Runs -/

/-- A detector and whoever follows what it publishes. -/
structure FollowedDetector where
  detector : AgentDetector
  followed : Option AgentSnapshot
deriving DecidableEq

namespace FollowedDetector

def initial : FollowedDetector := ⟨.new, none⟩

def step (state : FollowedDetector) (observation : Observation) : FollowedDetector :=
  let result := state.detector.observe observation
  ⟨result.1, follow state.followed result.2⟩

/-- Followers know the agent the detector tracks, and its fields fit each other. -/
structure Agrees (state : FollowedDetector) : Prop where
  followed : state.followed = state.detector.snapshot
  wellFormed : state.detector.WellFormed
  resumes : state.detector.ResumesAgent

theorem agrees_initial : initial.Agrees where
  followed := rfl
  wellFormed := AgentDetector.wellFormed_new
  resumes _ _ tracked := nomatch tracked

/-- From a state that agrees, a call leads to one that does exactly when what it names is
announced and no other agent's resume stays. -/
theorem step_agrees_iff {state : FollowedDetector} (agrees : state.Agrees)
    (observation : Observation) :
    (state.step observation).Agrees ↔
      state.detector.Announces observation ∧ state.detector.KeepsResume observation := by
  rw [← AgentDetector.observe_tracks_iff agrees.wellFormed,
    ← AgentDetector.observe_resumesAgent_iff agrees.wellFormed agrees.resumes]
  constructor
  · intro after
    have followed := after.followed
    simp only [step, agrees.followed] at followed
    exact ⟨followed, after.resumes⟩
  · rintro ⟨tracks, resumes⟩
    refine ⟨?_, AgentDetector.observe_wellFormed agrees.wellFormed observation, resumes⟩
    simp only [step, agrees.followed]
    exact tracks

end FollowedDetector

/-- Every state of a run of calls on a new detector agrees with its followers exactly when
each report that names the agent says something of it that is published, and each call
leaves no other agent's resume behind. -/
theorem agent_detector_agrees_iff (observations : List Observation) :
    (∀ taken, taken <+: observations →
        (Runs.run FollowedDetector.step .initial taken).Agrees) ↔
      Runs.Each FollowedDetector.step (fun state observation =>
        state.detector.Announces observation ∧ state.detector.KeepsResume observation)
        .initial observations :=
  Runs.forall_prefix_iff_each (fun _ agrees => agrees)
    (fun _ observation agrees => (FollowedDetector.step_agrees_iff agrees observation).mpr)
    (fun _ observation agrees => (FollowedDetector.step_agrees_iff agrees observation).mp)
    FollowedDetector.agrees_initial

/-- A `clear` by a program behind a wrapper makes it the tracked agent, and nobody hears of
it; a turn of another agent than the restored one keeps the restored one's resume. -/
theorem detector_names_unheard_agent :
    ¬(Runs.run FollowedDetector.step .initial
        [.process .unidentified 0, .status ⟨.clear, none, none, some "claude", none⟩]).Agrees ∧
      ¬(Runs.run FollowedDetector.step .initial
        [.restore ⟨.claude, "thread-1"⟩, .process .unidentified 0,
          .event ⟨.codex, .promptSubmit, none, none, none, none⟩]).Agrees := by
  constructor
  · intro agrees
    exact absurd agrees.followed (by decide +kernel)
  · intro agrees
    have resumes := agrees.resumes .codex ⟨.claude, "thread-1"⟩ (by decide +kernel)
      (by decide +kernel)
    cases resumes

end Condr
