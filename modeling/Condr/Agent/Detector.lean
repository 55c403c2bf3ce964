import Condr.Agent.Spec

/-!
# The agent detector

Per-terminal agent tracking: which agent the process table shows and the state it last
reported. Hooks and the Program Status Protocol report the state; a process probe names
the agent, announces it and clears it. Every observation says what to publish.
-/

namespace Condr

/-- What an agent last said it is doing. -/
inductive AgentState where
  /-- Plain shell or unrecognized program, or the agent has not reported yet. -/
  | unknown
  | idle
  | working
  | blocked
  | done
  | error
deriving DecidableEq

structure AgentSnapshot where
  sessionId : Option String
  kind : AgentKind
  state : AgentState
  detail : Option String
deriving DecidableEq

inductive AgentEventKind where
  | sessionStart
  | promptSubmit
  | permissionRequest
  | questionAsked
  | toolStart
  | toolComplete
  | stop
  | interrupt
  | stopFailure
deriving DecidableEq

structure AgentEvent where
  agent : AgentKind
  event : AgentEventKind
  /-- Why a session started; only `compact` matters, because it happens mid-turn. -/
  source : Option String
  sessionId : Option String
  promptId : Option String
  detail : Option String
deriving DecidableEq

/-- The state after this event, from `state`. -/
def AgentEvent.apply (event : AgentEvent) (state : AgentState) : AgentState :=
  match event.event with
  | .sessionStart => if event.source = some "compact" then state else .idle
  | .interrupt => .idle
  | .stop => .done
  | .stopFailure => .error
  | .promptSubmit | .toolStart | .toolComplete => .working
  | .permissionRequest | .questionAsked => .blocked

/-- The event starts a session anew rather than in the middle of a turn. -/
def AgentEvent.startsSession (event : AgentEvent) : Bool :=
  event.event = .sessionStart && event.source ≠ some "compact"

inductive ProgramState where
  | idle
  | working
  | done
  | blocked
  | error
  /-- Not a state: delete the addressed record and its descendants. -/
  | clear
deriving DecidableEq

inductive BlockedKind where
  | permission
  | question
  | auth
deriving DecidableEq

def BlockedKind.label : BlockedKind → String
  | permission => "Permission"
  | question => "Question"
  | auth => "Login"

/-- A validated report of the Program Status Protocol. -/
structure ProgramStatus where
  state : ProgramState
  /-- The record addressed; `none` is the root record. -/
  id : Option String
  kind : Option BlockedKind
  app : Option String
  msg : Option String
deriving DecidableEq

/-- What the process probe saw in the terminal's job. -/
inductive ProcessProbeResult where
  | agent (kind : AgentKind)
  /-- Only the shell itself is left: an agent that was here has exited. -/
  | shellOnly
  /-- Other processes run, none of them a known agent. -/
  | unidentified
deriving DecidableEq

/-- What the detector wants published after an observation. -/
inductive AgentPublish where
  | nothing
  | snapshot (snapshot : AgentSnapshot)
  /-- The agent is gone; the Pane is a plain shell again. -/
  | cleared
deriving DecidableEq

/-- Milliseconds on the monotonic clock. -/
abbrev Instant := ℕ

def agentMissConfirmationAttempts : ℕ := 6

structure AgentDetector where
  agent : Option AgentKind := none
  state : Option AgentState := none
  sessionId : Option String := none
  promptId : Option String := none
  detail : Option String := none
  /-- The agent reports through the Program Status Protocol. -/
  programStatus : Bool := false
  /-- No observation yet, cleared, or the current native conversation. -/
  resume : Option (Option AgentResume) := none
  restoring : Option AgentResume := none
  /-- The agent was named by its own events, not the process table. -/
  seeded : Bool := false
  lastProbe : Option ProcessProbeResult := none
  consecutiveMisses : ℕ := 0
  lastProcessProbe : Option Instant := none
  lastActivity : Option Instant := none
  acquisitionStarted : Option Instant := none
deriving DecidableEq

namespace AgentDetector

def new : AgentDetector := {}

/-- Seeds only the process about to be resumed. -/
def restore (detector : AgentDetector) (resume : AgentResume) : AgentDetector :=
  { detector with resume := some (some resume), restoring := some resume }

/-- Feeds a probe that shows a known agent. -/
def observeAgent (detector : AgentDetector) (agent : AgentKind) : AgentDetector × AgentPublish :=
  let detector := { detector with consecutiveMisses := 0 }
  if detector.agent = some agent then ({ detector with seeded := false }, .nothing)
  else
    let sessionId := (detector.restoring.filter fun resume => resume.kind = agent).map
      AgentResume.sessionId
    ({ detector with
        agent := some agent
        promptId := none
        detail := none
        programStatus := false
        restoring := none
        sessionId
        resume := some (sessionId.map fun id => ⟨agent, id⟩)
        seeded := false
        state := some .unknown },
      .snapshot { sessionId, kind := agent, state := .unknown, detail := none })

/-- Feeds a probe that shows no known agent. -/
def observeAbsence (detector : AgentDetector) (result : ProcessProbeResult) (now : Instant) :
    AgentDetector × AgentPublish :=
  if detector.agent.isNone then ({ detector with consecutiveMisses := 0 }, .nothing)
  else
    let misses :=
      -- A seeded agent is expected to be invisible in the table.
      if result = .shellOnly || detector.seeded then detector.consecutiveMisses
      else min 255 (detector.consecutiveMisses + 1)
    let exited :=
      result = .shellOnly || (!detector.seeded && agentMissConfirmationAttempts ≤ misses)
    if exited then
      ({ detector with
          agent := none
          sessionId := none
          promptId := none
          detail := none
          programStatus := false
          resume := some none
          restoring := none
          state := none
          seeded := false
          consecutiveMisses := 0
          acquisitionStarted := some now },
        .cleared)
    else ({ detector with consecutiveMisses := misses }, .nothing)

/-- Feeds a process probe: a fresh agent is announced as `unknown`, an exited one is
cleared. -/
def observeProcess (detector : AgentDetector) (result : ProcessProbeResult) (now : Instant) :
    AgentDetector × AgentPublish :=
  let detector := { detector with lastProcessProbe := some now, lastProbe := some result }
  match result with
  | .agent agent => detector.observeAgent agent
  | .shellOnly | .unidentified => detector.observeAbsence result now

/-- No agent is tracked and the process table shows a job Condr cannot name, so that a
report names the agent. -/
def Unnamed (detector : AgentDetector) : Prop :=
  detector.agent = none ∧ detector.lastProbe = some .unidentified

instance (detector : AgentDetector) : Decidable detector.Unnamed :=
  inferInstanceAs (Decidable (_ ∧ _))

/-- Names the agent from its own report when the process table shows a foreground job
Condr cannot name. Whether there is an agent afterwards is `agent.isSome` of the result. -/
def seed (detector : AgentDetector) (reporter : AgentKind) : AgentDetector :=
  if detector.Unnamed then
    { detector with agent := some reporter, seeded := true, state := some .unknown }
  else detector

/-- Publishes the snapshot when anything in it changed. -/
def commit (detector : AgentDetector) (next : AgentState) (sessionId detail : Option String) :
    AgentDetector × AgentPublish :=
  match detector.agent, detector.state with
  | some agent, some state =>
      if next = state ∧ sessionId = detector.sessionId ∧ detail = detector.detail then
        (detector, .nothing)
      else
        ({ detector with state := some next, sessionId, detail },
          .snapshot { sessionId, kind := agent, state := next, detail })
  | _, _ => (detector, .nothing)

/-- The turn an event belongs to; `none` when the event is a late one of another turn. -/
def observePrompt (detector : AgentDetector) (agent : AgentKind) (event : AgentEvent) :
    Option AgentDetector :=
  if agent.spec.hooks.any HookSpec.promptIds then
    match event.event with
    | .sessionStart => some { detector with promptId := none }
    | .promptSubmit => some { detector with promptId := event.promptId }
    | _ =>
        if event.promptId.isSome && detector.promptId.isSome &&
            (event.promptId ≠ detector.promptId ||
              event.sessionId.any fun id => some id ≠ detector.sessionId) then none
        else some detector
  else some detector

/-- Records the conversation an event names. -/
def observeConversation (detector : AgentDetector) (agent : AgentKind) (event : AgentEvent)
    (sessionId : Option String) : AgentDetector :=
  if event.sessionId.isSome || event.startsSession then
    { detector with
      restoring := none
      resume := some (sessionId.map fun id => ⟨agent, id⟩) }
  else detector

/-- The part of `observe_event` after the reporter was found to be the Pane's agent. -/
def observeOwnEvent (detector : AgentDetector) (agent : AgentKind) (state : AgentState)
    (event : AgentEvent) : AgentDetector × AgentPublish :=
  match detector.observePrompt agent event with
  | none => (detector, .nothing)
  | some detector =>
      let sessionId := event.sessionId.or (if event.startsSession then none else detector.sessionId)
      let detector := detector.observeConversation agent event sessionId
      if detector.programStatus then
        detector.commit state sessionId detector.detail
      else
        let next := event.apply state
        -- What blocks is only what the blocking event said.
        detector.commit next sessionId (if next = .blocked then event.detail else none)

/-- Feeds a hook event. -/
def observeEvent (detector : AgentDetector) (event : AgentEvent) :
    AgentDetector × AgentPublish :=
  if event.agent.spec.hooks.isNone then (detector, .nothing)
  else
    let detector := detector.seed event.agent
    match detector.agent, detector.state with
    | some agent, some state =>
        if agent ≠ event.agent then (detector, .nothing)
        else detector.observeOwnEvent agent state event
    | _, _ => (detector, .nothing)

def statusState : ProgramState → AgentState
  | .idle => .idle
  | .working => .working
  | .done => .done
  | .blocked => .blocked
  | .error => .error
  | .clear => .unknown

def statusDetail (status : ProgramStatus) : AgentState → Option String
  | .blocked => status.msg.or (status.kind.map BlockedKind.label)
  | .error => status.msg
  | _ => none

/-- The agent a report names with its `app`, where it names one. -/
def reporter (status : ProgramStatus) : Option (Option AgentKind) :=
  status.app.map AgentKind.parseLabel

/-- Feeds a Program Status Protocol report. The root record is the agent; a child record
is ignored. -/
def observeStatus (detector : AgentDetector) (status : ProgramStatus) :
    AgentDetector × AgentPublish :=
  if status.id.isSome then (detector, .nothing)
  else
    let detector :=
      match reporter status with
      | some (some reporter) => detector.seed reporter
      | _ => detector
    match detector.agent with
    | none => (detector, .nothing)
    | some agent =>
        if (reporter status).any fun reporter => reporter ≠ some agent then (detector, .nothing)
        else
          -- A bare `clear` from one that never reported leaves its hooks speaking.
          let detector :=
            if !detector.programStatus && status.state ≠ .clear then
              { detector with programStatus := true }
            else detector
          let next := statusState status.state
          detector.commit next detector.sessionId (statusDetail status next)

/-- A new shell prompt: a `working` or `blocked` record is stale. -/
def observePromptStart (detector : AgentDetector) : AgentDetector × AgentPublish :=
  if !detector.programStatus || !(detector.state = some .working || detector.state = some .blocked)
  then (detector, .nothing)
  else detector.commit .unknown detector.sessionId none

/-- A full reset removes every record. -/
def observeReset (detector : AgentDetector) : AgentDetector × AgentPublish :=
  if !detector.programStatus then (detector, .nothing)
  else { detector with programStatus := false }.commit .unknown detector.sessionId none

end AgentDetector

end Condr
