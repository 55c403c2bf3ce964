import Condr.Agent.Event
import Condr.Foundation.Json
import Mathlib.Data.List.DropRight
import Mathlib.Data.List.Infix
import Mathlib.Data.String.Basic

/-!
# Hooks in an agent's configuration

Merging Condr's hooks into a JSON map beside the person's own. Two formats hold the map under
`hooks`: one whose events list groups of hooks, and one whose events list the hooks themselves.
What Condr wrote is recognised by the command it runs, whichever `condr` wrote it.
-/

namespace Condr

/-- What runs a nested map's command line on Windows. -/
inductive HookShell where
  | plain
  | powerShell
  /-- PowerShell, unless this environment variable selects Git Bash or cmd. -/
  | powerShellUnless (name : String)
deriving DecidableEq

def hookTimeoutSecs : ℕ := 5

/-- One native hook event and what it reports as. -/
structure HookEntry where
  native : String
  event : AgentEventKind
  matcher : Option String
  timeoutSecs : ℕ
deriving DecidableEq

def HookEntry.entry (native : String) (event : AgentEventKind) : HookEntry where
  native := native
  event := event
  matcher := none
  timeoutSecs := hookTimeoutSecs

/-- The formats that keep the person's own entries beside Condr's. -/
inductive MapFormat where
  | nestedMap (events : List HookEntry) (shell : HookShell)
  /-- `exec` writes the executable and its arguments apart instead of a command line. -/
  | flatList (events : List HookEntry) (exec : Bool)
deriving DecidableEq

def MapFormat.events : MapFormat → List HookEntry
  | nestedMap events _ => events
  | flatList events _ => events

/-! ## The agents whose hooks live in a map -/

section Tables

open HookEntry

def claudeHooks : List HookEntry :=
  [entry "SessionStart" .sessionStart,
    entry "UserPromptSubmit" .promptSubmit,
    entry "PermissionRequest" .permissionRequest,
    { entry "Notification" .permissionRequest with
      matcher := some "permission_prompt|elicitation_dialog" },
    entry "PreToolUse" .toolStart,
    entry "PostToolUse" .toolComplete,
    entry "Stop" .stop,
    entry "StopFailure" .stopFailure]

def codexHooks : List HookEntry :=
  [entry "SessionStart" .sessionStart,
    entry "UserPromptSubmit" .promptSubmit,
    entry "PermissionRequest" .permissionRequest,
    entry "PreToolUse" .toolStart,
    entry "PostToolUse" .toolComplete,
    entry "Stop" .stop,
    -- Codex clamps Interrupt hooks to 3 s.
    { entry "Interrupt" .interrupt with timeoutSecs := 3 }]

def grokHooks : List HookEntry :=
  [entry "SessionStart" .sessionStart,
    entry "UserPromptSubmit" .promptSubmit,
    entry "PreToolUse" .toolStart,
    entry "PostToolUse" .toolComplete,
    entry "PostToolUseFailure" .toolComplete,
    { entry "Notification" .permissionRequest with matcher := some "permission_prompt" },
    { entry "Notification" .stop with matcher := some "idle_prompt" },
    entry "Stop" .stop,
    entry "StopFailure" .stopFailure,
    entry "StopCancelled" .interrupt]

def cursorHooks : List HookEntry :=
  [entry "sessionStart" .sessionStart,
    entry "beforeSubmitPrompt" .promptSubmit,
    entry "preToolUse" .toolStart,
    entry "postToolUse" .toolComplete,
    entry "postToolUseFailure" .toolComplete,
    entry "stop" .stop]

def copilotHooks : List HookEntry :=
  [entry "sessionStart" .sessionStart,
    entry "userPromptSubmitted" .promptSubmit,
    entry "preToolUse" .toolStart,
    entry "postToolUse" .toolComplete,
    entry "postToolUseFailure" .toolComplete,
    { entry "notification" .permissionRequest with
      matcher := some "permission_prompt|elicitation_dialog" },
    entry "agentStop" .stop]

end Tables

/-- The other agents have a plugin or a script of Condr's own, or no hooks. -/
def AgentKind.mapFormat : AgentKind → Option MapFormat
  | claude => some (.nestedMap claudeHooks .plain)
  | codex => some (.nestedMap codexHooks .powerShell)
  | grok => some (.nestedMap grokHooks (.powerShellUnless "GROK_SHELL"))
  | cursor => some (.flatList cursorHooks false)
  | copilot => some (.flatList copilotHooks true)
  | _ => none

/-! ## What Condr writes -/

/-- The machine hooks are installed on, and how a hook names its `condr`: a bare name when PATH
resolves it, otherwise the quoted absolute path. -/
structure HookTarget where
  command : String
  windows : Bool
  environment : String → Option String

namespace HookTarget

/-- The executable as a single shell word, for a runtime that does its own quoting. -/
def executable (target : HookTarget) : String :=
  String.ofList ((target.command.toList.dropWhile (· = '"')).rdropWhile (· = '"'))

def hookCommand (target : HookTarget) (agent : AgentKind) (event : AgentEventKind)
    (shell : HookShell) : String :=
  -- PowerShell needs the call operator before a quoted path.
  let powerShell :=
    match shell with
    | .plain => false
    | .powerShell => true
    | .powerShellUnless name =>
        !(target.environment name).any fun choice =>
          (trim choice).toLower ∈ ["bash", "gitbash", "git-bash", "cmd", "cmd.exe"]
  let call :=
    if target.windows && powerShell && target.command.toList.head? = some '"' then "& " else ""
  call ++ target.command ++ " agent-hook " ++ agent.spec.id ++ " " ++ event.name

end HookTarget

/-- What marks a hook command as Condr's, whichever `condr` wrote it. -/
def marker (agent : AgentKind) : String := " agent-hook " ++ agent.spec.id ++ " "

def isOurs (agent : AgentKind) (hook : Json) : Bool :=
  (match (hook.get "command").bind Json.asStr with
    | some command => (marker agent).toList <:+: command.toList
    | none => false) ||
  match hook.arrayField "args" with
  | some (.string first :: .string second :: _) => first == "agent-hook" && second == agent.spec.id
  | _ => false

/-- What Condr installs for one entry of a nested map or flat list. -/
def mapItem (target : HookTarget) (agent : AgentKind) (format : MapFormat) (entry : HookEntry) :
    Json :=
  let fields :=
    match format with
    | .nestedMap _ shell =>
        [("hooks", .array [.object [
          ("type", .string "command"),
          ("command", .string (target.hookCommand agent entry.event shell)),
          ("timeout", .number (.int entry.timeoutSecs))]])]
    | .flatList _ true =>
        [("type", .string "command"),
          ("exec", .string target.executable),
          ("args", .array
            [.string "agent-hook", .string agent.spec.id, .string entry.event.name]),
          ("timeoutSec", .number (.int entry.timeoutSecs))]
    | .flatList _ false =>
        [("command", .string (target.hookCommand agent entry.event .plain)),
          ("timeout", .number (.int entry.timeoutSecs))]
  match entry.matcher with
  | some matcher => .object (Entries.set "matcher" (.string matcher) fields)
  | none => .object fields

/-! ## Taking Condr's hooks out -/

/-- A group without Condr's hooks. -/
def stripGroup (agent : AgentKind) : Json → Json
  | .object fields =>
      match Entries.get "hooks" fields with
      | some (.array nested) =>
          .object (Entries.set "hooks" (.array (nested.filter fun hook => !isOurs agent hook)) fields)
      | _ => .object fields
  | item => item

/-- An item that is not Condr's, and no group that emptied. -/
def keepsItem (agent : AgentKind) (item : Json) : Bool :=
  !isOurs agent item && (item.arrayField "hooks").all fun nested => !nested.isEmpty

def stripItems (agent : AgentKind) : Json → Json
  | .array items => .array ((items.map (stripGroup agent)).filter (keepsItem agent))
  | value => value

/-- Drops Condr's hooks from every group of every event, and the groups that emptied. -/
def stripOurs (agent : AgentKind) (map : JsonMap) : JsonMap :=
  Entries.mapValues (stripItems agent) map

/-- An event that lists something, or is no list. -/
def keepsEvent (items : Json) : Bool := items.asArray.all fun items => !items.isEmpty

/-! ## Installing and uninstalling -/

def Install.invalid (path detail : String) : String := path ++ ": " ++ detail

def isOne : Json → Bool
  | .number (.int value) => value == 1
  | _ => false

/-- A flat list names its version. -/
def MapFormat.versioned (format : MapFormat) (path : String) (root : JsonMap) :
    Except String JsonMap :=
  match format with
  | nestedMap _ _ => .ok root
  | flatList _ _ =>
      if (Entries.get "version" root).any fun version => !isOne version then
        .error (Install.invalid path "unsupported hooks configuration version")
      else .ok (Entries.set "version" (.number (.int 1)) root)

/-- The root with a map of hooks in it, and the map. -/
def hooksMap (root : JsonMap) : Except String (JsonMap × JsonMap) :=
  let root := Entries.orInsert "hooks" (Json.object []) root
  match Entries.get "hooks" root with
  | some (.object map) => .ok (root, map)
  | _ => .error "\"hooks\" is not an object"

def pushEntry (target : HookTarget) (agent : AgentKind) (format : MapFormat) (path : String)
    (map : JsonMap) (entry : HookEntry) : Except String JsonMap :=
  let map := Entries.orInsert entry.native (.array []) map
  match Entries.get entry.native map with
  | some (.array items) =>
      .ok (Entries.set entry.native (.array (items ++ [mapItem target agent format entry])) map)
  | _ => .error (Install.invalid path ("hooks." ++ entry.native ++ " is not an array"))

/-- The configuration with this `condr`'s hooks in the place of any earlier ones. -/
def installMap (target : HookTarget) (agent : AgentKind) (format : MapFormat) (path : String)
    (root : JsonMap) : Except String JsonMap := do
  let (root, map) ← hooksMap (← format.versioned path root)
  let map ← format.events.foldlM (pushEntry target agent format path) (stripOurs agent map)
  return Entries.set "hooks" (.object map) root

/-- Drops a map of hooks that holds nothing. -/
def dropEmptyHooks (root : JsonMap) : JsonMap :=
  match Entries.get "hooks" root with
  | some (.object []) => Entries.swapRemove "hooks" root
  | _ => root

/-- The hooks that are not Condr's, without the events that list nothing. -/
def hooksLeft (agent : AgentKind) (map : JsonMap) : JsonMap :=
  (stripOurs agent map).filter fun event => keepsEvent event.2

/-- The configuration without Condr's hooks. -/
def uninstallMap (agent : AgentKind) (root : JsonMap) : JsonMap :=
  dropEmptyHooks <|
    match Entries.get "hooks" root with
    | some (.object map) => Entries.set "hooks" (.object (hooksLeft agent map)) root
    | _ => root

/-! ## The state of a configuration -/

inductive HooksState where
  /-- Exactly the hooks this `condr` would install. -/
  | installed
  /-- Condr hooks are present, but not the ones this `condr` would install. -/
  | outdated
  | missing
  /-- The agent is recognized only. -/
  | unsupported
deriving DecidableEq

def holdsOurs (agent : AgentKind) (item : Json) : Bool :=
  isOurs agent item || (item.arrayField "hooks").any fun nested => nested.any (isOurs agent)

/-- Condr's items, each with its event. -/
def foundItems (agent : AgentKind) (root : JsonMap) : List (String × Json) :=
  (((Entries.get "hooks" root).bind Json.asObject).getD []).flatMap fun event =>
    ((event.2.asArray.getD []).filter (holdsOurs agent)).map fun item => (event.1, item)

def expectedItems (target : HookTarget) (agent : AgentKind) (format : MapFormat) :
    List (String × Json) :=
  format.events.map fun entry => (entry.native, mapItem target agent format entry)

def MapFormat.versionOk (format : MapFormat) (root : JsonMap) : Bool :=
  match format with
  | nestedMap _ _ => true
  | flatList _ _ => (Entries.get "version" root).any isOne

def mapState (target : HookTarget) (agent : AgentKind) (format : MapFormat) (root : JsonMap) :
    HooksState :=
  let found := foundItems agent root
  let expected := Lists.sortBy Prod.fst (expectedItems target agent format)
  if found.isEmpty then .missing
  else if (Lists.sortBy Prod.fst found).isEqv expected (fun item other =>
      item.1 == other.1 && item.2.same other.2) && format.versionOk root then .installed
  else .outdated

end Condr
