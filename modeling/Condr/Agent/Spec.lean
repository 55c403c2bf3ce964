import Condr.Session.Basic

/-!
# The agents Condr knows

One specification per kind: the names its process goes by and how far Condr supports
it. `parseLabel` resolves a program name, an alias or a path to a kind.
-/

namespace Condr

/-- What the detector asks of an agent's hook integration. -/
structure HookSpec where
  /-- Each event names the turn it belongs to. -/
  promptIds : Bool
deriving DecidableEq

inductive AgentSupport where
  | full (hooks : HookSpec)
  /-- The process table names it, but its hooks report no state worth trusting. -/
  | recognitionOnly
deriving DecidableEq

structure AgentSpec where
  id : String
  executable : String
  aliases : List String
  support : AgentSupport
deriving DecidableEq

def AgentSpec.hooks (spec : AgentSpec) : Option HookSpec :=
  match spec.support with
  | .full hooks => some hooks
  | .recognitionOnly => none

namespace AgentKind

def all : List AgentKind :=
  [.claude, .codex, .openCode, .pi, .omp, .antigravity, .grok, .cursor, .copilot, .kimi]

def spec : AgentKind → AgentSpec
  | claude => ⟨"claude", "claude", ["claude-code"], .full ⟨false⟩⟩
  | codex => ⟨"codex", "codex", [], .full ⟨false⟩⟩
  | openCode => ⟨"opencode", "opencode", [], .full ⟨false⟩⟩
  | pi => ⟨"pi", "pi", [], .full ⟨false⟩⟩
  | omp => ⟨"omp", "omp", ["oh-my-pi"], .full ⟨false⟩⟩
  | antigravity => ⟨"antigravity", "agy", [], .full ⟨false⟩⟩
  | grok => ⟨"grok", "grok", ["grok-build"], .full ⟨true⟩⟩
  | cursor => ⟨"cursor", "cursor-agent", [], .full ⟨false⟩⟩
  | copilot => ⟨"copilot", "copilot", ["github-copilot"], .full ⟨false⟩⟩
  | kimi => ⟨"kimi", "kimi", ["kimi-code"], .recognitionOnly⟩
  | other => ⟨"other", "", [], .recognitionOnly⟩

end AgentKind

/-- `str::to_lowercase`, as far as the names it is compared with can tell: outside ASCII
only the Kelvin sign and the dotted capital I have an ASCII letter in their lower case. -/
def toLowercase (text : String) : List Char :=
  text.toList.flatMap fun char =>
    if char.toNat = 0x212A then ['k']
    else if char.toNat = 0x130 then ['i', Char.ofNat 0x307]
    else [char.toLower]

def normalizedLookupName (name : String) : List Char :=
  let name := toLowercase (trim name)
  match [".exe", ".cmd", ".bat", ".ps1", ".js"].find? fun suffix =>
      suffix.toList.isSuffixOf name with
  | some suffix => name.take (name.length - suffix.toList.length)
  | none => name

def pathBasename (path : String) : String :=
  match (path.toList.splitOnP fun char => char = '/' || char = '\\').reverse.find? fun component =>
      !component.isEmpty with
  | some component => String.ofList component
  | none => path

/-- Resolves a program name, alias or path to an agent. -/
def AgentKind.parseLabel (value : String) : Option AgentKind :=
  let name := String.ofList (normalizedLookupName (pathBasename value))
  AgentKind.all.find? fun kind =>
    name = kind.spec.id || name = kind.spec.executable || kind.spec.aliases.contains name

example : AgentKind.parseLabel "/usr/bin/Claude-Code.exe" = some .claude := by decide +kernel

example : AgentKind.parseLabel "zsh" = none := by decide +kernel

end Condr
