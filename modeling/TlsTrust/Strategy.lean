import TlsTrust.Action
import TlsTrust.FailureKind
import TlsTrust.Host
import TlsTrust.Json
import TlsTrust.Table
import TlsTrust.Time.Instant

namespace TlsTrust

open Text

structure RuleTable where
  get? : FailureKind → Option Action

namespace RuleTable

@[ext] theorem ext {r s : RuleTable} (h : ∀ k, r.get? k = s.get? k) : r = s := by
  cases r; cases s
  congr
  funext k
  exact h k

instance : DecidableEq RuleTable := fun r s =>
  if h : ∀ k ∈ FailureKind.all, r.get? k = s.get? k then
    isTrue (ext fun k => h k (FailureKind.mem_all k))
  else
    isFalse fun e => h fun k _ => by rw [e]

def empty : RuleTable :=
  ⟨fun _ => none⟩

instance : Inhabited RuleTable := ⟨empty⟩

def insert (r : RuleTable) (kind : FailureKind) (a : Action) : RuleTable :=
  ⟨fun k => if k = kind then some a else r.get? k⟩

def override (r s : RuleTable) : RuleTable :=
  ⟨fun k => (s.get? k).or (r.get? k)⟩

def entries (r : RuleTable) : List (FailureKind × Action) :=
  FailureKind.all.filterMap fun k => (r.get? k).map (k, ·)

end RuleTable

inductive StrategyError where
  | noPromptTime
  | promptTooLong
  | tooManyRetries
  | emptyHost
  | notNormalized (host : String)
  | conflictingOverrides (host : String)
  | unknownMode (text : String)
deriving DecidableEq, Repr

namespace Strategy

def maxDecisionTimeout : Nat := 600

def maxRetryLimit : Nat := 10

end Strategy

namespace StrategyError

def reason : StrategyError → String
  | noPromptTime => "decision timeout must be positive when prompting is enabled"
  | promptTooLong => s!"decision timeout exceeds {Strategy.maxDecisionTimeout}s"
  | tooManyRetries => s!"max retries exceeds {Strategy.maxRetryLimit}"
  | emptyHost => "hostname entries must not be empty"
  | notNormalized host => s!"hostname entry '{host}' is not normalized"
  | conflictingOverrides host => s!"conflicting overrides for host '{host}'"
  | unknownMode text => s!"unknown security mode '{text}'"

def message (e : StrategyError) : String :=
  s!"Invalid strategy: {e.reason}"

end StrategyError

def Mode.parse (text : String) : Except StrategyError Mode :=
  match lower text with
  | "secure" => .ok .secure
  | "permissive" => .ok .permissive
  | "development" => .ok .development
  | "dev" => .ok .development
  | "interactive" => .ok .interactive
  | "custom" => .ok .custom
  | other => .error (.unknownMode other)

structure Strategy where
  mode : Mode
  rules : RuleTable
  hostOverrides : Table Action
  insecureHosts : NameSet
  promptEnabled : Bool
  rememberDecisions : Bool
  retainMemory : Bool
  decisionTimeout : Nat
  maxRetries : Nat
deriving DecidableEq

namespace Strategy

@[ext] theorem ext {s t : Strategy} (mode : s.mode = t.mode) (rules : s.rules = t.rules)
    (hosts : s.hostOverrides = t.hostOverrides) (insecure : s.insecureHosts = t.insecureHosts)
    (prompt : s.promptEnabled = t.promptEnabled)
    (remember : s.rememberDecisions = t.rememberDecisions)
    (retain : s.retainMemory = t.retainMemory) (timeout : s.decisionTimeout = t.decisionTimeout)
    (retries : s.maxRetries = t.maxRetries) : s = t := by
  cases s; cases t
  simp_all

def base (mode : Mode) : Strategy :=
  { mode, rules := .empty, hostOverrides := .empty, insecureHosts := .empty, promptEnabled := false
    rememberDecisions := false, retainMemory := false, decisionTimeout := 30, maxRetries := 3 }

def brokenAtSource : FailureKind → Bool
  | .expired | .revoked | .badCertificate => true
  | _ => false

def secure : Strategy :=
  { base .secure with rules := ⟨fun _ => some .deny⟩ }

def permissive : Strategy :=
  { base .permissive with
    rules := ⟨fun k => if k.isRecoverable then none else some .deny⟩
    rememberDecisions := true }

def development : Strategy :=
  { base .development with
    rules := ⟨fun k => some (if brokenAtSource k then .deny else .log)⟩
    rememberDecisions := true }

def interactive : Strategy :=
  { base .interactive with
    rules := ⟨fun k => if brokenAtSource k then some .deny else none⟩
    promptEnabled := true, rememberDecisions := true, decisionTimeout := 60, maxRetries := 1 }

def custom : Strategy :=
  base .custom

instance : Inhabited Strategy := ⟨secure⟩

def ofMode : Mode → Strategy
  | .secure => secure
  | .permissive => permissive
  | .development => development
  | .interactive => interactive
  | .custom => custom

def hostNames (s : Strategy) : List String :=
  s.hostOverrides.keys ++ s.insecureHosts.keys

def validate (s : Strategy) : Except StrategyError Unit :=
  if s.promptEnabled && s.decisionTimeout == 0 then .error .noPromptTime
  else if maxDecisionTimeout < s.decisionTimeout then .error .promptTooLong
  else if maxRetryLimit < s.maxRetries then .error .tooManyRetries
  else if s.hostNames.any isBlankText then .error .emptyHost
  else
    match s.hostNames.find? fun h => Host.key h != h with
    | some h => .error (.notNormalized h)
    | none => .ok ()

def isValid (s : Strategy) : Bool :=
  match s.validate with
  | .ok () => true
  | .error _ => false

def withRule (s : Strategy) (kind : FailureKind) (a : Action) : Strategy :=
  { s with rules := s.rules.insert kind a }

def withHostOverride (s : Strategy) (host : String) (a : Action) : Strategy :=
  { s with hostOverrides := s.hostOverrides.insert (Host.key host) a }

def withInsecureHost (s : Strategy) (host : String) : Strategy :=
  { s with insecureHosts := s.insecureHosts.add (Host.key host) }

def withPromptEnabled (s : Strategy) (enabled : Bool) : Strategy :=
  { s with promptEnabled := enabled }

def withMemory (s : Strategy) (enabled : Bool) : Strategy :=
  { s with rememberDecisions := enabled }

def retainingMemory (s : Strategy) : Strategy :=
  { s with retainMemory := true }

def withDecisionTimeout (s : Strategy) (timeout : Duration) : Strategy :=
  { s with decisionTimeout := (Int.tdiv timeout Duration.second).toNat }

def withMaxRetries (s : Strategy) (retries : Nat) : Strategy :=
  { s with maxRetries := retries }

def rule (s : Strategy) (kind : FailureKind) : Option Action :=
  s.rules.get? kind

def actionFor (s : Strategy) (kind : FailureKind) : Action :=
  (s.rule kind).getD s.mode.defaultAction

def hostOverride (s : Strategy) (host : String) : Option Action :=
  let key := Host.key host
  (s.hostOverrides.get? key).or (s.hostOverrides.get? (Host.withoutPort key))

def isInsecureHost (s : Strategy) (host : String) : Bool :=
  let key := Host.key host
  s.insecureHosts.contains key || s.insecureHosts.contains (Host.withoutPort key)

def toJson (s : Strategy) : Json :=
  .object [
    ("mode", .string s.mode.name),
    ("rules", .object (s.rules.entries.map fun (k, a) => (k.name, .string a.name))),
    ("host_overrides", .object (s.hostOverrides.entries.map fun (h, a) => (h, .string a.name))),
    ("insecure_hosts", .array (s.insecureHosts.keys.map .string)),
    ("prompt_enabled", .bool s.promptEnabled),
    ("remember_decisions", .bool s.rememberDecisions),
    ("retain_memory", .bool s.retainMemory),
    ("decision_timeout_secs", .int s.decisionTimeout),
    ("max_retries", .int s.maxRetries)]

end Strategy

end TlsTrust
