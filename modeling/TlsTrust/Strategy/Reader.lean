import TlsTrust.Strategy.Document
import TlsTrust.Yaml.Document
import TlsTrust.Yaml.Value

namespace TlsTrust

inductive StrategyFileError where
  | malformed
  | conflict (e : StrategyError)
  | invalid (e : StrategyError)
deriving DecidableEq, Repr

namespace StrategyDocument

def fieldNames : List String :=
  ["mode", "rules", "host_overrides", "insecure_hosts", "prompt_enabled", "remember_decisions",
    "retain_memory", "decision_timeout_secs", "max_retries"]

def fieldD {α : Type} (fields : List (String × Yaml.Node)) (name : String) (d : α)
    (read : Yaml.Node → Option α) : Option α :=
  match fields.lookup name with
  | some n => read n
  | none => some d

def optionalField {α : Type} (fields : List (String × Yaml.Node)) (name : String)
    (read : Yaml.Scalar → Option α) : Option (Option α) :=
  fieldD fields name none fun n => n.scalar?.bind (Yaml.Scalar.optional? read)

def action? (n : Yaml.Node) : Option Action :=
  n.word? Action.all Action.name

def rules? (n : Yaml.Node) : Option RuleTable := do
  let rules ← n.table? (Yaml.Node.word? FailureKind.all FailureKind.name) action?
  return rules.foldl (fun t r => t.insert r.1 r.2) .empty

def overrides? (n : Yaml.Node) : Option (Table Action) := do
  return .ofList (← n.table? Yaml.Node.text? action?)

def hosts? (n : Yaml.Node) : Option (List String) := do
  (← n.items?).mapM Yaml.Node.text?

def retries? (s : Yaml.Scalar) : Option Nat :=
  s.nat?.filter (· < UInt32.size)

def ofNode? (n : Yaml.Node) : Option StrategyDocument := do
  let fields ← n.fields? fieldNames
  return {
    mode := ← fieldD fields "mode" .secure (Yaml.Node.word? Mode.all Mode.name)
    rules := ← fieldD fields "rules" .empty rules?
    hostOverrides := ← fieldD fields "host_overrides" .empty overrides?
    insecureHosts := ← fieldD fields "insecure_hosts" [] hosts?
    promptEnabled := ← optionalField fields "prompt_enabled" Yaml.Scalar.bool?
    rememberDecisions := ← optionalField fields "remember_decisions" Yaml.Scalar.bool?
    retainMemory := ← optionalField fields "retain_memory" Yaml.Scalar.bool?
    decisionTimeout := ← optionalField fields "decision_timeout_secs" Yaml.Scalar.nat?
    maxRetries := ← optionalField fields "max_retries" retries? }

end StrategyDocument

namespace Strategy

def ofDocument (d : Yaml.Document) : Except StrategyFileError Strategy :=
  match d.root.elim (some {}) StrategyDocument.ofNode? with
  | none => .error .malformed
  | some fields =>
    match fields.toStrategy with
    | .error e => .error (.conflict e)
    | .ok s => if d.isOnly then .ok s else .error .malformed

def ofText (text : String) : Except StrategyFileError Strategy :=
  match Yaml.Document.ofText? text with
  | none => .error .malformed
  | some d => do
    let s ← ofDocument d
    match s.validate with
    | .ok () => .ok s
    | .error e => .error (.invalid e)

end Strategy

end TlsTrust
