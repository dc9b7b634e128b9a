import TlsTrust.Action
import TlsTrust.FailureKind
import TlsTrust.Json.Record
import TlsTrust.Risk
import TlsTrust.Table
import TlsTrust.Transport

namespace TlsTrust

inductive DecisionSource where
  | hostOverride
  | trustedHost
  | rule
  | modeDefault
  | prompt
  | escalation
deriving DecidableEq, Repr

namespace DecisionSource

def all : List DecisionSource :=
  [hostOverride, trustedHost, rule, modeDefault, prompt, escalation]

def name : DecisionSource → String
  | hostOverride => "host_override"
  | trustedHost => "trusted_host"
  | rule => "rule"
  | modeDefault => "mode_default"
  | prompt => "prompt"
  | escalation => "escalation"

end DecisionSource

def riskScore (kind : FailureKind) (a : Action) (prompted : Bool) : Nat :=
  let half := max (kind.baseRisk / 2) 1
  match a with
  | .deny => 0
  | .retry | .prompt => half
  | .accept | .log => if prompted then half else kind.baseRisk

namespace Transport

def forAction (a : Action) : Transport :=
  if a.accepts then unverified else strict

end Transport

structure Decision where
  action : Action
  risk : Risk
  riskScore : Nat
  reason : String
  source : DecisionSource
  transport : Transport
  timeout : Nat
  remember : Bool
  retryBudget : Nat
  metadata : Table String
deriving DecidableEq, Repr

namespace Decision

def new (a : Action) (score : Nat) (reason : String) (source : DecisionSource) : Decision :=
  let score := if a = .deny then 0 else min score 10
  { action := a, risk := .ofScore score, riskScore := score, reason, source
    transport := .forAction a, timeout := 0, remember := false, retryBudget := 0
    metadata := .empty }

def withMetadata (d : Decision) (key value : String) : Decision :=
  { d with metadata := d.metadata.insert key value }

def forKind (kind : FailureKind) (a : Action) (prompted : Bool) (reason : String)
    (source : DecisionSource) : Decision :=
  (new a (TlsTrust.riskScore kind a prompted) reason source).withMetadata "error_kind" kind.name

def deny (reason : String) (source : DecisionSource) : Decision :=
  new .deny 0 reason source

def withRisk (d : Decision) (r : Risk) : Decision :=
  if d.action = .deny then d else { d with risk := r }

def isDenied (d : Decision) : Bool :=
  d.action == .deny

def isAllowed (d : Decision) : Bool :=
  !d.isDenied

def display (d : Decision) : String :=
  s!"{d.action.name} (risk {d.risk.name}, {d.source.name}): {d.reason}"

def toJson (d : Decision) : Json :=
  .compactObject [
    ("action", some (.string d.action.name)),
    ("risk", some (.string d.risk.name)),
    ("risk_score", some (.int d.riskScore)),
    ("reason", some (.string d.reason)),
    ("source", some (.string d.source.name)),
    ("transport", some d.transport.toJson),
    ("timeout_secs", some (.int d.timeout)),
    ("remember", some (.bool d.remember)),
    ("retry_budget", some (.int d.retryBudget)),
    ("metadata", if d.metadata.isEmpty then none
      else some (.object (d.metadata.entries.map fun (k, v) => (k, .string v))))]

def fields : List Json.RecordField :=
  [⟨"action", false⟩, ⟨"risk", false⟩, ⟨"risk_score", false⟩, ⟨"reason", false⟩, ⟨"source", false⟩,
    ⟨"transport", false⟩, ⟨"timeout_secs", false⟩, ⟨"remember", false⟩, ⟨"retry_budget", false⟩,
    ⟨"metadata", true⟩]

def metadata? : Json → Option (Table String)
  | .object given => do
    let es ← given.mapM fun (k, j) => j.string?.map (k, ·)
    return .ofList es
  | _ => none

def ofJson? (j : Json) : Option Decision := do
  match ← Json.recordValues? fields j with
  | [action, risk, score, reason, source, transport, timeout, remember, budget, metadata] =>
    return {
      action := ← Json.required (Json.word? Action.all Action.name) action
      risk := ← Json.required (Json.word? Risk.all Risk.name) risk
      riskScore := ← Json.required (Json.nat? 8) score
      reason := ← Json.required Json.string? reason
      source := ← Json.required (Json.word? DecisionSource.all DecisionSource.name) source
      transport := ← Json.required Transport.ofJson? transport
      timeout := ← Json.required (Json.nat? 64) timeout
      remember := ← Json.required Json.bool? remember
      retryBudget := ← Json.required (Json.nat? 32) budget
      metadata := ← Json.defaulted .empty metadata? metadata }
  | _ => none

end Decision

end TlsTrust
