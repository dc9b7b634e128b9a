import TlsTrust.Audit.RecordId
import TlsTrust.Certificate
import TlsTrust.FailureKind
import TlsTrust.Json.Parser
import TlsTrust.Json.Printer
import TlsTrust.Json.Record
import TlsTrust.Risk
import TlsTrust.Table

namespace TlsTrust

inductive Severity where
  | info
  | warning
  | error
  | critical
deriving DecidableEq, Repr

namespace Severity

def all : List Severity :=
  [info, warning, error, critical]

def rank : Severity → Nat
  | info => 0
  | warning => 1
  | error => 2
  | critical => 3

instance : LT Severity := ⟨fun a b => a.rank < b.rank⟩
instance (a b : Severity) : Decidable (a < b) := inferInstanceAs (Decidable (a.rank < b.rank))

def name : Severity → String
  | info => "info"
  | warning => "warning"
  | error => "error"
  | critical => "critical"

def title : Severity → String
  | info => "Info"
  | warning => "Warning"
  | error => "Error"
  | critical => "Critical"

end Severity

inductive EventType where
  | loggerInitialized
  | loggerShutdown
  | certificateFailure
  | fallbackAttempt
  | fallbackSuccess
  | insecureModeUsed
  | securityDecision
  | riskAccepted
  | riskRejected
  | trustChanged
  | strategyChanged
  | decisionCacheHit
deriving DecidableEq, Repr

namespace EventType

def all : List EventType :=
  [loggerInitialized, loggerShutdown, certificateFailure, fallbackAttempt, fallbackSuccess,
    insecureModeUsed, securityDecision, riskAccepted, riskRejected, trustChanged, strategyChanged,
    decisionCacheHit]

theorem mem_all (e : EventType) : e ∈ all := by
  cases e <;> decide

def name : EventType → String
  | loggerInitialized => "logger_initialized"
  | loggerShutdown => "logger_shutdown"
  | certificateFailure => "certificate_failure"
  | fallbackAttempt => "fallback_attempt"
  | fallbackSuccess => "fallback_success"
  | insecureModeUsed => "insecure_mode_used"
  | securityDecision => "security_decision"
  | riskAccepted => "risk_accepted"
  | riskRejected => "risk_rejected"
  | trustChanged => "trust_changed"
  | strategyChanged => "strategy_changed"
  | decisionCacheHit => "decision_cache_hit"

end EventType

def errorCategory (text : String) : String :=
  let has := Text.mentions text
  if has "unknown authority" || has "unknownissuer" then "unknown_ca"
  else if has "expired" then "expired_certificate"
  else if has "hostname" || has "notvalidforname" then "hostname_mismatch"
  else if has "self-signed" || has "self signed" then "self_signed"
  else if has "tls" then "tls_handshake"
  else "generic_certificate_error"

structure Stamp where
  id : RecordId
  time : Instant
deriving DecidableEq, Repr

structure AuditRecord where
  id : RecordId
  time : Instant
  severity : Severity
  event : EventType
  host : String
  errorKind : Option FailureKind
  strategy : Option String
  attemptId : Option String
  risk : Risk
  allowed : Bool
  actor : Option String
  details : Table String
deriving DecidableEq, Repr

namespace AuditRecord

def new (s : Stamp) (event : EventType) (host : String) : AuditRecord :=
  { id := s.id, time := s.time, severity := .info, event, host, errorKind := none, strategy := none
    attemptId := none, risk := .none, allowed := false, actor := none, details := .empty }

def withDetail (r : AuditRecord) (key value : String) : AuditRecord :=
  { r with details := r.details.insert key value }

def detail? (r : AuditRecord) (key : String) : Option String :=
  r.details.get? key

def certificateFailure (s : Stamp) (host : String) (kind : FailureKind) (text : String) :
    AuditRecord :=
  { new s .certificateFailure host with severity := .warning, errorKind := some kind }
    |>.withDetail "error" text
    |>.withDetail "error_category" (errorCategory text)
    |>.withDetail "recoverable" (toString kind.isRecoverable)

def fallbackAttempt (s : Stamp) (host strategy : String) (risk : Risk) (attemptId : String)
    (error : Option String) : AuditRecord :=
  let r := { new s .fallbackAttempt host with
    strategy := some strategy, attemptId := some attemptId, risk }
  let r := r.withDetail "risk_description" risk.description
  match error with
  | none => { r with allowed := true }.withDetail "result" "success"
  | some text =>
    { r with severity := .warning }.withDetail "result" "failure" |>.withDetail "error" text

def fallbackSuccess (s : Stamp) (host strategy : String) (risk : Risk) (attemptId : String) :
    AuditRecord :=
  let r := { new s .fallbackSuccess host with
    severity := if risk.isHigh then .warning else .info
    strategy := some strategy, attemptId := some attemptId, risk, allowed := true }
  let r := r.withDetail "risk_description" risk.description
  if risk.isHigh then
    r.withDetail "warning" "High-risk certificate bypass in use, review before production use"
      |>.withDetail "recommendation" "Install the registry's CA certificate and remove the bypass"
  else r

def insecureModeUsed (s : Stamp) (host source : String) (confirmed : Bool) (reason : String) :
    AuditRecord :=
  let r := { new s .insecureModeUsed host with
    strategy := some "insecure_mode", allowed := confirmed
    severity := if confirmed then .critical else .warning
    risk := if confirmed then .critical else .none }
  r.withDetail "source" source |>.withDetail "reason" reason

def securityDecision (s : Stamp) (host decision reason : String) (risk : Risk) (allowed : Bool) :
    AuditRecord :=
  { new s .securityDecision host with
    severity := if allowed && risk.isHigh then .warning else .info
    risk, allowed }
    |>.withDetail "decision" decision
    |>.withDetail "reason" reason

def riskAccepted (s : Stamp) (host : String) (risk : Risk) (reason : String) : AuditRecord :=
  { new s .riskAccepted host with severity := .warning, risk, allowed := true }
    |>.withDetail "reason" reason

def riskRejected (s : Stamp) (host : String) (risk : Risk) (reason : String) : AuditRecord :=
  { new s .riskRejected host with risk } |>.withDetail "reason" reason

@[simp] theorem certificateFailure_event (s : Stamp) (host : String) (kind : FailureKind)
    (text : String) : (certificateFailure s host kind text).event = .certificateFailure := rfl

@[simp] theorem securityDecision_event (s : Stamp) (host decision reason : String) (risk : Risk)
    (allowed : Bool) :
    (securityDecision s host decision reason risk allowed).event = .securityDecision := rfl

def toJson (r : AuditRecord) : Json :=
  .compactObject [
    ("id", some (.string r.id.text)),
    ("timestamp", some (.string r.time.text)),
    ("severity", some (.string r.severity.name)),
    ("event_type", some (.string r.event.name)),
    ("hostname", some (.string r.host)),
    ("error_kind", r.errorKind.map fun k => .string k.name),
    ("strategy", r.strategy.map .string),
    ("attempt_id", r.attemptId.map .string),
    ("risk", some (.string r.risk.name)),
    ("allowed", some (.bool r.allowed)),
    ("actor", r.actor.map .string),
    ("details", if r.details.isEmpty then none
      else some (.object (r.details.entries.map fun e => (e.1, .string e.2))))]

def line (r : AuditRecord) : String :=
  r.toJson.render

def fields : List Json.RecordField :=
  [⟨"id", false⟩, ⟨"timestamp", false⟩, ⟨"severity", false⟩, ⟨"event_type", false⟩,
    ⟨"hostname", false⟩, ⟨"error_kind", false⟩, ⟨"strategy", false⟩, ⟨"attempt_id", false⟩,
    ⟨"risk", false⟩, ⟨"allowed", false⟩, ⟨"actor", false⟩, ⟨"details", true⟩]

def details? : Json → Option (Table String)
  | .object given => do
    let es ← given.mapM fun (k, j) => j.string?.map (k, ·)
    return .ofList es
  | _ => none

def ofJson? (j : Json) : Option AuditRecord := do
  match ← Json.recordValues? fields j with
  | [id, time, severity, event, host, kind, strategy, attempt, risk, allowed, actor, details] =>
    return {
      id := ← Json.required (fun j => j.string?.bind RecordId.parse?) id
      time := ← Json.required Certificate.instant? time
      severity := ← Json.required (Json.word? Severity.all Severity.name) severity
      event := ← Json.required (Json.word? EventType.all EventType.name) event
      host := ← Json.required Json.string? host
      errorKind := ← Json.optionalField (Json.word? FailureKind.all FailureKind.name) kind
      strategy := ← Json.optionalField Json.string? strategy
      attemptId := ← Json.optionalField Json.string? attempt
      risk := ← Json.required (Json.word? Risk.all Risk.name) risk
      allowed := ← Json.required Json.bool? allowed
      actor := ← Json.optionalField Json.string? actor
      details := ← Json.defaulted .empty details? details }
  | _ => none

def parse? (line : String) : Option AuditRecord := do
  ofJson? (← Json.parse? line)

end AuditRecord

end TlsTrust
