import TlsTrust.Decision
import TlsTrust.Failure

/-! The steps tried after a failure, each riskier than the one before. -/

namespace TlsTrust

inductive EscalationStep where
  | systemCA
  | noServerName
  | lowerTls
  | acceptSelfSigned
  | insecureMode
deriving DecidableEq, Repr

namespace EscalationStep

def all : List EscalationStep :=
  [systemCA, noServerName, lowerTls, acceptSelfSigned, insecureMode]

def name : EscalationStep → String
  | systemCA => "system_ca"
  | noServerName => "no_sni"
  | lowerTls => "lower_tls"
  | acceptSelfSigned => "accept_self_signed"
  | insecureMode => "insecure_mode"

def risk : EscalationStep → Risk
  | systemCA => .low
  | noServerName | lowerTls => .medium
  | acceptSelfSigned => .high
  | insecureMode => .critical

def riskScore : EscalationStep → Nat
  | systemCA => 2
  | noServerName | lowerTls => 4
  | acceptSelfSigned => 7
  | insecureMode => 10

def disablesVerification : EscalationStep → Bool
  | acceptSelfSigned | insecureMode => true
  | _ => false

def action (s : EscalationStep) : Action :=
  if s.disablesVerification then .accept else .retry

def transport : EscalationStep → Transport
  | systemCA => Transport.strict.withPlatformRoots
  | noServerName => Transport.strict.withoutServerName
  | lowerTls => Transport.strict.withMinVersion .tls10
  | acceptSelfSigned | insecureMode => .unverified

theorem transport_verifies (s : EscalationStep) :
    s.transport.verifies = !s.disablesVerification := by
  cases s <;> rfl

def appliesTo : EscalationStep → FailureKind → Bool
  | systemCA, k | noServerName, k | lowerTls, k => k != .expired && k != .notYetValid
  | acceptSelfSigned, k => k == .selfSigned || k == .untrustedCA || k == .unknown
  | insecureMode, _ => true

def successDecision (s : EscalationStep) (e : ClassifiedFailure) (attemptId : String) : Decision :=
  let d := (Decision.new s.action s.riskScore s!"connected to {e.host} using {s.name}"
    .escalation).withRisk s.risk
  { d with transport := s.transport }
    |>.withMetadata "strategy" s.name
    |>.withMetadata "attempt_id" attemptId
    |>.withMetadata "error_kind" e.kind.name

end EscalationStep

inductive AttemptResult where
  | succeeded
  | failed (reason : String)
  | skipped (reason : String)
deriving DecidableEq, Repr

structure EscalationAttempt where
  step : EscalationStep
  attemptId : String
  result : AttemptResult
deriving DecidableEq, Repr

namespace EscalationAttempt

def display (a : EscalationAttempt) : String :=
  match a.result with
  | .succeeded => s!"{a.step.name}: succeeded"
  | .failed reason => s!"{a.step.name}: failed: {reason}"
  | .skipped reason => s!"{a.step.name}: skipped: {reason}"

def wasSkipped (a : EscalationAttempt) : Bool :=
  match a.result with
  | .skipped _ => true
  | _ => false

def toJson (a : EscalationAttempt) : Json :=
  let (result, detail) : String × Option String := match a.result with
    | .succeeded => ("succeeded", none)
    | .failed reason => ("failed", some reason)
    | .skipped reason => ("skipped", some reason)
  .compactObject [
    ("step", some (.string a.step.name)),
    ("attempt_id", some (.string a.attemptId)),
    ("result", some (.string result)),
    ("detail", detail.map .string)]

def result? (word : String) (detail : Option Json) : Option AttemptResult :=
  match word, detail with
  | "succeeded", none | "succeeded", some .null => some .succeeded
  | "failed", some (.string reason) => some (.failed reason)
  | "skipped", some (.string reason) => some (.skipped reason)
  | _, _ => none

def ofJson? (j : Json) : Option EscalationAttempt :=
  match j with
  | .object fields => do
    let step ← Json.uniqueField? fields "step"
    let attemptId ← Json.uniqueField? fields "attempt_id"
    let word ← Json.uniqueField? fields "result"
    let detail ← Json.uniqueField? fields "detail"
    let word ← Json.word? ["succeeded", "failed", "skipped"] id (← word)
    return {
      step := ← Json.required (Json.word? EscalationStep.all EscalationStep.name) step
      attemptId := ← Json.required Json.string? attemptId
      result := ← result? word detail }
  | _ => none

end EscalationAttempt

structure FallbackOutcome where
  step : EscalationStep
  decision : Decision
  error : ClassifiedFailure
  attempts : List EscalationAttempt
  recommendations : List String
deriving DecidableEq, Repr

namespace FallbackOutcome

def transport (o : FallbackOutcome) : Transport :=
  o.decision.transport

def toJson (o : FallbackOutcome) : Json :=
  .object [
    ("step", .string o.step.name),
    ("decision", o.decision.toJson),
    ("error", o.error.toJson),
    ("attempts", .array (o.attempts.map EscalationAttempt.toJson)),
    ("recommendations", .array (o.recommendations.map .string))]

end FallbackOutcome

end TlsTrust
