import TlsTrust.Advice
import TlsTrust.Engine.Decide

/-!
How the engine answers a failure as a whole: it audits it, decides, and tries the steps of the
escalation in order until one gives a connection.
-/

namespace TlsTrust

namespace Engine

/-- Why a step is left out, if it is: it does not apply, the retries are used up, or what decides on
the failure does not go that far. -/
def skipReason? (e : Engine) (step : EscalationStep) (failure : ClassifiedFailure)
    (policy : Decision) (s : Strategy) (retriesUsed : Nat) : Option String :=
  if !step.appliesTo failure.kind then some s!"does not apply to {failure.kind.name}"
  else if !step.disablesVerification then
    if s.maxRetries ≤ retriesUsed then some "retry budget exhausted" else none
  else if !policy.action.accepts then some s!"strategy does not accept {failure.kind.name}"
  else if step == .insecureMode && !e.config.allowInsecureMode
      && !e.config.overrides.allows failure.host then
    some "insecure mode is not enabled"
  else none

def probe (e : Engine) (host : String) (t : Transport) : Option ProbeError × Engine :=
  let (outcome, network) := e.network.next t
  (Network.errorOf? host e.config.probeTimeout outcome,
    { e with network, desk := e.desk.note (.probed host t outcome) })

def auditFailed (e : Engine) (host : String) (step : EscalationStep) (attemptId message : String) :
    Engine :=
  e.audit fun s => .fallbackAttempt s host step.name step.risk attemptId (some message)

def auditSucceeded (e : Engine) (host : String) (step : EscalationStep) (attemptId : String) :
    Engine :=
  let e := e.audit fun s => .fallbackAttempt s host step.name step.risk attemptId none
  let e := e.audit fun s => .fallbackSuccess s host step.name step.risk attemptId
  if step.disablesVerification then
    e.audit fun s => .riskAccepted s host step.risk
      s!"{step.name} connected with certificate verification disabled"
  else e

def attempt (e : Engine) (host : String) (step : EscalationStep) : EscalationAttempt × Engine :=
  let (id, desk) := e.desk.issue
  let (error, e) := { e with desk }.probe host step.transport
  match error with
  | none => (⟨step, id.text, .succeeded⟩, e.auditSucceeded host step id.text)
  | some err =>
    (⟨step, id.text, .failed err.message⟩, e.auditFailed host step id.text err.message)

def mayTry (e : Engine) (host : String) (step : EscalationStep) : Bool × Engine :=
  if step = .insecureMode then e.confirmInsecure host else (true, e)

def runStep (e : Engine) (host : String) (failure : ClassifiedFailure) (policy : Decision)
    (s : Strategy) (retriesUsed : Nat) (step : EscalationStep) : EscalationAttempt × Engine :=
  match e.skipReason? step failure policy s retriesUsed with
  | some reason => (⟨step, "", .skipped reason⟩, e)
  | none =>
    match e.mayTry host step with
    | (false, e) => (⟨step, "", .skipped "insecure mode not confirmed"⟩, e)
    | (true, e) => e.attempt host step

def retriesAfter (used : Nat) (a : EscalationAttempt) : Nat :=
  if a.wasSkipped || a.step.disablesVerification then used else used + 1

def runSteps (e : Engine) (host : String) (failure : ClassifiedFailure) (policy : Decision)
    (s : Strategy) : Nat → List EscalationStep → List EscalationAttempt × Engine
  | _, [] => ([], e)
  | used, step :: steps =>
    let (a, e) := e.runStep host failure policy s used step
    if a.result = .succeeded then ([a], e)
    else
      let (as, e) := e.runSteps host failure policy s (retriesAfter used a) steps
      (a :: as, e)

def conclude (e : Engine) (host : String) (failure : ClassifiedFailure)
    (attempts : List EscalationAttempt) (recommendations : List String) :
    Except EngineError FallbackOutcome × Engine :=
  match attempts.find? fun a => a.result = .succeeded with
  | some a =>
    (.ok {
      step := a.step
      decision := a.step.successDecision failure a.attemptId
      error := failure
      attempts
      recommendations }, e)
  | none =>
    let e := e.audit fun s => .securityDecision s host Action.deny.name
      "all fallback strategies failed" .none false
    let tried := attempts.filter fun a => !a.wasSkipped
    (.error (.exhausted host (tried.map EscalationAttempt.display) recommendations), e)

def handleFailure (e : Engine) (host : String) (failure : CertificateFailure) :
    Except EngineError FallbackOutcome × Engine :=
  let key := Host.key host
  if key.isEmpty then (.error .emptyHostname, e)
  else
    let classified := e.classify failure key
    let e := e.audit fun s =>
      .certificateFailure s key classified.kind classified.errorText
    let recommendations := Advice.recommend key classified.errorText
    match e.decide classified with
    | .error err => (.error err, e)
    | .ok (policy, e) =>
      let (attempts, e) := e.runSteps key classified policy e.strategy 0 EscalationStep.all
      e.conclude key classified attempts recommendations

end Engine

end TlsTrust
