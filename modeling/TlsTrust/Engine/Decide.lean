import TlsTrust.Engine

/-!
How the engine decides on a failure: by its memory, or else by the override of the host, the trust
in the host, the rule of the kind or the default of the mode, in this order.
-/

namespace TlsTrust

namespace Engine

structure Resolution where
  action : Action
  source : DecisionSource
  reason : String
deriving DecidableEq, Repr

def resolve (s : Strategy) (trusted : Bool) (host : String) (kind : FailureKind) : Resolution :=
  match s.hostOverride host with
  | some a => ⟨a, .hostOverride, s!"host override for {host}"⟩
  | none =>
    if trusted || s.isInsecureHost host then ⟨.accept, .trustedHost, s!"{host} is trusted"⟩
    else
      match s.rule kind with
      | some a => ⟨a, .rule, s!"rule for {kind.name}"⟩
      | none =>
        ⟨s.mode.defaultAction, .modeDefault, s!"{s.mode.name} mode default for {kind.name}"⟩

def ofAnswer (kind : FailureKind) : Except PromptError Action → Action × String
  | .ok .accept | .ok .log => (.accept, s!"operator accepted {kind.name}")
  | .ok .retry => (.retry, s!"operator chose retry for {kind.name}")
  | .ok .deny | .ok .prompt => (.deny, s!"operator denied {kind.name}")
  | .error e => (.deny, s!"{e.message}, denying")

def actOnAnswer (e : Engine) (a : PreparedAnswer) : Engine :=
  let e := match a.swap with
    | some s => match e.setStrategy s with
      | .ok e' => e'
      | .error _ => e
    | none => e
  if a.forget then e.forgetDecisions else e

def prompt (e : Engine) (failure : ClassifiedFailure) (seconds : Nat) :
    Except PromptError Action × Engine :=
  let timeout := Duration.ofSeconds seconds
  match e.prompter with
  | .nobody => (.error .unavailable, e)
  | .terminal =>
    let desk := e.desk.write (Prompter.question failure seconds)
    let (outcome, desk) := desk.readLine
    let desk := if outcome = .timedOut then desk.write "\nNo answer, denying.\n" else desk
    (Prompter.answerOf timeout outcome, { e with desk })
  | .prepared available answers =>
    let e := { e with desk := e.desk.note (.asked failure.host failure.kind seconds) }
    match answers with
    | [] => (.error (.timedOut timeout), e)
    | a :: rest =>
      (a.reply.result timeout, { e with prompter := .prepared available rest }.actOnAnswer a)

def canPrompt (e : Engine) : Bool :=
  match e.prompter with
  | .nobody => false
  | .terminal => e.desk.interactive
  | .prepared available _ => available

def ask (e : Engine) (s : Strategy) (failure : ClassifiedFailure) : (Action × String) × Engine :=
  if s.promptEnabled && e.canPrompt then
    let (answer, e) := e.prompt failure s.decisionTimeout
    (ofAnswer failure.kind answer, e)
  else ((.deny, "prompting unavailable, denying"), e)

def decisionFor (s : Strategy) (host : String) (kind : FailureKind) (a : Action) (prompted : Bool)
    (reason : String) (source : DecisionSource) : Decision :=
  { Decision.forKind kind a prompted reason source with
    timeout := s.decisionTimeout
    remember := s.rememberDecisions
    retryBudget := s.maxRetries }
    |>.withMetadata "hostname" host
    |>.withMetadata "mode" s.mode.name

def cacheHitRecord (s : Strategy) (host : String) (kind : FailureKind) (d : Decision)
    (stamp : Stamp) : AuditRecord :=
  { AuditRecord.new stamp .decisionCacheHit host with
    errorKind := some kind, strategy := some s.mode.name, risk := d.risk, allowed := d.isAllowed }
    |>.withDetail "decision" d.action.name

def decisionRecord (s : Strategy) (host : String) (kind : FailureKind) (d : Decision)
    (stamp : Stamp) : AuditRecord :=
  { AuditRecord.securityDecision stamp host d.action.name d.reason d.risk d.isAllowed with
    errorKind := some kind, strategy := some s.mode.name }
    |>.withDetail "source" d.source.name

def snapshot (e : Engine) : Strategy × Nat :=
  (e.strategy, e.memory.generation)

/-- Decides afresh, under a strategy and a generation taken before. The decision is remembered if
the generation is still the current one. -/
def decideFresh (e : Engine) (s : Strategy) (generation : Nat) (host : String)
    (failure : ClassifiedFailure) : Decision × Engine :=
  let r := resolve s (e.isTrustedHost host) host failure.kind
  let (d, e) : Decision × Engine :=
    if r.action = .prompt then
      let ((a, reason), e) := e.ask s failure
      (decisionFor s host failure.kind a true reason .prompt, e)
    else (decisionFor s host failure.kind r.action false r.reason r.source, e)
  let e := if s.rememberDecisions then
      { e with memory := e.memory.insert generation ⟨host, failure.kind⟩ d }
    else e
  (d, e.audit (decisionRecord s host failure.kind d))

def recalled? (e : Engine) (s : Strategy) (generation : Nat) (key : MemoryKey) : Option Decision :=
  if s.rememberDecisions then e.memory.get? generation key else none

def decide (e : Engine) (failure : ClassifiedFailure) : Except EngineError (Decision × Engine) :=
  let host := Host.key failure.host
  if host.isEmpty then .error .emptyHostname
  else
    let (s, generation) := e.snapshot
    match e.recalled? s generation ⟨host, failure.kind⟩ with
    | some d => .ok (d, e.audit (cacheHitRecord s host failure.kind d))
    | none => .ok (e.decideFresh s generation host failure)

end Engine

end TlsTrust
