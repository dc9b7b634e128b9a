import TlsTrust.Consent.Manager
import TlsTrust.Engine.Config
import TlsTrust.Engine.Memory
import TlsTrust.Escalation
import TlsTrust.Probe

namespace TlsTrust

/-- The errors of calls that run to their end. A task that is broken off before has one of its own. -/
inductive EngineError where
  | emptyHostname
  | strategy (e : StrategyError)
  | config (e : ConfigError)
  | exhausted (host : String) (attempts recommendations : List String)
deriving DecidableEq, Repr

def EngineError.message : EngineError → String
  | emptyHostname => "Hostname must not be empty"
  | strategy e => e.message
  | config e => e.message
  | exhausted host attempts _ =>
    s!"All fallback strategies failed for {host} ({attempts.length} attempted)"

structure Engine where
  config : EngineConfig
  strategy : Strategy
  memory : DecisionMemory := {}
  trusted : NameSet := .empty
  consents : ConsentManager
  prompter : Prompter
  network : Network
  desk : Desk

namespace Engine

def build (config : EngineConfig) (strategy : Strategy) (prompter : Prompter) (network : Network)
    (desk : Desk) : Except EngineError Engine :=
  match config.validate with
  | .error e => .error (.config e)
  | .ok () =>
    match strategy.validate with
    | .error e => .error (.strategy e)
    | .ok () =>
      .ok {
        config, strategy, prompter, network, desk
        consents := { config := config.consent, overrides := config.overrides } }

def audit (e : Engine) (make : Stamp → AuditRecord) : Engine :=
  { e with desk := e.desk.audit make }

def setStrategy (e : Engine) (s : Strategy) : Except EngineError Engine :=
  match s.validate with
  | .error err => .error (.strategy err)
  | .ok () =>
    let previous := e.strategy.mode
    let memory := if s.retainMemory then e.memory else e.memory.invalidate
    .ok ({ e with strategy := s, memory }.audit fun stamp =>
      { AuditRecord.new stamp .strategyChanged "" with
        strategy := some s.mode.name, allowed := true }
        |>.withDetail "previous" previous.name
        |>.withDetail "memory_cleared" (toString (!s.retainMemory)))

def forgetDecisions (e : Engine) : Engine :=
  { e with memory := e.memory.invalidate }

def addTrustedHost (e : Engine) (host : String) : Except EngineError Engine :=
  let key := Host.key host
  if key.isEmpty then .error .emptyHostname
  else if e.trusted.contains key then .ok e
  else
    .ok ({ e with trusted := e.trusted.add key }.audit fun stamp =>
      { AuditRecord.new stamp .trustChanged key with allowed := true }.withDetail "change" "added")

def removeTrustedHost (e : Engine) (host : String) : Bool × Engine :=
  let key := Host.key host
  if e.trusted.contains key then
    (true, { e with trusted := e.trusted.erase key }.audit fun stamp =>
      (AuditRecord.new stamp .trustChanged key).withDetail "change" "removed")
  else (false, e)

def isTrustedHost (e : Engine) (host : String) : Bool :=
  let key := Host.key host
  e.trusted.contains key || e.trusted.contains (Host.withoutPort key)

def confirmInsecure (e : Engine) (host : String) : Bool × Engine :=
  let (answer, consents, desk) := e.consents.confirm e.desk host
  (answer, { e with consents, desk })

def revokeConsent (e : Engine) (host : String) : Bool × Engine :=
  let (answer, consents, desk) := e.consents.revoke e.desk host
  (answer, { e with consents, desk })

def classify (e : Engine) (failure : CertificateFailure) (host : String) : ClassifiedFailure :=
  .classify failure host e.desk.now

end Engine

end TlsTrust
