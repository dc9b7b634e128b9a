import TlsTrust.Consent
import TlsTrust.Desk
import TlsTrust.Overrides

/-!
Who may connect without verification: by a variable of the environment, by configuration, or by an
operator who typed `yes`.
-/

namespace TlsTrust

open Text

structure ConsentManager where
  config : ConsentConfig
  overrides : Overrides
  consents : Table Consent := .empty
deriving DecidableEq, Repr

namespace ConsentManager

def pruned (m : ConsentManager) (now : Instant) : ConsentManager :=
  { m with consents := m.consents.filter fun _ c => !c.isExpiredAt now m.config.lifetime }

def store (m : ConsentManager) (now : Instant) (c : Consent) : ConsentManager :=
  if m.config.rememberDecisions then
    let m := m.pruned now
    { m with consents := m.consents.insert c.host c }
  else m

def remembered (m : ConsentManager) (now : Instant) (key : String) :
    Option Consent × ConsentManager :=
  if m.config.rememberDecisions then
    match m.consents.get? key with
    | some c =>
      if c.isExpiredAt now m.config.lifetime then
        (none, { m with consents := m.consents.erase key })
      else (some c, m)
    | none => (none, m)
  else (none, m)

/-- When a consent given at a time ends. This has to be a time of the calendar: the program breaks off a
call that gives a consent which ends later, before it keeps or records anything. -/
def expiry (m : ConsentManager) (given : Instant) : Instant :=
  given.plus m.config.lifetime

def alert (key : String) (expires : Instant) (source : ConsentSource) : String :=
  s!"\nSECURITY ALERT: certificate verification disabled for {key} until "
    ++ s!"{expires.toSecondText} UTC ({source.name})\n"

def grant (m : ConsentManager) (d : Desk) (key : String) (source : ConsentSource)
    (reason : String) (sessionScoped : Bool) : ConsentManager × Desk :=
  let c : Consent := ⟨key, true, d.now, reason, source, sessionScoped⟩
  let d := d.audit fun s => .insecureModeUsed s key source.name true reason
  let d := d.audit fun s => .riskAccepted s key .critical reason
  (m.store d.now c, d.write (alert key (m.expiry d.now) source))

def refuse (m : ConsentManager) (d : Desk) (key reason : String) (remember : Bool) :
    ConsentManager × Desk :=
  let c : Consent := ⟨key, false, d.now, reason, .interactive, true⟩
  let m := if remember then m.store d.now c else m
  let d := d.audit fun s => .insecureModeUsed s key ConsentSource.interactive.name false reason
  (m, d.audit fun s => .riskRejected s key .critical reason)

def question (key : String) (timeout : Duration) : String :=
  s!"Type 'yes' to disable certificate verification for {key} ({Int.tdiv timeout Duration.second}s): "

def isConsent (line : String) : Bool :=
  sameLetters (trim line) "yes"

def act (m : ConsentManager) (d : Desk) (key : String) :
    ReadOutcome → Bool × ConsentManager × Desk
  | .line text =>
    if isConsent text then (true, m.grant d key .interactive "confirmed by operator" true)
    else (false, m.refuse d key "rejected by operator" true)
  | .timedOut =>
    let d := d.write "\nNo confirmation received, keeping verification on.\n"
    (false, m.refuse d key "confirmation timed out" false)
  | .closed => (false, m.refuse d key "confirmation input closed" false)
  | .failed reason => (false, m.refuse d key s!"confirmation input failed: {reason}" false)

def ask (m : ConsentManager) (d : Desk) (key : String) : Bool × ConsentManager × Desk :=
  let d := if m.config.showWarnings then d.write (SecurityWarning.render (SecurityWarning.forHost key))
    else d
  let d := d.write (question key m.config.confirmationTimeout)
  let (outcome, d) := d.readLine
  m.act d key outcome

def decideAnew (m : ConsentManager) (d : Desk) (key : String) : Bool × ConsentManager × Desk :=
  match m.overrides.sourceFor key with
  | some name => (true, m.grant d key .environmentOverride s!"{name} is set" false)
  | none =>
    if m.config.requireConfirmation then m.ask d key
    else (true, m.grant d key .configuration "confirmation not required by configuration" true)

/-- Whether verification may be turned off for a host: by a remembered answer, a variable, the
configuration, or the operator. -/
def confirm (m : ConsentManager) (d : Desk) (host : String) : Bool × ConsentManager × Desk :=
  let key := Host.key host
  if key.isEmpty then (false, m, d)
  else
    match m.remembered d.now key with
    | (some c, m) =>
      (c.confirmed, m, d.audit fun s =>
        .insecureModeUsed s key "remembered" c.confirmed s!"{c.reason} ({c.source.name})")
    | (none, m) => m.decideAnew d key

def consent (m : ConsentManager) (now : Instant) (host : String) : Option Consent × ConsentManager :=
  m.remembered now (Host.key host)

def isInsecure (m : ConsentManager) (now : Instant) (host : String) : Bool × ConsentManager :=
  let key := Host.key host
  if m.overrides.allows key then (true, m)
  else
    let (c, m) := m.remembered now key
    (c.any (·.confirmed), m)

def revoke (m : ConsentManager) (d : Desk) (host : String) : Bool × ConsentManager × Desk :=
  let key := Host.key host
  if m.consents.contains key then
    (true, { m with consents := m.consents.erase key }, d.audit fun s =>
      .securityDecision s key "revoke_insecure_mode" "consent revoked" .none false)
  else (false, m, d)

def insecureHosts (m : ConsentManager) (now : Instant) : List String × ConsentManager :=
  let m := m.pruned now
  ((m.consents.entries.filter (·.2.confirmed)).map (·.1), m)

def statusReport (m : ConsentManager) (now : Instant) : String × ConsentManager :=
  let override :=
    if m.overrides.everywhere.isSome then "all hosts"
    else if m.overrides.hosts.isEmpty then "none"
    else "per host"
  let m := m.pruned now
  let lines := (m.consents.entries.filter (·.2.confirmed)).map fun (host, c) =>
    let remaining := ((m.expiry c.time).since now).wholeMinutes
    s!"  {host}: {c.source.name} ({remaining}m remaining)\n"
  let report := "Insecure mode status\n"
    ++ s!"  confirmation required: {m.config.requireConfirmation}\n"
    ++ s!"  environment override: {override}\n"
    ++ (if lines.isEmpty then "  no hosts in insecure mode\n" else String.join lines)
  (report, m)

end ConsentManager

end TlsTrust
