import TlsTrust.Json.Record
import TlsTrust.Certificate
import TlsTrust.Transport

namespace TlsTrust

inductive ConsentSource where
  | interactive
  | environmentOverride
  | configuration
deriving DecidableEq, Repr

namespace ConsentSource

def all : List ConsentSource :=
  [interactive, environmentOverride, configuration]

def name : ConsentSource → String
  | interactive => "interactive"
  | environmentOverride => "environment_override"
  | configuration => "configuration"

end ConsentSource

structure Consent where
  host : String
  confirmed : Bool
  time : Instant
  reason : String
  source : ConsentSource
  sessionScoped : Bool
deriving DecidableEq, Repr

namespace Consent

def transport? (c : Consent) : Option Transport :=
  if c.confirmed then some .unverified else none

def isExpiredAt (c : Consent) (now : Instant) (lifetime : Duration) : Bool :=
  lifetime ≤ now.since c.time

def toJson (c : Consent) : Json :=
  .object [
    ("hostname", .string c.host),
    ("confirmed", .bool c.confirmed),
    ("timestamp", .string c.time.text),
    ("reason", .string c.reason),
    ("source", .string c.source.name),
    ("session_scoped", .bool c.sessionScoped)]

def fields : List Json.RecordField :=
  [⟨"hostname", false⟩, ⟨"confirmed", false⟩, ⟨"timestamp", false⟩, ⟨"reason", false⟩,
    ⟨"source", false⟩, ⟨"session_scoped", false⟩]

def ofJson? (j : Json) : Option Consent := do
  match ← Json.recordValues? fields j with
  | [host, confirmed, time, reason, source, session] =>
    return {
      host := ← Json.required Json.string? host
      confirmed := ← Json.required Json.bool? confirmed
      time := ← Json.required Certificate.instant? time
      reason := ← Json.required Json.string? reason
      source := ← Json.required (Json.word? ConsentSource.all ConsentSource.name) source
      sessionScoped := ← Json.required Json.bool? session }
  | _ => none

end Consent

inductive ConfigError where
  | noProbeTime
  | noAuditFolder
  | confirmationTime
  | noConsentLifetime
deriving DecidableEq, Repr

structure ConsentConfig where
  requireConfirmation : Bool := true
  showWarnings : Bool := true
  rememberDecisions : Bool := true
  confirmationTimeout : Duration := Duration.ofSeconds 30
  lifetime : Duration := Duration.ofSeconds 3600
deriving DecidableEq, Repr

namespace ConsentConfig

def minConfirmation : Nat := 1
def maxConfirmation : Nat := 300

def validate (c : ConsentConfig) : Except ConfigError Unit :=
  if c.confirmationTimeout < Duration.ofSeconds minConfirmation
      ∨ Duration.ofSeconds maxConfirmation < c.confirmationTimeout then .error .confirmationTime
  else if c.lifetime ≤ 0 then .error .noConsentLifetime
  else .ok ()

end ConsentConfig

namespace ConfigError

def reason : ConfigError → String
  | noProbeTime => "probe timeout must be positive"
  | noAuditFolder => "audit directory must not be empty"
  | confirmationTime =>
    s!"confirmation timeout must be between {ConsentConfig.minConfirmation}s "
      ++ s!"and {ConsentConfig.maxConfirmation}s"
  | noConsentLifetime => "consent TTL must be positive"

def message (e : ConfigError) : String :=
  s!"Invalid configuration: {e.reason}"

end ConfigError

structure SecurityWarning where
  level : String
  title : String
  message : String
deriving DecidableEq, Repr

namespace SecurityWarning

def forHost (host : String) : List SecurityWarning := [
  { level := "CRITICAL"
    title := "Certificate verification disabled"
    message := s!"Connections to {host} will not verify the server's identity. "
      ++ "Anyone on the network path can impersonate the registry." },
  { level := "DANGER"
    title := "Image integrity at risk"
    message := "Pulled images and pushed credentials can be intercepted or replaced." },
  { level := "CAUTION"
    title := "Not for production"
    message := "Use insecure mode only for local or throwaway registries." },
  { level := "INFO"
    title := "Safer alternative"
    message := "Install the registry's CA certificate, e.g. under "
      ++ s!"/etc/docker/certs.d/{host}/ca.crt" }]

def render (ws : List SecurityWarning) : String :=
  "\n" ++ String.join (ws.map fun w => s!"[{w.level}] {w.title}\n    {w.message}\n")

end SecurityWarning

end TlsTrust
