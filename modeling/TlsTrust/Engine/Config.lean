import TlsTrust.Audit.Logger
import TlsTrust.Consent
import TlsTrust.Overrides

namespace TlsTrust

open Text

structure EngineConfig where
  auditFolder : String
  minSeverity : Severity := .info
  tailCapacity : Nat := Logger.defaultTailCapacity
  actor : Option String := none
  allowInsecureMode : Bool := false
  probeTimeout : Duration := Duration.ofSeconds 10
  consent : ConsentConfig := {}
  overrides : Overrides := {}
deriving DecidableEq, Repr

namespace EngineConfig

def logFolderVariable : String := "TLSGUARD_SECURITY_LOG_DIR"

/-- The configuration that an environment sets, with the folder where logs go by default. The
variables, of which a later one replaces an earlier one of its name, are gone through in any order. -/
def ofVariables (defaultFolder : String) (vars : List (String × String))
    (order : List (String × String) → List (String × String) := id) : EngineConfig :=
  let env := Table.ofList vars
  let folder := (env.get? logFolderVariable).filter fun f => !isBlankText f
  let user := (env.get? "USER").or (env.get? "USERNAME")
  { auditFolder := folder.getD defaultFolder
    actor := user.filter fun u => !u.isEmpty
    overrides := .ofVariables (order env.entries) }

def validate (c : EngineConfig) : Except ConfigError Unit :=
  if c.probeTimeout = 0 then .error .noProbeTime
  else if c.auditFolder.isEmpty then .error .noAuditFolder
  else c.consent.validate

end EngineConfig

end TlsTrust
