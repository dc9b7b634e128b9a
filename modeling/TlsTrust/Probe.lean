import TlsTrust.Time.Instant
import TlsTrust.Transport
import TlsTrust.Url

/-! One attempt to connect, on a network whose behaviour is given beforehand. -/

namespace TlsTrust

inductive ProbeError where
  | invalidHost (host reason : String)
  | clientBuild (reason : String)
  | connection (url message : String)
  | timeout (url : String) (after : Duration)
deriving DecidableEq, Repr

def ProbeError.message : ProbeError → String
  | invalidHost host reason => s!"Invalid registry host '{host}': {reason}"
  | clientBuild reason => s!"Failed to build HTTP client: {reason}"
  | connection url message => s!"Connection to {url} failed: {message}"
  | timeout url after => s!"Probe of {url} timed out after {after.text}"

inductive ProbeOutcome where
  | connects
  | hangs
  | refuses (message : String)
  | timesOut (after : Duration)
  | clientFails (reason : String)
  | badHost (reason : String)
deriving DecidableEq, Repr

inductive Network where
  | accepting (transports : List Transport)
  | scripted (outcomes : List ProbeOutcome)
deriving DecidableEq, Repr

namespace Probe

def defaultPath : String := "/v2/"

def url (host : String) (path : String := defaultPath) : Except ProbeError Url :=
  (Url.afterScheme (Text.trim host ++ path)).mapError fun e => .invalidHost host e.message

end Probe

namespace Network

def probedUrl (host : String) : String :=
  s!"https://{host}/v2/"

def next (n : Network) (t : Transport) : ProbeOutcome × Network :=
  match n with
  | accepting ts =>
    (if ts.contains t then .connects
      else .refuses "x509: certificate signed by unknown authority", n)
  | scripted [] => (.refuses "connection refused", n)
  | scripted (o :: os) => (o, scripted os)

def errorOf? (host : String) (limit : Duration) : ProbeOutcome → Option ProbeError
  | .connects => none
  | .hangs => some (.timeout host limit)
  | .refuses message => some (.connection (probedUrl host) message)
  | .timesOut after => some (.timeout (probedUrl host) after)
  | .clientFails reason => some (.clientBuild reason)
  | .badHost reason => some (.invalidHost host reason)

end Network

end TlsTrust
