import TlsTrust.Advice
import TlsTrust.Audit.LogFolder
import TlsTrust.Audit.Summary
import TlsTrust.Command
import TlsTrust.Engine.Config
import TlsTrust.Failure
import TlsTrust.Json.Printer
import TlsTrust.Probe
import TlsTrust.Strategy.Reader

/-!
What a command needs from the disk is named first and then supplied, so that all else is a function
of the arguments, the environment, the time and that supply.
-/

namespace TlsTrust

open Text

inductive Need where
  | nothing
  | textFile (path : String)
  | logFolder (path : String)
deriving DecidableEq, Repr

inductive Supply where
  | nothing
  | textFile (content : Except DiskError String)
  | logFolder (folder : LogFolder)

namespace Supply

def text : Supply → Except DiskError String
  | textFile content => content
  | _ => .error .notFound

def folder : Supply → LogFolder
  | logFolder folder => folder
  | _ => .absent

end Supply

structure Outcome where
  exitCode : Nat := 0
  output : String := ""
  errors : String := ""
deriving DecidableEq, Repr

inductive Progress where
  | ended (o : Outcome)
  | connects (u : Url)
deriving DecidableEq, Repr

namespace Outcome

def causeText (number : Option Nat) (cause : String) : String :=
  match number with
  | some n =>
    s!"{padLeft 5 (toString n)}: " ++ replaceAll cause "\n" "\n       "
  | none => "    " ++ replaceAll cause "\n" "\n    "

def report (error : String) (causes : List String) : String :=
  let numbered := match causes with
    | [cause] => [causeText none cause]
    | causes => causes.zipIdx.map fun (cause, n) => causeText (some n) cause
  if causes.isEmpty then s!"Error: {error}\n"
  else s!"Error: {error}\n\nCaused by:\n" ++ String.join (numbered.map (· ++ "\n"))

def failure (error : String) (causes : List String := []) : Outcome :=
  { exitCode := 1, errors := report error causes }

def json (j : Json) : Outcome :=
  { output := j.renderLines ++ "\n" }

end Outcome

abbrev Environment := List (String × String)

namespace Environment

def defaultLogFolder (env : Environment) : String :=
  let values := Table.ofList env
  let home := (values.get? "HOME").getD ""
  let data := ((values.get? "XDG_DATA_HOME").filter fun d =>
    d.toList.head? == some '/').getD (home ++ "/.local/share")
  data ++ "/tlsguard/security"

def config (env : Environment) : EngineConfig :=
  .ofVariables (defaultLogFolder env) env

end Environment

namespace ClassifyOptions

def run (o : ClassifyOptions) (now : Instant) : Outcome :=
  let e := ClassifiedFailure.classify { message := o.error } o.host now
  match o.format with
  | .json => .json e.toJson
  | .text =>
    let recoverable := if e.recoverable then "yes" else "no"
    { output := s!"Kind:        {e.kind.name}\nRecoverable: {recoverable}\n"
        ++ s!"Base risk:   {e.kind.baseRisk}/10\n\n{e.description}\n" }

end ClassifyOptions

namespace RecommendOptions

def detailedText (d : Advice.Detailed) : String :=
  let a := Advice.assess d.kind
  let conflicts := if a.compliance.isEmpty then ""
    else "\nAccepting this certificate may conflict with:\n"
      ++ String.join (a.compliance.map fun f => s!"  - {f}\n")
  s!"Category:      {d.category.name}\nKind:          {d.kind.name}\n"
    ++ s!"Severity:      {d.severity.name}\nRegistry:      {d.hostProfile}\n"
    ++ s!"Time estimate: {d.timeEstimate}\nImpact:        {d.impact}\n"
    ++ s!"Risk score:    {a.score}/100\n\nSolutions:\n{Advice.numbered d.solutions}\n"
    ++ s!"Next steps:\n{Advice.numbered d.nextSteps}{conflicts}"

def run (o : RecommendOptions) : Outcome :=
  if o.diagnose then { output := Advice.diagnostics o.host }
  else if o.detailed then
    let d := Advice.recommendDetailed o.host o.error
    match o.format with
    | .json => .json d.toJson
    | .text => { output := detailedText d }
  else
    let lines := Advice.recommend o.host o.error
    match o.format with
    | .json => .json (.array (lines.map .string))
    | .text => { output := s!"Recommendations for {o.host}:\n{Advice.numbered lines}" }

end RecommendOptions

namespace AuditOptions

def folderPath (o : AuditOptions) (env : Environment) : String :=
  o.folder.getD env.config.auditFolder

def recordLine (r : AuditRecord) : String :=
  let allowed := if r.allowed then "allowed" else ""
  s!"  {r.time.toSecondText} {padRight 8 r.severity.title} {padRight 22 r.event.name} "
    ++ s!"{r.host} {allowed}\n"

def text (summary : AuditSummary) (recent : List AuditRecord) : String :=
  if recent.isEmpty then summary.text
  else summary.text ++ "\nRecent records:\n" ++ String.join (recent.map recordLine)

def run (o : AuditOptions) (env : Environment) (folder : LogFolder) (now : Instant) : Outcome :=
  if o.hours ≤ 0 then .failure "--hours must be positive"
  else
    match folder.readRecords with
    | .error e =>
      .failure s!"failed to read audit log in {o.folderPath env}"
        [s!"I/O error: {e.message}", e.message]
    | .ok records =>
      let start := now.minus (.ofSeconds (3600 * o.hours))
      let summary := AuditSummary.ofRecords records start now
      let recent := records.drop (records.length - o.tail)
      match o.format with
      | .json => .json (.object [
          ("summary", summary.toJson), ("recent", .array (recent.map AuditRecord.toJson))])
      | .text => { output := text summary recent }

end AuditOptions

namespace CheckOptions

def strategyIn (path : String) (content : Except DiskError String) : Except Outcome Strategy :=
  match content with
  | .error e => .error (.failure s!"failed to read strategy file {path}" [e.message])
  | .ok text =>
    (Strategy.ofText text).mapError fun e => .failure s!"invalid strategy file {path}" <|
      match e with
      | .malformed => ["Failed to parse strategy"]
      | .conflict e => [s!"Failed to parse strategy: {e.message}", e.message]
      | .invalid e => [e.message]

def strategy (o : CheckOptions) (content : Except DiskError String) : Except Outcome Strategy :=
  match o.strategyFile with
  | some path => strategyIn path content
  | none => .ok (Strategy.ofMode o.mode)

def config (o : CheckOptions) (env : Environment) : EngineConfig :=
  let c := env.config
  { c with
    allowInsecureMode := o.allowInsecure
    probeTimeout := .ofSeconds o.timeout
    auditFolder := o.auditFolder.getD c.auditFolder }

def prepare (o : CheckOptions) (env : Environment) (content : Except DiskError String) :
    Except Outcome Url := do
  let _ ← o.strategy content
  (o.config env).validate.mapError fun e => .failure e.message
  (Probe.url o.host).mapError fun e => .failure "registry probe failed" [e.message]

def run (o : CheckOptions) (env : Environment) (content : Except DiskError String) : Progress :=
  match o.prepare env content with
  | .ok u => .connects u
  | .error e => .ended e

end CheckOptions

namespace Command

def versionText : String := "tlsguard 0.1.0\n"

def need (env : Environment) : Command → Need
  | .audit o => if 0 < o.hours then .logFolder (o.folderPath env) else .nothing
  | .check o => (o.strategyFile.map .textFile).getD .nothing
  | _ => .nothing

def run (c : Command) (env : Environment) (supply : Supply) (now : Instant) : Progress :=
  match c with
  | classify o => .ended (o.run now)
  | recommend o => .ended o.run
  | check o => o.run env supply.text
  | audit o => .ended (o.run env supply.folder now)
  | version => .ended { output := versionText }

def refusalOutcome : Refusal → Outcome
  | .usage => { exitCode := 2 }
  | .help => {}

end Command

end TlsTrust
