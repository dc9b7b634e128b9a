import TlsTrust.Failure.Phrase
import TlsTrust.Host.Profile
import TlsTrust.Json
import TlsTrust.Risk
import TlsTrust.Advice.Line

/-!
Advice on a certificate failure, from the issues recognized in the error text, the profile of the
host and a closing line.
-/

namespace TlsTrust

open Text

namespace Advice

structure Analysis where
  kind : FailureKind
  categories : List Issue
  profile : HostProfile
  lines : List AdviceLine

def profileLines : HostProfile → List AdviceLine
  | .localCluster => AdviceLine.localCluster
  | .publicRegistry r => AdviceLine.publicRegistry ++ [⟨.advice, r.advice⟩]
  | .selfHosted => AdviceLine.selfHosted

def issuesOf (errorText : String) (kind : FailureKind) : List Issue :=
  let found := Issue.recognized.filter fun i => i.phrases.any (mentionsFolded errorText)
  match Issue.ofKind? kind with
  | some i => if found.contains i then found else found ++ [i]
  | none => found

def analyze (host errorText : String) : Analysis :=
  let kind := FailureKind.ofText errorText
  let categories := issuesOf errorText kind
  let profile := HostProfile.ofHost host
  { kind, categories, profile
    lines := categories.flatMap Issue.lines ++ profileLines profile ++ [AdviceLine.closing] }

/-- Puts a host into a line. The places are filled one kind after another, so a host that spells a
later place is filled in turn. -/
def fill (template host : String) : String :=
  let whole := Host.normalized host
  let name := Host.withoutPort whole
  let port := Host.portOf whole name
  let fileName := String.ofList (whole.toList.map fun c => if c == ':' || c == '/' then '_' else c)
  let filled := replaceAll (replaceAll template "{host_file}" fileName) "{host}" whole
  replaceAll (replaceAll filled "{name}" name) "{port}" (if port.isEmpty then "443" else port)

def firstOfEach : List (Tier × String) → List (Tier × String)
  | [] => []
  | l :: ls => l :: (firstOfEach ls).filter (fun m => m.2 != l.2)

def tierLE (l m : Tier × String) : Bool :=
  l.1.rank ≤ m.1.rank

def finish (host : String) (lines : List AdviceLine) : List (Tier × String) :=
  (firstOfEach (lines.map fun l => (l.tier, fill l.text host))).mergeSort tierLE

def finished (host errorText : String) : List (Tier × String) :=
  finish host (analyze host errorText).lines

def recommend (host errorText : String) : List String :=
  (finished host errorText).map (·.2)

structure Detailed where
  category : Issue
  kind : FailureKind
  severity : Risk
  impact : String
  solutions : List String
  nextSteps : List String
  timeEstimate : String
  hostProfile : String
deriving Repr

def Detailed.toJson (d : Detailed) : Json :=
  .object [
    ("category", .string d.category.name),
    ("kind", .string d.kind.name),
    ("severity", .string d.severity.name),
    ("impact", .string d.impact),
    ("solutions", .array (d.solutions.map .string)),
    ("next_steps", .array (d.nextSteps.map .string)),
    ("time_estimate", .string d.timeEstimate),
    ("host_profile", .string d.hostProfile)]

def recommendDetailed (host errorText : String) : Detailed :=
  let a := analyze host errorText
  let category := a.categories.head?.getD .general
  let lines := finish host a.lines
  { category
    kind := a.kind
    severity := .ofScore a.kind.baseRisk
    impact := impactOf a.kind
    solutions := (lines.filter (·.1 != .advice)).map (·.2)
    nextSteps := (lines.filter (·.1 == .advice)).map (·.2)
    timeEstimate := category.timeEstimate
    hostProfile := a.profile.label }

def quickFix (host errorText : String) : String :=
  let lines := finished host errorText
  (((lines.find? (·.1 == .command)).or lines.head?).map (·.2)).getD ""

def diagnostics (host : String) : String :=
  let profile := HostProfile.ofHost host
  let commands := diagnosticCommands.map fun t => s!"  $ {fill t host}\n"
  let own := match profile with
    | .publicRegistry r => s!"  {r.advice}\n"
    | _ => ""
  let known := PublicRegistry.all.map fun r =>
    "  " ++ r.name ++ ": " ++ ", ".intercalate r.suffixes ++ "\n"
  s!"Diagnostics for {host} ({profile.label})\n" ++ String.join commands ++ own
    ++ "Known public registries:\n" ++ String.join known

structure Assessment where
  kind : FailureKind
  risk : Risk
  score : Nat
  impact : String
  mitigations : List String
  compliance : List String
deriving Repr

def Assessment.toJson (a : Assessment) : Json :=
  .object [
    ("kind", .string a.kind.name),
    ("risk", .string a.risk.name),
    ("score", .int a.score),
    ("impact", .string a.impact),
    ("mitigations", .array (a.mitigations.map .string)),
    ("compliance", .array (a.compliance.map .string))]

def assess (kind : FailureKind) : Assessment :=
  let score := min (kind.baseRisk * 10) 100
  { kind
    risk := .ofScore kind.baseRisk
    score
    impact := impactOf kind
    mitigations := kind.suggestedActions
    compliance := if 50 ≤ score then complianceFrameworks else [] }

def numbered (lines : List String) : String :=
  String.join (lines.zipIdx.map fun (l, i) => s!"{padLeft 2 (toString (i + 1))}. {l}\n")

end Advice

end TlsTrust
