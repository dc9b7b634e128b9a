import TlsTrust.Command.Arguments
import TlsTrust.Strategy
import TlsTrust.Text.Ascii

namespace TlsTrust

open Text

inductive OutputFormat where
  | text
  | json
deriving DecidableEq, Repr

structure ClassifyOptions where
  error : String
  host : String
  format : OutputFormat
deriving DecidableEq, Repr

structure RecommendOptions where
  host : String
  error : String
  detailed : Bool
  diagnose : Bool
  format : OutputFormat
deriving DecidableEq, Repr

structure CheckOptions where
  host : String
  mode : Mode
  strategyFile : Option String
  allowInsecure : Bool
  auditFolder : Option String
  timeout : Nat
  format : OutputFormat
deriving DecidableEq, Repr

structure AuditOptions where
  folder : Option String
  hours : Int
  tail : Nat
  format : OutputFormat
deriving DecidableEq, Repr

inductive Command where
  | classify (o : ClassifyOptions)
  | recommend (o : RecommendOptions)
  | check (o : CheckOptions)
  | audit (o : AuditOptions)
  | version
deriving DecidableEq, Repr

namespace Command

def format? : String → Option OutputFormat
  | "text" => some .text
  | "json" => some .json
  | _ => none

def mode? (s : String) : Option Mode :=
  (Mode.parse s).toOption

def count? (s : String) : Option Nat :=
  let ds := match s.toList with
    | '+' :: ds => ds
    | ds => ds
  if ds.isEmpty || !ds.all Char.isDigit || UInt64.size ≤ natOfDigits ds then none
  else some (natOfDigits ds)

def number? (s : String) : Option Int :=
  match s.toList with
  | '-' :: ds =>
    if ds.isEmpty || !ds.all Char.isDigit || Nat.pow 2 63 < natOfDigits ds then none
    else some (-(natOfDigits ds : Int))
  | _ => ((count? s).filter (· < Nat.pow 2 63)).map Int.ofNat

def anyText (_ : String) : Bool := true

def isPath (s : String) : Bool := !s.isEmpty

def formatOption : OptionSpec :=
  { name := "format", letter := some 'f', value := some fun s => (format? s).isSome }

def formatOf (g : Given) : OutputFormat :=
  ((g.value? "format").bind format?).getD .text

def classifyGrammar : Grammar :=
  { positionals := 1, options := [{ name := "host", value := some anyText }, formatOption] }

def recommendGrammar : Grammar :=
  { positionals := 1
    options := [
      { name := "error", letter := some 'e', value := some anyText },
      { name := "detailed", letter := some 'd' },
      { name := "diagnose" },
      formatOption] }

def checkGrammar : Grammar :=
  { positionals := 1
    options := [
      { name := "mode", letter := some 'm', value := some fun s => (mode? s).isSome },
      { name := "strategy-file", letter := some 's', value := some isPath },
      { name := "allow-insecure" },
      { name := "audit-dir", value := some isPath },
      { name := "timeout", value := some fun s => (count? s).isSome },
      formatOption] }

def auditGrammar : Grammar :=
  { positionals := 0
    options := [
      { name := "dir", letter := some 'd', value := some isPath },
      { name := "hours", value := some fun s => (number? s).isSome },
      { name := "tail", letter := some 't', value := some fun s => (count? s).isSome },
      formatOption] }

def first (g : Given) : String :=
  g.positionals.headD ""

def ofClassify (g : Given) : Command :=
  .classify { error := first g, host := (g.value? "host").getD "registry", format := formatOf g }

def ofRecommend (g : Given) : Command :=
  .recommend {
    host := first g
    error := (g.value? "error").getD ""
    detailed := g.has "detailed"
    diagnose := g.has "diagnose"
    format := formatOf g }

def ofCheck (g : Given) : Command :=
  .check {
    host := first g
    mode := ((g.value? "mode").bind mode?).getD .secure
    strategyFile := g.value? "strategy-file"
    allowInsecure := g.has "allow-insecure"
    auditFolder := g.value? "audit-dir"
    timeout := ((g.value? "timeout").bind count?).getD 10
    format := formatOf g }

def ofAudit (g : Given) : Command :=
  .audit {
    folder := g.value? "dir"
    hours := ((g.value? "hours").bind number?).getD 24
    tail := ((g.value? "tail").bind count?).getD 0
    format := formatOf g }

def all : List (String × Grammar × (Given → Command)) :=
  [("classify", classifyGrammar, ofClassify), ("recommend", recommendGrammar, ofRecommend),
    ("check", checkGrammar, ofCheck), ("audit", auditGrammar, ofAudit),
    ("version", ⟨0, []⟩, fun _ => .version)]

def ofProgramOption (a : String) : Except Refusal Command :=
  match a.toList with
  | '-' :: 'V' :: _ => .ok .version
  | '-' :: 'h' :: _ => .error .help
  | _ =>
    if a == "--version" then .ok .version else .error (if a == "--help" then .help else .usage)

def ofHelp : List String → Refusal
  | [] => .help
  | [name] => if name == "help" || (all.lookup name).isSome then .help else .usage
  | _ => .usage

def ofArguments : List String → Except Refusal Command
  | [] => .error .usage
  | name :: rest =>
    if Grammar.isOption name then ofProgramOption name
    else if name == "help" then .error (ofHelp rest)
    else
      match all.lookup name with
      | some (grammar, build) => (grammar.read rest).map build
      | none => .error .usage

end Command

end TlsTrust
