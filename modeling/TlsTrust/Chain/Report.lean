import TlsTrust.Chain.Validator

/-!
Reports on a presented chain: a summary with the validity that all its certificates share, and the
list of problems by position.
-/

namespace TlsTrust

namespace Chain

def warningDays : Int := 30

inductive Issue where
  | expired (position : Nat) (c : Certificate)
  | notYetValid (position : Nat) (c : Certificate)
  | endsSoon (position : Nat) (c : Certificate) (days : Int)
  | emptyChain
deriving DecidableEq, Repr

namespace Issue

def text : Issue → String
  | expired i c => s!"certificate {i} ({c.subject}) expired at {c.notAfter.display}"
  | notYetValid i c => s!"certificate {i} ({c.subject}) is not valid until {c.notBefore.display}"
  | endsSoon i c days => s!"certificate {i} ({c.subject}) expires in {days} days"
  | emptyChain => "empty certificate chain"

end Issue

/-- The issues found so far, with the validity of the chain as far as it has been looked at, after one
more certificate. An end that is near leaves the chain valid. -/
def inspect (now : Instant) (found : List Issue × Bool) : Certificate × Nat → List Issue × Bool
  | (c, i) =>
    if c.isExpiredAt now then (found.1 ++ [.expired i c], false)
    else if now < c.notBefore then (found.1 ++ [.notYetValid i c], false)
    else
      let days := (c.notAfter.since now).wholeDays
      if days < warningDays then (found.1 ++ [.endsSoon i c days], found.2) else found

def survey (now : Instant) (chain : List Certificate) : List Issue × Bool :=
  chain.zipIdx.foldl (inspect now) (if chain.isEmpty then ([.emptyChain], false) else ([], true))

def latest? : List Instant → Option Instant
  | [] => none
  | t :: ts => some (ts.foldl (fun m u => if m ≤ u then u else m) t)

def earliest? : List Instant → Option Instant
  | [] => none
  | t :: ts => some (ts.foldl (fun m u => if u < m then u else m) t)

structure Info where
  length : Nat
  notBefore : Option Instant
  notAfter : Option Instant
  leafSubject : Option String
  rootSubject : Option String
  issues : List Issue
  isValid : Bool
deriving Repr

def info (now : Instant) (chain : List Certificate) : Info :=
  let (issues, isValid) := survey now chain
  { length := chain.length
    notBefore := latest? (chain.map (·.notBefore))
    notAfter := earliest? (chain.map (·.notAfter))
    leafSubject := chain.head?.map (·.subject)
    rootSubject := chain.getLast?.map (·.subject)
    issues := issues
    isValid := isValid }

def Info.toJson (i : Info) : Json :=
  let orNull (j : Option Json) : Json := j.getD .null
  .object [
    ("length", .int i.length),
    ("not_before", orNull (i.notBefore.map Certificate.instantJson)),
    ("not_after", orNull (i.notAfter.map Certificate.instantJson)),
    ("leaf_subject", orNull (i.leafSubject.map .string)),
    ("root_subject", orNull (i.rootSubject.map .string)),
    ("issues", .array (i.issues.map fun x => .string x.text)),
    ("is_valid", .bool i.isValid)]

structure Problem where
  position : Nat
  subject : String
  kind : FailureKind
  reason : String
deriving DecidableEq, Repr

namespace Problem

def display (p : Problem) : String :=
  s!"[{p.position}] {p.subject} ({p.kind.name}): {p.reason}"

def toJson (p : Problem) : Json :=
  .object [
    ("position", .int p.position),
    ("subject", .string p.subject),
    ("kind", .string p.kind.name),
    ("reason", .string p.reason)]

end Problem

def windowProblems (v : Validator) (i : Nat) (c : Certificate) : List Problem :=
  match v.checkWindow c v.now with
  | .ok () => []
  | .error e => match e.kind? with
    | some kind => [⟨i, c.subject, kind, e.reason⟩]
    | none => []

def hostProblems (host : Option String) (i : Nat) (c : Certificate) : List Problem :=
  match i, Validator.hostToCheck host with
  | 0, some h =>
    if c.covers h then [] else [⟨0, c.subject, .hostnameMismatch, s!"not valid for {h}"⟩]
  | _, _ => []

def linkProblems (i : Nat) (c : Certificate) : List Certificate → List Problem
  | parent :: _ =>
    if c.issuer == parent.subject then []
    else [⟨i, c.subject, .chainIncomplete,
      s!"issuer {c.issuer} does not match next subject {parent.subject}"⟩]
  | [] =>
    if c.isSelfSigned && i == 0 then
      [⟨i, c.subject, .selfSigned, "leaf certificate is self-signed"⟩]
    else []

def problemsFrom (v : Validator) (host : Option String) : Nat → List Certificate → List Problem
  | _, [] => []
  | i, c :: rest =>
    windowProblems v i c ++ hostProblems host i c ++ linkProblems i c rest
      ++ problemsFrom v host (i + 1) rest

end Chain

def Validator.analyze (v : Validator) (chain : List Certificate) (host : Option String) :
    List Chain.Problem :=
  Chain.problemsFrom v host 0 chain

end TlsTrust
