import TlsTrust.Certificate
import TlsTrust.Failure.Phrase

/-!
A certificate failure is classified from the typed information that comes with it, or else from the
phrases in its text.
-/

namespace TlsTrust

inductive RejectReason where
  | expired
  | notAuthorizedToSign
  | other
deriving DecidableEq, Repr

namespace RejectReason

def all : List RejectReason :=
  [expired, notAuthorizedToSign, other]

def name : RejectReason → String
  | expired => "expired"
  | notAuthorizedToSign => "not_authorized_to_sign"
  | other => "other"

end RejectReason

inductive FailurePayload where
  | hostnameMismatch (certificate : Option Certificate) (host : String)
  | unknownAuthority (certificate : Option Certificate)
  | certificateInvalid (certificate : Option Certificate) (reason : RejectReason)
deriving DecidableEq, Repr

namespace FailurePayload

def certificate? : FailurePayload → Option Certificate
  | hostnameMismatch c _ | unknownAuthority c | certificateInvalid c _ => c

def kind : FailurePayload → FailureKind
  | hostnameMismatch _ _ => .hostnameMismatch
  | unknownAuthority _ => .untrustedCA
  | certificateInvalid _ .expired => .expired
  | certificateInvalid _ .notAuthorizedToSign => .untrustedCA
  | certificateInvalid _ .other => .badCertificate

end FailurePayload

structure CertificateFailure where
  message : String
  payload : Option FailurePayload := none
  chain : List Certificate := []
deriving DecidableEq, Repr

namespace CertificateFailure

def flatten (text : String) (causes : List String) : String :=
  causes.foldl (fun m cause => if Text.includes m cause then m else m ++ ": " ++ cause) text

def leaf? (f : CertificateFailure) : Option Certificate :=
  (f.payload.bind FailurePayload.certificate?).or f.chain.head?

/-- The kind of a failure. An untrusted authority that is the leaf itself is a self-signed leaf. -/
def kind (f : CertificateFailure) : FailureKind :=
  let kind := match f.payload with
    | some p => p.kind
    | none => .ofText f.message
  if kind == .untrustedCA && f.leaf?.any Certificate.isSelfSigned then .selfSigned else kind

inductive QuotedName where
  | noMarker
  | noQuote
  | name (cs : List Char)

def quotedAfter (marker : String) (text : List Char) : QuotedName :=
  let before := (text.map Char.toLower)
  match Text.afterFirst? marker.toList before with
  | none => .noMarker
  | some rest =>
    match text.drop (text.length - rest.length) with
    | [] => .noQuote
    | q :: inner =>
      if q == '\x27' || q == '\x22' then .name (inner.takeWhile (· != q)) else .noQuote

/-- The host named in the text of a mismatch, in quotes of either kind. A marker without a quote
after it ends the search. -/
def requestedHost? (text : String) : Option String :=
  let cs := text.toList
  let second : Option String := match quotedAfter "name " cs with
    | .name (c :: inner) => some (String.ofList (c :: inner))
    | _ => none
  match quotedAfter "hostname " cs with
  | .name [] | .noMarker => second
  | .name inner => some (String.ofList inner)
  | .noQuote => none

end CertificateFailure

structure ClassifiedFailure where
  kind : FailureKind
  errorText : String
  certificate : Option Certificate
  chain : List Certificate
  host : String
  requestedHost : Option String
  time : Instant
  recoverable : Bool
  message : String
  suggestedActions : List String
deriving DecidableEq, Repr

namespace ClassifiedFailure

def messageFor (kind : FailureKind) (host : String) (requested : Option String)
    (certificate : Option Certificate) : String :=
  let base :=
    if kind == .hostnameMismatch then s!"Hostname '{requested.getD host}' doesn't match certificate"
    else if host.isEmpty then kind.message
    else s!"{kind.message} (hostname: {host})"
  match certificate with
  | some c => s!"{base} (subject: {c.subject})"
  | none => base

def classify (f : CertificateFailure) (host : String) (time : Instant) : ClassifiedFailure :=
  let kind := f.kind
  let requested := match f.payload with
    | some (.hostnameMismatch _ named) => some named
    | _ => if kind == .hostnameMismatch then CertificateFailure.requestedHost? f.message else none
  { kind
    errorText := f.message
    certificate := f.leaf?
    chain := f.chain
    host
    requestedHost := requested
    time
    recoverable := kind.isRecoverable
    message := messageFor kind host requested f.leaf?
    suggestedActions := kind.suggestedActions }

def summary (e : ClassifiedFailure) : String :=
  s!"{e.kind.name}: {e.message}"

def description (e : ClassifiedFailure) : String :=
  let hostLine := if e.host.isEmpty then "" else s!"Host: {e.host}\n"
  let answer := if e.recoverable then "yes" else "no"
  let certificateLines := match e.certificate with
    | some c =>
      s!"Subject: {c.subject}\nIssuer: {c.issuer}\n"
        ++ s!"Valid: {c.notBefore.display} .. {c.notAfter.display}\n"
    | none => ""
  let actions := e.suggestedActions.zipIdx.map fun (a, i) => s!"  {i + 1}. {a}\n"
  s!"Certificate error: {e.message}\nKind: {e.kind.name}\n" ++ hostLine
    ++ s!"Recoverable: {answer}\n" ++ certificateLines ++ "Suggested actions:\n"
    ++ String.join actions

def toJson (e : ClassifiedFailure) : Json :=
  .compactObject [
    ("kind", some (.string e.kind.name)),
    ("error_text", some (.string e.errorText)),
    ("certificate", e.certificate.map Certificate.toJson),
    ("chain", if e.chain.isEmpty then none else some (.array (e.chain.map Certificate.toJson))),
    ("hostname", some (.string e.host)),
    ("requested_hostname", e.requestedHost.map .string),
    ("timestamp", some (.string e.time.text)),
    ("recoverable", some (.bool e.recoverable)),
    ("message", some (.string e.message)),
    ("suggested_actions", some (.array (e.suggestedActions.map .string)))]

end ClassifiedFailure

end TlsTrust
