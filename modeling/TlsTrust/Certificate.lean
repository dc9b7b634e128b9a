import TlsTrust.Host
import TlsTrust.IpAddress
import TlsTrust.Json.Record
import TlsTrust.Time.Reader
import TlsTrust.Time.Text

namespace TlsTrust

open Text

structure Certificate where
  subject : String
  issuer : String
  commonName : Option String := none
  dnsNames : List String := []
  ipAddresses : List IpAddress := []
  notBefore : Instant
  notAfter : Instant
  isCA : Bool := false
  serial : Option String := none
  fingerprint : Option String := none
deriving DecidableEq, Repr

namespace Certificate

def isSelfSigned (c : Certificate) : Bool :=
  c.subject == c.issuer

def isExpiredAt (c : Certificate) (t : Instant) : Bool :=
  c.notAfter < t

/-- Whether a name on a certificate covers a host in small letters. A star covers one nonempty
label. -/
def nameCovers (pattern host : String) : Bool :=
  let pattern := lower (dropTrailingDots pattern)
  match stripStart? ['*', '.'] pattern.toList with
  | some rest =>
    match splitFirst? '.' host.toList with
    | some (label, below) => !label.isEmpty && below == rest
    | none => false
  | none => pattern == host

def comparedHost (host : String) : String :=
  lower (dropTrailingDots (Host.withoutPort host))

/-- Whether the certificate covers a host. An address has to be among the addresses; the common
name counts only if there is no DNS name. -/
def covers (c : Certificate) (host : String) : Bool :=
  let host := comparedHost host
  match IpAddress.parse? host with
  | some ip => c.ipAddresses.contains ip
  | none =>
    if c.dnsNames.isEmpty then c.commonName.any (nameCovers · host)
    else c.dnsNames.any (nameCovers · host)

def instantJson (t : Instant) : Json :=
  .string t.text

def toJson (c : Certificate) : Json :=
  .compactObject [
    ("subject", some (.string c.subject)),
    ("issuer", some (.string c.issuer)),
    ("common_name", c.commonName.map .string),
    ("dns_names", if c.dnsNames.isEmpty then none else some (.array (c.dnsNames.map .string))),
    ("ip_addresses", if c.ipAddresses.isEmpty then none
      else some (.array (c.ipAddresses.map fun ip => .string ip.text))),
    ("not_before", some (instantJson c.notBefore)),
    ("not_after", some (instantJson c.notAfter)),
    ("is_ca", some (.bool c.isCA)),
    ("serial", c.serial.map .string),
    ("fingerprint", c.fingerprint.map .string)]

def fields : List Json.RecordField :=
  [⟨"subject", false⟩, ⟨"issuer", false⟩, ⟨"common_name", false⟩, ⟨"dns_names", true⟩,
    ⟨"ip_addresses", true⟩, ⟨"not_before", false⟩, ⟨"not_after", false⟩, ⟨"is_ca", false⟩,
    ⟨"serial", false⟩, ⟨"fingerprint", false⟩]

def instant? (j : Json) : Option Instant := do
  Instant.parse? (← j.string?)

def ipAddress? (j : Json) : Option IpAddress := do
  IpAddress.parse? (← j.string?)

def ofJson? (j : Json) : Option Certificate := do
  match ← Json.recordValues? fields j with
  | [subject, issuer, cn, dns, ips, nb, na, ca, serial, fingerprint] =>
    return {
      subject := ← Json.required Json.string? subject
      issuer := ← Json.required Json.string? issuer
      commonName := ← Json.optionalField Json.string? cn
      dnsNames := ← Json.defaulted [] Json.strings? dns
      ipAddresses := ← Json.defaulted [] (fun j => do (← j.array?).mapM ipAddress?) ips
      notBefore := ← Json.required instant? nb
      notAfter := ← Json.required instant? na
      isCA := ← Json.required Json.bool? ca
      serial := ← Json.optionalField Json.string? serial
      fingerprint := ← Json.optionalField Json.string? fingerprint }
  | _ => none

end Certificate

end TlsTrust
