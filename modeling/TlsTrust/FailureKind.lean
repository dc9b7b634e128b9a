import TlsTrust.Text.Ascii

namespace TlsTrust

inductive FailureKind where
  | unknown
  | expired
  | notYetValid
  | hostnameMismatch
  | untrustedCA
  | selfSigned
  | badCertificate
  | chainIncomplete
  | revoked
  | keyUsageInvalid
deriving DecidableEq, Repr, Inhabited

namespace FailureKind

def all : List FailureKind :=
  [unknown, expired, notYetValid, hostnameMismatch, untrustedCA, selfSigned, badCertificate,
    chainIncomplete, revoked, keyUsageInvalid]

theorem mem_all (k : FailureKind) : k ∈ all := by
  cases k <;> decide

def name : FailureKind → String
  | unknown => "unknown"
  | expired => "expired"
  | notYetValid => "not_yet_valid"
  | hostnameMismatch => "hostname_mismatch"
  | untrustedCA => "untrusted_ca"
  | selfSigned => "self_signed"
  | badCertificate => "bad_certificate"
  | chainIncomplete => "chain_incomplete"
  | revoked => "revoked"
  | keyUsageInvalid => "key_usage_invalid"

def ofName? (s : String) : Option FailureKind :=
  all.find? fun k => Text.sameLetters k.name s

def isRecoverable : FailureKind → Bool
  | expired | revoked | badCertificate | keyUsageInvalid => false
  | _ => true

def baseRisk : FailureKind → Nat
  | revoked => 10
  | expired => 8
  | badCertificate => 7
  | untrustedCA => 6
  | hostnameMismatch | unknown => 5
  | selfSigned => 4
  | chainIncomplete | keyUsageInvalid => 3
  | notYetValid => 2

def message : FailureKind → String
  | unknown => "Unknown certificate error"
  | expired => "Certificate has expired"
  | notYetValid => "Certificate is not yet valid"
  | hostnameMismatch => "Hostname doesn't match certificate"
  | untrustedCA => "Certificate authority is not trusted"
  | selfSigned => "Certificate is self-signed"
  | badCertificate => "Certificate is malformed or invalid"
  | chainIncomplete => "Certificate chain is incomplete"
  | revoked => "Certificate has been revoked"
  | keyUsageInvalid => "Certificate key usage is inappropriate for this operation"

def suggestedActions : FailureKind → List String
  | unknown =>
    ["Check certificate configuration",
     "Verify TLS connection settings",
     "Review server and client configurations"]
  | expired =>
    ["Renew the certificate",
     "Update server configuration",
     "Check certificate validity period"]
  | notYetValid =>
    ["Check system time synchronization",
     "Wait until certificate becomes valid",
     "Verify certificate validity period"]
  | hostnameMismatch =>
    ["Use the correct hostname from certificate SAN",
     "Add hostname to certificate Subject Alternative Names",
     "Enable hostname verification bypass for development"]
  | untrustedCA =>
    ["Add CA certificate to system trust store",
     "Use a certificate from a trusted CA",
     "Enable untrusted certificate acceptance for development"]
  | selfSigned =>
    ["Add certificate to trust store",
     "Use a CA-signed certificate",
     "Enable self-signed certificate acceptance"]
  | badCertificate =>
    ["Replace with a valid certificate",
     "Check certificate format and encoding",
     "Verify certificate installation"]
  | chainIncomplete =>
    ["Install intermediate certificates",
     "Complete the certificate chain",
     "Verify certificate chain configuration"]
  | revoked =>
    ["Replace with a new certificate",
     "Check certificate revocation status",
     "Contact certificate authority"]
  | keyUsageInvalid =>
    ["Use a certificate with appropriate key usage",
     "Generate new certificate with correct extensions",
     "Verify certificate purpose and usage"]

def unknownName (s : String) : String :=
  s!"unknown certificate error kind: {s}"

end FailureKind

end TlsTrust
