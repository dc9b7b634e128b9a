import TlsTrust.Certificate
import TlsTrust.Certificate.Extension
import TlsTrust.Certificate.Validity
import TlsTrust.Sha256

/-!
Certificates from their bytes; the signature and the key are passed over, but have to be there.
-/

namespace TlsTrust.Certificate

open Der Text

def skipVersion? (bytes : List UInt8) : Option (List UInt8) :=
  if bytes.isEmpty then some bytes
  else do
    let (e, rest) ← element? bytes
    if e.tag ≠ 0 then return bytes
    else if e.tagClass ≠ .context then none
    else
      let (n, _) ← element? e.content
      let _ ← smallNat? n
      return rest

/-- The content of the serial number, which need not be a shortest or a positive number. -/
def serial? (bytes : List UInt8) : Option (List UInt8 × List UInt8) := do
  let (e, rest) ← markedElement? bytes
  if e.tag = 2 then return (e.content, rest) else none

def serialText (bytes : List UInt8) : String :=
  ":".intercalate (bytes.map fun b => hexOfBytes [b])

def skipAlgorithm? (bytes : List UInt8) : Option (List UInt8) := do
  let (body, rest) ← sequence? bytes
  let _ ← ObjectId.read? body
  return rest

def skipKey? (bytes : List UInt8) : Option (List UInt8) := do
  let (body, rest) ← sequence? bytes
  let body ← skipAlgorithm? body
  let _ ← bitString? body
  return rest

def skipUniqueId? (tag : Nat) (bytes : List UInt8) : Option (List UInt8) :=
  if bytes.isEmpty then some bytes
  else do
    let (e, rest) ← element? bytes
    if e.tag ≠ tag then return bytes
    else if e.tagClass = .context ∧ !e.constructed ∧ isBitString e.content then return rest
    else none

def ofFields? (fingerprint : String) (bytes : List UInt8) : Option Certificate := do
  let bytes ← skipVersion? bytes
  let (serial, bytes) ← serial? bytes
  let bytes ← skipAlgorithm? bytes
  let (issuer, bytes) ← DistinguishedName.read? bytes
  let ((notBefore, notAfter), bytes) ← Validity.read? bytes
  let (subject, bytes) ← DistinguishedName.read? bytes
  let bytes ← skipKey? bytes
  let bytes ← skipUniqueId? 1 bytes
  let bytes ← skipUniqueId? 2 bytes
  let extensions ← Extension.readAll? bytes
  let names := CoveredName.ofExtensions extensions
  return {
    subject := subject.text
    issuer := issuer.text
    commonName := subject.commonName?
    dnsNames := names.filterMap CoveredName.dns?
    ipAddresses := names.filterMap CoveredName.ip?
    notBefore, notAfter
    isCA := Authority.ofExtensions extensions
    serial := some (serialText serial)
    fingerprint := some fingerprint }

def ofDer? (bytes : List UInt8) : Option Certificate := do
  let (body, _) ← sequence? bytes
  let (fields, body) ← sequence? body
  let certificate ← ofFields? (hexOfBytes (Sha256.digest bytes)) fields
  let body ← skipAlgorithm? body
  let _ ← bitString? body
  return certificate

end TlsTrust.Certificate
