import TlsTrust.FailureKind
import TlsTrust.Text.Search

/-! The specific rules stand before the general ones, and the first rule that matches decides. -/

namespace TlsTrust

/-- Matches a text that has every phrase of `all` and, unless `any` is empty, one phrase of `any`. -/
structure PhraseRule where
  all : List String
  any : List String
  kind : FailureKind
deriving Repr

namespace PhraseRule

def matchesForm (r : PhraseRule) (form : List Char) : Bool :=
  r.all.all (fun p => Text.occursIn p.toList form)
    && (r.any.isEmpty || r.any.any fun p => Text.occursIn p.toList form)

def rules : List PhraseRule := [
  ⟨[], ["certificate has expired", "certificate expired", "expired certificate"], .expired⟩,
  ⟨[], ["not valid yet", "not yet valid", "notvalidyet", "is not valid until"], .notYetValid⟩,
  ⟨[], ["revoked"], .revoked⟩,
  ⟨[], ["key usage", "invalidpurpose", "incompatible usage"], .keyUsageInvalid⟩,
  ⟨[], ["self signed", "self-signed", "selfsigned"], .selfSigned⟩,
  ⟨[], ["unknown authority", "unknownissuer", "unknown issuer", "untrusted root",
    "unable to get local issuer"], .untrustedCA⟩,
  ⟨["hostname"], ["doesn't match", "does not match", "mismatch"], .hostnameMismatch⟩,
  ⟨[], ["notvalidforname", "not valid for name", "certificate is valid for"], .hostnameMismatch⟩,
  ⟨[], ["certificate chain", "incomplete chain", "unable to get issuer certificate"],
    .chainIncomplete⟩,
  ⟨[], ["bad certificate", "badencoding", "malformed certificate", "badsignature"],
    .badCertificate⟩,
  ⟨[], ["expired"], .expired⟩]

def rank (text : String) : Nat :=
  let form := Text.searchForm text.toList
  rules.findIdx fun r => r.matchesForm form

end PhraseRule

def FailureKind.ofText (text : String) : FailureKind :=
  let form := Text.searchForm text.toList
  ((PhraseRule.rules.find? fun r => r.matchesForm form).map (·.kind)).getD .unknown

end TlsTrust
