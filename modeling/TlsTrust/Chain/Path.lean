import TlsTrust.Chain.RootStore
import TlsTrust.FailureKind

/-!
Paths from a leaf to a trusted root by the names of issuers; among several certificates of one
subject the first is taken, and none twice.
-/

namespace TlsTrust

inductive ChainError where
  | emptyChain
  | expired (subject : String) (notAfter : Instant)
  | notYetValid (subject : String) (notBefore : Instant)
  | notForHost (subject host : String)
  | selfSignedLeaf (subject : String)
  | untrustedRoot (subject : String)
  | tooDeep
  | untrustedIssuer (issuer subject : String)
  | missingIssuer (issuer : String)
  | emptyHostname
deriving DecidableEq, Repr

namespace Chain

def maxDepth : Nat := 10

end Chain

namespace ChainError

def kind? : ChainError → Option FailureKind
  | emptyChain => some .badCertificate
  | expired _ _ => some .expired
  | notYetValid _ _ => some .notYetValid
  | notForHost _ _ => some .hostnameMismatch
  | selfSignedLeaf _ => some .selfSigned
  | untrustedRoot _ | untrustedIssuer _ _ => some .untrustedCA
  | tooDeep | missingIssuer _ => some .chainIncomplete
  | emptyHostname => none

def reason : ChainError → String
  | emptyChain => "empty certificate chain"
  | expired subject notAfter => s!"{subject} expired at {notAfter.display}"
  | notYetValid subject notBefore => s!"{subject} is not valid until {notBefore.display}"
  | notForHost subject host => s!"certificate for {subject} is not valid for {host}"
  | selfSignedLeaf subject => s!"{subject} is self-signed and not a trusted root"
  | untrustedRoot subject => s!"chain ends at untrusted root {subject}"
  | tooDeep => s!"chain exceeds maximum depth of {Chain.maxDepth}"
  | untrustedIssuer issuer subject => s!"issuer {issuer} of {subject} is not trusted"
  | missingIssuer issuer => s!"no certificate found for issuer {issuer}"
  | emptyHostname => "Hostname must not be empty"

def message (e : ChainError) : String :=
  match e.kind? with
  | some kind => s!"Certificate chain validation failed ({kind.name}): {e.reason}"
  | none => e.reason

end ChainError

namespace Chain

def next? (pool path : List Certificate) (current : Certificate) : Option Certificate :=
  pool.find? fun c => c.subject == current.issuer && !path.contains c

def extend (store : RootStore) (pool : List Certificate) :
    Nat → List Certificate → Certificate → Except ChainError (List Certificate)
  | room, before, current =>
    let path := before ++ [current]
    if store.isTrusted current then .ok path
    else
      match store.findIssuer? current with
      | some root => .ok (path ++ [root])
      | none =>
        if current.isSelfSigned then .error (.untrustedRoot current.subject)
        else
          match room with
          | 0 => .error .tooDeep
          | room + 1 =>
            match next? pool path current with
            | some c => extend store pool room path c
            | none =>
              if before.isEmpty then .error (.untrustedIssuer current.issuer current.subject)
              else .error (.missingIssuer current.issuer)

def build (leaf : Certificate) (store : RootStore) (pool : List Certificate) :
    Except ChainError (List Certificate) :=
  extend store pool (maxDepth - 1) [] leaf

end Chain

end TlsTrust
