import TlsTrust.Chain.Path

/-! Validation of a certificate chain at a time, in which signatures are not looked at. -/

namespace TlsTrust

structure Validator where
  now : Instant
  skew : Duration := Duration.ofSeconds 300
  extraRoots : List Certificate := []
  platformRoots : RootStore := .empty
deriving Repr

namespace Validator

def store (v : Validator) (given : Option RootStore) : RootStore :=
  given.getD ⟨v.platformRoots.roots ++ v.extraRoots⟩

def isTrustedCA (v : Validator) (c : Certificate) : Bool :=
  (v.store none).isTrusted c

/-- Whether `t` is in the widened validity window of a certificate, and if not, at which end it is
outside. Both widened ends have to be times of the calendar: the program breaks off where one is not. -/
def checkWindow (v : Validator) (c : Certificate) (t : Instant) : Except ChainError Unit :=
  if c.notAfter.plus v.skew < t then .error (.expired c.subject c.notAfter)
  else if t < c.notBefore.minus v.skew then .error (.notYetValid c.subject c.notBefore)
  else .ok ()

def checkHost (leaf : Certificate) : Option String → Except ChainError Unit
  | some host => if leaf.covers host then .ok () else .error (.notForHost leaf.subject host)
  | none => .ok ()

def checkLeaf (store : RootStore) (leaf : Certificate) : Except ChainError Unit :=
  if leaf.isSelfSigned && !store.isTrusted leaf then .error (.selfSignedLeaf leaf.subject)
  else .ok ()

def checkWindows (v : Validator) (t : Instant) : List Certificate → Except ChainError Unit
  | [] => .ok ()
  | c :: cs => do
    v.checkWindow c t
    checkWindows v t cs

/-- All checks, in order: the window of the leaf, the host, a self-signed leaf, the path, and the
windows of the rest of the path. -/
def check (v : Validator) (leaf : Certificate) (store : RootStore) (pool : List Certificate)
    (t : Instant) (host : Option String) : Except ChainError (List Certificate) := do
  v.checkWindow leaf t
  checkHost leaf host
  checkLeaf store leaf
  let path ← Chain.build leaf store pool
  v.checkWindows t path.tail
  return path

def validate (v : Validator) (leaf : Certificate) (roots : Option RootStore)
    (pool : List Certificate) (time : Option Instant) : Except ChainError (List Certificate) :=
  v.check leaf (v.store roots) pool (time.getD v.now) none

def validateForHost (v : Validator) (leaf : Certificate) (roots : Option RootStore)
    (pool : List Certificate) (time : Option Instant) (host : String) :
    Except ChainError (List Certificate) :=
  if host.isEmpty then .error .emptyHostname
  else v.check leaf (v.store roots) pool (time.getD v.now) (some host)

def hostToCheck (host : Option String) : Option String :=
  host.filter fun h => !h.isEmpty

def validateChain (v : Validator) (chain : List Certificate) (roots : Option RootStore)
    (host : Option String) : Except ChainError (List Certificate) :=
  match chain with
  | [] => .error .emptyChain
  | leaf :: rest => v.check leaf (v.store roots) rest v.now (hostToCheck host)

def buildChain (v : Validator) (leaf : Certificate) (roots : Option RootStore)
    (pool : List Certificate) : Except ChainError (List Certificate) :=
  Chain.build leaf (v.store roots) pool

end Validator

end TlsTrust
