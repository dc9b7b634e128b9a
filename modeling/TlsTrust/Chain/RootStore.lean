import TlsTrust.Certificate

namespace TlsTrust

structure RootStore where
  roots : List Certificate
deriving DecidableEq, Repr

namespace RootStore

def empty : RootStore :=
  ⟨[]⟩

def add (s : RootStore) (c : Certificate) : RootStore :=
  ⟨s.roots ++ [c]⟩

def isTrusted (s : RootStore) (c : Certificate) : Bool :=
  s.roots.any fun root => root == c || (root.fingerprint.isSome && root.fingerprint == c.fingerprint)

def findIssuer? (s : RootStore) (c : Certificate) : Option Certificate :=
  s.roots.find? fun root => root.subject == c.issuer

def size (s : RootStore) : Nat :=
  s.roots.length

end RootStore

end TlsTrust
