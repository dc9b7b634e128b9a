import TlsTrust.Decision

/-! The memory of decisions, which one who holds an older generation neither reads nor writes. -/

namespace TlsTrust

structure MemoryKey where
  host : String
  kind : FailureKind
deriving DecidableEq, Repr

structure DecisionMemory where
  generation : Nat := 0
  entries : List (MemoryKey × Decision) := []
deriving DecidableEq, Repr

namespace DecisionMemory

def invalidate (m : DecisionMemory) : DecisionMemory :=
  ⟨m.generation + 1, []⟩

def find? (m : DecisionMemory) (key : MemoryKey) : Option Decision :=
  m.entries.lookup key

def get? (m : DecisionMemory) (generation : Nat) (key : MemoryKey) : Option Decision :=
  if generation = m.generation then m.find? key else none

def insert (m : DecisionMemory) (generation : Nat) (key : MemoryKey) (d : Decision) :
    DecisionMemory :=
  if generation = m.generation then
    { m with entries := (key, d) :: m.entries.filter fun e => e.1 != key }
  else m

def size (m : DecisionMemory) : Nat :=
  m.entries.length

end DecisionMemory

end TlsTrust
