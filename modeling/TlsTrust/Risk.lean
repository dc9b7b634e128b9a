/-! Only a full bypass of verification is critical, so no score is. -/

namespace TlsTrust

inductive Risk where
  | none
  | low
  | medium
  | high
  | critical
deriving DecidableEq, Repr, Inhabited

namespace Risk

def all : List Risk :=
  [none, low, medium, high, critical]

theorem mem_all (r : Risk) : r ∈ all := by
  cases r <;> decide

def rank : Risk → Nat
  | none => 0
  | low => 1
  | medium => 2
  | high => 3
  | critical => 4

instance : LT Risk := ⟨fun r s => r.rank < s.rank⟩
instance (r s : Risk) : Decidable (r < s) := inferInstanceAs (Decidable (r.rank < s.rank))

def ofScore (score : Nat) : Risk :=
  if score = 0 then none
  else if score ≤ 3 then low
  else if score ≤ 6 then medium
  else high

def name : Risk → String
  | none => "none"
  | low => "low"
  | medium => "medium"
  | high => "high"
  | critical => "critical"

def description : Risk → String
  | none => "No additional security risk"
  | low => "Minimal security impact, acceptable for most environments"
  | medium => "Moderate security risk, review before production use"
  | high => "High security risk, not recommended for production"
  | critical => "Critical security risk, never use in production"

def isHigh : Risk → Bool
  | high | critical => true
  | _ => false

theorem ofScore_ne_critical (score : Nat) : ofScore score ≠ critical := by
  unfold ofScore
  repeat' split
  all_goals decide

end Risk

end TlsTrust
