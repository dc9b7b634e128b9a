import TlsTrust.Strategy

/-!
A strategy starts from the preset of its mode, and what the document gives takes the place of the
preset's values.
-/

namespace TlsTrust

structure StrategyDocument where
  mode : Mode := .secure
  rules : RuleTable := .empty
  hostOverrides : Table Action := .empty
  insecureHosts : List String := []
  promptEnabled : Option Bool := none
  rememberDecisions : Option Bool := none
  retainMemory : Option Bool := none
  decisionTimeout : Option Nat := none
  maxRetries : Option Nat := none

namespace StrategyDocument

/-- Adds overrides under the keys of their hosts. Two of one key have to agree. -/
def addOverrides (t : Table Action) : List (String × Action) → Except StrategyError (Table Action)
  | [] => .ok t
  | (host, a) :: es =>
    let key := Host.key host
    match t.get? key with
    | some b => if b = a then addOverrides (t.insert key a) es else .error (.conflictingOverrides key)
    | none => addOverrides (t.insert key a) es

def toStrategy (d : StrategyDocument) : Except StrategyError Strategy := do
  let preset := Strategy.ofMode d.mode
  let overrides ← addOverrides preset.hostOverrides d.hostOverrides.entries
  return { preset with
    rules := preset.rules.override d.rules
    hostOverrides := overrides
    insecureHosts := d.insecureHosts.foldl (fun s h => s.add (Host.key h)) preset.insecureHosts
    promptEnabled := d.promptEnabled.getD preset.promptEnabled
    rememberDecisions := d.rememberDecisions.getD preset.rememberDecisions
    retainMemory := d.retainMemory.getD preset.retainMemory
    decisionTimeout := d.decisionTimeout.getD preset.decisionTimeout
    maxRetries := d.maxRetries.getD preset.maxRetries }

def ofStrategy (s : Strategy) : StrategyDocument :=
  { mode := s.mode
    rules := s.rules
    hostOverrides := s.hostOverrides
    insecureHosts := s.insecureHosts.keys
    promptEnabled := some s.promptEnabled
    rememberDecisions := some s.rememberDecisions
    retainMemory := some s.retainMemory
    decisionTimeout := some s.decisionTimeout
    maxRetries := some s.maxRetries }

end StrategyDocument

end TlsTrust
