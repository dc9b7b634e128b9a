namespace TlsTrust

inductive Action where
  | deny
  | accept
  | log
  | prompt
  | retry
deriving DecidableEq, Repr, Inhabited

namespace Action

def all : List Action :=
  [deny, accept, log, prompt, retry]

def name : Action → String
  | deny => "deny"
  | accept => "accept"
  | log => "log"
  | prompt => "prompt"
  | retry => "retry"

def accepts : Action → Bool
  | accept | log => true
  | _ => false

theorem accepts_eq_true {a : Action} : a.accepts = true ↔ a = accept ∨ a = log := by
  cases a <;> decide

end Action

inductive Mode where
  | secure
  | permissive
  | development
  | interactive
  | custom
deriving DecidableEq, Repr, Inhabited

namespace Mode

def all : List Mode :=
  [secure, permissive, development, interactive, custom]

def name : Mode → String
  | secure => "secure"
  | permissive => "permissive"
  | development => "development"
  | interactive => "interactive"
  | custom => "custom"

def defaultAction : Mode → Action
  | secure | custom => .deny
  | permissive => .log
  | development => .accept
  | interactive => .prompt

end Mode

end TlsTrust
