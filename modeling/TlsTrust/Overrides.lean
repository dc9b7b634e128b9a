import TlsTrust.Host
import TlsTrust.Table

/-! Variables of the environment that turn verification off, for all hosts or for single ones. -/

namespace TlsTrust

open Text

inductive GlobalOverride where
  | skipVerify
  | insecureRegistries
deriving DecidableEq, Repr

def GlobalOverride.variable_ : GlobalOverride → String
  | skipVerify => "TLSGUARD_SKIP_TLS_VERIFY"
  | insecureRegistries => "TLSGUARD_INSECURE_REGISTRIES"

structure Overrides where
  everywhere : Option GlobalOverride := none
  hosts : NameSet := .empty
deriving DecidableEq, Repr

namespace Overrides

def hostVariableStart : String := "TLSGUARD_INSECURE_"

def isOn (value : String) : Bool :=
  let v := lower (trim value)
  v == "1" || v == "true" || v == "yes" || v == "on"

def apply (o : Overrides) (v : String × String) : Overrides :=
  if !isOn v.2 then o
  else if v.1 = GlobalOverride.skipVerify.variable_ then { o with everywhere := some .skipVerify }
  else if v.1 = GlobalOverride.insecureRegistries.variable_ then
    { o with everywhere := o.everywhere.or (some .insecureRegistries) }
  else
    match stripStart? hostVariableStart.toList v.1.toList with
    | some (c :: cs) => { o with hosts := o.hosts.add (String.ofList (c :: cs)) }
    | _ => o

def ofVariables (vars : List (String × String)) : Overrides :=
  vars.foldl apply {}

def forAll : Overrides :=
  { everywhere := some .skipVerify }

def withHost (o : Overrides) (host : String) : Overrides :=
  { o with hosts := o.hosts.add (Host.variableSuffix host) }

def sourceFor (o : Overrides) (host : String) : Option String :=
  match o.everywhere with
  | some g => some g.variable_
  | none =>
    (([host, Host.withoutPort host].map Host.variableSuffix).find? o.hosts.contains).map
      (hostVariableStart ++ ·)

def allows (o : Overrides) (host : String) : Bool :=
  (o.sourceFor host).isSome

end Overrides

end TlsTrust
