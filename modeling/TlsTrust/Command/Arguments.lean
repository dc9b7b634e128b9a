import TlsTrust.Text.Search

/-!
Options and positional arguments may come in any order; after two hyphens alone, all arguments are
positional.
-/

namespace TlsTrust.Command

open Text

structure OptionSpec where
  name : String
  letter : Option Char := none
  value : Option (String → Bool) := none

structure Grammar where
  positionals : Nat
  options : List OptionSpec

structure Given where
  positionals : List String := []
  options : List (String × String) := []
deriving DecidableEq, Repr

inductive Refusal where
  | usage
  | help
deriving DecidableEq, Repr

namespace Given

def value? (g : Given) (name : String) : Option String :=
  g.options.lookup name

def has (g : Given) (name : String) : Bool :=
  (g.value? name).isSome

def add (g : Given) (o : OptionSpec) (value : String) : Except Refusal Given :=
  if g.has o.name || !(o.value.all fun accepts => accepts value) then .error .usage
  else .ok { g with options := g.options ++ [(o.name, value)] }

end Given

namespace Grammar

def isOption (a : String) : Bool :=
  match a.toList with
  | '-' :: _ :: _ => true
  | _ => false

def readLong (g : Grammar) (cs : List Char) (given : Given) :
    Except Refusal (Given × Option OptionSpec) :=
  let (name, value) : List Char × Option String :=
    match splitFirst? '=' cs with
    | some (name, value) => (name, some (String.ofList value))
    | none => (cs, none)
  let name := String.ofList name
  match g.options.find? (·.name == name), value with
  | some o, some value => if o.value.isNone then .error .usage else return (← given.add o value, none)
  | some o, none => if o.value.isNone then return (← given.add o "", none) else .ok (given, some o)
  | none, value => .error (if name == "help" && value.isNone then .help else .usage)

def attached : List Char → String
  | '=' :: cs => String.ofList cs
  | cs => String.ofList cs

def readLetters (g : Grammar) : List Char → Given → Except Refusal (Given × Option OptionSpec)
  | [], given => .ok (given, none)
  | c :: cs, given =>
    match g.options.find? (·.letter == some c) with
    | some o =>
      if o.value.isNone then do readLetters g cs (← given.add o "")
      else if cs.isEmpty then .ok (given, some o)
      else return (← given.add o (attached cs), none)
    | none => .error (if c == 'h' then .help else .usage)

def readOption (g : Grammar) (a : String) (given : Given) :
    Except Refusal (Given × Option OptionSpec) :=
  match a.toList with
  | '-' :: '-' :: cs => g.readLong cs given
  | '-' :: cs => g.readLetters cs given
  | _ => .error .usage

def readFrom (g : Grammar) (onlyPositional : Bool) : List String → Given → Except Refusal Given
  | [], given => if given.positionals.length = g.positionals then .ok given else .error .usage
  | a :: rest, given =>
    if onlyPositional || !isOption a then
      if given.positionals.length < g.positionals then
        readFrom g onlyPositional rest { given with positionals := given.positionals ++ [a] }
      else .error .usage
    else if a == "--" then readFrom g true rest given
    else
      match g.readOption a given with
      | .error e => .error e
      | .ok (given, none) => readFrom g false rest given
      | .ok (given, some o) =>
        match rest with
        | [] => .error .usage
        | value :: rest =>
          if isOption value then .error .usage
          else do readFrom g false rest (← given.add o value)

def read (g : Grammar) (args : List String) : Except Refusal Given :=
  g.readFrom false args {}

end Grammar

end TlsTrust.Command
