import TlsTrust.Json

/-!
Records with a fixed list of fields, written as an object or as the array of their values in order.
-/

namespace TlsTrust.Json

structure RecordField where
  name : String
  hasDefault : Bool := false
deriving Repr

def uniqueField? (fields : List (String × Json)) (name : String) : Option (Option Json) :=
  match fields.filter (·.1 == name) with
  | [] => some none
  | [f] => some (some f.2)
  | _ => none

def positional? : List RecordField → List Json → Option (List (Option Json))
  | [], [] => some []
  | [], _ :: _ => none
  | f :: fs, [] => if f.hasDefault then (positional? fs []).map (none :: ·) else none
  | _ :: fs, j :: js => (positional? fs js).map (some j :: ·)

def recordValues? (fields : List RecordField) : Json → Option (List (Option Json))
  | .object given => fields.mapM fun f => uniqueField? given f.name
  | .array items => positional? fields items
  | _ => none

def required {α : Type} (read : Json → Option α) : Option Json → Option α
  | some j => read j
  | none => none

/-- A field that may be missing or `null`. -/
def optionalField {α : Type} (read : Json → Option α) : Option Json → Option (Option α)
  | some j => optional read j
  | none => some none

/-- A field that may be missing, but not `null`. -/
def defaulted {α : Type} (d : α) (read : Json → Option α) : Option Json → Option α
  | some j => read j
  | none => some d

def word? {α : Type} (all : List α) (name : α → String) : Json → Option α
  | .string s => all.find? (name · == s)
  | .object [(s, .null)] => all.find? (name · == s)
  | _ => none

end TlsTrust.Json
