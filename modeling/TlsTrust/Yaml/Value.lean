import TlsTrust.Text.Ascii
import TlsTrust.Yaml.Node

namespace TlsTrust.Yaml

open Text

namespace Scalar

def standardTag (name : String) : String :=
  "tag:yaml.org,2002:" ++ name

def isNullWord (s : String) : Bool :=
  s == "~" || s == "null" || s == "Null" || s == "NULL"

def isNothing (s : Scalar) : Bool :=
  s.style == .plain && (s.text.isEmpty || isNullWord s.text)

def isOpen (type : String) (s : Scalar) : Bool :=
  s.style == .plain || (s.style == .literal && s.tag == some (standardTag type))

def bool? (s : Scalar) : Option Bool :=
  if !s.isOpen "bool" then none
  else if ["true", "True", "TRUE"].contains s.text then some true
  else if ["false", "False", "FALSE"].contains s.text then some false
  else none

def digitBelow? (base : Nat) (c : Char) : Option Nat :=
  (hexDigit? c).filter (· < base)

def natInBase? (base : Nat) (cs : List Char) : Option Nat := do
  let ds ← cs.mapM (digitBelow? base)
  let n := ds.foldl (fun n d => base * n + d) 0
  if ds.isEmpty || UInt64.size ≤ n then none else some n

/-- A number below `2 ^ 64`, perhaps after a plus sign, in base ten or in the base that its start
names. A number in base ten does not start with a needless zero. -/
def natOfChars? (cs : List Char) : Option Nat :=
  let unsigned := if cs.head? == some '+' then cs.drop 1 else cs
  let decimal :=
    if 1 < unsigned.length && unsigned.head? == some '0' then none else natInBase? 10 unsigned
  match unsigned with
  | '0' :: 'x' :: ds => natInBase? 16 ds
  | '0' :: 'o' :: ds => natInBase? 8 ds
  | '0' :: 'b' :: ds => natInBase? 2 ds
  | _ => decimal

def nat? (s : Scalar) : Option Nat :=
  if s.isOpen "int" then natOfChars? s.text.toList else none

def name? (s : Scalar) : Option String :=
  match s.tag.map String.toList with
  | some ('!' :: rest) =>
    if s.isNothing then some (if rest.isEmpty then "!" else String.ofList rest) else none
  | _ => some s.text

def optional? {α : Type} (read : Scalar → Option α) (s : Scalar) : Option (Option α) :=
  match s.tag with
  | some t =>
    if t == standardTag "null" then (if isNullWord s.text then some none else none)
    else (read s).map some
  | none => if s.isNothing then some none else (read s).map some

end Scalar

namespace Node

def scalar? : Node → Option Scalar
  | .scalar s => some s
  | _ => none

def text? (n : Node) : Option String :=
  n.scalar?.map (·.text)

def word? {α : Type} (all : List α) (name : α → String) (n : Node) : Option α := do
  let given ← (← n.scalar?).name?
  all.find? fun a => name a == given

def items? : Node → Option (List Node)
  | .sequence items => some items
  | .scalar s => if s.text.isEmpty then some [] else none
  | _ => none

def entries? : Node → Option (List (Node × Node))
  | .mapping entries => some entries
  | .scalar s => if s.text.isEmpty then some [] else none
  | _ => none

def table? {α β : Type} (key : Node → Option α) (value : Node → Option β) (n : Node) :
    Option (List (α × β)) := do
  (← n.entries?).mapM fun (k, v) => do return (← key k, ← value v)

def fields? (names : List String) (n : Node) : Option (List (String × Node)) := do
  let fields ← n.table? text? some
  if fields.all (fun f => names.contains f.1) && (fields.map (·.1)).Nodup then some fields else none

end Node

end TlsTrust.Yaml
