/-! JSON values; the fields of an object keep their order and may repeat a name. -/

namespace TlsTrust

inductive Json where
  | null
  | bool (b : Bool)
  | int (n : Int)
  /-- A number written with a fraction or an exponent, or a negative zero: `mantissa * 10 ^ exponent`. -/
  | decimal (mantissa : Int) (exponent : Int)
  | string (s : String)
  /-- A string with half a surrogate pair, which writes no text, or an object with such a name. -/
  | halfPair
  | array (items : List Json)
  | object (fields : List (String × Json))
deriving Repr, Inhabited

namespace Json

mutual

def depth : Json → Nat
  | .array items => depthOfItems items + 1
  | .object fields => depthOfFields fields + 1
  | _ => 0

def depthOfItems : List Json → Nat
  | [] => 0
  | j :: js => max (depth j) (depthOfItems js)

def depthOfFields : List (String × Json) → Nat
  | [] => 0
  | (_, j) :: fs => max (depth j) (depthOfFields fs)

end

/-- Whether `|mantissa| * 10 ^ exponent` rounds to a finite double. -/
def fitsDouble (mantissa exponent : Int) : Bool :=
  let bound := Nat.pow 2 1024 - Nat.pow 2 970
  if mantissa == 0 then true
  else if 400 < exponent then false
  else if 0 ≤ exponent then mantissa.natAbs * Nat.pow 10 exponent.toNat < bound
  else mantissa.natAbs < bound * Nat.pow 10 (-exponent).toNat

mutual

def isReadable : Json → Bool
  | .halfPair => false
  | .decimal m e => fitsDouble m e
  | .int n => -(Int.pow 2 63) ≤ n && n < Int.pow 2 64 || fitsDouble n 0
  | .array items => areReadable items
  | .object fields => haveReadable fields
  | _ => true

def areReadable : List Json → Bool
  | [] => true
  | j :: js => isReadable j && areReadable js

def haveReadable : List (String × Json) → Bool
  | [] => true
  | (_, j) :: fs => isReadable j && haveReadable fs

end

def maxDepth : Nat := 127

def isPlainValue (j : Json) : Bool :=
  j.depth ≤ maxDepth && j.isReadable

def string? : Json → Option String
  | .string s => some s
  | _ => none

def bool? : Json → Option Bool
  | .bool b => some b
  | _ => none

def int? : Json → Option Int
  | .int n => some n
  | _ => none

def array? : Json → Option (List Json)
  | .array items => some items
  | _ => none

def nat? (bits : Nat) : Json → Option Nat
  | .int (.ofNat n) => if n < Nat.pow 2 bits then some n else none
  | _ => none

def strings? (j : Json) : Option (List String) := do
  (← j.array?).mapM string?

def field? (name : String) : Json → Option Json
  | .object fields => (fields.reverse.find? (·.1 == name)).map (·.2)
  | _ => none

def optional {α : Type} (read : Json → Option α) : Json → Option (Option α)
  | .null => some none
  | j => (read j).map some

def compactObject (fields : List (String × Option Json)) : Json :=
  .object (fields.filterMap fun f => f.2.map (f.1, ·))

end Json

end TlsTrust
