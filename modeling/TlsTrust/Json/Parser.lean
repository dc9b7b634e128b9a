import TlsTrust.Json
import TlsTrust.Text.Ascii

/-!
The reader works on a list of characters; its fuel is the length of the text, since every step
consumes a character.
-/

namespace TlsTrust.Json

open TlsTrust.Text

def isSpace (c : Char) : Bool :=
  c == ' ' || c == '\n' || c == '\t' || c == '\r'

def skipSpace (cs : List Char) : List Char :=
  cs.dropWhile isSpace

inductive Piece where
  | char (c : Char)
  | unit (n : Nat)
deriving Repr

def pieces : List Char → Option (List Piece × List Char)
  | [] => none
  | '\\' :: 'u' :: a :: b :: c :: d :: rest => do
    let n := ((16 * (16 * (16 * (← hexDigit? a) + (← hexDigit? b)) + (← hexDigit? c))
      + (← hexDigit? d)))
    let (ps, rest) ← pieces rest
    return (.unit n :: ps, rest)
  | '\\' :: e :: rest => do
    let c ← match e with
      | '\x22' => some '\x22'
      | '\\' => some '\\'
      | '/' => some '/'
      | 'b' => some (Char.ofNat 8)
      | 'f' => some (Char.ofNat 12)
      | 'n' => some '\n'
      | 'r' => some '\r'
      | 't' => some '\t'
      | _ => none
    let (ps, rest) ← pieces rest
    return (.char c :: ps, rest)
  | c :: rest =>
    if c == '\x22' then some ([], rest)
    else if c == '\\' || c.toNat < 32 then none
    else do
      let (ps, rest) ← pieces rest
      return (.char c :: ps, rest)

/-- Joins surrogate pairs. A half of a pair that stands alone writes no text. -/
def joinPieces : List Piece → Option (List Char)
  | [] => some []
  | .char c :: ps => (joinPieces ps).map (c :: ·)
  | .unit hi :: .unit lo :: ps =>
    if 0xD800 ≤ hi ∧ hi < 0xDC00 then
      if 0xDC00 ≤ lo ∧ lo < 0xE000 then
        (joinPieces ps).map (Char.ofNat (0x10000 + (hi - 0xD800) * 0x400 + (lo - 0xDC00)) :: ·)
      else none
    else if 0xDC00 ≤ hi ∧ hi < 0xE000 then none
    else (joinPieces (.unit lo :: ps)).map (Char.ofNat hi :: ·)
  | .unit n :: ps =>
    if 0xD800 ≤ n ∧ n < 0xE000 then none else (joinPieces ps).map (Char.ofNat n :: ·)

/-- A string after its opening quote; nothing in the first place is half a surrogate pair. -/
def stringBody (cs : List Char) : Option (Option String × List Char) := do
  let (ps, rest) ← pieces cs
  return ((joinPieces ps).map String.ofList, rest)

def digits (cs : List Char) : List Char × List Char :=
  (cs.takeWhile Char.isDigit, cs.dropWhile Char.isDigit)

def fraction : List Char → Option (Option (List Char) × List Char)
  | '.' :: rest =>
    let (ds, rest) := digits rest
    if ds.isEmpty then none else some (some ds, rest)
  | cs => some (none, cs)

def exponentPart : List Char → Option (Option Int × List Char)
  | c :: rest =>
    if c == 'e' || c == 'E' then
      let (negative, rest) := match rest with
        | '+' :: r => (false, r)
        | '-' :: r => (true, r)
        | r => (false, r)
      let (ds, rest) := digits rest
      if ds.isEmpty then none
      else
        let n : Int := natOfDigits ds
        some (some (if negative then -n else n), rest)
    else some (none, c :: rest)
  | [] => some (none, [])

def number (negative : Bool) (cs : List Char) : Option (Json × List Char) := do
  let (ds, rest) := digits cs
  if ds.isEmpty || (ds.head? == some '0' && 1 < ds.length) then failure
  let (frac, rest) ← fraction rest
  let (exp, rest) ← exponentPart rest
  let signed (n : Nat) : Int := if negative then -(n : Int) else n
  let n := natOfDigits ds
  if frac.isNone && exp.isNone && !(negative && n == 0) then
    return (.int (signed n), rest)
  let more := frac.getD []
  return (.decimal (signed (natOfDigits (ds ++ more))) (exp.getD 0 - more.length), rest)

mutual

def value : Nat → List Char → Option (Json × List Char)
  | 0, _ => none
  | n + 1, cs =>
    match cs with
    | 'n' :: 'u' :: 'l' :: 'l' :: rest => some (.null, rest)
    | 't' :: 'r' :: 'u' :: 'e' :: rest => some (.bool true, rest)
    | 'f' :: 'a' :: 'l' :: 's' :: 'e' :: rest => some (.bool false, rest)
    | '[' :: rest =>
      match skipSpace rest with
      | ']' :: rest => some (.array [], rest)
      | rest => do
        let (j, rest) ← value n rest
        let (js, rest) ← items n (skipSpace rest)
        return (.array (j :: js), rest)
    | '\x7b' :: rest =>
      match skipSpace rest with
      | '\x7d' :: rest => some (.object [], rest)
      | rest => do
        let (f, rest) ← member n rest
        let (fs, rest) ← members n (skipSpace rest)
        return (match f, fs with | some f, some fs => .object (f :: fs) | _, _ => .halfPair, rest)
    | '\x22' :: rest => do
      let (s, rest) ← stringBody rest
      return (match s with | some s => .string s | none => .halfPair, rest)
    | '-' :: rest => number true rest
    | cs => number false cs

def items : Nat → List Char → Option (List Json × List Char)
  | 0, _ => none
  | n + 1, cs =>
    match cs with
    | ']' :: rest => some ([], rest)
    | ',' :: rest => do
      let (j, rest) ← value n (skipSpace rest)
      let (js, rest) ← items n (skipSpace rest)
      return (j :: js, rest)
    | _ => none

def member : Nat → List Char → Option (Option (String × Json) × List Char)
  | 0, _ => none
  | n + 1, cs =>
    match cs with
    | '\x22' :: rest => do
      let (k, rest) ← stringBody rest
      match skipSpace rest with
      | ':' :: rest =>
        let (j, rest) ← value n (skipSpace rest)
        return (k.map (·, j), rest)
      | _ => none
    | _ => none

def members : Nat → List Char → Option (Option (List (String × Json)) × List Char)
  | 0, _ => none
  | n + 1, cs =>
    match cs with
    | '\x7d' :: rest => some (some [], rest)
    | ',' :: rest => do
      let (f, rest) ← member n (skipSpace rest)
      let (fs, rest) ← members n (skipSpace rest)
      return (match f, fs with | some f, some fs => some (f :: fs) | _, _ => none, rest)
    | _ => none

end

def parse? (s : String) : Option Json := do
  let cs := s.toList
  let (j, rest) ← value (2 * cs.length + 2) (skipSpace cs)
  if (skipSpace rest).isEmpty then some j else none

end TlsTrust.Json
