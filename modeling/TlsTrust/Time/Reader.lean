import TlsTrust.Time.Instant
import TlsTrust.Text.Ascii
import TlsTrust.Text.Blank

/-! Instants from texts, in which blanks may stand before a number and around the separators. -/

namespace TlsTrust.Time

open Text

structure Reading where
  year : Int
  month : Nat
  day : Nat
  hour : Nat
  minute : Nat
  second : Nat
  nano : Nat
deriving Repr

def number? (width : Nat) (cs : List Char) : Option (Nat × List Char) :=
  let cs := cs.dropWhile isBlank
  let ds := (cs.take width).takeWhile Char.isDigit
  if ds.isEmpty then none else some (natOfDigits ds, cs.drop ds.length)

def year? (cs : List Char) : Option (Int × List Char) :=
  match cs.dropWhile isBlank with
  | '-' :: rest =>
    let ds := rest.takeWhile Char.isDigit
    if ds.isEmpty then none else some (-(natOfDigits ds : Int), rest.drop ds.length)
  | '+' :: rest =>
    let ds := rest.takeWhile Char.isDigit
    if ds.isEmpty then none else some ((natOfDigits ds : Int), rest.drop ds.length)
  | cs => (number? 4 cs).map fun (n, rest) => ((n : Int), rest)

def separator? (c : Char) (cs : List Char) : Option (List Char) :=
  match cs.dropWhile isBlank with
  | d :: rest => if d == c then some rest else none
  | [] => none

def fraction? : List Char → Option (Nat × List Char)
  | '.' :: rest =>
    let ds := rest.takeWhile Char.isDigit
    if ds.isEmpty then none
    else
      let kept := ds.take 9
      some (natOfDigits kept * Nat.pow 10 (9 - kept.length), rest.drop ds.length)
  | cs => some (0, cs)

def millis? : List Char → Option (Nat × List Char)
  | '.' :: a :: b :: c :: rest =>
    if [a, b, c].all Char.isDigit then some (natOfDigits [a, b, c] * 1000000, rest) else none
  | '.' :: _ => none
  | cs => some (0, cs)

def offset? (cs : List Char) : Option (Int × List Char) :=
  let cs := cs.dropWhile isBlank
  if (cs.take 3).map Char.toLower == ['u', 't', 'c'] then some (0, cs.drop 3)
  else
    match cs with
    | 'Z' :: rest => some (0, rest)
    | 'z' :: rest => some (0, rest)
    | sign :: h₁ :: h₂ :: rest => do
      let negative ←
        if sign == '+' then some false
        else if sign == '-' || sign == Char.ofNat 0x2212 then some true
        else none
      let hours := 10 * (← digit? h₁) + (← digit? h₂)
      match rest.dropWhile (fun c => c == ':' || isBlank c) with
      | m₁ :: m₂ :: rest =>
        let tens ← digit? m₁
        if 6 ≤ tens then failure
        let minutes := 10 * tens + (← digit? m₂)
        let seconds : Int := hours * 3600 + minutes * 60
        return (if negative then -seconds else seconds, rest)
      | _ => none
    | _ => none

def Reading.instant? (r : Reading) (offset : Int) : Option Instant := do
  let date : Date := ⟨r.year, r.month, r.day⟩
  if !date.isValid || r.year < minYear || maxYear < r.year then failure
  if 24 ≤ r.hour || 60 ≤ r.minute || 61 ≤ r.second then failure
  if offset ≤ -86400 || 86400 ≤ offset then failure
  let leap := r.second == 60
  let second := date.toDays * 86400 + r.hour * 3600 + r.minute * 60
    + (if leap then 59 else (r.second : Int)) - offset
  let year := (Date.ofDays (second / 86400)).year
  if year < minYear || maxYear < year then failure
  let nano := r.nano + (if leap then 1000000000 else 0)
  if h : nano < 2000000000 then return ⟨second, nano, h⟩ else none

def calendar? (cs : List Char) : Option ((Int × Nat × Nat) × List Char) := do
  let (year, cs) ← year? cs
  let (month, cs) ← number? 2 (← separator? '-' cs)
  let (day, cs) ← number? 2 (← separator? '-' cs)
  return ((year, month, day), cs)

end Time

open Time Text

/-- Reads the form in records. Between the date and the time stands a `T` of either case or a blank,
and the offset is required. -/
def Instant.parse? (s : String) : Option Instant := do
  let ((year, month, day), cs) ← calendar? s.toList
  let cs ← match cs with
    | c :: rest => if c == 'T' || c == 't' || c == ' ' then some rest else none
    | [] => none
  let (hour, cs) ← number? 2 cs
  let (minute, cs) ← number? 2 (← separator? ':' cs)
  let (second, cs) ← number? 2 (← separator? ':' cs)
  let (nano, cs) ← fraction? cs
  let (offset, cs) ← offset? cs
  if !(cs.all isBlank) then failure
  Reading.instant? ⟨year, month, day, hour, minute, second, nano⟩ offset

def Instant.ofStamp? (cs : List Char) : Option Instant := do
  let (year, cs) ← year? cs
  let (month, cs) ← number? 2 cs
  let (day, cs) ← number? 2 cs
  let cs ← match cs with
    | '-' :: rest => some rest
    | _ => none
  let (hour, cs) ← number? 2 cs
  let (minute, cs) ← number? 2 cs
  let (second, cs) ← number? 2 cs
  let (nano, cs) ← millis? cs
  if !cs.isEmpty then failure
  Reading.instant? ⟨year, month, day, hour, minute, second, nano⟩ 0

end TlsTrust
