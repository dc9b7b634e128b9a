import TlsTrust.Der
import TlsTrust.Text.Ascii
import TlsTrust.Time.Instant

/-!
Years of two digits are from 1950 to 2049, and years of four digits come with thousandths of a
second, which do not count.
-/

namespace TlsTrust.Validity

open Der Text Time

def pair? : List Char → Option (Nat × List Char)
  | a :: b :: rest =>
    if a.isDigit && b.isDigit then some (natOfDigits [a, b], rest) else none
  | _ => none

def seconds? (cs : List Char) : Option (Nat × List Char) :=
  if cs.length < 2 then some (0, cs) else pair? cs

def instant? (year : Int) (cs : List Char) : Option (Instant × List Char) := do
  let (month, cs) ← pair? cs
  let (day, cs) ← pair? cs
  let (hour, cs) ← pair? cs
  let (minute, cs) ← pair? cs
  let (second, cs) ← seconds? cs
  let date : Date := ⟨year, month, day⟩
  if date.isValid ∧ hour < 24 ∧ minute < 60 ∧ second < 60 then
    return (.atSecond (date.toDays * 86400 + hour * 3600 + minute * 60 + second), cs)
  else none

def shortYear? (cs : List Char) : Option Instant := do
  let (year, cs) ← pair? cs
  let (t, cs) ← instant? (if year < 50 then 2000 + year else 1900 + year) cs
  if cs == ['Z'] then return t else none

def isFraction : List Char → Bool
  | '.' :: ds => ds.length ≤ 3 && ds.all Char.isDigit
  | cs => cs.isEmpty

def longYear? (cs : List Char) : Option Instant := do
  let (century, cs) ← pair? cs
  let (year, cs) ← pair? cs
  let (t, cs) ← instant? (100 * century + year : Nat) cs
  if cs.getLast? == some 'Z' && isFraction cs.dropLast then return t else none

def charOfByte (b : UInt8) : Char :=
  Char.ofNat b.toNat

def time? (bytes : List UInt8) : Option (Instant × List UInt8) := do
  let (e, rest) ← element? bytes
  let cs := e.content.map charOfByte
  if e.tag = 23 then return (← shortYear? cs, rest)
  else if e.tag = 24 then return (← longYear? cs, rest)
  else none

def read? (bytes : List UInt8) : Option ((Instant × Instant) × List UInt8) := do
  let (body, rest) ← sequence? bytes
  let (notBefore, body) ← time? body
  let (notAfter, _) ← time? body
  return ((notBefore, notAfter), rest)

end TlsTrust.Validity
