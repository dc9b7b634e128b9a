import TlsTrust.Text.Utf8

/-!
Bytes in base 64, where blanks between the digits do not count and the signs that fill up the last
group may be missing.
-/

namespace TlsTrust.Text.Base64

def isSpace (b : UInt8) : Bool :=
  b == 32 || b == 9 || b == 10 || b == 13

def digit? (b : UInt8) : Option Nat :=
  let n := b.toNat
  if 65 ≤ n ∧ n ≤ 90 then some (n - 65)
  else if 97 ≤ n ∧ n ≤ 122 then some (n - 97 + 26)
  else if 48 ≤ n ∧ n ≤ 57 then some (n - 48 + 52)
  else if n = 43 then some 62
  else if n = 47 then some 63
  else none

/-- Four digits make three bytes; three and two digits at the end make two bytes and one. -/
def bytesOfDigits? : List Nat → Option (List UInt8)
  | a :: b :: c :: d :: rest => do
    let n := ((a * 64 + b) * 64 + c) * 64 + d
    return UInt8.ofNat (n / 65536) :: UInt8.ofNat (n / 256) :: UInt8.ofNat n ::
      (← bytesOfDigits? rest)
  | [a, b, c] =>
    let n := (a * 64 + b) * 64 + c
    some [UInt8.ofNat (n / 1024), UInt8.ofNat (n / 4)]
  | [a, b] => some [UInt8.ofNat ((a * 64 + b) / 16)]
  | [_] => none
  | [] => some []

def decode? (text : List UInt8) : Option (List UInt8) := do
  let signs := text.filter (!isSpace ·)
  let digits := signs.takeWhile (· != 61)
  let filling := signs.drop digits.length
  if filling.length ≤ 2 && filling.all (· == 61) then bytesOfDigits? (← digits.mapM digit?)
  else none

end TlsTrust.Text.Base64
