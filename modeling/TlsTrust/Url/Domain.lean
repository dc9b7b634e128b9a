import TlsTrust.Text.Blank
import TlsTrust.Url.Punycode

/-! Domain names as they are looked up: in small letters and in ASCII. -/

namespace TlsTrust.Url

/-- Capitals of the scripts with two cases, as ranges: every character of a range, or every second
one from its first, becomes the character that many places on. -/
def capitals : List (Nat × Nat × Nat × Nat) :=
  [(0xC0, 0xD6, 1, 32), (0xD8, 0xDE, 1, 32), (0x100, 0x12E, 2, 1), (0x132, 0x136, 2, 1),
    (0x139, 0x147, 2, 1), (0x14A, 0x176, 2, 1), (0x179, 0x17D, 2, 1), (0x388, 0x38A, 1, 37),
    (0x386, 0x386, 1, 38), (0x38C, 0x38C, 1, 64), (0x38E, 0x38F, 1, 63), (0x391, 0x3A1, 1, 32),
    (0x3A3, 0x3AB, 1, 32), (0x400, 0x40F, 1, 80), (0x410, 0x42F, 1, 32), (0x460, 0x480, 2, 1),
    (0x48A, 0x4BE, 2, 1), (0x4C1, 0x4CD, 2, 1), (0x4D0, 0x52E, 2, 1), (0x531, 0x556, 1, 48),
    (0x1E00, 0x1E94, 2, 1), (0x1EA0, 0x1EFE, 2, 1)]

def replaced : List (Nat × Char) :=
  [(0x178, 'ÿ'), (0x17F, 's'), (0x1E9E, 'ß'), (0x212A, 'k'), (0x212B, 'å'), (0x3002, '.'),
    (0xFF61, '.')]

def isForbiddenBeyondAscii (c : Char) : Bool :=
  let n := c.toNat
  n < 0xA0 || Text.isBlank c || (0x200C ≤ n && n ≤ 0x200F) || (0x2028 ≤ n && n ≤ 0x202E)
    || (0x2066 ≤ n && n ≤ 0x2069) || (0xE000 ≤ n && n ≤ 0xF8FF) || (0xFFF9 ≤ n && n ≤ 0xFFFF)
    || 0xE0000 ≤ n

def isIgnored (c : Char) : Bool :=
  let n := c.toNat
  n == 0xAD || n == 0x34F || n == 0x200B || n == 0x2060 || n == 0x2064 || n == 0xFEFF
    || (0x180B ≤ n && n ≤ 0x180F) || (0xFE00 ≤ n && n ≤ 0xFE0F)

def smallForm (c : Char) : Char :=
  let n := c.toNat
  if n < 128 then c.toLower
  else if 0xFF01 ≤ n ∧ n ≤ 0xFF5E then (Char.ofNat (n - 0xFEE0)).toLower
  else
    match replaced.lookup n with
    | some d => d
    | none =>
      match capitals.find? fun (first, last, step, _) =>
          first ≤ n && n ≤ last && (n - first) % step == 0 with
      | some (_, _, _, shift) => Char.ofNat (n + shift)
      | none => c

def isForbiddenAscii (c : Char) : Bool :=
  c.toNat ≤ 32 || c.toNat == 127
    || ['#', '%', '/', ':', '<', '>', '?', '@', '[', '\\', ']', '^', '|'].contains c

def isAscii (c : Char) : Bool :=
  c.toNat < 128

/-- A label in ASCII. One that is already encoded has to be the encoding of a label that needs it. -/
def asciiLabel? (label : List Char) : Option (List Char) :=
  if !label.all isAscii then some ("xn--".toList ++ Punycode.encode label)
  else if label.take 4 == "xn--".toList then do
    let plain ← Punycode.decode? (label.drop 4)
    if plain.all isAscii || plain.any (fun c => smallForm c != c || isIgnored c)
        || plain.any (fun c => !isAscii c && isForbiddenBeyondAscii c)
        || Punycode.encode plain != label.drop 4 then none
    else return label
  else some label

def domain? (text : List Char) : Option (List Char) := do
  let cs := (text.filter (!isIgnored ·)).map smallForm
  if cs.any fun c => if isAscii c then isForbiddenAscii c else isForbiddenBeyondAscii c then none
  else
    let labels ← (cs.splitOn '.').mapM asciiLabel?
    return ['.'].intercalate labels

end TlsTrust.Url
