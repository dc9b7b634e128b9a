import TlsTrust.Json
import TlsTrust.Text.Ascii

namespace TlsTrust.Json

open TlsTrust.Text

def escape (c : Char) : List Char :=
  if c == '\x22' then ['\\', '\x22']
  else if c == '\\' then ['\\', '\\']
  else if c == '\n' then ['\\', 'n']
  else if c == '\r' then ['\\', 'r']
  else if c == '\t' then ['\\', 't']
  else if c.toNat == 8 then ['\\', 'b']
  else if c.toNat == 12 then ['\\', 'f']
  else if c.toNat < 32 then
    ['\\', 'u', '0', '0', hexDigit (c.toNat / 16), hexDigit (c.toNat % 16)]
  else [c]

def quoted (s : String) : List Char :=
  '\x22' :: s.toList.flatMap escape ++ ['\x22']

def intText (n : Int) : List Char :=
  (toString n).toList

def decimalText (mantissa exponent : Int) : List Char :=
  intText mantissa ++ 'e' :: intText exponent

mutual

def chars : Json → List Char
  | .null => ['n', 'u', 'l', 'l']
  | .bool true => ['t', 'r', 'u', 'e']
  | .bool false => ['f', 'a', 'l', 's', 'e']
  | .int n => intText n
  | .decimal m e => decimalText m e
  | .string s => quoted s
  | .halfPair => ['\x22', '\\', 'u', 'd', '8', '0', '0', '\x22']
  | .array [] => ['[', ']']
  | .array (j :: js) => '[' :: (chars j ++ itemChars js)
  | .object [] => ['\x7b', '\x7d']
  | .object ((k, j) :: fs) => '\x7b' :: (quoted k ++ ':' :: (chars j ++ fieldChars fs))

def itemChars : List Json → List Char
  | [] => [']']
  | j :: js => ',' :: (chars j ++ itemChars js)

def fieldChars : List (String × Json) → List Char
  | [] => ['\x7d']
  | (k, j) :: fs => ',' :: (quoted k ++ ':' :: (chars j ++ fieldChars fs))

end

def render (j : Json) : String :=
  String.ofList j.chars

def newline (level : Nat) : List Char :=
  '\n' :: List.replicate (2 * level) ' '

mutual

def laidOut (level : Nat) : Json → List Char
  | .array (j :: js) =>
    '[' :: (newline (level + 1) ++ laidOut (level + 1) j ++ laidOutItems level js)
  | .object ((k, j) :: fs) =>
    '\x7b' :: (newline (level + 1) ++ quoted k ++ ':' :: ' ' :: laidOut (level + 1) j
      ++ laidOutFields level fs)
  | j => chars j

def laidOutItems (level : Nat) : List Json → List Char
  | [] => newline level ++ [']']
  | j :: js => ',' :: (newline (level + 1) ++ laidOut (level + 1) j ++ laidOutItems level js)

def laidOutFields (level : Nat) : List (String × Json) → List Char
  | [] => newline level ++ ['\x7d']
  | (k, j) :: fs =>
    ',' :: (newline (level + 1) ++ quoted k ++ ':' :: ' ' :: laidOut (level + 1) j
      ++ laidOutFields level fs)

end

def renderLines (j : Json) : String :=
  String.ofList (laidOut 0 j)

end TlsTrust.Json
