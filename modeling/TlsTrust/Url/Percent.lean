import TlsTrust.Text.Ascii
import TlsTrust.Text.Utf8

namespace TlsTrust.Url

open Text

def isControl (c : Char) : Bool :=
  c.toNat < 32 || 126 < c.toNat

def quotedInFragment (c : Char) : Bool :=
  isControl c || [' ', '\x22', '<', '>', '\x60'].contains c

def quotedInQuery (c : Char) : Bool :=
  isControl c || [' ', '\x22', '#', '<', '>', '\x27'].contains c

def quotedInPath (c : Char) : Bool :=
  quotedInFragment c || ['#', '?', '\x7b', '\x7d'].contains c

def quotedInUser (c : Char) : Bool :=
  quotedInPath c || ['/', ':', ';', '=', '@', '[', '\\', ']', '^', '|'].contains c

def percentByte (b : UInt8) : List Char :=
  '%' :: (upper (hexOfBytes [b])).toList

def percentEncode (quoted : Char → Bool) (cs : List Char) : String :=
  String.ofList (cs.flatMap fun c =>
    if quoted c then (utf8 (String.singleton c)).flatMap percentByte else [c])

def percentDecode : List Char → List UInt8
  | '%' :: a :: b :: rest =>
    match hexDigit? a, hexDigit? b with
    | some x, some y => UInt8.ofNat (16 * x + y) :: percentDecode rest
    | _, _ => 37 :: percentDecode (a :: b :: rest)
  | c :: rest => utf8 (String.singleton c) ++ percentDecode rest
  | [] => []

end TlsTrust.Url
