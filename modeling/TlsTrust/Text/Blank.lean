/-! Blank characters are those with the Unicode property `White_Space`. -/

namespace TlsTrust.Text

def isBlank (c : Char) : Bool :=
  let n := c.toNat
  (9 ≤ n && n ≤ 13) || n == 32 || n == 0x85 || n == 0xA0 || n == 0x1680
    || (0x2000 ≤ n && n ≤ 0x200A) || n == 0x2028 || n == 0x2029 || n == 0x202F || n == 0x205F
    || n == 0x3000

def dropEndWhile (p : Char → Bool) (cs : List Char) : List Char :=
  (cs.reverse.dropWhile p).reverse

def trim (s : String) : String :=
  String.ofList (dropEndWhile isBlank (s.toList.dropWhile isBlank))

def dropTrailingDots (s : String) : String :=
  String.ofList (dropEndWhile (· == '.') s.toList)

def isBlankText (s : String) : Bool :=
  s.toList.all isBlank

end TlsTrust.Text
