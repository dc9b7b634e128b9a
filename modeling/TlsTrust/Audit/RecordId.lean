import TlsTrust.Text.Ascii
import TlsTrust.Text.Search

/-! Identifiers of records and attempts: thirty-two hexadecimal digits, written in five groups. -/

namespace TlsTrust

open Text

structure RecordId where
  digits : List (Fin 16)
  length_eq : digits.length = 32
deriving DecidableEq, Repr

namespace RecordId

def digits? (cs : List Char) : Option (List (Fin 16)) :=
  cs.mapM fun c => (hexDigit? c).map (Fin.ofNat 16)

def ofDigits? (cs : List Char) : Option RecordId := do
  let ds ← digits? cs
  if h : ds.length = 32 then return ⟨ds, h⟩ else none

def ofGroups? (cs : List Char) : Option RecordId :=
  if cs.length == 36 && cs[8]? == some '-' && cs[13]? == some '-' && cs[18]? == some '-'
      && cs[23]? == some '-' then
    ofDigits? (cs.take 8 ++ (cs.drop 9).take 4 ++ (cs.drop 14).take 4 ++ (cs.drop 19).take 4
      ++ cs.drop 24)
  else none

def parse? (s : String) : Option RecordId :=
  let cs := s.toList
  if cs.length == 32 then ofDigits? cs
  else if cs.length == 36 then ofGroups? cs
  else if cs.length == 38 && cs.head? == some '\x7b' && cs.getLast? == some '\x7d' then
    ofGroups? cs.tail.dropLast
  else (stripStart? "urn:uuid:".toList cs).bind ofGroups?

def text (i : RecordId) : String :=
  let cs := i.digits.map fun d => hexDigit d.val
  String.ofList (cs.take 8 ++ '-' :: ((cs.drop 8).take 4 ++ '-' :: ((cs.drop 12).take 4
    ++ '-' :: ((cs.drop 16).take 4 ++ '-' :: cs.drop 20))))

def ofNat (n : Nat) : RecordId :=
  ⟨(List.range 32).map fun i => Fin.ofNat 16 (n / Nat.pow 16 (31 - i)), by simp⟩

instance : Inhabited RecordId := ⟨ofNat 0⟩

end RecordId

end TlsTrust
