namespace TlsTrust.Text

def utf8 (s : String) : List UInt8 :=
  s.toUTF8.toList

def ofUtf8? (bytes : List UInt8) : Option String :=
  String.fromUTF8? ⟨bytes.toArray⟩

def takeBytes? : Nat → List Char → Option (List Char)
  | 0, _ => some []
  | _ + 1, [] => none
  | n + 1, c :: cs =>
    if c.utf8Size ≤ n + 1 then (takeBytes? (n + 1 - c.utf8Size) cs).map (c :: ·) else none
termination_by n => n
decreasing_by
  have := c.utf8Size_pos
  omega

/-- The pieces between line feeds. A line feed at the very end starts no further piece, and a
carriage return before a line feed belongs to it. -/
def byteLines (bytes : List UInt8) : List (List UInt8) :=
  let parts := bytes.splitOn 10
  let ended := parts.dropLast.map fun l => if l.getLast? == some 13 then l.dropLast else l
  match parts.getLast? with
  | some [] | none => ended
  | some last => ended ++ [last]

end TlsTrust.Text
