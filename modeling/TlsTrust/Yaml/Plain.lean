import TlsTrust.Yaml.Folded

namespace TlsTrust.Yaml

def isFlowMark (c : Char) : Bool :=
  c == ',' || c == '[' || c == ']' || c == '\x7b' || c == '\x7d'

namespace Plain

def word? (flow : Bool) : List Char → Option (List Char)
  | [] => some []
  | d :: rest =>
    if isGap d || isBreak d then some []
    else if flow && d == ':' && rest.head?.any (fun e => isFlowMark e || e == '?') then none
    else if d == ':' && startsBlank rest then some []
    else if flow && isFlowMark d then some []
    else (word? flow rest).map (d :: ·)

/-- Reads on after blanks. The last part of the result tells whether a break is the last thing
before the place where the text ended. -/
def body (flow : Bool) (low : Nat) : Nat → Blanks → Cursor → Option (List Char × Cursor × Bool)
  | 0, _, _ => none
  | n + 1, blanks, c =>
    if c.atDocumentMark || c.startsWith '#' then some ([], c, blanks.broken)
    else do
      let cs ← word? flow c.rest
      if cs.isEmpty then return ([], c, blanks.broken)
      let text := blanks.text ++ cs
      let c := c.advance cs.length
      if c.rest.isEmpty || !c.atBlank then return (text, c, false)
      let (blanks, c) ← Blanks.read low c.rest.length {} c
      if !flow && c.column < low then return (text, c, blanks.broken)
      let (more, c, broken) ← body flow low n blanks c
      return (text ++ more, c, broken)

def read? (flow : Bool) (low : Nat) (c : Cursor) : Option (List Char × Cursor × Bool) :=
  body flow low (c.rest.length + 1) {} c

end Plain

end TlsTrust.Yaml
