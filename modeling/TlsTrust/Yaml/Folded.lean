import TlsTrust.Yaml.Cursor

/-! Of the breaks between two words a single one is a space, and of several the first is dropped. -/

namespace TlsTrust.Yaml

structure Blanks where
  broken : Bool := false
  gap : List Char := []
  firstBreak : List Char := []
  moreBreaks : List Char := []
deriving Repr

namespace Blanks

def text (b : Blanks) : List Char :=
  if b.broken then
    if b.firstBreak == ['\n'] then
      if b.moreBreaks.isEmpty then [' '] else b.moreBreaks
    else b.firstBreak ++ b.moreBreaks
  else b.gap

def addGap (b : Blanks) (c : Char) : Blanks :=
  if b.broken then b else { b with gap := b.gap ++ [c] }

def addBreak (b : Blanks) (cs : List Char) : Blanks :=
  if b.broken then { b with moreBreaks := b.moreBreaks ++ cs }
  else { broken := true, firstBreak := cs }

def read (low : Nat) : Nat → Blanks → Cursor → Option (Blanks × Cursor)
  | 0, b, c => some (b, c)
  | n + 1, b, c =>
    match c.rest with
    | [] => some (b, c)
    | d :: _ =>
      if isGap d then
        if b.broken && c.column < low && d == '\t' then none
        else read low n (b.addGap d) (c.advance 1)
      else if isBreak d then read low n (b.addBreak c.breakText) c.skipBreak
      else some (b, c)

end Blanks

end TlsTrust.Yaml
