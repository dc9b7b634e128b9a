/-! A place in a text that is laid out in lines, with what is left of the text. -/

namespace TlsTrust.Yaml

def isBreak (c : Char) : Bool :=
  c == '\n' || c == '\r' || c.toNat == 0x85 || c.toNat == 0x2028 || c.toNat == 0x2029

def isGap (c : Char) : Bool :=
  c == ' ' || c == '\t'

def isNameChar (c : Char) : Bool :=
  c.isAlphanum || c == '_' || c == '-'

def isAllowed (c : Char) : Bool :=
  let n := c.toNat
  n == 0x09 || n == 0x0A || n == 0x0D || (0x20 ≤ n && n ≤ 0x7E) || n == 0x85
    || (0xA0 ≤ n && n ≤ 0xD7FF) || (0xE000 ≤ n && n ≤ 0xFFFD) || 0x10000 ≤ n

def startsBlank : List Char → Bool
  | [] => true
  | c :: _ => isGap c || isBreak c

structure Cursor where
  rest : List Char
  index : Nat := 0
  line : Nat := 0
  column : Nat := 0
deriving Repr

namespace Cursor

def advance (c : Cursor) (n : Nat) : Cursor :=
  { c with rest := c.rest.drop n, index := c.index + n, column := c.column + n }

def skipWhile (c : Cursor) (p : Char → Bool) : Cursor :=
  c.advance (c.rest.takeWhile p).length

def skipBreak (c : Cursor) : Cursor :=
  match c.rest with
  | '\r' :: '\n' :: rest => ⟨rest, c.index + 2, c.line + 1, 0⟩
  | d :: rest => if isBreak d then ⟨rest, c.index + 1, c.line + 1, 0⟩ else c
  | [] => c

def breakText (c : Cursor) : List Char :=
  match c.rest with
  | d :: _ =>
    if d.toNat == 0x2028 || d.toNat == 0x2029 then [d] else if isBreak d then ['\n'] else []
  | [] => []

def startsWith (c : Cursor) (d : Char) : Bool :=
  c.rest.head? == some d

def atBreak (c : Cursor) : Bool :=
  c.rest.head?.any isBreak

def atBlank (c : Cursor) : Bool :=
  startsBlank c.rest

def atLineEnd (c : Cursor) : Bool :=
  c.rest.isEmpty || c.atBreak

def atMark (c : Cursor) (d : Char) : Bool :=
  match c.rest with
  | x :: y :: z :: rest => c.column == 0 && x == d && y == d && z == d && startsBlank rest
  | _ => false

def atDocumentMark (c : Cursor) : Bool :=
  c.atMark '-' || c.atMark '.'

def skipComment (c : Cursor) : Cursor :=
  let c := c.skipWhile isGap
  if c.startsWith '#' then c.skipWhile (fun d => !isBreak d) else c

def endLine? (c : Cursor) : Option Cursor :=
  let c := c.skipComment
  if c.atLineEnd then some c.skipBreak else none

end Cursor

end TlsTrust.Yaml
