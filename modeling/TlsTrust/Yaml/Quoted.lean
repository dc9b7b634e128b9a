import TlsTrust.Text.Ascii
import TlsTrust.Yaml.Folded

namespace TlsTrust.Yaml

open Text

inductive Quote where
  | single
  | double
deriving DecidableEq, Repr

def Quote.char : Quote → Char
  | single => '\x27'
  | double => '\x22'

namespace Quoted

def shortEscape? (e : Char) : Option Char :=
  match e with
  | '0' => some (Char.ofNat 0)
  | 'a' => some (Char.ofNat 7)
  | 'b' => some (Char.ofNat 8)
  | 't' | '\t' => some '\t'
  | 'n' => some '\n'
  | 'v' => some (Char.ofNat 11)
  | 'f' => some (Char.ofNat 12)
  | 'r' => some '\r'
  | 'e' => some (Char.ofNat 27)
  | ' ' => some ' '
  | '\x22' => some '\x22'
  | '/' => some '/'
  | '\\' => some '\\'
  | 'N' => some (Char.ofNat 0x85)
  | '_' => some (Char.ofNat 0xA0)
  | 'L' => some (Char.ofNat 0x2028)
  | 'P' => some (Char.ofNat 0x2029)
  | _ => none

def codeLength? (e : Char) : Option Nat :=
  match e with
  | 'x' => some 2
  | 'u' => some 4
  | 'U' => some 8
  | _ => none

def code? (n : Nat) (cs : List Char) : Option Nat := do
  let ds ← (cs.take n).mapM hexDigit?
  if ds.length == n then some (ds.foldl (fun k d => 16 * k + d) 0) else none

def escape? : List Char → Option (Char × Nat)
  | [] => none
  | e :: rest =>
    match codeLength? e with
    | none => (shortEscape? e).map (·, 1)
    | some n => do
      let code ← code? n rest
      if h : code.isValidChar then some (Char.ofNatAux code h, n + 1) else none

def word (q : Quote) : Nat → Cursor → Option (List Char × Cursor × Bool)
  | 0, _ => none
  | n + 1, c =>
    match c.rest with
    | [] => some ([], c, false)
    | d :: rest =>
      if isGap d || isBreak d then some ([], c, false)
      else if d == q.char then
        if q = .single ∧ rest.head? = some d then do
          let (cs, c) ← word q n (c.advance 2)
          return (d :: cs, c)
        else some ([], c, false)
      else if q = .double ∧ d = '\\' then
        if rest.head?.any isBreak then some ([], (c.advance 1).skipBreak, true)
        else do
          let (e, length) ← escape? rest
          let (cs, c) ← word q n (c.advance (length + 1))
          return (e :: cs, c)
      else do
        let (cs, c) ← word q n (c.advance 1)
        return (d :: cs, c)

def body (q : Quote) : Nat → Cursor → Option (List Char × Cursor)
  | 0, _ => none
  | n + 1, c =>
    if c.rest.isEmpty || c.atDocumentMark then none
    else do
      let (cs, c, joined) ← word q (c.rest.length + 1) c
      if c.startsWith q.char then return (cs, c.advance 1)
      let (blanks, c) ← Blanks.read 0 c.rest.length { broken := joined } c
      let (more, c) ← body q n c
      return (cs ++ blanks.text ++ more, c)

def read? (q : Quote) (c : Cursor) : Option (List Char × Cursor) :=
  body q (c.rest.length + 1) (c.advance 1)

end Quoted

end TlsTrust.Yaml
