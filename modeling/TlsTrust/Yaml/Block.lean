import TlsTrust.Yaml.Cursor

/-!
Literal texts keep their breaks; in folded ones a break between two lines of words is a space.
-/

namespace TlsTrust.Yaml

inductive Chomping where
  | strip
  | clip
  | keep
deriving DecidableEq, Repr

namespace Block

structure Header where
  chomping : Chomping := .clip
  indentation : Option Nat := none
deriving Repr

def chomping? : Char → Option Chomping
  | '+' => some .keep
  | '-' => some .strip
  | _ => none

def indentation? (c : Char) : Option (Option Nat) :=
  if c.isDigit then
    if c == '0' then none else some (some (c.toNat - '0'.toNat))
  else some none

def header? (cs : List Char) : Option (Header × Nat) :=
  match cs with
  | [] => some ({}, 0)
  | a :: rest =>
    match chomping? a with
    | some chomping =>
      match rest with
      | [] => some ({ chomping }, 1)
      | b :: _ => do
        match ← indentation? b with
        | some n => return ({ chomping, indentation := some n }, 2)
        | none => return ({ chomping }, 1)
    | none => do
      match ← indentation? a with
      | none => return ({}, 0)
      | some n =>
        match rest.head?.bind chomping? with
        | some chomping => return ({ chomping, indentation := some n }, 2)
        | none => return ({ indentation := some n }, 1)

def emptyLines (indent : Nat) : Nat → Nat → Cursor → Option (List Char × Nat × Cursor)
  | 0, _, _ => none
  | n + 1, deepest, c =>
    let spaces := (c.rest.takeWhile (· == ' ')).length
    let c := c.advance (if indent == 0 then spaces else min spaces (indent - c.column))
    let deepest := max deepest c.column
    if (indent == 0 || c.column < indent) && c.startsWith '\t' then none
    else if c.atBreak then do
      let (more, deepest, c') ← emptyLines indent n deepest c.skipBreak
      return (c.breakText ++ more, deepest, c')
    else some ([], deepest, c)

def joint (literal : Bool) (lastBreak empty : List Char) (blankBefore blankHere : Bool) :
    List Char :=
  if !literal && lastBreak == ['\n'] && !blankBefore && !blankHere then
    if empty.isEmpty then [' '] else empty
  else lastBreak ++ empty

def lines (literal : Bool) (indent : Nat) :
    Nat → List Char → List Char → Bool → Cursor →
      Option (List Char × List Char × List Char × Cursor)
  | 0, _, _, _, _ => none
  | n + 1, lastBreak, empty, blankBefore, c =>
    if c.column != indent || c.rest.isEmpty then some ([], lastBreak, empty, c)
    else do
      let blankHere := c.rest.head?.any isGap
      let words := c.rest.takeWhile fun d => !isBreak d
      let c := c.advance words.length
      let (more, _, next) ← emptyLines indent (c.rest.length + 1) 0 c.skipBreak
      let (text, lastBreak', empty', c') ← lines literal indent n c.breakText more blankHere next
      return (joint literal lastBreak empty blankBefore blankHere ++ words ++ text,
        lastBreak', empty', c')

def read? (literal : Bool) (parent : Int) (c : Cursor) : Option (List Char × Cursor) := do
  let c := c.advance 1
  let (header, length) ← header? c.rest
  let c ← (c.advance length).endLine?
  let given := match header.indentation with
    | some n => (max parent 0).toNat + n
    | none => 0
  let (empty, deepest, c) ← emptyLines given (c.rest.length + 1) 0 c
  let indent := if given == 0 then max (max deepest (parent + 1).toNat) 1 else given
  let (text, lastBreak, empty, c) ← lines literal indent (c.rest.length + 1) [] empty false c
  match header.chomping with
  | .strip => return (text, c)
  | .clip => return (text ++ lastBreak, c)
  | .keep => return (text ++ lastBreak ++ empty, c)

end Block

end TlsTrust.Yaml
