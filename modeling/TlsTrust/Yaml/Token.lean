import TlsTrust.Yaml.Block
import TlsTrust.Yaml.Plain
import TlsTrust.Yaml.Quoted
import TlsTrust.Yaml.Tag

/-! A key is known as such only at the colon after it, so its token is put in place then. -/

namespace TlsTrust.Yaml

inductive ScalarStyle where
  | plain
  | literal
  | other
deriving DecidableEq, Repr

inductive Token where
  | directive (d : Directive)
  | documentStart
  | documentEnd
  | streamEnd
  | blockSequenceStart
  | blockMappingStart
  | blockEnd
  | flowSequenceStart
  | flowSequenceEnd
  | flowMappingStart
  | flowMappingEnd
  | blockEntry
  | flowEntry
  | key
  | value
  | alias (name : String)
  | anchor (name : String)
  | tag (t : TagSpelling)
  | scalar (style : ScalarStyle) (text : String)
deriving DecidableEq, Repr

structure KeyPlace where
  required : Bool
  place : Nat
  index : Nat
  line : Nat
  column : Nat
deriving Repr

structure TokenReader where
  cursor : Cursor
  tokens : Array Token := #[]
  indent : Int := -1
  outer : List Int := []
  keys : List (Option KeyPlace) := [none]
  keyAllowed : Bool := true
deriving Repr

namespace TokenReader

def inFlow (r : TokenReader) : Bool :=
  1 < r.keys.length

def push (r : TokenReader) (t : Token) : TokenReader :=
  { r with tokens := r.tokens.push t }

def move (r : TokenReader) (c : Cursor) : TokenReader :=
  { r with cursor := c }

/-- Passes over blanks and comments. After a break a key may start. A tab may not indent what a key
could start. -/
def skipBlanks : Nat → TokenReader → TokenReader
  | 0, r => r
  | n + 1, r =>
    let c := r.cursor.skipWhile fun d => d == ' ' || ((r.inFlow || !r.keyAllowed) && d == '\t')
    let c := if c.startsWith '#' then c.skipWhile (fun d => !isBreak d) else c
    if c.atBreak then
      skipBlanks n { r with cursor := c.skipBreak, keyAllowed := r.keyAllowed || !r.inFlow }
    else r.move c

/-- Gives up the places that are too far back: on an earlier line or 1024 characters away. -/
def dropStale (r : TokenReader) : Option TokenReader := do
  let keys ← r.keys.mapM fun k => match k with
    | none => some none
    | some k =>
      if k.line < r.cursor.line || k.index + 1024 < r.cursor.index then
        if k.required then none else some none
      else some (some k)
  return { r with keys }

def closeBlocks (r : TokenReader) (column : Int) : TokenReader :=
  if r.inFlow then r
  else
    let open_ := r.indent :: r.outer
    let closed := open_.takeWhile (column < ·)
    match open_.drop closed.length with
    | [] => r
    | indent :: outer =>
      { r with indent, outer, tokens := r.tokens ++ List.replicate closed.length Token.blockEnd }

def openBlock (r : TokenReader) (column : Nat) (place : Nat) (t : Token) : TokenReader :=
  if r.inFlow || (column : Int) ≤ r.indent then r
  else
    { r with
      indent := column, outer := r.indent :: r.outer, tokens := r.tokens.insertIdxIfInBounds place t }

def dropKey (r : TokenReader) : Option TokenReader :=
  match r.keys with
  | some k :: keys => if k.required then none else some { r with keys := none :: keys }
  | _ => some r

def saveKey (r : TokenReader) : Option TokenReader :=
  if r.keyAllowed then do
    let k : KeyPlace := {
      required := !r.inFlow && r.indent == r.cursor.column
      place := r.tokens.size, index := r.cursor.index, line := r.cursor.line
      column := r.cursor.column }
    let r ← r.dropKey
    return { r with keys := some k :: r.keys.drop 1 }
  else some r

def take (r : TokenReader) (length : Nat) (t : Token) : TokenReader :=
  (r.push t).move (r.cursor.advance length)

def allowKey (r : TokenReader) (b : Bool) : TokenReader :=
  { r with keyAllowed := b }

def closeAll (r : TokenReader) : Option TokenReader := do
  return (← (r.closeBlocks (-1)).dropKey).allowKey false

def endStream (r : TokenReader) : Option TokenReader := do
  return (← r.closeAll).push .streamEnd

def readDirective (r : TokenReader) : Option TokenReader := do
  let r ← r.closeAll
  let (d, c) ← Directive.read? r.cursor
  return (r.push (.directive d)).move c

def readDocumentMark (r : TokenReader) (t : Token) : Option TokenReader := do
  return (← r.closeAll).take 3 t

def openFlow (r : TokenReader) (t : Token) : Option TokenReader := do
  let r ← r.saveKey
  return ({ r with keys := none :: r.keys }.allowKey true).take 1 t

def closeFlow (r : TokenReader) (t : Token) : Option TokenReader := do
  let r ← r.dropKey
  let keys := if r.inFlow then r.keys.drop 1 else r.keys
  return ({ r with keys }.allowKey false).take 1 t

def readFlowEntry (r : TokenReader) : Option TokenReader := do
  return ((← r.dropKey).allowKey true).take 1 .flowEntry

def readBlockEntry (r : TokenReader) : Option TokenReader := do
  if !r.inFlow && !r.keyAllowed then failure
  let r := r.openBlock r.cursor.column r.tokens.size .blockSequenceStart
  return ((← r.dropKey).allowKey true).take 1 .blockEntry

def readKey (r : TokenReader) : Option TokenReader := do
  if !r.inFlow && !r.keyAllowed then failure
  let r := r.openBlock r.cursor.column r.tokens.size .blockMappingStart
  return ((← r.dropKey).allowKey (!r.inFlow)).take 1 .key

def readValue (r : TokenReader) : Option TokenReader :=
  match r.keys with
  | some k :: keys =>
    let r := { r with tokens := r.tokens.insertIdxIfInBounds k.place .key, keys := none :: keys }
    let r := r.openBlock k.column k.place .blockMappingStart
    some ((r.allowKey false).take 1 .value)
  | _ =>
    if !r.inFlow && !r.keyAllowed then none
    else
      let r := r.openBlock r.cursor.column r.tokens.size .blockMappingStart
      some ((r.allowKey (!r.inFlow)).take 1 .value)

def readName (r : TokenReader) (t : String → Token) : Option TokenReader := do
  let r ← r.saveKey
  let c := r.cursor.advance 1
  let name := c.rest.takeWhile isNameChar
  let c := c.advance name.length
  if name.isEmpty then failure
  if !c.atBlank && !c.rest.head?.any "?:,]\x7d%@`".toList.contains then failure
  return ((r.push (t (String.ofList name))).move c).allowKey false

def readTag (r : TokenReader) : Option TokenReader := do
  let r ← r.saveKey
  let (t, c) ← TagSpelling.read? r.inFlow r.cursor
  return ((r.push (.tag t)).move c).allowKey false

def readBlock (r : TokenReader) (literal : Bool) : Option TokenReader := do
  let r ← r.dropKey
  let (text, c) ← Block.read? literal r.indent r.cursor
  let style := if literal then ScalarStyle.literal else .other
  return ((r.push (.scalar style (String.ofList text))).move c).allowKey true

def readQuoted (r : TokenReader) (q : Quote) : Option TokenReader := do
  let r ← r.saveKey
  let (text, c) ← Quoted.read? q r.cursor
  return ((r.push (.scalar .other (String.ofList text))).move c).allowKey false

def readPlain (r : TokenReader) : Option TokenReader := do
  let r ← r.saveKey
  let (text, c, broken) ← Plain.read? r.inFlow (r.indent + 1).toNat r.cursor
  return ((r.push (.scalar .plain (String.ofList text))).move c).allowKey broken

def startsPlain (inFlow : Bool) (c : Char) (rest : List Char) : Bool :=
  if c == '-' then !rest.head?.any isGap
  else if c == '?' || c == ':' then !inFlow && !startsBlank rest
  else !isFlowMark c && !"#&*!|>'\x22%@`".toList.contains c

def readToken (r : TokenReader) : Option TokenReader :=
  match r.cursor.rest with
  | [] => r.endStream
  | d :: rest =>
    let indicates := startsBlank rest
    if r.cursor.column == 0 && d == '%' then r.readDirective
    else if r.cursor.atMark '-' then r.readDocumentMark .documentStart
    else if r.cursor.atMark '.' then r.readDocumentMark .documentEnd
    else if d == '[' then r.openFlow .flowSequenceStart
    else if d == '\x7b' then r.openFlow .flowMappingStart
    else if d == ']' then r.closeFlow .flowSequenceEnd
    else if d == '\x7d' then r.closeFlow .flowMappingEnd
    else if d == ',' then r.readFlowEntry
    else if d == '-' && indicates then r.readBlockEntry
    else if d == '?' && (r.inFlow || indicates) then r.readKey
    else if d == ':' && (r.inFlow || indicates) then r.readValue
    else if d == '*' then r.readName .alias
    else if d == '&' then r.readName .anchor
    else if d == '!' then r.readTag
    else if d == '|' && !r.inFlow then r.readBlock true
    else if d == '>' && !r.inFlow then r.readBlock false
    else if d == '\x27' then r.readQuoted .single
    else if d == '\x22' then r.readQuoted .double
    else if startsPlain r.inFlow d rest then r.readPlain
    else none

def next (r : TokenReader) : Option TokenReader := do
  let r ← (r.skipBlanks (r.cursor.rest.length + 1)).dropStale
  (r.closeBlocks r.cursor.column).readToken

def run : Nat → TokenReader → TokenReader
  | 0, r => r
  | n + 1, r =>
    match r.next with
    | none => r
    | some r => if r.tokens.back? == some .streamEnd then r else run n r

end TokenReader

namespace Token

def withoutMark (cs : List Char) : List Char :=
  match cs with
  | c :: rest => if c.toNat == 0xFEFF then rest else cs
  | [] => []

/-- The tokens of a text. Those of a faulty text break off before the fault, without the end of the
stream. -/
def ofText (s : String) : List Token :=
  let cs := withoutMark (withoutMark s.toList)
  let faultless := cs.takeWhile isAllowed
  let r := TokenReader.run (cs.length + 2) { cursor := { rest := faultless } }
  if faultless.length == cs.length then r.tokens.toList else r.tokens.toList.filter (· != .streamEnd)

end Token

end TlsTrust.Yaml
