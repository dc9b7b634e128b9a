import TlsTrust.Text.Ascii
import TlsTrust.Text.Utf8
import TlsTrust.Yaml.Cursor

namespace TlsTrust.Yaml

open Text

structure TagSpelling where
  /-- Empty if the name is written in full. -/
  handle : String
  suffix : String
deriving DecidableEq, Repr

structure TagDirective where
  handle : String
  meaning : String
deriving DecidableEq, Repr

inductive Directive where
  | version (major minor : Nat)
  | tag (d : TagDirective)
deriving DecidableEq, Repr

namespace TagSpelling

def isNamePart (full : Bool) (c : Char) : Bool :=
  isNameChar c || ";/?:@&=+$.!~*'()".toList.contains c || (full && ",[]".toList.contains c)

def byteCount? (b : Nat) : Option Nat :=
  if b < 0x80 then some 1
  else if b < 0xC0 then none
  else if b < 0xE0 then some 2
  else if b < 0xF0 then some 3
  else if b < 0xF8 then some 4
  else none

def escapedByte? : List Char → Option Nat
  | '%' :: a :: b :: _ => do return 16 * (← hexDigit? a) + (← hexDigit? b)
  | _ => none

def escapedBytes? : Nat → List Char → Option (List UInt8)
  | 0, _ => some []
  | n + 1, cs => do return .ofNat (← escapedByte? cs) :: (← escapedBytes? n (cs.drop 3))

def escapedText? (cs : List Char) : Option (List Char × Nat) := do
  let n ← byteCount? (← escapedByte? cs)
  return ((← ofUtf8? (← escapedBytes? n cs)).toList, n)

def name (full : Bool) : Nat → Cursor → Option (List Char × Cursor)
  | 0, c => some ([], c)
  | n + 1, c =>
    match c.rest with
    | [] => some ([], c)
    | d :: _ =>
      if d == '%' then do
        let (cs, count) ← escapedText? c.rest
        let (more, c) ← name full n (c.advance (3 * count))
        return (cs ++ more, c)
      else if isNamePart full d then do
        let (more, c) ← name full n (c.advance 1)
        return (d :: more, c)
      else some ([], c)

def name? (full : Bool) (c : Cursor) : Option (List Char × Cursor) :=
  name full c.rest.length c

def handle? (c : Cursor) : Option (List Char × Cursor) :=
  match c.rest with
  | '!' :: rest =>
    let word := rest.takeWhile isNameChar
    let c := c.advance (word.length + 1)
    if c.startsWith '!' then some ('!' :: word ++ ['!'], c.advance 1) else some ('!' :: word, c)
  | _ => none

def tailOf (cs : List Char) : List Char :=
  cs.drop 1

def isClosed (handle : List Char) : Bool :=
  2 ≤ handle.length && handle.getLast? == some '!'

def read? (flow : Bool) (c : Cursor) : Option (TagSpelling × Cursor) := do
  let (spelling, c) ← match c.rest with
    | _ :: '<' :: _ => do
      let (name, c) ← name? true (c.advance 2)
      if name.isEmpty || !c.startsWith '>' then failure
      pure (⟨"", String.ofList name⟩, c.advance 1)
    | _ => do
      let (handle, c) ← handle? c
      let (suffix, c) ← name? false c
      if isClosed handle then
        if suffix.isEmpty then failure
        pure (⟨String.ofList handle, String.ofList suffix⟩, c)
      else
        let suffix := tailOf handle ++ suffix
        pure (if suffix.isEmpty then ⟨"", "!"⟩ else ⟨"!", String.ofList suffix⟩, c)
  if c.atBlank || (flow && c.startsWith ',') then return (spelling, c) else none

def standard : List TagDirective :=
  [⟨"!", "!"⟩, ⟨"!!", "tag:yaml.org,2002:"⟩]

def resolve? (directives : List TagDirective) (t : TagSpelling) : Option String :=
  if t.handle.isEmpty then some t.suffix
  else (directives.find? (·.handle == t.handle)).map (·.meaning ++ t.suffix)

end TagSpelling

namespace Directive

def number? (c : Cursor) : Option (Nat × Cursor) :=
  let ds := c.rest.takeWhile Char.isDigit
  if ds.isEmpty || 9 < ds.length then none else some (natOfDigits ds, c.advance ds.length)

def version? (c : Cursor) : Option (Directive × Cursor) := do
  let (major, c) ← number? (c.skipWhile isGap)
  if !c.startsWith '.' then failure
  let (minor, c) ← number? (c.advance 1)
  return (version major minor, c)

def tag? (c : Cursor) : Option (Directive × Cursor) := do
  let (handle, c) ← TagSpelling.handle? (c.skipWhile isGap)
  if handle != ['!'] && !TagSpelling.isClosed handle then failure
  if !c.rest.head?.any isGap then failure
  let (meaning, c) ← TagSpelling.name? true (c.skipWhile isGap)
  if meaning.isEmpty || !c.atBlank then failure
  return (tag ⟨String.ofList handle, String.ofList meaning⟩, c)

def read? (c : Cursor) : Option (Directive × Cursor) := do
  let c := c.advance 1
  let name := c.rest.takeWhile isNameChar
  let c := c.advance name.length
  if !c.atBlank then failure
  let (d, c) ← match String.ofList name with
    | "YAML" => version? c
    | "TAG" => tag? c
    | _ => none
  return (d, ← c.endLine?)

def areConsistent : List Directive → Bool
  | [] => true
  | version major minor :: ds =>
    major == 1 && (minor == 1 || minor == 2)
      && ds.all (fun d => match d with | version .. => false | tag _ => true) && areConsistent ds
  | tag t :: ds =>
    ds.all (fun d => match d with | tag u => u.handle != t.handle | version .. => true)
      && areConsistent ds

def handles (ds : List Directive) : List TagDirective :=
  ds.filterMap (fun d => match d with | tag t => some t | version .. => none)
    ++ TagSpelling.standard

end Directive

end TlsTrust.Yaml
