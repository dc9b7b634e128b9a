import TlsTrust.Yaml.Token

/-! A text keeps its style and tag, since they decide what else it can be read as. -/

namespace TlsTrust.Yaml

structure Scalar where
  tag : Option String := none
  style : ScalarStyle := .plain
  text : String
deriving DecidableEq, Repr

inductive Node where
  | scalar (s : Scalar)
  | sequence (items : List Node)
  | mapping (entries : List (Node × Node))
  /-- An alias inside the value that it stands for. -/
  | cycle
deriving Repr, Inhabited

namespace Node

def empty : Node :=
  .scalar { text := "" }

structure Properties where
  anchor : Option String := none
  tag : Option String := none
deriving Repr

def Properties.isNone (p : Properties) : Bool :=
  p.anchor.isNone && p.tag.isNone

structure Reader where
  tokens : List Token
  handles : List TagDirective
  anchors : List (String × Node) := []

namespace Reader

def skip (r : Reader) : Reader :=
  { r with tokens := r.tokens.drop 1 }

def bindAnchor (r : Reader) (p : Properties) (n : Node) : Reader :=
  match p.anchor with
  | some a => { r with anchors := (a, n) :: r.anchors }
  | none => r

def properties? (r : Reader) : Option (Properties × Reader) :=
  let tag? (t : TagSpelling) : Option String := TagSpelling.resolve? r.handles t
  match r.tokens with
  | .anchor a :: .tag t :: _ => do return ({ anchor := a, tag := ← tag? t }, r.skip.skip)
  | .tag t :: .anchor a :: _ => do return ({ anchor := a, tag := ← tag? t }, r.skip.skip)
  | .anchor a :: _ => some ({ anchor := a }, r.skip)
  | .tag t :: _ => do return ({ tag := ← tag? t }, r.skip)
  | _ => some ({}, r)

def endsBlockValue (r : Reader) : Bool :=
  match r.tokens with
  | .key :: _ | .value :: _ | .blockEnd :: _ => true
  | _ => false

def endsItem (r : Reader) : Bool :=
  match r.tokens with
  | .blockEntry :: _ => true
  | _ => r.endsBlockValue

end Reader

def emptyWith (p : Properties) (r : Reader) : Option (Node × Reader) :=
  if p.isNone then none
  else
    let node := scalar { tag := p.tag, text := "" }
    some (node, r.bindAnchor p node)

def bound (p : Properties) (result : Option (Node × Reader)) : Option (Node × Reader) :=
  result.map fun (node, r) => (node, r.bindAnchor p node)

def cons? (item : Node) (rest : Option (Node × Reader)) : Option (Node × Reader) :=
  match rest with
  | some (sequence items, r) => some (sequence (item :: items), r)
  | _ => none

def consEntry? (key value : Node) (rest : Option (Node × Reader)) : Option (Node × Reader) :=
  match rest with
  | some (mapping entries, r) => some (mapping ((key, value) :: entries), r)
  | _ => none

def comma? (first : Bool) (r : Reader) : Option Reader :=
  if first then some r
  else
    match r.tokens with
    | .flowEntry :: _ => some r.skip
    | _ => none

mutual

/-- Reads a value. Blocks may stand in it if `block` holds, and items that are not indented if
`items` holds. -/
def read? (block items : Bool) : Nat → Reader → Option (Node × Reader)
  | 0, _ => none
  | n + 1, r =>
    match r.tokens with
    | .alias a :: _ => (r.anchors.lookup a).map (·, r.skip)
    | _ => do
      let (p, r) ← r.properties?
      let inner := r.bindAnchor p cycle
      match r.tokens with
      | .scalar style text :: _ =>
        let node := scalar { tag := p.tag, style, text }
        return (node, r.skip.bindAnchor p node)
      | .flowSequenceStart :: _ => bound p (flowItems? true n inner.skip)
      | .flowMappingStart :: _ => bound p (flowEntries? true n inner.skip)
      | .blockEntry :: _ =>
        if items then bound p (looseItems? n inner) else emptyWith p r
      | .blockSequenceStart :: _ =>
        if block then bound p (blockItems? n inner.skip) else emptyWith p r
      | .blockMappingStart :: _ =>
        if block then bound p (blockEntries? n inner.skip) else emptyWith p r
      | _ => emptyWith p r

def blockItems? : Nat → Reader → Option (Node × Reader)
  | 0, _ => none
  | n + 1, r =>
    match r.tokens with
    | .blockEntry :: _ => do
      let r := r.skip
      let ends := match r.tokens with
        | .blockEntry :: _ | .blockEnd :: _ => true
        | _ => false
      let (item, r) ← if ends then some (empty, r) else read? true false n r
      cons? item (blockItems? n r)
    | .blockEnd :: _ => some (sequence [], r.skip)
    | _ => none

def looseItems? : Nat → Reader → Option (Node × Reader)
  | 0, _ => none
  | n + 1, r =>
    match r.tokens with
    | .blockEntry :: _ => do
      let r := r.skip
      let (item, r) ← if r.endsItem then some (empty, r) else read? true false n r
      cons? item (looseItems? n r)
    | _ => some (sequence [], r)

def blockValue? : Nat → Reader → Option (Node × Reader)
  | 0, _ => none
  | n + 1, r =>
    match r.tokens with
    | .value :: _ =>
      let r := r.skip
      if r.endsBlockValue then some (empty, r) else read? true true n r
    | _ => some (empty, r)

def blockEntries? : Nat → Reader → Option (Node × Reader)
  | 0, _ => none
  | n + 1, r =>
    match r.tokens with
    | .key :: _ => do
      let r := r.skip
      let (key, r) ← if r.endsBlockValue then some (empty, r) else read? true true n r
      let (value, r) ← blockValue? n r
      consEntry? key value (blockEntries? n r)
    | .blockEnd :: _ => some (mapping [], r.skip)
    | _ => none

def flowValue? (close : Token) : Nat → Reader → Option (Node × Reader)
  | 0, _ => none
  | n + 1, r =>
    match r.tokens with
    | .value :: _ =>
      let r := r.skip
      if r.tokens.head?.any fun t => t == .flowEntry || t == close then some (empty, r)
      else read? false false n r
    | _ => some (empty, r)

def flowItems? (first : Bool) : Nat → Reader → Option (Node × Reader)
  | 0, _ => none
  | n + 1, r =>
    match r.tokens with
    | .flowSequenceEnd :: _ => some (sequence [], r.skip)
    | _ => do
      let r ← comma? first r
      match r.tokens with
      | .flowSequenceEnd :: _ => return (sequence [], r.skip)
      | .key :: _ =>
        let r := r.skip
        let (key, r) ← match r.tokens with
          | .value :: _ | .flowEntry :: _ | .flowSequenceEnd :: _ => some (empty, r.skip)
          | _ => read? false false n r
        let (value, r) ← flowValue? .flowSequenceEnd n r
        cons? (mapping [(key, value)]) (flowItems? false n r)
      | _ =>
        let (item, r) ← read? false false n r
        cons? item (flowItems? false n r)

def flowEntries? (first : Bool) : Nat → Reader → Option (Node × Reader)
  | 0, _ => none
  | n + 1, r =>
    match r.tokens with
    | .flowMappingEnd :: _ => some (mapping [], r.skip)
    | _ => do
      let r ← comma? first r
      match r.tokens with
      | .flowMappingEnd :: _ => return (mapping [], r.skip)
      | .key :: _ =>
        let r := r.skip
        let (key, r) ← match r.tokens with
          | .value :: _ | .flowEntry :: _ | .flowMappingEnd :: _ => some (empty, r)
          | _ => read? false false n r
        let (value, r) ← flowValue? .flowMappingEnd n r
        consEntry? key value (flowEntries? false n r)
      | _ =>
        let (key, r) ← read? false false n r
        consEntry? key empty (flowEntries? false n r)

end

end Node

end TlsTrust.Yaml
