import TlsTrust.Yaml.Node

namespace TlsTrust.Yaml

structure Document where
  root : Option Node
  /-- Whether the text is faultless and ends after the document. -/
  isOnly : Bool
deriving Repr

namespace Document

def directives : List Token → List Directive × List Token
  | .directive d :: ts =>
    let (ds, ts) := directives ts
    (d :: ds, ts)
  | ts => ([], ts)

def endsText (ts : List Token) : Bool :=
  ts.dropWhile (· == .documentEnd) == [.streamEnd]

def ofRoot? (handles : List TagDirective) (ts : List Token) : Option Document := do
  let (root, r) ← Node.read? true false (6 * ts.length + 10) { tokens := ts, handles }
  return { root := some root, isOnly := endsText r.tokens }

def ofNothing (ts : List Token) : Document :=
  { root := some Node.empty, isOnly := endsText ts }

def ofTokens? (ts : List Token) : Option Document :=
  let (ds, ts') := directives ts
  match ts' with
  | .documentStart :: ts =>
    if Directive.areConsistent ds then
      match ts with
      | .directive _ :: _ | .documentStart :: _ | .documentEnd :: _ | .streamEnd :: _ =>
        some (ofNothing ts)
      | ts => ofRoot? (Directive.handles ds) ts
    else none
  | [.streamEnd] => if ds.isEmpty then some { root := none, isOnly := true } else none
  | ts => if ds.isEmpty then ofRoot? TagSpelling.standard ts else none

def ofText? (s : String) : Option Document :=
  ofTokens? (Token.ofText s)

end Document

end TlsTrust.Yaml
