import TlsTrust.Certificate.Name
import TlsTrust.IpAddress

/-! The two extensions that count, each only if it occurs once and can be read. -/

namespace TlsTrust

open Der Text

structure Extension where
  kind : ObjectId
  value : List UInt8
deriving DecidableEq, Repr

inductive CoveredName where
  | dns (name : String)
  | ip (bytes : List UInt8)
  | other
deriving DecidableEq, Repr

namespace Extension

def skipCritical (bytes : List UInt8) : List UInt8 :=
  match markedElement? bytes with
  | some (e, rest) => if e.tag = 1 ∧ e.content.length = 1 then rest else bytes
  | none => bytes

def read? (bytes : List UInt8) : Option (Extension × List UInt8) := do
  let (body, rest) ← sequence? bytes
  let (kind, body) ← ObjectId.read? body
  let (value, _) ← octets? (skipCritical body)
  return (⟨kind, value⟩, rest)

def readAll? (bytes : List UInt8) : Option (List Extension) :=
  if bytes.isEmpty then some []
  else do
    let (h, rest) ← header? bytes
    let (body, rest) ← sequence? rest
    if h.length.isSome ∧ h.tag = 3 ∧ rest.isEmpty then all? read? body else none

def only? (kind : ObjectId) (extensions : List Extension) : Option (List UInt8) :=
  match extensions.filter (·.kind == kind) with
  | [e] => some e.value
  | _ => none

end Extension

namespace CoveredName

def kind : ObjectId :=
  ⟨[85, 29, 17]⟩

def ofElement? (e : Element) : Option CoveredName :=
  if e.tagClass ≠ .context then none
  else
    match e.tag with
    | 0 => (ObjectId.read? e.content).map fun _ => other
    | 2 => (ofUtf8? e.content).map dns
    | 1 | 6 => (ofUtf8? e.content).map fun _ => other
    | 4 =>
      match DistinguishedName.read? e.content with
      | some (_, []) => some other
      | _ => none
    | 7 => some (ip e.content)
    | 3 | 5 | 8 => some other
    | _ => none

def read? (bytes : List UInt8) : Option (CoveredName × List UInt8) := do
  let (e, rest) ← element? bytes
  return (← ofElement? e, rest)

def list? (value : List UInt8) : Option (List CoveredName) := do
  let (body, _) ← sequence? value
  all? read? body

def ofExtensions (extensions : List Extension) : List CoveredName :=
  ((Extension.only? kind extensions).bind list?).getD []

def dns? : CoveredName → Option String
  | dns name => some name
  | _ => none

def ip? : CoveredName → Option IpAddress
  | ip bytes => IpAddress.ofBytes? bytes
  | _ => none

end CoveredName

namespace Authority

def kind : ObjectId :=
  ⟨[85, 29, 19]⟩

/-- The value of the extension: whether the certificate may sign others, and how long a path below
it may be. Both may be missing. -/
def mark? (value : List UInt8) : Option Bool := do
  let (body, _) ← sequence? value
  match ← all? element? body with
  | [] => some false
  | [e] => (bool? e).or ((smallNat? e).map fun _ => false)
  | [e, n] => do
    let b ← bool? e
    let _ ← smallNat? n
    return b
  | _ => none

def ofExtensions (extensions : List Extension) : Bool :=
  ((Extension.only? kind extensions).bind mark?).getD false

end Authority

end TlsTrust
