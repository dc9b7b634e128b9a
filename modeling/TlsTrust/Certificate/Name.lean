import TlsTrust.Der
import TlsTrust.Text.Ascii
import TlsTrust.Text.Utf16
import TlsTrust.Text.Utf8

/-! The names of subjects and issuers, in whose text nothing is escaped. -/

namespace TlsTrust

open Der Text

structure NameAttribute where
  kind : ObjectId
  value : Element
deriving DecidableEq, Repr

structure DistinguishedName where
  parts : List (List NameAttribute)
deriving DecidableEq, Repr

namespace NameAttribute

def directoryKinds : List (UInt8 × String) :=
  [(3, "CN"), (6, "C"), (7, "L"), (8, "ST"), (10, "O"), (11, "OU"),
    (0, "objectClass"), (1, "aliasedEntryName"), (2, "knowledgeInformation"), (4, "surname"),
    (5, "serialNumber"), (9, "streetAddress"), (12, "title"), (13, "description"),
    (14, "searchGuide"), (15, "businessCategory"), (16, "postalAddress"), (17, "postalCode"),
    (41, "name"), (42, "givenName"), (43, "initials"), (44, "generationQualifier"),
    (45, "uniqueIdentifier"), (46, "dnQualifier")]

def kindWords : List (List UInt8 × String) :=
  directoryKinds.map (fun (b, word) => ([85, 4, b], word)) ++
    [([9, 146, 38, 137, 147, 242, 44, 100, 1, 25], "DC"),
      ([9, 146, 38, 137, 147, 242, 44, 100, 1, 1], "userId"),
      ([42, 134, 72, 134, 247, 13, 1, 9, 1], "Email"),
      ([42, 134, 72, 134, 247, 13, 1, 9, 2], "unstructuredName"),
      ([42, 134, 72, 134, 247, 13, 1, 9, 7], "challengePassword")]

def commonName : ObjectId :=
  ⟨[85, 4, 3]⟩

def kindText (o : ObjectId) : String :=
  match kindWords.lookup o.bytes with
  | some word => word
  | none => s!"OID({o.text})"

def textTags : List Nat :=
  [7, 12, 18, 19, 20, 21, 22, 25, 26, 27]

def hostTags : List Nat :=
  [12, 18, 19, 22]

def valueText? (e : Element) : Option String :=
  if textTags.contains e.tag then ofUtf8? e.content
  else if e.tag = 30 then ofUtf16? e.content
  else some (upper (hexOfBytes e.content))

def text? (a : NameAttribute) : Option String :=
  (valueText? a.value).map fun value => s!"{kindText a.kind}={value}"

def read? (bytes : List UInt8) : Option (NameAttribute × List UInt8) := do
  let (body, rest) ← sequence? bytes
  let (kind, body) ← ObjectId.read? body
  let (value, _) ← element? body
  return (⟨kind, value⟩, rest)

end NameAttribute

namespace DistinguishedName

def part? (bytes : List UInt8) : Option (List NameAttribute × List UInt8) := do
  let (body, rest) ← set? bytes
  let attributes := front NameAttribute.read? body
  if attributes.isEmpty then none else return (attributes, rest)

def read? (bytes : List UInt8) : Option (DistinguishedName × List UInt8) := do
  let (body, rest) ← sequence? bytes
  return (⟨front part? body⟩, rest)

def text (n : DistinguishedName) : String :=
  let parts := n.parts.mapM fun attributes =>
    (attributes.mapM NameAttribute.text?).map (" + ".intercalate ·)
  match parts with
  | some parts => ", ".intercalate parts
  | none => "<X509Error: Invalid X.509 name>"

def commonName? (n : DistinguishedName) : Option String := do
  let a ← n.parts.flatten.find? (·.kind == NameAttribute.commonName)
  if NameAttribute.hostTags.contains a.value.tag then ofUtf8? a.value.content else none

end DistinguishedName

end TlsTrust
