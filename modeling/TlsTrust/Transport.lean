import TlsTrust.Json.Record

namespace TlsTrust

inductive TlsVersion where
  | tls10
  | tls11
  | tls12
  | tls13
deriving DecidableEq, Repr

namespace TlsVersion

def all : List TlsVersion :=
  [tls10, tls11, tls12, tls13]

def name : TlsVersion → String
  | tls10 => "1.0"
  | tls11 => "1.1"
  | tls12 => "1.2"
  | tls13 => "1.3"

def display (v : TlsVersion) : String :=
  "TLS " ++ v.name

end TlsVersion

inductive RootSelection where
  | standard
  | platformOnly
deriving DecidableEq, Repr

namespace RootSelection

def all : List RootSelection :=
  [standard, platformOnly]

def name : RootSelection → String
  | standard => "default"
  | platformOnly => "platform_only"

def display : RootSelection → String
  | standard => "Default"
  | platformOnly => "PlatformOnly"

end RootSelection

structure Transport where
  verifies : Bool
  roots : RootSelection
  namesServer : Bool
  minVersion : TlsVersion
  maxVersion : TlsVersion
deriving DecidableEq, Repr

namespace Transport

def strict : Transport :=
  ⟨true, .standard, true, .tls12, .tls13⟩

def unverified : Transport :=
  { strict with verifies := false }

instance : Inhabited Transport := ⟨strict⟩

def withPlatformRoots (t : Transport) : Transport :=
  { t with roots := .platformOnly }

def withoutServerName (t : Transport) : Transport :=
  { t with namesServer := false }

def withMinVersion (t : Transport) (v : TlsVersion) : Transport :=
  { t with minVersion := v }

def display (t : Transport) : String :=
  s!"verify={t.verifies} roots={t.roots.display} sni={t.namesServer} "
    ++ s!"tls={t.minVersion.display}..={t.maxVersion.display}"

def toJson (t : Transport) : Json :=
  .object [
    ("verify_certificates", .bool t.verifies),
    ("roots", .string t.roots.name),
    ("server_name_indication", .bool t.namesServer),
    ("min_tls_version", .string t.minVersion.name),
    ("max_tls_version", .string t.maxVersion.name)]

def fields : List Json.RecordField :=
  [⟨"verify_certificates", false⟩, ⟨"roots", false⟩, ⟨"server_name_indication", false⟩,
    ⟨"min_tls_version", false⟩, ⟨"max_tls_version", false⟩]

def ofJson? (j : Json) : Option Transport := do
  match ← Json.recordValues? fields j with
  | [verifies, roots, server, low, high] =>
    return {
      verifies := ← Json.required Json.bool? verifies
      roots := ← Json.required (Json.word? RootSelection.all RootSelection.name) roots
      namesServer := ← Json.required Json.bool? server
      minVersion := ← Json.required (Json.word? TlsVersion.all TlsVersion.name) low
      maxVersion := ← Json.required (Json.word? TlsVersion.all TlsVersion.name) high }
  | _ => none

end Transport

end TlsTrust
