import TlsTrust.Host
import TlsTrust.IpAddress

namespace TlsTrust

open Text

structure PublicRegistry where
  name : String
  suffixes : List String
  advice : String
deriving DecidableEq, Repr

namespace PublicRegistry

def all : List PublicRegistry := [
  { name := "Docker Hub"
    suffixes := ["docker.io"]
    advice := "Check https://www.dockerstatus.com for ongoing incidents" },
  { name := "GitHub Container Registry"
    suffixes := ["ghcr.io"]
    advice := "Check https://www.githubstatus.com for ongoing incidents" },
  { name := "Google Container Registry"
    suffixes := ["gcr.io", "pkg.dev"]
    advice := "Check https://status.cloud.google.com for ongoing incidents" },
  { name := "Quay"
    suffixes := ["quay.io"]
    advice := "Check https://status.quay.io for ongoing incidents" },
  { name := "Amazon ECR"
    suffixes := ["amazonaws.com"]
    advice := "Refresh credentials with aws ecr get-login-password and check the region endpoint" },
  { name := "Azure Container Registry"
    suffixes := ["azurecr.io"]
    advice := "Run az acr check-health --name <registry> to diagnose connectivity" }]

def covers (r : PublicRegistry) (name : String) : Bool :=
  r.suffixes.any fun s => name == s || ("." ++ s).toList.isSuffixOf name.toList

end PublicRegistry

def IpAddress.isLocal : IpAddress → Bool
  | .v4 a b _ _ =>
    a == 127 || a == 10 || (a == 172 && 16 ≤ b && b < 32) || (a == 192 && b == 168)
      || (a == 169 && b == 254)
  | .v6 groups => groups.toList.map Fin.val == [0, 0, 0, 0, 0, 0, 0, 1]

inductive HostProfile where
  | localCluster
  | publicRegistry (r : PublicRegistry)
  | selfHosted
deriving DecidableEq, Repr

namespace HostProfile

def isLocalName (name port : String) : Bool :=
  let cs := name.toList
  let firstLabel := cs.takeWhile (· != '.')
  (IpAddress.parse? name).any IpAddress.isLocal
    || name == "localhost"
    || name == "host.docker.internal"
    || firstLabel == "kind".toList
    || "kind-".toList.isPrefixOf firstLabel
    || ".local".toList.isSuffixOf cs
    || ".localhost".toList.isSuffixOf cs
    || ((port == "5000" || port == "5001") && !cs.contains '.')

def ofHost (host : String) : HostProfile :=
  let whole := Host.normalized host
  let name := Host.withoutPort whole
  if isLocalName name (Host.portOf whole name) then localCluster
  else
    match PublicRegistry.all.find? (·.covers name) with
    | some r => publicRegistry r
    | none => selfHosted

def label : HostProfile → String
  | localCluster => "local cluster registry"
  | publicRegistry r => r.name
  | selfHosted => "self-hosted registry"

end HostProfile

end TlsTrust
