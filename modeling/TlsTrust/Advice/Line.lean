import TlsTrust.FailureKind

/-!
In a line `{host}` stands for the host, `{name}` and `{port}` for its parts, and `{host_file}` for
the host as a file name.
-/

namespace TlsTrust

inductive Tier where
  | warning
  | command
  | advice
deriving DecidableEq, Repr

def Tier.all : List Tier :=
  [.warning, .command, .advice]

def Tier.rank : Tier → Nat
  | warning => 0
  | command => 1
  | advice => 2

structure AdviceLine where
  tier : Tier
  text : String
deriving DecidableEq, Repr

inductive Issue where
  | unknownAuthority
  | expired
  | hostnameMismatch
  | selfSigned
  | tlsVersion
  | networkUnreachable
  | general
deriving DecidableEq, Repr

namespace Issue

def name : Issue → String
  | unknownAuthority => "unknown_authority"
  | expired => "expired"
  | hostnameMismatch => "hostname_mismatch"
  | selfSigned => "self_signed"
  | tlsVersion => "tls_version"
  | networkUnreachable => "network_unreachable"
  | general => "general"

def recognized : List Issue :=
  [unknownAuthority, expired, hostnameMismatch, selfSigned, tlsVersion, networkUnreachable]

def phrases : Issue → List String
  | unknownAuthority =>
    ["unknown authority", "unknown issuer", "unknown ca", "unknownissuer",
     "unable to get local issuer", "not trusted"]
  | expired => ["expired", "not valid after", "not yet valid"]
  | hostnameMismatch =>
    ["hostname", "not valid for", "notvalidforname", "doesn't match", "does not match"]
  | selfSigned => ["self-signed", "self signed"]
  | tlsVersion => ["protocol version", "tls version", "unsupported protocol", "handshake failure"]
  | networkUnreachable =>
    ["connection refused", "no route to host", "network is unreachable", "timed out",
     "no such host", "dns error"]
  | general => []

def timeEstimate : Issue → String
  | unknownAuthority => "10-15 minutes"
  | expired => "30-60 minutes (certificate renewal)"
  | hostnameMismatch | general => "15-30 minutes"
  | selfSigned => "5-10 minutes"
  | tlsVersion => "30+ minutes (server configuration)"
  | networkUnreachable => "5-15 minutes"

def ofKind? : FailureKind → Option Issue
  | .untrustedCA | .chainIncomplete => some unknownAuthority
  | .expired | .notYetValid => some expired
  | .hostnameMismatch => some hostnameMismatch
  | .selfSigned => some selfSigned
  | _ => none

def lines : Issue → List AdviceLine
  | unknownAuthority => [
    ⟨.warning, "Do not disable certificate verification to work around an untrusted CA in production"⟩,
    ⟨.command, "Inspect the presented chain: openssl s_client -connect {name}:{port} -showcerts </dev/null"⟩,
    ⟨.command, "Add the registry CA to the system trust store: cp ca.crt /usr/local/share/ca-certificates/{host_file}.crt && update-ca-certificates"⟩,
    ⟨.advice, "Ask the registry operator which CA issued its certificate"⟩]
  | expired => [
    ⟨.warning, "Expired certificates must be renewed; bypassing expiry checks hides real compromise"⟩,
    ⟨.command, "Check the validity window: openssl s_client -connect {name}:{port} </dev/null 2>/dev/null | openssl x509 -noout -dates"⟩,
    ⟨.command, "Check the local clock: timedatectl status"⟩,
    ⟨.advice, "Renew the registry certificate"⟩]
  | hostnameMismatch => [
    ⟨.command, "List the names the certificate covers: openssl s_client -connect {name}:{port} </dev/null 2>/dev/null | openssl x509 -noout -ext subjectAltName"⟩,
    ⟨.advice, "Connect using a hostname listed in the certificate's subject alternative names"⟩,
    ⟨.advice, "Reissue the certificate with {name} in its subject alternative names"⟩]
  | selfSigned => [
    ⟨.warning, "Trust a self-signed certificate only for this registry, never system-wide"⟩,
    ⟨.command, "Export the certificate: openssl s_client -connect {name}:{port} -showcerts </dev/null 2>/dev/null | openssl x509 > {host_file}.crt"⟩,
    ⟨.command, "Trust it for this registry only: mkdir -p /etc/docker/certs.d/{host} && cp {host_file}.crt /etc/docker/certs.d/{host}/ca.crt"⟩,
    ⟨.advice, "Replace the self-signed certificate with one issued by a trusted CA"⟩]
  | tlsVersion => [
    ⟨.warning, "Older TLS versions have known weaknesses; upgrade the registry rather than the client"⟩,
    ⟨.command, "Check the versions the registry supports: openssl s_client -connect {name}:{port} -tls1_2 </dev/null"⟩,
    ⟨.advice, "Enable TLS 1.2 or newer on the registry"⟩]
  | networkUnreachable => [
    ⟨.command, "Check reachability: curl -v https://{host}/v2/"⟩,
    ⟨.advice, "Verify the registry address and port"⟩,
    ⟨.advice, "Check proxy settings (HTTPS_PROXY, NO_PROXY)"⟩]
  | general => []

end Issue

namespace AdviceLine

def localCluster : List AdviceLine := [
  ⟨.command, "Extract the cluster CA from a kind node: docker exec kind-control-plane cat /etc/kubernetes/pki/ca.crt > kind-ca.crt"⟩,
  ⟨.command, "Or copy it out of the node: docker cp kind-control-plane:/etc/kubernetes/pki/ca.crt kind-ca.crt"⟩,
  ⟨.command, "Or read it from a cluster secret: kubectl get secret -n kube-system -o jsonpath='\x7b.items[0].data.ca\\.crt\x7d' | base64 -d > cluster-ca.crt"⟩,
  ⟨.command, "Trust the extracted CA for this registry only: mkdir -p /etc/docker/certs.d/{host} && cp kind-ca.crt /etc/docker/certs.d/{host}/ca.crt"⟩,
  ⟨.advice, "Local development registries may be marked insecure in the container runtime, for development only"⟩]

def publicRegistry : List AdviceLine := [
  ⟨.warning, "Public registries use publicly trusted certificates; a failure usually means TLS interception or an outdated trust store"⟩,
  ⟨.command, "Update the system CA bundle: apt-get install --reinstall ca-certificates (or your platform's equivalent)"⟩,
  ⟨.advice, "If a corporate proxy intercepts TLS, install the proxy's CA certificate"⟩]

def selfHosted : List AdviceLine := [
  ⟨.command, "Trust the registry CA for this registry only: mkdir -p /etc/docker/certs.d/{host} && cp ca.crt /etc/docker/certs.d/{host}/ca.crt"⟩,
  ⟨.advice, "Obtain the CA certificate from the registry administrator"⟩,
  ⟨.advice, "Consider certificates from a public CA (for example Let's Encrypt) for self-hosted registries"⟩]

def closing : AdviceLine :=
  ⟨.advice, "Review the security audit log before accepting any certificate bypass"⟩

end AdviceLine

namespace Advice

def diagnosticCommands : List String := [
  "openssl s_client -connect {name}:{port} -servername {name} -showcerts </dev/null",
  "openssl s_client -connect {name}:{port} </dev/null 2>/dev/null | openssl x509 -noout -subject -issuer -dates -ext subjectAltName",
  "curl -v https://{host}/v2/"]

def complianceFrameworks : List String := [
  "PCI DSS 4.2.1 (strong cryptography for data in transit)",
  "SOC 2 CC6.7 (transmission of data)",
  "HIPAA 164.312(e)(1) (transmission security)",
  "ISO/IEC 27001 A.8.24 (use of cryptography)"]

def impactOf : FailureKind → String
  | .untrustedCA =>
    "The registry's identity cannot be verified; a man-in-the-middle could serve altered images"
  | .expired =>
    "The certificate is no longer maintained and may belong to a compromised or abandoned key"
  | .notYetValid =>
    "The certificate is not active yet; usually a clock problem, occasionally a staging mistake"
  | .hostnameMismatch =>
    "The certificate belongs to a different host; traffic may be going to the wrong server"
  | .selfSigned =>
    "Nothing vouches for the certificate; any party can generate an identical-looking one"
  | .revoked =>
    "The issuer has withdrawn the certificate; its key should be treated as compromised"
  | .chainIncomplete =>
    "The server does not send its full chain; clients with different trust stores will fail"
  | .keyUsageInvalid => "The certificate was not issued for TLS server authentication"
  | .badCertificate => "The certificate is malformed and cannot be trusted"
  | .unknown => "The failure could not be classified; treat it as untrusted"

end Advice

end TlsTrust
