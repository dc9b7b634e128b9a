import TlsTrust.Certificate.Encoded
import TlsTrust.Certificate.Pem
import TlsTrust.Chain.RootStore

namespace TlsTrust.RootStore

def ofBundle (text : String) : RootStore :=
  let encoded := (Pem.certificates text).mergeSort fun a b => decide (a ≤ b)
  ⟨encoded.eraseDups.filterMap Certificate.ofDer?⟩

end TlsTrust.RootStore
