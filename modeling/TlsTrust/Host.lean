import TlsTrust.Text.Ascii
import TlsTrust.Text.Blank
import TlsTrust.Text.Search

/-! Host strings: a name or an address, perhaps with a port. -/

namespace TlsTrust.Host

open Text

/-- The host without a port. Brackets around an address are dropped with all that follows them, and
a text with several colons is a bare address. -/
def withoutPortChars (cs : List Char) : List Char :=
  match cs with
  | '[' :: rest => rest.takeWhile (· != ']')
  | _ =>
    match splitLast? ':' cs with
    | some (name, port) => if !name.contains ':' && port.all Char.isDigit then name else cs
    | none => cs

def withoutPort (host : String) : String :=
  String.ofList (withoutPortChars host.toList)

/-- The key of a host: without blanks around it, without dots at its end, in small letters. -/
def key (host : String) : String :=
  lower (dropTrailingDots (trim host))

def variableSuffix (host : String) : String :=
  String.ofList ((upper (trim host)).toList.map fun c =>
    if c == ':' || c == '/' || c == '.' || c == '-' then '_' else c)

def normalized (host : String) : String :=
  lower (trim host)

def portOf (host name : String) : String :=
  match stripStart? name.toList host.toList with
  | some (':' :: port) => String.ofList port
  | _ => ""

end TlsTrust.Host
