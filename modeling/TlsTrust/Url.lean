import TlsTrust.Text.Blank
import TlsTrust.Url.Host

/-!
Addresses of the scheme `https`: reading what follows `https://`, and writing them again in the one
form they have.
-/

namespace TlsTrust

open Text

structure Url where
  user : String := ""
  password : String := ""
  host : Url.Host
  port : Option Nat := none
  path : List String
  query : Option String := none
  fragment : Option String := none
deriving DecidableEq, Repr

namespace Url

def defaultPort : Nat := 443

def endsAuthority (c : Char) : Bool :=
  c == '/' || c == '\\' || c == '?' || c == '#'

def userInfo (cs : List Char) : String × String :=
  match splitFirst? ':' cs with
  | some (user, password) => (percentEncode quotedInUser user, percentEncode quotedInUser password)
  | none => (percentEncode quotedInUser cs, "")

def hostLength (inBrackets : Bool) : List Char → Nat
  | [] => 0
  | c :: rest =>
    if c == ':' && !inBrackets then 0
    else hostLength (if c == '[' then true else if c == ']' then false else inBrackets) rest + 1

def readPort : List Char → Except Error (Option Nat)
  | ':' :: ds =>
    let n := natOfDigits ds
    if !ds.all Char.isDigit || 65535 < n then .error .portNumber
    else if ds.isEmpty || n == defaultPort then .ok none
    else .ok (some n)
  | _ => .ok none

def isAbove (segment : String) : Bool :=
  ["..", "%2e.", ".%2e", "%2e%2e"].contains (lower segment)

def isHere (segment : String) : Bool :=
  [".", "%2e"].contains (lower segment)

def isDrive (segment : String) : Bool :=
  match segment.toList with
  | [c, d] => c.isAlpha && (d == ':' || d == '|')
  | _ => false

def stepUp (path : List String) : List String :=
  if path.getLast?.any isDrive then path else path.dropLast

def resolve (path : List String) : List String → List String
  | [] => path
  | [last] =>
    if isAbove last then stepUp path ++ [""]
    else if isHere last then path ++ [""]
    else path ++ [last]
  | s :: rest =>
    if isAbove s then resolve (stepUp path) rest
    else if isHere s then resolve path rest
    else resolve (path ++ [s]) rest

def pathOf (cs : List Char) : List String :=
  let segments := cs.splitOnP fun c => c == '/' || c == '\\'
  resolve [] (segments.map (percentEncode quotedInPath))

def readAuthority (cs : List Char) : Except Error (Host × Option Nat) := do
  let n := hostLength false cs
  return (← Host.parse (cs.take n), ← readPort (cs.drop n))

def queryAndFragment (cs : List Char) : Option String × Option String :=
  let query := cs.takeWhile (· != '#')
  let fragment := cs.dropWhile (· != '#')
  ((if query.isEmpty then none else some (percentEncode quotedInQuery (query.drop 1))),
    if fragment.isEmpty then none else some (percentEncode quotedInFragment (fragment.drop 1)))

def splitUser (authority : List Char) : Option (List Char) × List Char :=
  match splitLast? '@' authority with
  | some (user, rest) => (some user, rest)
  | none => (none, authority)

/-- Reads what follows `https://`. Further slashes, tabs, line ends, and blanks and control
characters at the end do not count. -/
def afterScheme (text : String) : Except Error Url := do
  let cs := dropEndWhile (·.toNat ≤ 32) text.toList
  let cs := cs.filter fun c => c != '\t' && c != '\n' && c != '\r'
  let cs := cs.dropWhile fun c => c == '/' || c == '\\'
  let authority := cs.takeWhile (!endsAuthority ·)
  let rest := cs.drop authority.length
  let (user, hostPart) := splitUser authority
  let (user, password) := userInfo (user.getD [])
  let (host, port) ← readAuthority hostPart
  let path := rest.takeWhile fun c => c != '?' && c != '#'
  let (query, fragment) := queryAndFragment (rest.drop path.length)
  return { user, password, host, port, path := pathOf (path.drop 1), query, fragment }

def text (u : Url) : String :=
  let user :=
    if u.user.isEmpty && u.password.isEmpty then ""
    else if u.password.isEmpty then u.user ++ "@"
    else s!"{u.user}:{u.password}@"
  let port := (u.port.map fun n => s!":{n}").getD ""
  let query := (u.query.map ("?" ++ ·)).getD ""
  let fragment := (u.fragment.map ("#" ++ ·)).getD ""
  let path := "/".intercalate u.path
  s!"https://{user}{u.host.text}{port}/{path}{query}{fragment}"

end Url

end TlsTrust
