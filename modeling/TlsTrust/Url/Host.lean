import TlsTrust.IpAddress
import TlsTrust.Url.Domain
import TlsTrust.Url.Percent

namespace TlsTrust.Url

open Text

inductive Host where
  | domain (name : String)
  | v4 (value : Fin 4294967296)
  | v6 (groups : List (Fin 65536))
deriving DecidableEq, Repr

inductive Error where
  | noHost
  | domainName
  | v4Address
  | v6Address
  | portNumber
deriving DecidableEq, Repr

def Error.message : Error → String
  | noHost => "empty host"
  | domainName => "invalid international domain name"
  | v4Address => "invalid IPv4 address"
  | v6Address => "invalid IPv6 address"
  | portNumber => "invalid port number"

namespace Host

def number? (cs : List Char) : Option Nat :=
  match cs with
  | [] => none
  | '0' :: 'x' :: ds | '0' :: 'X' :: ds =>
    (ds.mapM hexDigit?).map fun ds => ds.foldl (fun n d => 16 * n + d) 0
  | '0' :: d :: ds =>
    if (d :: ds).all fun c => '0' ≤ c && c ≤ '7' then
      some ((d :: ds).foldl (fun n c => 8 * n + (c.toNat - 48)) 0)
    else none
  | ds => if ds.all Char.isDigit then some (natOfDigits ds) else none

def numberParts (name : List Char) : List (List Char) :=
  let parts := name.splitOn '.'
  if parts.getLast? == some [] then parts.dropLast else parts

def endsInNumber (name : List Char) : Bool :=
  match (numberParts name).getLast? with
  | none | some [] => false
  | some last => last.all Char.isDigit || (number? last).isSome

def v4? (name : List Char) : Option Host := do
  let parts := numberParts name
  if parts.length > 4 then none
  else
    let numbers ← parts.mapM number?
    let last ← numbers.getLast?
    let front := numbers.dropLast
    if front.any (255 < ·) then none
    else
      let value := front.foldl (fun n d => 256 * n + d) 0 * Nat.pow 256 (4 - front.length) + last
      if last < Nat.pow 256 (4 - front.length) then
        if h : value < 4294967296 then some (.v4 ⟨value, h⟩) else none
      else none

def name? (cs : List Char) : Option (List Char) := do
  domain? (← ofUtf8? (percentDecode cs)).toList

def parse (cs : List Char) : Except Error Host :=
  match cs with
  | '[' :: inner =>
    match if inner.getLast? == some ']' then IpAddress.v6? inner.dropLast else none with
    | some (.v6 groups) => .ok (.v6 groups.toList)
    | _ => .error .v6Address
  | _ =>
    match name? cs with
    | none => .error .domainName
    | some [] => .error .noHost
    | some name =>
      if endsInNumber name then
        match v4? name with
        | some host => .ok host
        | none => .error .v4Address
      else .ok (.domain (String.ofList name))

def text : Host → String
  | domain name => name
  | v4 value =>
    let n := value.val
    IpAddress.byteText (n / 16777216) (n / 65536 % 256) (n / 256 % 256) (n % 256)
  | v6 groups => s!"[{IpAddress.shortGroups groups}]"

end Host

end TlsTrust.Url
