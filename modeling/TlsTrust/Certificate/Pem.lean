import TlsTrust.Text.Base64

namespace TlsTrust.Pem

open Text

def lines (bytes : List UInt8) : List (List UInt8) :=
  bytes.splitOnP fun b => b == 10 || b == 13

/-- Whether a byte may stand after or among the dashes at the end of a line. -/
def isTail (b : UInt8) : Bool :=
  b == 45 || b == 32

def label? (afterBegin : List UInt8) : Option (List UInt8) :=
  let tail := (afterBegin.reverse.takeWhile isTail).reverse
  if tail.count 45 = 5 then
    some (afterBegin.take (afterBegin.length - tail.length) ++ tail.takeWhile (· == 32))
  else none

def stripStart? (start line : List UInt8) : Option (List UInt8) :=
  if start.isPrefixOf line then some (line.drop start.length) else none

structure Open where
  label : List UInt8
  digits : List UInt8

def endLine (label : List UInt8) : List UInt8 :=
  utf8 "-----END " ++ label ++ utf8 "-----"

/-- The certificates in the sections that are closed. A section that begins inside another one
takes over its digits; a line that begins no section properly drops the open one. -/
def certificatesFrom : Option Open → List (List UInt8) → List (List UInt8)
  | _, [] => []
  | s, line :: rest =>
    match stripStart? (utf8 "-----BEGIN ") line with
    | some afterBegin =>
      match label? afterBegin with
      | some label => certificatesFrom (some ⟨label, (s.map Open.digits).getD []⟩) rest
      | none => certificatesFrom none rest
    | none =>
      match s with
      | none => certificatesFrom none rest
      | some s =>
        if (endLine s.label).isPrefixOf line then
          let found := if s.label == utf8 "CERTIFICATE" then Base64.decode? s.digits else none
          found.toList ++ certificatesFrom none rest
        else certificatesFrom (some { s with digits := s.digits ++ line }) rest

def certificates (text : String) : List (List UInt8) :=
  certificatesFrom none (lines (utf8 text))

end TlsTrust.Pem
