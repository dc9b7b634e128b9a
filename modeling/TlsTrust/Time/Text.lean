import TlsTrust.Time.Instant
import TlsTrust.Text.Ascii

namespace TlsTrust

open Text

namespace Time

def yearText (year : Int) : String :=
  if 0 ≤ year ∧ year ≤ 9999 then padded 4 year.toNat
  else (if year < 0 then "-" else "+") ++ padded 4 year.natAbs

def fractionText (nano : Nat) : String :=
  if nano == 0 then ""
  else if nano % 1000000 == 0 then "." ++ padded 3 (nano / 1000000)
  else if nano % 1000 == 0 then "." ++ padded 6 (nano / 1000)
  else "." ++ padded 9 nano

end Time

namespace Instant

open Time

def hour (t : Instant) : Nat := (t.secondOfDay / 3600).toNat
def minute (t : Instant) : Nat := (t.secondOfDay / 60 % 60).toNat

def secondOfMinute (t : Instant) : Nat :=
  (t.secondOfDay % 60).toNat + (if t.isLeap then 1 else 0)

def fraction (t : Instant) : Nat :=
  t.nano % 1000000000

def dateText (t : Instant) : String :=
  let d := t.date
  s!"{yearText d.year}-{padded 2 d.month}-{padded 2 d.day}"

def clockText (t : Instant) : String :=
  s!"{padded 2 t.hour}:{padded 2 t.minute}:{padded 2 t.secondOfMinute}"

/-- `2025-01-31T10:00:00.5Z`, the form in records, with three, six or nine digits of a fraction. -/
def text (t : Instant) : String :=
  s!"{t.dateText}T{t.clockText}{fractionText t.fraction}Z"

def display (t : Instant) : String :=
  s!"{t.dateText} {t.clockText}{fractionText t.fraction} UTC"

def toSecondText (t : Instant) : String :=
  s!"{t.dateText} {t.clockText}"

/-- `20250131-100000.000`, the form in the names of log files. -/
def stamp (t : Instant) : String :=
  let d := t.date
  s!"{yearText d.year}{padded 2 d.month}{padded 2 d.day}-"
    ++ s!"{padded 2 t.hour}{padded 2 t.minute}{padded 2 t.secondOfMinute}."
    ++ padded 3 (t.fraction / 1000000)

end Instant

end TlsTrust
