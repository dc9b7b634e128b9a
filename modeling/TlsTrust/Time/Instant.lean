import TlsTrust.Time.Date

/-!
Points of universal time to the nanosecond; a leap second has the count of the second before it and
nanoseconds from 10^9 on.
-/

namespace TlsTrust

abbrev Duration := Int

namespace Duration

def second : Duration := 1000000000

def ofSeconds (n : Int) : Duration := n * second
def ofMillis (n : Int) : Duration := n * 1000000
def day : Duration := ofSeconds 86400

def wholeDays (d : Duration) : Int := Int.tdiv d day

def wholeMinutes (d : Duration) : Int := Int.tdiv d (ofSeconds 60)

def fractionDigits (places n : Nat) : List Char :=
  let ds := (Nat.repr n).toList
  let filled := List.replicate (places - ds.length) '0' ++ ds
  (filled.reverse.dropWhile (· == '0')).reverse

def withFraction (whole places n : Nat) (unit : String) : String :=
  let ds := fractionDigits places n
  if ds.isEmpty then s!"{whole}{unit}" else s!"{whole}.{String.ofList ds}{unit}"

/-- A duration in its largest unit among seconds, milli-, micro- and nanoseconds, with all its
digits. -/
def text (d : Duration) : String :=
  let n := d.toNat
  if 1000000000 ≤ n then withFraction (n / 1000000000) 9 (n % 1000000000) "s"
  else if 1000000 ≤ n then withFraction (n / 1000000) 6 (n % 1000000) "ms"
  else if 1000 ≤ n then withFraction (n / 1000) 3 (n % 1000) "µs"
  else s!"{n}ns"

end Duration

/-- `second` counts from 1970 without leap seconds. -/
structure Instant where
  second : Int
  nano : Nat := 0
  nano_lt : nano < 2000000000 := by decide
deriving DecidableEq, Repr

namespace Instant

instance : Inhabited Instant := ⟨{ second := 0 }⟩

def atSecond (second : Int) : Instant :=
  { second }

def key (t : Instant) : Int :=
  t.second * 2000000000 + t.nano

instance : LE Instant := ⟨fun s t => s.key ≤ t.key⟩
instance : LT Instant := ⟨fun s t => s.key < t.key⟩

instance (s t : Instant) : Decidable (s ≤ t) := inferInstanceAs (Decidable (s.key ≤ t.key))
instance (s t : Instant) : Decidable (s < t) := inferInstanceAs (Decidable (s.key < t.key))

theorem le_iff {s t : Instant} : s ≤ t ↔ s.key ≤ t.key := .rfl

theorem lt_iff {s t : Instant} : s < t ↔ s.key < t.key := .rfl

theorem key_injective {s t : Instant} (h : s.key = t.key) : s = t := by
  obtain ⟨a, m, hm⟩ := s
  obtain ⟨b, n, hn⟩ := t
  simp only [key] at h
  have h₁ : a = b := by omega
  have h₂ : m = n := by omega
  subst h₁ h₂
  rfl

def isLeap (t : Instant) : Bool :=
  1000000000 ≤ t.nano

def ofNanos (second n : Int) : Instant :=
  ⟨second + n / 1000000000, (n % 1000000000).toNat, by omega⟩

/-- The instant after a duration. A leap second is left when the duration leads out of it, and its
own length is then passed over; inside it the nanoseconds move on. -/
def plus (t : Instant) (d : Duration) : Instant :=
  if t.isLeap then
    let seconds := Int.tdiv d Duration.second
    let nanos := Int.tmod d Duration.second
    if 0 < seconds ∨ (0 < nanos ∧ 2000000000 ≤ t.nano + nanos) then
      ofNanos t.second ((t.nano : Int) - Duration.second + d)
    else if seconds < 0 then ofNanos (t.second + 1) ((t.nano : Int) - Duration.second + d)
    else ⟨t.second, (t.nano + nanos).toNat % 2000000000, Nat.mod_lt _ (by decide)⟩
  else ofNanos t.second (t.nano + d)

def minus (t : Instant) (d : Duration) : Instant :=
  t.plus (-d)

def secondOfDay (t : Instant) : Int :=
  t.second % 86400

/-- The duration from `s` to `t`. A leap second of one of them counts when it lies between their
times of day. -/
def since (t s : Instant) : Duration :=
  let leap : Int :=
    if s.secondOfDay < t.secondOfDay ∧ s.isLeap then 1
    else if t.secondOfDay < s.secondOfDay ∧ t.isLeap then -1
    else 0
  (t.second - s.second + leap) * 1000000000 + (t.nano - s.nano)

def date (t : Instant) : Time.Date :=
  .ofDays (t.second / 86400)

end Instant

end TlsTrust
