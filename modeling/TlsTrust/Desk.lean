import TlsTrust.Audit.Logger
import TlsTrust.Operator
import TlsTrust.Probe

/-! The surroundings of an engine, where everything that happens is kept in order. -/

namespace TlsTrust

inductive DeskEvent where
  | audited (r : AuditRecord)
  | wrote (text : String)
  | read (outcome : ReadOutcome)
  | asked (host : String) (kind : FailureKind) (seconds : Nat)
  | probed (host : String) (transport : Transport) (outcome : ProbeOutcome)

structure Desk where
  /-- The engine's clock. -/
  now : Instant
  /-- The clock that records are stamped with. -/
  wallClock : Instant
  issued : Nat := 0
  logger : Logger
  /-- What the next reads of a line bring; after that the input is closed. -/
  input : List ReadOutcome := []
  /-- The engine's clock at the end of the next reads. A read that has none here takes no time. -/
  arrivals : List Instant := []
  interactive : Bool := true
  /-- All events, the latest first. -/
  past : List DeskEvent := []

namespace Desk

def events (d : Desk) : List DeskEvent :=
  d.past.reverse

def note (d : Desk) (e : DeskEvent) : Desk :=
  { d with past := e :: d.past }

def issue (d : Desk) : RecordId × Desk :=
  (.ofNat d.issued, { d with issued := d.issued + 1 })

def audit (d : Desk) (make : Stamp → AuditRecord) : Desk :=
  let r := make ⟨.ofNat d.issued, d.wallClock⟩
  { d with issued := d.issued + 1, logger := d.logger.record r, past := .audited r :: d.past }

def write (d : Desk) (text : String) : Desk :=
  d.note (.wrote text)

def readLine (d : Desk) : ReadOutcome × Desk :=
  let outcome := d.input.headD .closed
  (outcome, { d with
    now := d.arrivals.headD d.now
    input := d.input.tail
    arrivals := d.arrivals.tail }.note (.read outcome))

end Desk

end TlsTrust
