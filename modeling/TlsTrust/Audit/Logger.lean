import TlsTrust.Audit.LogWriter
import TlsTrust.Audit.Summary

/-!
The audit logger hands every record that is severe enough to all its sinks, whichever of them fail,
and keeps the most recent ones.
-/

namespace TlsTrust

inductive LoggerError where
  | notJson
  | disk (e : DiskError)
  | sink (reason : String)
deriving DecidableEq, Repr

def LoggerError.message : LoggerError → String
  | notJson => "Failed to serialize record"
  | disk e => s!"I/O error: {e.message}"
  | sink reason => s!"Backend error: {reason}"

inductive Sink where
  | memory (lines : List String)
  | failing
  /-- The lines join the diagnostics, which nothing here reads. -/
  | diagnostics
  | files (w : LogWriter)
deriving Repr

namespace Sink

def name : Sink → String
  | memory _ => "in_memory"
  | failing => "failing"
  | diagnostics => "tracing"
  | files _ => "file"

def checkDiagnostics (line : String) : Option LoggerError :=
  match Json.parse? line with
  | some j => if j.isPlainValue then none else some .notJson
  | none => some .notJson

def log (s : Sink) (line : String) : Option LoggerError × Sink :=
  match s with
  | memory lines => (none, memory (lines ++ [line]))
  | failing => (some (.disk .full), failing)
  | diagnostics => (checkDiagnostics line, diagnostics)
  | files w =>
    let (e, w) := w.log line
    (e.map .disk, files w)

def flush : Sink → Option LoggerError
  | failing => some (.sink "flush failed")
  | _ => none

def lines : Sink → List String
  | memory lines => lines
  | _ => []

def records (s : Sink) : List AuditRecord :=
  s.lines.filterMap AuditRecord.parse?

end Sink

structure Logger where
  sinks : List Sink
  enabled : Bool
  minSeverity : Severity
  actor : Option String
  tailCapacity : Nat
  tail : List AuditRecord
  dropped : Nat
  writeFailures : Nat
  closed : Bool
deriving Repr

namespace Logger

def defaultTailCapacity : Nat := 1000

def pushTail (capacity : Nat) (tail : List AuditRecord) (r : AuditRecord) : List AuditRecord :=
  (tail ++ [r]).drop (tail.length + 1 - capacity)

def attributed (l : Logger) (r : AuditRecord) : AuditRecord :=
  { r with actor := r.actor.or l.actor }

def accepts (l : Logger) (r : AuditRecord) : Bool :=
  !decide (r.severity < l.minSeverity)

def record (l : Logger) (r : AuditRecord) : Logger :=
  if !l.enabled then l
  else if !l.accepts r then { l with dropped := l.dropped + 1 }
  else
    let r := l.attributed r
    let results := l.sinks.map (·.log r.line)
    { l with
      sinks := results.map (·.2)
      writeFailures := l.writeFailures + results.countP (·.1.isSome)
      tail := pushTail l.tailCapacity l.tail r }

def start (s : Stamp) (sinks : List Sink) (enabled : Bool) (minSeverity : Severity)
    (actor : Option String) (tailCapacity : Nat) : Logger :=
  let l : Logger := {
    sinks, enabled, minSeverity, actor, tailCapacity
    tail := [], dropped := 0, writeFailures := 0, closed := false }
  if sinks.isEmpty then l
  else
    l.record ((AuditRecord.new s .loggerInitialized "").withDetail "backends"
      (",".intercalate (sinks.map Sink.name)))

def recent (l : Logger) (n : Nat) : List AuditRecord :=
  l.tail.drop (l.tail.length - n)

def summarizeAt (l : Logger) (now : Instant) (window : Duration) : AuditSummary :=
  .ofRecords l.tail (now.minus window) now

def flush (l : Logger) : Option LoggerError :=
  l.sinks.findSome? Sink.flush

def close (l : Logger) (s : Stamp) : Option LoggerError × Logger :=
  if l.closed then (none, l)
  else
    let l := { l with closed := true }.record
      ((AuditRecord.new s .loggerShutdown "").withDetail "dropped_below_threshold"
          (toString l.dropped)
        |>.withDetail "write_failures" (toString l.writeFailures))
    (l.flush, l)

end Logger

end TlsTrust
