import TlsTrust.Audit.Record

/-! Counts of the records within a window of time, which has its end but not its start. -/

namespace TlsTrust

structure AuditSummary where
  windowStart : Instant
  windowEnd : Instant
  total : Nat
  byEvent : List (EventType × Nat)
  byRisk : List (Risk × Nat)
  byHost : Table Nat
  highRisk : Nat
  insecureModeUsages : Nat
deriving DecidableEq, Repr

namespace AuditSummary

def inWindow (start stop : Instant) (r : AuditRecord) : Bool :=
  decide (start < r.time) && decide (r.time ≤ stop)

def increment {α : Type} [DecidableEq α] (all : List α) (counts : List (α × Nat)) (a : α) :
    List (α × Nat) :=
  (all.map fun b => (b, (counts.lookup b).getD 0 + if b = a then 1 else 0)).filter fun e => e.2 != 0

def add (s : AuditSummary) (r : AuditRecord) : AuditSummary :=
  if inWindow s.windowStart s.windowEnd r then
    { s with
      total := s.total + 1
      byEvent := increment EventType.all s.byEvent r.event
      byRisk := increment Risk.all s.byRisk r.risk
      byHost := if r.host.isEmpty then s.byHost
        else s.byHost.insert r.host ((s.byHost.get? r.host).getD 0 + 1)
      highRisk := s.highRisk + if r.risk.isHigh then 1 else 0
      insecureModeUsages :=
        s.insecureModeUsages + if r.event == .insecureModeUsed && r.allowed then 1 else 0 }
  else s

def ofRecords (records : List AuditRecord) (start stop : Instant) : AuditSummary :=
  records.foldl add {
    windowStart := start
    windowEnd := stop
    total := 0
    byEvent := []
    byRisk := []
    byHost := .empty
    highRisk := 0
    insecureModeUsages := 0 }

def count (s : AuditSummary) (e : EventType) : Nat :=
  (s.byEvent.lookup e).getD 0

def group (title : String) (entries : List (String × Nat)) : String :=
  if entries.isEmpty then ""
  else s!"  {title}:\n" ++ String.join (entries.map fun (k, n) => s!"    {k}: {n}\n")

def text (s : AuditSummary) : String :=
  s!"Security events {s.windowStart.toSecondText} .. {s.windowEnd.toSecondText}\n"
    ++ s!"  total: {s.total}\n  high risk: {s.highRisk}\n  insecure mode: {s.insecureModeUsages}\n"
    ++ group "by event type" (s.byEvent.map fun (e, n) => (e.name, n))
    ++ group "by risk" (s.byRisk.map fun (r, n) => (r.name, n))
    ++ group "by host" s.byHost.entries

def toJson (s : AuditSummary) : Json :=
  .object [
    ("window_start", .string s.windowStart.text),
    ("window_end", .string s.windowEnd.text),
    ("total", .int s.total),
    ("by_event_type", .object (s.byEvent.map fun (e, n) => (e.name, .int n))),
    ("by_risk", .object (s.byRisk.map fun (r, n) => (r.name, .int n))),
    ("by_host", .object (s.byHost.entries.map fun (h, n) => (h, .int n))),
    ("high_risk_events", .int s.highRisk),
    ("insecure_mode_usages", .int s.insecureModeUsages)]

end AuditSummary

end TlsTrust
