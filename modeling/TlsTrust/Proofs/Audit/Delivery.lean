import TlsTrust.Audit.Logger
import TlsTrust.Proofs.Audit.RecordLine
import Mathlib.Algebra.GroupWithZero.Nat
import Mathlib.Data.List.DropRight
import Mathlib.Data.List.Forall2
import Mathlib.Tactic.Lemma

/-! What a logger makes of the records that are handed to it, in terms of lists of them. -/

namespace TlsTrust

namespace Sink

/-- The sink after lines that were handed to it one by one. -/
def fed (s : Sink) (lines : List String) : Sink :=
  lines.foldl (fun s line => (s.log line).2) s

/-- How many of the lines handed to it the sink fails to take. -/
def failures (s : Sink) : List String → Nat
  | [] => 0
  | line :: lines => (if (s.log line).1.isSome then 1 else 0) + (s.log line).2.failures lines

lemma fed_concat (s : Sink) (lines : List String) (line : String) :
    s.fed (lines ++ [line]) = ((s.fed lines).log line).2 := by
  simp [fed]

lemma failures_concat (s : Sink) (lines : List String) (line : String) :
    s.failures (lines ++ [line]) =
      s.failures lines + if ((s.fed lines).log line).1.isSome then 1 else 0 := by
  induction lines generalizing s with
  | nil => exact Nat.add_comm _ 0
  | cons first lines ih =>
    have hfed : s.fed (first :: lines) = (s.log first).2.fed lines := rfl
    rw [List.cons_append, failures, ih, failures, hfed, Nat.add_assoc]

lemma fed_memory (old lines : List String) : (memory old).fed lines = memory (old ++ lines) := by
  induction lines generalizing old with
  | nil => simp [fed]
  | cons line lines ih =>
    have h := ih (old ++ [line])
    rwa [List.append_assoc] at h

lemma failures_memory (old lines : List String) : (memory old).failures lines = 0 := by
  induction lines generalizing old with
  | nil => rfl
  | cons line lines ih => simpa [failures, log] using ih (old ++ [line])

lemma failures_failing (lines : List String) : failing.failures lines = lines.length := by
  induction lines with
  | nil => rfl
  | cons line lines ih => simp [failures, log, ih, Nat.add_comm]

lemma failures_diagnostics (rs : List AuditRecord) :
    diagnostics.failures (rs.map AuditRecord.line) = 0 := by
  induction rs with
  | nil => rfl
  | cons r rs ih =>
    have hplain : checkDiagnostics r.line = none := by
      simp [checkDiagnostics, AuditRecord.line, Json.parse?_render, r.isPlainValue_toJson]
    simpa [failures, log, hplain] using ih

end Sink

namespace Logger

inductive Call where
  | record (r : AuditRecord)
  | close (s : Stamp)

def perform (l : Logger) : Call → Logger
  | .record r => l.record r
  | .close s => (l.close s).2

def run (l : Logger) (calls : List Call) : Logger :=
  calls.foldl perform l

lemma accepts_iff (l : Logger) (r : AuditRecord) :
    l.accepts r = true ↔ l.minSeverity.rank ≤ r.severity.rank := by
  change (!decide (r.severity.rank < l.minSeverity.rank)) = true ↔ _
  simp

lemma record_of_accepted {l : Logger} {r : AuditRecord} (henabled : l.enabled = true)
    (hr : l.minSeverity.rank ≤ r.severity.rank) : l.record r = { l with
      sinks := l.sinks.map fun s => (s.log (l.attributed r).line).2
      writeFailures := l.writeFailures + l.sinks.countP fun s => (s.log (l.attributed r).line).1.isSome
      tail := pushTail l.tailCapacity l.tail (l.attributed r) } := by
  simp only [record, henabled, (l.accepts_iff r).2 hr, List.map_map, List.countP_map]
  rfl

lemma record_of_dropped {l : Logger} {r : AuditRecord} (henabled : l.enabled = true)
    (hr : ¬ l.minSeverity.rank ≤ r.severity.rank) :
    l.record r = { l with dropped := l.dropped + 1 } := by
  have haccepts : l.accepts r = false := by
    simpa only [Bool.not_eq_true] using mt (l.accepts_iff r).1 hr
  simp only [record, henabled, haccepts]
  rfl

lemma record_closed (l : Logger) (r : AuditRecord) : (l.record r).closed = l.closed := by
  unfold record
  split
  · rfl
  · split <;> rfl

lemma close_of_closed {l : Logger} (h : l.closed = true) (s : Stamp) : (l.close s).2 = l := by
  simp [close, h]

lemma record_of_disabled {l : Logger} (h : l.enabled = false) (r : AuditRecord) : l.record r = l := by
  rw [record, h]
  rfl

lemma run_cons (l : Logger) (x : Call) (calls : List Call) :
    l.run (x :: calls) = (l.perform x).run calls := rfl

lemma run_of_disabled {l : Logger} (h : l.enabled = false) (calls : List Call) :
    ∃ closed, l.run calls = { l with closed } := by
  induction calls generalizing l with
  | nil => exact ⟨l.closed, rfl⟩
  | cons x calls ih =>
    obtain ⟨closed, hx⟩ : ∃ closed, l.perform x = { l with closed } := by
      cases x with
      | record r => exact ⟨l.closed, record_of_disabled h r⟩
      | close s =>
        rw [perform]
        cases hclosed : l.closed with
        | true => exact ⟨l.closed, close_of_closed hclosed s⟩
        | false =>
          refine ⟨true, ?_⟩
          simp only [close, hclosed, Bool.false_eq_true, if_false]
          exact record_of_disabled (l := { l with closed := true }) h _
    obtain ⟨closed', hrun⟩ := ih (l := { l with closed }) h
    exact ⟨closed', by rw [run_cons, hx, hrun]⟩

lemma pushTail_rtake (n : Nat) (rs : List AuditRecord) (r : AuditRecord) :
    pushTail n (rs.rtake n) r = (rs ++ [r]).rtake n := by
  have hdrop : rs.rtake n ++ [r] = (rs ++ [r]).drop (rs.length - n) := by
    rw [List.drop_append_of_le_length (Nat.sub_le _ _)]
    rfl
  have hlength : (rs.rtake n).length = rs.length - (rs.length - n) := List.length_drop
  rw [pushTail, hdrop, List.drop_drop, hlength, List.rtake, List.length_append, List.length_singleton]
  congr 1
  omega

lemma recent_eq {l : Logger} {rs : List AuditRecord} {capacity : Nat}
    (h : l.tail = rs.rtake capacity) (n : Nat) : l.recent n = rs.rtake (min n capacity) := by
  have hrtake : l.recent n = l.tail.rtake n := rfl
  rw [hrtake, h]
  simp only [List.rtake_eq_reverse_take_reverse, List.reverse_reverse, List.take_take]

structure Setup where
  stamp : Stamp
  sinks : List Sink
  enabled : Bool
  minSeverity : Severity
  actor : Option String
  tailCapacity : Nat

namespace Setup

variable {c : Setup} {l : Logger} {rs : List AuditRecord} {r : AuditRecord} {s : Stamp}

def logger (c : Setup) : Logger :=
  .start c.stamp c.sinks c.enabled c.minSeverity c.actor c.tailCapacity

def unstarted (c : Setup) : Logger :=
  { c with tail := [], dropped := 0, writeFailures := 0, closed := false }

def attributed (c : Setup) (r : AuditRecord) : AuditRecord :=
  match r.actor with
  | some _ => r
  | none => { r with actor := c.actor }

/-- Those records that are severe enough, as they are passed on. -/
def accepted (c : Setup) (rs : List AuditRecord) : List AuditRecord :=
  (rs.filter fun r => c.minSeverity.rank ≤ r.severity.rank).map c.attributed

def dropped (c : Setup) (rs : List AuditRecord) : Nat :=
  rs.countP fun r => r.severity.rank < c.minSeverity.rank

def lines (c : Setup) (rs : List AuditRecord) : List String :=
  (c.accepted rs).map AuditRecord.line

def failures (c : Setup) (rs : List AuditRecord) : Nat :=
  (c.sinks.map fun s => s.failures (c.lines rs)).sum

/-- The record of the start, which names the sinks. -/
def opening (c : Setup) : AuditRecord :=
  (AuditRecord.new c.stamp .loggerInitialized "").withDetail "backends"
    (",".intercalate (c.sinks.map Sink.name))

/-- The record of the end, which counts what was dropped and what failed of the records before. -/
def closing (c : Setup) (s : Stamp) (rs : List AuditRecord) : AuditRecord :=
  (AuditRecord.new s .loggerShutdown "").withDetail "dropped_below_threshold"
      (toString (c.dropped rs))
    |>.withDetail "write_failures" (toString (c.failures rs))

def given : List Call → List AuditRecord
  | [] => []
  | .record r :: calls => r :: given calls
  | .close _ :: calls => given calls

/-- All records that the logger is to pass on, after those of `rs`: the ones it is given, and one for
the first close. -/
def offeredFrom (c : Setup) (rs : List AuditRecord) : List Call → List AuditRecord
  | [] => rs
  | .record r :: calls => c.offeredFrom (rs ++ [r]) calls
  | .close s :: calls => rs ++ c.closing s rs :: given calls

def openings (c : Setup) : List AuditRecord :=
  if c.sinks.isEmpty then [] else [c.opening]

def offered (c : Setup) (calls : List Call) : List AuditRecord :=
  c.offeredFrom c.openings calls

lemma accepted_concat (c : Setup) (rs : List AuditRecord) (r : AuditRecord) :
    c.accepted (rs ++ [r]) =
      c.accepted rs ++ if c.minSeverity.rank ≤ r.severity.rank then [c.attributed r] else [] := by
  unfold accepted
  split <;> simp [*]

structure Keeps (c : Setup) (rs : List AuditRecord) (l : Logger) : Prop where
  enabled : l.enabled = true
  minSeverity : l.minSeverity = c.minSeverity
  actor : l.actor = c.actor
  tailCapacity : l.tailCapacity = c.tailCapacity
  sinks : l.sinks = c.sinks.map fun s => s.fed (c.lines rs)
  dropped : l.dropped = c.dropped rs
  failures : l.writeFailures = c.failures rs
  tail : l.tail = (c.accepted rs).rtake c.tailCapacity

lemma Keeps.attributed_eq (h : Keeps c rs l) (r : AuditRecord) : l.attributed r = c.attributed r := by
  unfold Logger.attributed attributed
  rw [h.actor]
  cases hactor : r.actor with
  | none => rfl
  | some a => cases r; cases hactor; rfl

lemma lines_of_accepted (hr : c.minSeverity.rank ≤ r.severity.rank) :
    c.lines (rs ++ [r]) = c.lines rs ++ [(c.attributed r).line] := by
  rw [lines, accepted_concat, if_pos hr, List.map_append]
  rfl

lemma failures_of_accepted (hr : c.minSeverity.rank ≤ r.severity.rank) :
    c.failures (rs ++ [r]) = c.failures rs +
      c.sinks.countP fun s => ((s.fed (c.lines rs)).log (c.attributed r).line).1.isSome := by
  have hsum : ∀ sinks : List Sink, (sinks.map fun s => s.failures (c.lines (rs ++ [r]))).sum =
      (sinks.map fun s => s.failures (c.lines rs)).sum +
        sinks.countP fun s => ((s.fed (c.lines rs)).log (c.attributed r).line).1.isSome := by
    intro sinks
    induction sinks with
    | nil => rfl
    | cons s sinks ih =>
      simp only [List.map_cons, List.sum_cons, List.countP_cons, ih]
      rw [lines_of_accepted hr, Sink.failures_concat]
      omega
  exact hsum c.sinks

lemma Keeps.record (h : Keeps c rs l) (r : AuditRecord) : Keeps c (rs ++ [r]) (l.record r) := by
  have hdropped : c.dropped (rs ++ [r]) =
      c.dropped rs + if r.severity.rank < c.minSeverity.rank then 1 else 0 := by
    simp [Setup.dropped, List.countP_append, List.countP_singleton]
  by_cases hr : c.minSeverity.rank ≤ r.severity.rank
  · rw [record_of_accepted h.enabled (h.minSeverity ▸ hr), h.attributed_eq]
    refine ⟨h.enabled, h.minSeverity, h.actor, h.tailCapacity, ?_, ?_, ?_, ?_⟩
    · rw [h.sinks, List.map_map, lines_of_accepted hr]
      exact List.map_congr_left fun s _ => (s.fed_concat _ _).symm
    · rw [hdropped, if_neg (Nat.not_lt.2 hr)]
      exact h.dropped
    · rw [failures_of_accepted hr, ← h.failures, h.sinks, List.countP_map]
      rfl
    · rw [h.tail, h.tailCapacity, pushTail_rtake, accepted_concat, if_pos hr]
  · have haccepted : c.accepted (rs ++ [r]) = c.accepted rs := by
      rw [accepted_concat, if_neg hr, List.append_nil]
    have hlines : c.lines (rs ++ [r]) = c.lines rs := by rw [lines, lines, haccepted]
    rw [record_of_dropped h.enabled (h.minSeverity ▸ hr)]
    refine ⟨h.enabled, h.minSeverity, h.actor, h.tailCapacity, ?_, ?_, ?_, ?_⟩
    · rw [hlines]
      exact h.sinks
    · rw [hdropped, if_pos (Nat.not_le.1 hr), ← h.dropped]
    · rw [Setup.failures, hlines]
      exact h.failures
    · rw [haccepted]
      exact h.tail

lemma logger_eq (c : Setup) :
    c.logger = if c.sinks.isEmpty then c.unstarted else c.unstarted.record c.opening := rfl

lemma keeps_start (h : c.enabled = true) : Keeps c c.openings c.logger ∧ c.logger.closed = false := by
  have hunstarted : Keeps c [] c.unstarted := by
    refine ⟨h, rfl, rfl, rfl, ?_, rfl, ?_, ?_⟩
    · exact (List.map_id _).symm
    · simp [failures, lines, accepted, Sink.failures, unstarted]
    · simp [accepted, unstarted]
  rw [logger_eq, openings]
  split
  · exact ⟨hunstarted, rfl⟩
  · exact ⟨hunstarted.record c.opening, record_closed _ _⟩

lemma Keeps.run_of_closed (h : Keeps c rs l) (hclosed : l.closed = true) (calls : List Call) :
    Keeps c (rs ++ given calls) (l.run calls) := by
  induction calls generalizing rs l with
  | nil => simpa [given, run] using h
  | cons x calls ih =>
    cases x with
    | record r =>
      have hnext := ih (h.record r) ((l.record_closed r).trans hclosed)
      rwa [List.append_assoc] at hnext
    | close s =>
      rw [run_cons, perform, close_of_closed hclosed]
      exact ih h hclosed

lemma Keeps.run (h : Keeps c rs l) (hopen : l.closed = false) (calls : List Call) :
    Keeps c (c.offeredFrom rs calls) (l.run calls) := by
  induction calls generalizing rs l with
  | nil => exact h
  | cons x calls ih =>
    cases x with
    | record r => exact ih (h.record r) ((l.record_closed r).trans hopen)
    | close s =>
      -- The last record counts what became of those before it, which is what the logger counted.
      have hclose : l.perform (.close s) = { l with closed := true }.record (c.closing s rs) := by
        simp [perform, close, hopen, closing, h.dropped, h.failures]
      have hkeeps : Keeps c rs { l with closed := true } := { h with }
      have hnext := (hkeeps.record (c.closing s rs)).run_of_closed (record_closed _ _) calls
      rw [run_cons, hclose, offeredFrom]
      simpa using hnext

lemma countP_offeredFrom (c : Setup) (rs : List AuditRecord) (calls : List Call) :
    (c.offeredFrom rs calls).countP (·.event = .loggerShutdown) ≤
      rs.countP (·.event = .loggerShutdown) +
        (given calls).countP (·.event = .loggerShutdown) + 1 := by
  induction calls generalizing rs with
  | nil => simp [offeredFrom, given]
  | cons x calls ih =>
    cases x with
    | record r =>
      refine Nat.le_trans (ih (rs ++ [r])) ?_
      simp only [given, List.countP_append, List.countP_cons, List.countP_nil]
      omega
    | close s =>
      have hclosing : (c.closing s rs).event = .loggerShutdown := rfl
      simp only [offeredFrom, given, List.countP_append, List.countP_cons, hclosing]
      simp only [decide_true, if_true]
      omega

def replaced (c : Setup) (i : Nat) (s : Sink) : Setup :=
  { c with sinks := c.sinks.set i s }

/-- Equal records, or those in which two loggers report on their own sinks. -/
inductive Alike (c c' : Setup) : AuditRecord → AuditRecord → Prop
  | same (r : AuditRecord) : Alike c c' r r
  | opening (actor : Option String) :
      Alike c c' { c.opening with actor } { c'.opening with actor }
  | closing (s : Stamp) (rs rs' : List AuditRecord) (actor : Option String) :
      Alike c c' { c.closing s rs with actor } { c'.closing s rs' with actor }

lemma alike_offeredFrom (c c' : Setup) {rs rs' : List AuditRecord}
    (h : List.Forall₂ (Alike c c') rs rs') (calls : List Call) :
    List.Forall₂ (Alike c c') (c.offeredFrom rs calls) (c'.offeredFrom rs' calls) := by
  induction calls generalizing rs rs' with
  | nil => exact h
  | cons x calls ih =>
    cases x with
    | record r => exact ih (List.rel_append h (.cons (.same r) .nil))
    | close s =>
      have hgiven : List.Forall₂ (Alike c c') (given calls) (given calls) :=
        List.forall₂_same.2 fun r _ => .same r
      exact List.rel_append h (.cons (.closing s rs rs' none) hgiven)

lemma Alike.severity_eq {c c' : Setup} {r r' : AuditRecord} (h : Alike c c' r r') :
    r'.severity = r.severity := by
  cases h <;> rfl

lemma Alike.attributed {c c' : Setup} {r r' : AuditRecord} (h : Alike c c' r r')
    (hactor : c'.actor = c.actor) : Alike c c' (c.attributed r) (c'.attributed r') := by
  have heq : c'.attributed = c.attributed := by
    funext r
    rw [Setup.attributed, Setup.attributed, hactor]
  rw [heq]
  cases h with
  | same r => exact .same _
  | opening actor => cases actor <;> exact .opening _
  | closing s rs rs' actor => cases actor <;> exact .closing s rs rs' _

lemma alike_accepted {c c' : Setup} {rs rs' : List AuditRecord} (hactor : c'.actor = c.actor)
    (hseverity : c'.minSeverity = c.minSeverity) (h : List.Forall₂ (Alike c c') rs rs') :
    List.Forall₂ (Alike c c') (c.accepted rs) (c'.accepted rs') := by
  induction h with
  | nil => exact .nil
  | @cons r r' rs rs' hr _ ih =>
    by_cases haccepted : c.minSeverity.rank ≤ r.severity.rank
    · have haccepted' : c'.minSeverity.rank ≤ r'.severity.rank := by
        rwa [hseverity, hr.severity_eq]
      simpa only [Setup.accepted, List.filter_cons_of_pos, haccepted, haccepted', decide_true,
        List.map_cons] using List.Forall₂.cons (hr.attributed hactor) ih
    · have hdropped : ¬ c'.minSeverity.rank ≤ r'.severity.rank := by
        rwa [hseverity, hr.severity_eq]
      simpa only [Setup.accepted, List.filter_cons, haccepted, hdropped, decide_false,
        Bool.false_eq_true, if_false] using ih

lemma alike_replaced (c : Setup) (i : Nat) (s : Sink) (calls : List Call) :
    List.Forall₂ (Alike c (c.replaced i s)) (c.accepted (c.offered calls))
      ((c.replaced i s).accepted ((c.replaced i s).offered calls)) := by
  have hopening : List.Forall₂ (Alike c (c.replaced i s)) c.openings (c.replaced i s).openings := by
    have hempty : (c.replaced i s).sinks.isEmpty = c.sinks.isEmpty := by
      rw [replaced, Bool.eq_iff_iff, List.isEmpty_iff, List.isEmpty_iff, List.set_eq_nil_iff]
    rw [openings, openings, hempty]
    split
    · exact .nil
    · exact .cons (.opening none) .nil
  have hoffered : List.Forall₂ (Alike c (c.replaced i s)) (c.offered calls)
      ((c.replaced i s).offered calls) := alike_offeredFrom _ _ hopening calls
  exact alike_accepted rfl rfl hoffered

lemma length_accepted (c : Setup) (rs : List AuditRecord) :
    c.dropped rs + (c.accepted rs).length = rs.length := by
  have h := List.length_eq_countP_add_countP (l := rs)
    fun r : AuditRecord => decide (r.severity.rank < c.minSeverity.rank)
  rw [h, Setup.dropped, Setup.accepted, List.length_map, ← List.countP_eq_length_filter]
  simp

lemma keeps_run (h : c.enabled = true) (calls : List Call) :
    Keeps c (c.offered calls) (c.logger.run calls) := by
  obtain ⟨hstart, hopen⟩ := keeps_start h
  exact hstart.run hopen calls

/-- An enabled logger hands the records that are severe enough to all its sinks, in order, and keeps
the last of them, whatever one of the sinks does; a disabled one does nothing. -/
theorem accepted_records_are_delivered (c : Setup) (calls : List Call) :
    (c.enabled = true →
      (c.logger.run calls).sinks = c.sinks.map (fun s => s.fed (c.lines (c.offered calls))) ∧
      (∀ (i : Nat) (old : List String), c.sinks[i]? = some (Sink.memory old) →
        (c.logger.run calls).sinks[i]? = some (Sink.memory (old ++ c.lines (c.offered calls)))) ∧
      (c.logger.run calls).dropped = c.dropped (c.offered calls) ∧
      c.dropped (c.offered calls) + (c.accepted (c.offered calls)).length =
        (c.offered calls).length ∧
      (c.logger.run calls).writeFailures =
        (c.sinks.map fun s => s.failures (c.lines (c.offered calls))).sum ∧
      Sink.failing.failures (c.lines (c.offered calls)) = (c.accepted (c.offered calls)).length ∧
      (∀ old, (Sink.memory old).failures (c.lines (c.offered calls)) = 0) ∧
      Sink.diagnostics.failures (c.lines (c.offered calls)) = 0 ∧
      (∀ n, (c.logger.run calls).recent n =
        (c.accepted (c.offered calls)).rtake (min n c.tailCapacity)) ∧
      (∀ i s,
        List.Forall₂ (Alike c (c.replaced i s)) (c.accepted (c.offered calls))
          ((c.replaced i s).accepted ((c.replaced i s).offered calls)) ∧
        (∀ j ≠ i, ((c.replaced i s).logger.run calls).sinks[j]? = c.sinks[j]?.map
          fun s' => s'.fed ((c.replaced i s).lines ((c.replaced i s).offered calls))) ∧
        ∀ n, List.Forall₂ (Alike c (c.replaced i s)) ((c.logger.run calls).recent n)
          (((c.replaced i s).logger.run calls).recent n)) ∧
      (c.offered calls).countP (·.event = .loggerShutdown) ≤
        (given calls).countP (·.event = .loggerShutdown) + 1) ∧
    (c.enabled = false →
      (c.logger.run calls).sinks = c.sinks ∧ (∀ n, (c.logger.run calls).recent n = []) ∧
      (c.logger.run calls).dropped = 0 ∧ (c.logger.run calls).writeFailures = 0) := by
  refine ⟨fun henabled => ?_, fun hdisabled => ?_⟩
  · have h := keeps_run henabled calls
    refine ⟨h.sinks, ?_, h.dropped, length_accepted c _, h.failures, ?_, fun old =>
      Sink.failures_memory old _, Sink.failures_diagnostics _, recent_eq h.tail, ?_, ?_⟩
    · intro i old hi
      rw [h.sinks, List.getElem?_map, hi, Option.map_some, Sink.fed_memory]
    · rw [Sink.failures_failing, lines, List.length_map]
    · -- The other sink shows only in what the first and the last record say of the sinks.
      intro i s
      have h' := keeps_run (c := c.replaced i s) henabled calls
      have halike := alike_replaced c i s calls
      refine ⟨halike, ?_, ?_⟩
      · intro j hj
        rw [h'.sinks, List.getElem?_map, replaced, List.getElem?_set_ne hj.symm]
      · intro n
        rw [recent_eq h.tail, recent_eq h'.tail]
        simp only [List.rtake_eq_reverse_take_reverse]
        exact List.rel_reverse (List.forall₂_take _ (List.rel_reverse halike))
    · have hcount := countP_offeredFrom c c.openings calls
      have hopening : c.openings.countP (·.event = .loggerShutdown) = 0 := by
        unfold openings
        split <;> rfl
      rwa [hopening, Nat.zero_add] at hcount
  · have hunstarted : c.logger = c.unstarted := by
      rw [logger_eq]
      split
      · rfl
      · exact record_of_disabled hdisabled _
    obtain ⟨closed, hrun⟩ := run_of_disabled (l := c.unstarted) hdisabled calls
    rw [hunstarted, hrun]
    exact ⟨rfl, fun n => List.drop_nil, rfl, rfl⟩

def halfBroken (stamp : Stamp) : Setup where
  stamp
  sinks := [.failing, .memory []]
  enabled := true
  minSeverity := .warning
  actor := some "alice"
  tailCapacity := 2

theorem failing_sink_disturbs_nothing :
    let stamp : Stamp := ⟨⟨List.replicate 32 0, rfl⟩, .atSecond 0⟩
    let r := AuditRecord.certificateFailure stamp "dev.local" .hostnameMismatch "wrong name"
    let calls := [.record { r with severity := .info }, .record r, .close stamp, .close stamp]
    let l := (halfBroken stamp).logger.run calls
    let silent := { halfBroken stamp with enabled := false }
    ((halfBroken stamp).enabled = true ∧ silent.enabled = false) ∧
    l.sinks = [.failing, .memory [{ r with actor := some "alice" : AuditRecord }.line]] ∧
      l.dropped = 3 ∧ l.writeFailures = 1 ∧ (silent.logger.run calls).dropped = 0 := by
  intro stamp r calls l silent
  obtain ⟨hsinks, -, hdropped, -, hfailures, -⟩ :=
    (accepted_records_are_delivered (halfBroken stamp) calls).1 rfl
  obtain ⟨-, -, hsilent, -⟩ := (accepted_records_are_delivered silent calls).2 rfl
  exact ⟨⟨rfl, rfl⟩, hsinks, hdropped, hfailures, hsilent⟩

end Setup

end Logger

end TlsTrust
