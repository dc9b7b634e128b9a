import TlsTrust.Engine.Escalate
import TlsTrust.Proofs.Desk.Trail

namespace TlsTrust

structure EscalationStep.Reports (step : EscalationStep) (host attemptId : String) (success : Bool)
    (r : AuditRecord) : Prop where
  event : r.event = .fallbackAttempt
  host : r.host = host
  strategy : r.strategy = some step.name
  risk : r.risk = step.risk
  attemptId : r.attemptId = some attemptId
  allowed : r.allowed = success
  result : r.detail? "result" = some (if success then "success" else "failure")

structure EscalationStep.ReportsSuccess (step : EscalationStep) (host attemptId : String)
    (r : AuditRecord) : Prop where
  event : r.event = .fallbackSuccess
  host : r.host = host
  strategy : r.strategy = some step.name
  risk : r.risk = step.risk
  attemptId : r.attemptId = some attemptId
  allowed : r.allowed = true

structure EscalationStep.ReportsRisk (step : EscalationStep) (host : String) (r : AuditRecord) :
    Prop where
  event : r.event = .riskAccepted
  host : r.host = host
  risk : r.risk = step.risk
  allowed : r.allowed = true

inductive AttemptTrail (host : String) : EscalationAttempt → List DeskEvent → Prop
  | failed {step : EscalationStep} {id reason : String} {o : ProbeOutcome} {r : AuditRecord} :
    o ≠ .connects → step.Reports host id false r →
      AttemptTrail host ⟨step, id, .failed reason⟩ [.probed host step.transport o, .audited r]
  | verified {step : EscalationStep} {id : String} {r success : AuditRecord} :
    step.disablesVerification = false → step.Reports host id true r →
      step.ReportsSuccess host id success →
        AttemptTrail host ⟨step, id, .succeeded⟩
          [.probed host step.transport .connects, .audited r, .audited success]
  | unverified {step : EscalationStep} {id : String} {r success accepted : AuditRecord} :
    step.disablesVerification = true → step.Reports host id true r →
      step.ReportsSuccess host id success → step.ReportsRisk host accepted →
        AttemptTrail host ⟨step, id, .succeeded⟩
          [.probed host step.transport .connects, .audited r, .audited success, .audited accepted]

namespace AttemptTrail

open Trail

variable {host : String} {a : EscalationAttempt} {es : List DeskEvent}

lemma visible_eq (h : AttemptTrail host a es) : visible es = es := by
  cases h <;> rfl

lemma probes_eq (h : AttemptTrail host a es) :
    ∃ o, probes es = [(host, a.step.transport, o)] ∧ a.wasSkipped = false := by
  cases h <;> exact ⟨_, rfl, rfl⟩

lemma starts (h : AttemptTrail host a es) :
    ∃ o r rest, es = .probed host a.step.transport o :: .audited r :: rest ∧
      r.event = .fallbackAttempt ∧ r.strategy = some a.step.name ∧ Quiet (.audited r :: rest) := by
  cases h with
  | failed _ hr => exact ⟨_, _, _, rfl, hr.event, hr.strategy, .audited (by simp [hr.event])⟩
  | verified _ hr hs =>
    refine ⟨_, _, _, rfl, hr.event, hr.strategy, ?_⟩
    exact (Quiet.audited (by simp [hr.event])).append (.audited (by simp [hs.event]))
  | unverified _ hr hs ha =>
    refine ⟨_, _, _, rfl, hr.event, hr.strategy, ?_⟩
    exact (Quiet.audited (by simp [hr.event])).append
      ((Quiet.audited (by simp [hs.event])).append (.audited (by simp [ha.event])))

lemma restrained (h : AttemptTrail host a es) (hon : a.step.disablesVerification = false) :
    Restrained es := by
  refine ⟨h.visible_eq, ?_, ?_⟩
  · intro host' t o hm
    obtain ⟨o', hprobes, -⟩ := h.probes_eq
    have hmem := mem_probes.2 hm
    simp only [hprobes, List.mem_singleton, Prod.mk.injEq] at hmem
    rw [hmem.2.1, EscalationStep.transport_verifies, hon]
    rfl
  · obtain ⟨o, r, rest, rfl, -, -, hquiet⟩ := h.starts
    simpa using hquiet.uses

end AttemptTrail

namespace AuditRecord

lemma fallbackAttempt_reports (stamp : Stamp) (host : String) (step : EscalationStep)
    (attemptId : String) (error : Option String) :
    step.Reports host attemptId error.isNone
      (fallbackAttempt stamp host step.name step.risk attemptId error) := by
  cases error with
  | none => exact ⟨rfl, rfl, rfl, rfl, rfl, rfl, Table.get?_insert_self ..⟩
  | some text =>
    refine ⟨rfl, rfl, rfl, rfl, rfl, rfl, ?_⟩
    have hother : "result" ≠ "error" := by decide
    exact (Table.get?_insert_of_ne _ hother _).trans (Table.get?_insert_self ..)

lemma fallbackSuccess_reports (stamp : Stamp) (host : String) (step : EscalationStep)
    (attemptId : String) :
    step.ReportsSuccess host attemptId
      (fallbackSuccess stamp host step.name step.risk attemptId) := by
  unfold fallbackSuccess
  dsimp only
  split <;> exact ⟨rfl, rfl, rfl, rfl, rfl, rfl⟩

lemma riskAccepted_reports (stamp : Stamp) (host : String) (step : EscalationStep)
    (reason : String) : step.ReportsRisk host (riskAccepted stamp host step.risk reason) :=
  ⟨rfl, rfl, rfl, rfl⟩

end AuditRecord

lemma Network.errorOf?_eq_none {host : String} {limit : Duration} {o : ProbeOutcome} :
    errorOf? host limit o = none ↔ o = .connects := by
  cases o <;> simp [errorOf?]

namespace Engine

open Trail

lemma attempt_events (e : Engine) (host : String) (step : EscalationStep) :
    ∃ es, e.desk.Extends (e.attempt host step).2.desk es ∧
      AttemptTrail host (e.attempt host step).1 es ∧ (e.attempt host step).1.step = step := by
  unfold attempt probe
  dsimp only
  generalize e.network.next step.transport = n
  obtain ⟨o, network⟩ := n
  dsimp only
  have hprobe := e.desk.issue_extends.trans (e.desk.issue.2.note_extends
    (.probed host step.transport o))
  cases herr : Network.errorOf? host e.config.probeTimeout o with
  | none =>
    obtain rfl := Network.errorOf?_eq_none.1 herr
    have hattempt := hprobe.trans (Desk.audit_extends _ fun st =>
      .fallbackAttempt st host step.name step.risk e.desk.issue.1.text none)
    have hsuccess := hattempt.trans (Desk.audit_extends _ fun st =>
      .fallbackSuccess st host step.name step.risk e.desk.issue.1.text)
    unfold auditSucceeded
    dsimp only
    cases hoff : step.disablesVerification with
    | true =>
      exact ⟨_, hsuccess.trans (Desk.audit_extends _ _), .unverified hoff
        (AuditRecord.fallbackAttempt_reports _ _ _ _ none) (AuditRecord.fallbackSuccess_reports ..)
        (AuditRecord.riskAccepted_reports ..), rfl⟩
    | false =>
      exact ⟨_, hsuccess, .verified hoff (AuditRecord.fallbackAttempt_reports _ _ _ _ none)
        (AuditRecord.fallbackSuccess_reports ..), rfl⟩
  | some err =>
    have hfail : o ≠ .connects := by
      rintro rfl
      cases herr
    exact ⟨_, hprobe.trans (Desk.audit_extends _ _),
      .failed hfail (AuditRecord.fallbackAttempt_reports _ _ _ _ (some err.message)), rfl⟩

lemma attempt_trail (e : Engine) (host : String) (step : EscalationStep) :
    ∃ o r rest, e.desk.Extends (e.attempt host step).2.desk
        (.probed host step.transport o :: .audited r :: rest) ∧
      r.event = .fallbackAttempt ∧ r.strategy = some step.name ∧ Quiet (.audited r :: rest) := by
  obtain ⟨es, he, htrail, hstep⟩ := e.attempt_events host step
  obtain ⟨o, r, rest, rfl, hr⟩ := htrail.starts
  rw [hstep] at he hr
  exact ⟨o, r, rest, he, hr⟩

end Engine

end TlsTrust
