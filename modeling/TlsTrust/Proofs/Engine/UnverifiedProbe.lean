import TlsTrust.Proofs.Engine.Escalation

/-!
Before a probe without verification the decision of the call accepts, and the step was allowed to
make it, with consent where it needs one.
-/

namespace TlsTrust

namespace Engine

open Trail

variable {e e' e₁ : Engine} {host : String} {failure : ClassifiedFailure} {policy : Decision}
  {s : Strategy} {used : Nat} {step : EscalationStep}

/-- What lets a step probe without verification under a configuration, where `asked` are the events
between the step before and the probe. -/
structure Licensed (config : EngineConfig) (e : Engine) (host : String) (failure : ClassifiedFailure)
    (policy : Decision) (step : EscalationStep) (asked : List DeskEvent) : Prop where
  accepted : policy.action = .accept ∨ policy.action = .log
  unverified : step = .acceptSelfSigned ∨ step = .insecureMode
  kind : step = .acceptSelfSigned →
    failure.kind = .selfSigned ∨ failure.kind = .untrustedCA ∨ failure.kind = .unknown
  enabled : step = .insecureMode →
    config.allowInsecureMode = true ∨ config.overrides.allows failure.host = true
  confirmed : step = .insecureMode → ∃ e₁, e.confirmInsecure host = (true, e₁) ∧
    e.desk.Extends e₁.desk asked ∧
      ∃ r, recordsOf .insecureModeUsed asked = [r] ∧ r.host = host ∧ r.allowed = true

/-- The probe is that of a step, and the record that follows it says so. -/
def MadeBy (step : EscalationStep) (t : Transport) (after : List DeskEvent) : Prop :=
  t = step.transport ∧ ∃ r rest, after = .audited r :: rest ∧ r.event = .fallbackAttempt ∧
    r.strategy = some step.name

lemma MadeBy.append {t : Transport} {after : List DeskEvent} (h : MadeBy step t after)
    (es : List DeskEvent) : MadeBy step t (after ++ es) := by
  obtain ⟨ht, r, rest, rfl, hr, hname⟩ := h
  exact ⟨ht, r, rest ++ es, rfl, hr, hname⟩

def Reaches (e : Engine) (host : String) (failure : ClassifiedFailure) (policy : Decision)
    (s : Strategy) (used : Nat) (steps : List EscalationStep) (step : EscalationStep) (e' : Engine)
    (tried : List DeskEvent) : Prop :=
  ∃ done rest, steps = done ++ step :: rest ∧
    (∀ a ∈ (e.runSteps host failure policy s used done).1, a.result ≠ .succeeded) ∧
    e' = (e.runSteps host failure policy s used done).2 ∧ e.desk.Extends e'.desk tried

lemma Reaches.here (e : Engine) (host : String) (failure : ClassifiedFailure) (policy : Decision)
    (s : Strategy) (used : Nat) (step : EscalationStep) (steps : List EscalationStep) :
    e.Reaches host failure policy s used (step :: steps) step e [] :=
  ⟨[], steps, rfl, by simp [runSteps], rfl, .refl _⟩

lemma Reaches.next {first : EscalationStep} {steps : List EscalationStep} {a : EscalationAttempt}
    {es tried : List DeskEvent} (h : e.runStep host failure policy s used first = (a, e₁))
    (ha : a.result ≠ .succeeded) (he : e.desk.Extends e₁.desk es)
    (hr : e₁.Reaches host failure policy s (retriesAfter used a) steps step e' tried) :
    e.Reaches host failure policy s used (first :: steps) step e' (es ++ tried) := by
  obtain ⟨done, rest, rfl, hfail, rfl, ht⟩ := hr
  have hcons := runSteps_cons_of_failed h ha done
  refine ⟨first :: done, rest, rfl, ?_, by rw [hcons], he.trans ht⟩
  rw [hcons]
  intro b hb
  rcases List.mem_cons.1 hb with rfl | hb
  · exact ha
  · exact hfail b hb

lemma licensed_of_skipReason? {asked : List DeskEvent}
    (hskip : e.skipReason? step failure policy s used = none)
    (hoff : step.disablesVerification = true)
    (hasked : step = .insecureMode → ∃ e₁, e.confirmInsecure host = (true, e₁) ∧
      e.desk.Extends e₁.desk asked ∧ ∃ r, recordsOf .insecureModeUsed asked = [r] ∧
        r.host = host ∧ r.allowed = true) :
    e.Licensed e.config host failure policy step asked := by
  obtain ⟨happ, -, hlimits⟩ := skipReason?_eq_none hskip
  obtain ⟨hacc, henabled⟩ := hlimits hoff
  refine ⟨Action.accepts_eq_true.1 hacc, ?_, ?_, henabled, hasked⟩
  · cases step <;> simp [EscalationStep.disablesVerification] at hoff ⊢
  · rintro rfl
    simpa [EscalationStep.appliesTo, or_assoc] using happ

lemma runStep_licensed (e : Engine) (hne : host ≠ "") (hkey : Host.key host = host)
    (failure : ClassifiedFailure) (policy : Decision) (s : Strategy) (used : Nat)
    (step : EscalationStep) :
    ∃ es, e.desk.Extends (e.runStep host failure policy s used step).2.desk es ∧
      ∀ before h t o after, es = before ++ .probed h t o :: after → t.verifies = false →
        h = host ∧ MadeBy step t after ∧ e.Licensed e.config host failure policy step before := by
  have hask := e.confirmInsecure_trail host (by rwa [hkey])
  rw [hkey] at hask
  obtain ⟨asked, hasked, hu⟩ := hask
  rcases e.runStep_eq host failure policy s used step with
    ⟨_, -, h⟩ | ⟨hskip, ⟨rfl, e₁, hc, h⟩ | ⟨e₁, hmay, h⟩⟩
  · rw [h]
    exact ⟨[], .refl _, by simp⟩
  · rw [hc] at hasked
    rw [h]
    refine ⟨asked, hasked, ?_⟩
    rintro before h' t o after rfl -
    exact absurd (by simp) (not_probed_of_probes_eq_nil hu.probes h' t o)
  · obtain ⟨o', r, rest, hprobe, hr, hname, hquiet⟩ := e₁.attempt_trail host step
    rw [h]
    rcases hmay with ⟨rfl, hc⟩ | ⟨hstep, rfl⟩
    · rw [hc] at hasked hu
      refine ⟨_, hasked.trans hprobe, ?_⟩
      intro before h' t o after heq hoff
      obtain ⟨rfl, rfl, rfl, rfl⟩ := eq_of_single_probe hu.probes hquiet.probes heq
      refine ⟨rfl, ⟨rfl, r, rest, rfl, hr, hname⟩, ?_⟩
      exact licensed_of_skipReason? hskip rfl fun _ => ⟨e₁, hc, hasked, hu.use⟩
    · refine ⟨_, hprobe, ?_⟩
      intro before h' t o after heq hoff
      obtain ⟨rfl, rfl, rfl, rfl⟩ := eq_of_single_probe Quiet.nil.probes hquiet.probes heq
      refine ⟨rfl, ⟨rfl, r, rest, rfl, hr, hname⟩, ?_⟩
      exact licensed_of_skipReason? hskip (by simpa [EscalationStep.transport_verifies] using hoff)
        fun h => absurd h hstep

lemma runSteps_licensed (e : Engine) (hne : host ≠ "") (hkey : Host.key host = host)
    (failure : ClassifiedFailure) (policy : Decision) (s : Strategy) (used : Nat)
    (steps : List EscalationStep) :
    ∃ es, e.desk.Extends (e.runSteps host failure policy s used steps).2.desk es ∧
      ∀ before h t o after, es = before ++ .probed h t o :: after → t.verifies = false →
        h = host ∧ ∃ step e' tried asked, before = tried ++ asked ∧ MadeBy step t after ∧
          e.Reaches host failure policy s used steps step e' tried ∧
          e'.Licensed e.config host failure policy step asked := by
  induction steps generalizing e used with
  | nil => exact ⟨[], .refl _, by simp⟩
  | cons first steps ih =>
    obtain ⟨es, he, hes⟩ := e.runStep_licensed hne hkey failure policy s used first
    rcases hrun : e.runStep host failure policy s used first with ⟨a, e₁⟩
    simp only [hrun] at he
    by_cases ha : a.result = .succeeded
    · simp only [runSteps, hrun, if_pos ha]
      refine ⟨es, he, ?_⟩
      intro before h t o after heq hoff
      obtain ⟨rfl, hmade, hlic⟩ := hes before h t o after heq hoff
      exact ⟨rfl, first, e, [], before, rfl, hmade, .here .., hlic⟩
    · obtain ⟨fs, hf, hfs⟩ := ih e₁ (retriesAfter used a)
      have hconfig : e₁.config = e.config := by
        simpa only [hrun] using (e.escalated_runStep host failure policy s used first).config
      rw [hconfig] at hfs
      rw [runSteps_cons_of_failed hrun ha]
      refine ⟨es ++ fs, he.trans hf, ?_⟩
      intro before h t o after heq hoff
      -- the probe is made by the first step, or by one that is reached after it
      rcases split_append heq with ⟨mid, hes', rfl⟩ | ⟨mid, rfl, hfs'⟩
      · obtain ⟨rfl, hmade, hlic⟩ := hes before h t o mid hes' hoff
        exact ⟨rfl, first, e, [], before, rfl, hmade.append fs, .here .., hlic⟩
      · obtain ⟨rfl, step, e', tried, asked, rfl, hmade, hreach, hlic⟩ := hfs mid h t o after hfs' hoff
        exact ⟨rfl, step, e', es ++ tried, asked, by simp, hmade, .next hrun ha he hreach, hlic⟩

lemma runStep_refused (e : Engine) (host : String) (failure : ClassifiedFailure) (s : Strategy)
    (used : Nat) (step : EscalationStep) (hno : policy.action.accepts = false) :
    (∃ es, e.desk.Extends (e.runStep host failure policy s used step).2.desk es ∧ Restrained es) ∧
      (e.runStep host failure policy s used step).2.consents = e.consents := by
  have hverifies : e.skipReason? step failure policy s used = none →
      step.disablesVerification = false := by
    intro hskip
    cases hoff : step.disablesVerification with
    | false => rfl
    | true => simpa [hno] using ((skipReason?_eq_none hskip).2.2 hoff).1
  have hconsent : e.skipReason? step failure policy s used = none → step ≠ .insecureMode := by
    rintro hskip rfl
    cases hverifies hskip
  rcases e.runStep_eq host failure policy s used step with
    ⟨_, -, h⟩ | ⟨hskip, ⟨hstep, -⟩ | ⟨e₁, ⟨hstep, -⟩ | ⟨-, rfl⟩, h⟩⟩
  · rw [h]
    exact ⟨⟨[], .refl _, .nil⟩, rfl⟩
  · exact absurd hstep (hconsent hskip)
  · exact absurd hstep (hconsent hskip)
  · obtain ⟨es, he, htrail, hstep⟩ := e₁.attempt_events host step
    have hon : (e₁.attempt host step).1.step.disablesVerification = false := by
      rw [hstep, hverifies hskip]
    rw [h]
    exact ⟨⟨es, he, htrail.restrained hon⟩, e₁.attempt_consents host step⟩

lemma runSteps_refused (e : Engine) (host : String) (failure : ClassifiedFailure) (s : Strategy)
    (used : Nat) (steps : List EscalationStep) (hno : policy.action.accepts = false) :
    (∃ es, e.desk.Extends (e.runSteps host failure policy s used steps).2.desk es ∧
      Restrained es) ∧
      (e.runSteps host failure policy s used steps).2.consents = e.consents := by
  refine runSteps_induction (motive := fun e _ _ r =>
    (∃ es, e.desk.Extends r.2.desk es ∧ Restrained es) ∧ r.2.consents = e.consents)
    ?_ ?_ ?_ e used steps
  · exact fun e _ => ⟨⟨[], .refl _, .nil⟩, rfl⟩
  · intro e used a _ e₁ h _
    simpa only [h] using e.runStep_refused host failure s used a.step hno
  · intro e used a _ e₁ r h _ ih
    obtain ⟨⟨es, he, hes⟩, hcons⟩ := e.runStep_refused host failure s used a.step hno
    rw [h] at he hcons
    obtain ⟨⟨fs, hf, hfs⟩, hcons'⟩ := ih
    exact ⟨⟨es ++ fs, he.trans hf, hes.append hfs⟩, hcons'.trans hcons⟩

/-- What the answer to a failure has done before a probe: it came to a decision and, having tried
other steps in vain, to one that is licensed to make the probe. -/
def Justified (e : Engine) (host : String) (failure : CertificateFailure) (before : List DeskEvent)
    (t : Transport) (after : List DeskEvent) : Prop :=
  ∃ policy e₁ step e' decided tried asked,
    e.policyFor host failure = .ok (policy, e₁) ∧ e.desk.Extends e₁.desk decided ∧
      e₁.Reaches (Host.key host) (e.classify failure (Host.key host)) policy e₁.strategy 0
        EscalationStep.all step e' tried ∧
      before = decided ++ tried ++ asked ∧ MadeBy step t after ∧
      e'.Licensed e.config (Host.key host) (e.classify failure (Host.key host)) policy step asked

lemma handleFailure_justified (e : Engine) (failure : CertificateFailure)
    (hkey : Host.key (Host.key host) = Host.key host) :
    ∃ es, e.desk.Extends (e.handleFailure host failure).2.desk es ∧
      ∀ before h t o after, es = before ++ .probed h t o :: after → t.verifies = false →
        h = Host.key host ∧ e.Justified host failure before t after := by
  rcases e.handleFailure_trail host failure with
    ⟨⟨es, he, hq⟩, -⟩ | ⟨hne, policy, e₁, ds, cs, hpolicy, hd, hdq, hcq, hall, -⟩
  · refine ⟨es, he, ?_⟩
    rintro before h t o after rfl -
    exact absurd (by simp) (not_probed_of_probes_eq_nil hq.probes h t o)
  · obtain ⟨es, he, hes⟩ := e₁.runSteps_licensed hne hkey (e.classify failure (Host.key host)) policy
      e₁.strategy 0 EscalationStep.all
    refine ⟨ds ++ es ++ cs, hall es he, ?_⟩
    intro before h t o after heq hoff
    -- neither the decision before the steps nor the conclusion after them makes a probe
    rcases split_append heq with ⟨mid, heq', rfl⟩ | ⟨mid, rfl, hcs⟩
    · rcases split_append heq' with ⟨mid', rfl, -⟩ | ⟨mid', rfl, hes'⟩
      · exact absurd (by simp) (not_probed_of_probes_eq_nil hdq.probes h t o)
      · obtain ⟨rfl, step, e', tried, asked, rfl, hmade, hreach, hlic⟩ := hes mid' h t o mid hes' hoff
        rw [(policyFor_decided hpolicy).config] at hlic
        exact ⟨rfl, policy, e₁, step, e', ds, tried, asked, hpolicy, hd, hreach, by simp,
          hmade.append cs, hlic⟩
    · rw [hcs] at hcq
      exact absurd (by simp) (not_probed_of_probes_eq_nil hcq.probes h t o)

lemma handleFailure_refused (e : Engine) (host : String) (failure : CertificateFailure)
    (hno : ∀ policy e₁, e.policyFor host failure = .ok (policy, e₁) →
      policy.action.accepts = false) :
    (∃ es, e.desk.Extends (e.handleFailure host failure).2.desk es ∧
      recordsOf .insecureModeUsed es = []) ∧
      (e.handleFailure host failure).2.consents = e.consents := by
  rcases e.handleFailure_trail host failure with
    ⟨⟨es, he, hq⟩, hcons⟩ | ⟨-, policy, e₁, ds, cs, hpolicy, -, hdq, hcq, hall, hcons⟩
  · exact ⟨⟨es, he, hq.uses⟩, hcons⟩
  · obtain ⟨⟨es, he, hes⟩, hsteps⟩ := e₁.runSteps_refused (Host.key host)
      (e.classify failure (Host.key host)) e₁.strategy 0 EscalationStep.all (hno _ _ hpolicy)
    refine ⟨⟨_, hall es he, by simp [hdq.uses, hes.uses, hcq.uses]⟩, ?_⟩
    exact (hcons.trans hsteps).trans (policyFor_decided hpolicy).consents

/-- In the answer to one failure, a probe without verification is made only by a step that is
licensed to make it, after a decision of this answer that accepts. Without such a decision all
probes verify, and consent is not asked for: each request for it would leave a record. -/
theorem unverified_probe_is_licensed (e : Engine) (host : String) (failure : CertificateFailure)
    (hkey : Host.key (Host.key host) = Host.key host) :
    ∃ es, e.desk.Extends (e.handleFailure host failure).2.desk es ∧
      (∀ before h t o after, es = before ++ .probed h t o :: after → t.verifies = false →
        h = Host.key host ∧ e.Justified host failure before t after) ∧
      ((∀ policy e₁, e.policyFor host failure = .ok (policy, e₁) → policy.action.accepts = false) →
        (∀ h t o, .probed h t o ∈ es → t.verifies = true) ∧ recordsOf .insecureModeUsed es = [] ∧
          (e.handleFailure host failure).2.consents = e.consents) ∧
      (Host.key host ≠ "" → ∀ e' : Engine, ∃ fs,
        e'.desk.Extends (e'.confirmInsecure (Host.key host)).2.desk fs ∧
          recordsOf .insecureModeUsed fs ≠ []) := by
  obtain ⟨es, he, hes⟩ := e.handleFailure_justified failure hkey
  refine ⟨es, he, hes, ?_, ?_⟩
  · intro hno
    obtain ⟨⟨fs, hf, huse⟩, hcons⟩ := e.handleFailure_refused host failure hno
    refine ⟨?_, he.unique hf ▸ huse, hcons⟩
    intro h t o hm
    obtain ⟨before, after, heq⟩ := List.append_of_mem hm
    cases hoff : t.verifies with
    | true => rfl
    | false =>
      obtain ⟨-, policy, e₁, step, e', _, _, _, hpolicy, -, -, -, -, hlic⟩ :=
        hes before h t o after heq hoff
      have := Action.accepts_eq_true.2 hlic.accepted
      simp [hno _ _ hpolicy] at this
  · intro hne e'
    obtain ⟨fs, hf, hu⟩ := e'.confirmInsecure_trail (Host.key host) (by rwa [hkey])
    obtain ⟨r, hr, -⟩ := hu.use
    exact ⟨fs, hf, by simp [hr]⟩

def agreeable : Engine :=
  { bare .development with
    config := { auditFolder := "audit", allowInsecureMode := true }
    desk := .bare [.line "yes"] }

theorem agreeable_probes_unverified :
    Host.key (Host.key "Dev.Local") = Host.key "Dev.Local" ∧ ∃ before t o after,
      (agreeable.handleFailure "Dev.Local" ⟨"self-signed certificate", none, []⟩).2.desk.events =
          before ++ .probed "dev.local" t o :: after ∧
        t.verifies = false ∧
          agreeable.Justified "Dev.Local" ⟨"self-signed certificate", none, []⟩ before t after := by
  have hkey : Host.key (Host.key "Dev.Local") = Host.key "Dev.Local" := by decide +kernel
  refine ⟨hkey, ?_⟩
  obtain ⟨es, he, hes, -⟩ := agreeable.unverified_probe_is_licensed "Dev.Local"
    ⟨"self-signed certificate", none, []⟩ hkey
  have hprobe : ("dev.local", Transport.unverified, ProbeOutcome.refuses "connection refused") ∈
      probes (agreeable.handleFailure "Dev.Local"
        ⟨"self-signed certificate", none, []⟩).2.desk.events := by
    decide +kernel
  obtain ⟨before, after, hsplit⟩ := List.append_of_mem (mem_probes.1 hprobe)
  rw [Desk.Extends, show agreeable.desk.events = [] from rfl, List.nil_append] at he
  refine ⟨before, _, _, after, hsplit, rfl, ?_⟩
  exact (hes before _ _ _ after (he ▸ hsplit) rfl).2

end Engine

end TlsTrust
