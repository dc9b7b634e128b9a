import TlsTrust.Proofs.Consent.Confirmation
import TlsTrust.Proofs.Engine.Attempt
import TlsTrust.Proofs.Engine.Decision

/-!
Which steps of an escalation are tried, what each leaves of the engine, and what it adds to the
events at the desk.
-/

namespace TlsTrust

namespace Engine

open Trail

variable {e e' e₁ : Engine} {host : String} {failure : ClassifiedFailure} {policy : Decision}
  {s : Strategy} {used : Nat} {step : EscalationStep}

/-- What trying steps leaves alone: all but the consents, the network and the desk. -/
structure Escalated (e e' : Engine) : Prop where
  config : e'.config = e.config
  strategy : e'.strategy = e.strategy
  memory : e'.memory = e.memory
  trusted : e'.trusted = e.trusted
  prompter : e'.prompter = e.prompter

lemma Escalated.refl (e : Engine) : e.Escalated e := ⟨rfl, rfl, rfl, rfl, rfl⟩

lemma Escalated.trans {e₂ : Engine} (h : e.Escalated e₁) (k : e₁.Escalated e₂) : e.Escalated e₂ :=
  ⟨k.config.trans h.config, k.strategy.trans h.strategy, k.memory.trans h.memory,
    k.trusted.trans h.trusted, k.prompter.trans h.prompter⟩

lemma escalated_audit (e : Engine) (make : Stamp → AuditRecord) : e.Escalated (e.audit make) :=
  ⟨rfl, rfl, rfl, rfl, rfl⟩

lemma confirmInsecure_eq (e : Engine) (host : String) : e.confirmInsecure host =
    ((e.consents.confirm e.desk host).1,
      { e with
        consents := (e.consents.confirm e.desk host).2.1
        desk := (e.consents.confirm e.desk host).2.2 }) := by
  unfold confirmInsecure
  generalize e.consents.confirm e.desk host = r
  rfl

lemma escalated_confirmInsecure (e : Engine) (host : String) :
    e.Escalated (e.confirmInsecure host).2 := by
  rw [confirmInsecure_eq]
  exact ⟨rfl, rfl, rfl, rfl, rfl⟩

lemma confirmInsecure_consented (e : Engine) (host : String) (hkey : Host.key host ≠ "") :
    ∃ es, e.desk.Extends (e.confirmInsecure host).2.desk es ∧
      Consented (Host.key host) (e.confirmInsecure host).1 (visible es) := by
  have h := e.consents.confirm_consented e.desk hkey
  simp only [confirmInsecure_eq]
  exact h

lemma confirmInsecure_trail (e : Engine) (host : String) (hkey : Host.key host ≠ "") :
    ∃ es, e.desk.Extends (e.confirmInsecure host).2.desk es ∧
      RecordsUse (Host.key host) (e.confirmInsecure host).1 es := by
  obtain ⟨es, he, hcons⟩ := e.confirmInsecure_consented host hkey
  exact ⟨es, he, hcons.recordsUse⟩

lemma skipReason?_eq_none (h : e.skipReason? step failure policy s used = none) :
    step.appliesTo failure.kind = true ∧
      (step.disablesVerification = false → used < s.maxRetries) ∧
      (step.disablesVerification = true → policy.action.accepts = true ∧
        (step = .insecureMode →
          e.config.allowInsecureMode = true ∨ e.config.overrides.allows failure.host = true)) := by
  unfold skipReason? at h
  split at h
  · cases h
  case isFalse happ =>
    refine ⟨by simpa using happ, ?_⟩
    split at h
    case isTrue hdis =>
      split at h
      · cases h
      case isFalse hused => exact ⟨fun _ => Nat.lt_of_not_le hused, fun hd => by simp [hd] at hdis⟩
    case isFalse hdis =>
      refine ⟨fun hd => by simp [hd] at hdis, fun _ => ?_⟩
      split at h
      · cases h
      case isFalse hacc =>
        refine ⟨by simpa using hacc, ?_⟩
        rintro rfl
        split at h
        · cases h
        case isFalse hmode =>
          by_cases ha : e.config.allowInsecureMode = true
          · exact .inl ha
          · exact .inr (by simpa [ha] using hmode)

lemma runStep_eq (e : Engine) (host : String) (failure : ClassifiedFailure) (policy : Decision)
    (s : Strategy) (used : Nat) (step : EscalationStep) :
    (∃ reason, e.skipReason? step failure policy s used = some reason ∧
        e.runStep host failure policy s used step = (⟨step, "", .skipped reason⟩, e)) ∨
      e.skipReason? step failure policy s used = none ∧
        (step = .insecureMode ∧ (∃ e₁, e.confirmInsecure host = (false, e₁) ∧
            e.runStep host failure policy s used step =
              (⟨step, "", .skipped "insecure mode not confirmed"⟩, e₁)) ∨
          ∃ e₁, (step = .insecureMode ∧ e.confirmInsecure host = (true, e₁) ∨
              step ≠ .insecureMode ∧ e₁ = e) ∧
            e.runStep host failure policy s used step = e₁.attempt host step) := by
  unfold runStep
  cases hskip : e.skipReason? step failure policy s used with
  | some reason => exact .inl ⟨reason, rfl, rfl⟩
  | none =>
    refine .inr ⟨rfl, ?_⟩
    by_cases hstep : step = .insecureMode
    · rcases hc : e.confirmInsecure host with ⟨_ | _, e₁⟩
      · exact .inl ⟨hstep, e₁, rfl, by simp [mayTry, hstep, hc]⟩
      · exact .inr ⟨e₁, .inl ⟨hstep, rfl⟩, by simp [mayTry, hstep, hc]⟩
    · exact .inr ⟨e, .inr ⟨hstep, rfl⟩, by simp [mayTry, hstep]⟩

lemma escalated_attempt (e : Engine) (host : String) (step : EscalationStep) :
    e.Escalated (e.attempt host step).2 := by
  unfold attempt probe auditSucceeded auditFailed
  dsimp only
  split
  · split <;> exact ⟨rfl, rfl, rfl, rfl, rfl⟩
  · exact ⟨rfl, rfl, rfl, rfl, rfl⟩

lemma attempt_consents (e : Engine) (host : String) (step : EscalationStep) :
    (e.attempt host step).2.consents = e.consents := by
  unfold attempt probe auditSucceeded auditFailed
  dsimp only
  split
  · split <;> rfl
  · rfl

lemma escalated_runStep (e : Engine) (host : String) (failure : ClassifiedFailure)
    (policy : Decision) (s : Strategy) (used : Nat) (step : EscalationStep) :
    e.Escalated (e.runStep host failure policy s used step).2 := by
  rcases e.runStep_eq host failure policy s used step with
    ⟨_, -, h⟩ | ⟨-, ⟨-, e₁, hc, h⟩ | ⟨e₁, ⟨-, hc⟩ | ⟨-, rfl⟩, h⟩⟩
  · rw [h]
    exact .refl e
  · rw [h]
    have := e.escalated_confirmInsecure host
    rwa [hc] at this
  · rw [h]
    have := e.escalated_confirmInsecure host
    rw [hc] at this
    exact this.trans (e₁.escalated_attempt host step)
  · rw [h]
    exact e₁.escalated_attempt host step

lemma runStep_step (e : Engine) (host : String) (failure : ClassifiedFailure) (policy : Decision)
    (s : Strategy) (used : Nat) (step : EscalationStep) :
    (e.runStep host failure policy s used step).1.step = step := by
  rcases e.runStep_eq host failure policy s used step with
    ⟨_, -, h⟩ | ⟨-, ⟨-, e₁, -, h⟩ | ⟨e₁, -, h⟩⟩
  · rw [h]
  · rw [h]
  · rw [h]
    obtain ⟨_, -, -, hstep⟩ := e₁.attempt_events host step
    exact hstep

lemma skipReason?_of_tried (h : (e.runStep host failure policy s used step).1.wasSkipped = false) :
    e.skipReason? step failure policy s used = none := by
  rcases e.runStep_eq host failure policy s used step with ⟨_, -, hrun⟩ | ⟨hskip, -⟩
  · rw [hrun] at h
    cases h
  · exact hskip

lemma runSteps_cons_of_failed {a : EscalationAttempt}
    (h : e.runStep host failure policy s used step = (a, e₁)) (ha : a.result ≠ .succeeded)
    (steps : List EscalationStep) :
    e.runSteps host failure policy s used (step :: steps) =
      (a :: (e₁.runSteps host failure policy s (retriesAfter used a) steps).1,
        (e₁.runSteps host failure policy s (retriesAfter used a) steps).2) := by
  simp only [runSteps, h, if_neg ha]

lemma runSteps_induction
    {motive : Engine → Nat → List EscalationStep → List EscalationAttempt × Engine → Prop}
    (nil : ∀ e used, motive e used [] ([], e))
    (succeeded : ∀ (e : Engine) used a steps e₁,
      e.runStep host failure policy s used a.step = (a, e₁) → a.result = .succeeded →
        motive e used (a.step :: steps) ([a], e₁))
    (failed : ∀ (e : Engine) used a steps e₁ r,
      e.runStep host failure policy s used a.step = (a, e₁) → a.result ≠ .succeeded →
        motive e₁ (retriesAfter used a) steps r → motive e used (a.step :: steps) (a :: r.1, r.2))
    (e : Engine) (used : Nat) (steps : List EscalationStep) :
    motive e used steps (e.runSteps host failure policy s used steps) := by
  induction steps generalizing e used with
  | nil => exact nil e used
  | cons step steps ih =>
    have hstep := e.runStep_step host failure policy s used step
    rcases hrun : e.runStep host failure policy s used step with ⟨a, e₁⟩
    obtain rfl : a.step = step := by simpa only [hrun] using hstep
    by_cases ha : a.result = .succeeded
    · simp only [runSteps, hrun, if_pos ha]
      exact succeeded e used a steps e₁ hrun ha
    · rw [runSteps_cons_of_failed hrun ha]
      exact failed e used a steps e₁ _ hrun ha (ih e₁ _)

lemma escalated_runSteps (e : Engine) (host : String) (failure : ClassifiedFailure)
    (policy : Decision) (s : Strategy) (used : Nat) (steps : List EscalationStep) :
    e.Escalated (e.runSteps host failure policy s used steps).2 := by
  have hone : ∀ (e e₁ : Engine) used a, e.runStep host failure policy s used a.step = (a, e₁) →
      e.Escalated e₁ := by
    intro e e₁ used a h
    simpa only [h] using e.escalated_runStep host failure policy s used a.step
  refine runSteps_induction (motive := fun e _ _ r => e.Escalated r.2) ?_ ?_ ?_ e used steps
  · exact fun e _ => .refl e
  · exact fun e used a _ e₁ h _ => hone e e₁ used a h
  · exact fun e used a _ e₁ _ h _ ih => (hone e e₁ used a h).trans ih

lemma runSteps_tried (e : Engine) (host : String) (failure : ClassifiedFailure) (policy : Decision)
    (s : Strategy) (used : Nat) (steps : List EscalationStep) :
    ∀ a ∈ (e.runSteps host failure policy s used steps).1, a.wasSkipped = false →
      ∃ (e' : Engine) (used' : Nat), e'.skipReason? a.step failure policy s used' = none := by
  have hone : ∀ (e e₁ : Engine) used a, e.runStep host failure policy s used a.step = (a, e₁) →
      a.wasSkipped = false →
        ∃ (e' : Engine) (used' : Nat), e'.skipReason? a.step failure policy s used' = none := by
    intro e e₁ used a h htried
    exact ⟨e, used, skipReason?_of_tried (by rwa [h])⟩
  refine runSteps_induction (motive := fun _ _ _ r => ∀ a ∈ r.1, a.wasSkipped = false →
    ∃ (e' : Engine) (used' : Nat), e'.skipReason? a.step failure policy s used' = none)
    ?_ ?_ ?_ e used steps
  · simp
  · intro e used a _ e₁ h _
    exact List.forall_mem_singleton.2 (hone e e₁ used a h)
  · intro e used a _ e₁ r h _ ih
    exact List.forall_mem_cons.2 ⟨hone e e₁ used a h, ih⟩

@[simp] lemma classify_host (e : Engine) (f : CertificateFailure) (host : String) :
    (e.classify f host).host = host := rfl

def reported (e : Engine) (host : String) (failure : CertificateFailure) : Engine :=
  let classified := e.classify failure (Host.key host)
  e.audit fun s => .certificateFailure s (Host.key host) classified.kind classified.errorText

lemma reported_trail (e : Engine) (host : String) (failure : CertificateFailure) :
    ∃ es, e.desk.Extends (e.reported host failure).desk es ∧ Quiet es := by
  unfold reported
  dsimp only
  exact ⟨_, e.audit_trail _, .audited (by simp)⟩

def policyFor (e : Engine) (host : String) (failure : CertificateFailure) :
    Except EngineError (Decision × Engine) :=
  (e.reported host failure).decide (e.classify failure (Host.key host))

def escalate (e e₁ : Engine) (host : String) (failure : CertificateFailure) (policy : Decision) :
    List EscalationAttempt × Engine :=
  e₁.runSteps (Host.key host) (e.classify failure (Host.key host)) policy e₁.strategy 0
    EscalationStep.all

lemma policyFor_decided {d : Decision} {f : CertificateFailure}
    (h : e.policyFor host f = .ok (d, e₁)) : e.Decided e₁ := by
  have hd := decide_decided h
  obtain ⟨es, he, hq⟩ := e.reported_trail host f
  obtain ⟨fs, hf, hr⟩ := hd.trail
  exact ⟨hd.config, hd.trusted, hd.consents, es ++ fs, he.trans hf, hq.append hr⟩

lemma conclude_trail (e : Engine) (host : String) (failure : ClassifiedFailure)
    (attempts : List EscalationAttempt) (recommendations : List String) :
    ∃ es, e.desk.Extends (e.conclude host failure attempts recommendations).2.desk es ∧
      Quiet es ∧ Restrained es := by
  unfold conclude
  split
  · exact ⟨[], .refl _, .nil, .nil⟩
  · exact ⟨_, e.desk.audit_extends _, .audited (by simp), .audited (by simp)⟩

lemma conclude_eq_ok {attempts : List EscalationAttempt} {recommendations : List String}
    {outcome : FallbackOutcome}
    (h : (e.conclude host failure attempts recommendations).1 = .ok outcome) :
    ∃ a ∈ attempts, a.result = .succeeded ∧ outcome.transport = a.step.transport := by
  unfold conclude at h
  split at h
  case h_1 a hfind =>
    obtain rfl := Except.ok.inj h
    exact ⟨a, List.mem_of_find?_eq_some hfind, by simpa using List.find?_some hfind, rfl⟩
  case h_2 => cases h

lemma conclude_consents (e : Engine) (host : String) (failure : ClassifiedFailure)
    (attempts : List EscalationAttempt) (recommendations : List String) :
    (e.conclude host failure attempts recommendations).2.consents = e.consents := by
  unfold conclude
  split <;> rfl

lemma escalated_conclude (e : Engine) (host : String) (failure : ClassifiedFailure)
    (attempts : List EscalationAttempt) (recommendations : List String) :
    e.Escalated (e.conclude host failure attempts recommendations).2 := by
  unfold conclude
  split
  · exact .refl e
  · exact e.escalated_audit _

lemma handleFailure_eq (e : Engine) (host : String) (failure : CertificateFailure) :
    Host.key host = "" ∧ e.handleFailure host failure = (.error .emptyHostname, e) ∨
      Host.key host ≠ "" ∧
        ((∃ err, e.policyFor host failure = .error err ∧
            e.handleFailure host failure = (.error err, e.reported host failure)) ∨
          ∃ policy e₁, e.policyFor host failure = .ok (policy, e₁) ∧
            e.handleFailure host failure =
              (e.escalate e₁ host failure policy).2.conclude (Host.key host)
                (e.classify failure (Host.key host)) (e.escalate e₁ host failure policy).1
                (Advice.recommend (Host.key host)
                  (e.classify failure (Host.key host)).errorText)) := by
  unfold handleFailure policyFor reported
  dsimp only
  by_cases hkey : Host.key host = ""
  · exact .inl ⟨hkey, by simp [hkey]⟩
  · refine .inr ⟨hkey, ?_⟩
    rw [if_neg (by simpa using hkey)]
    split
    case h_1 err h => exact .inl ⟨err, h, rfl⟩
    case h_2 policy e₁ h => exact .inr ⟨policy, e₁, h, rfl⟩

lemma handleFailure_of_policyFor (hne : Host.key host ≠ "") {f : CertificateFailure}
    (h : e.policyFor host f = .ok (policy, e₁)) :
    e.handleFailure host f = (e.escalate e₁ host f policy).2.conclude (Host.key host)
      (e.classify f (Host.key host)) (e.escalate e₁ host f policy).1
      (Advice.recommend (Host.key host) (e.classify f (Host.key host)).errorText) := by
  rcases e.handleFailure_eq host f with
    ⟨hnone, -⟩ | ⟨-, ⟨err, herr, -⟩ | ⟨policy', e₂, hok, heq⟩⟩
  · exact absurd hnone hne
  · cases h.symm.trans herr
  · obtain ⟨rfl, rfl⟩ := Prod.mk.inj (Except.ok.inj (h.symm.trans hok))
    exact heq

lemma exists_policyFor (hne : Host.key (Host.key host) ≠ "") (e : Engine)
    (f : CertificateFailure) : ∃ policy e₁, e.policyFor host f = .ok (policy, e₁) :=
  exists_decide _ hne

lemma handleFailure_trail (e : Engine) (host : String) (failure : CertificateFailure) :
    (∃ es, e.desk.Extends (e.handleFailure host failure).2.desk es ∧ Quiet es) ∧
        (e.handleFailure host failure).2.consents = e.consents ∨
      Host.key host ≠ "" ∧ ∃ policy e₁ ds cs, e.policyFor host failure = .ok (policy, e₁) ∧
        e.desk.Extends e₁.desk ds ∧ Quiet ds ∧ Quiet cs ∧
        (∀ es, e₁.desk.Extends (e.escalate e₁ host failure policy).2.desk es →
          e.desk.Extends (e.handleFailure host failure).2.desk (ds ++ es ++ cs)) ∧
        (e.handleFailure host failure).2.consents =
          (e.escalate e₁ host failure policy).2.consents := by
  rcases e.handleFailure_eq host failure with
    ⟨-, h⟩ | ⟨hne, ⟨err, -, h⟩ | ⟨policy, e₁, hpolicy, h⟩⟩
  · rw [h]
    exact .inl ⟨⟨[], .refl _, .nil⟩, rfl⟩
  · rw [h]
    exact .inl ⟨e.reported_trail host failure, rfl⟩
  · obtain ⟨ds, hd, hdq⟩ := (policyFor_decided hpolicy).trail
    obtain ⟨cs, hc, hcq, -⟩ := (e.escalate e₁ host failure policy).2.conclude_trail (Host.key host)
      (e.classify failure (Host.key host)) (e.escalate e₁ host failure policy).1
      (Advice.recommend (Host.key host) (e.classify failure (Host.key host)).errorText)
    rw [h]
    exact .inr ⟨hne, policy, e₁, ds, cs, hpolicy, hd, hdq, hcq,
      fun es he => (hd.trans he).trans hc, conclude_consents _ _ _ _ _⟩

end Engine

end TlsTrust
