import TlsTrust.Proofs.Engine.UnverifiedProbe
import Mathlib.Data.List.Forall2

/-!
The course of the answer to one failure: which records are handed to the logger and which probes are
made, in which order and how often.
-/

namespace TlsTrust

namespace Engine

open Trail

variable {e e₁ : Engine} {policy : Decision} {s : Strategy} {used : Nat} {host : String}
  {failure : ClassifiedFailure} {step : EscalationStep} {a : EscalationAttempt}
  {attempts : List EscalationAttempt} {es : List DeskEvent} {blocks : List (List DeskEvent)}

/-- The records and probes of a step. A step that is left out has none; the last step has those of
its consent, and goes on only with consent. -/
inductive StepTrail (host : String) : EscalationAttempt → List DeskEvent → Prop
  | leftOut {step : EscalationStep} {reason : String} :
    StepTrail host ⟨step, "", .skipped reason⟩ []
  | unconfirmed {reason : String} {asked : List DeskEvent} : Consented host false asked →
    StepTrail host ⟨.insecureMode, "", .skipped reason⟩ asked
  | tried {a : EscalationAttempt} {es : List DeskEvent} : a.step ≠ .insecureMode →
    AttemptTrail host a es → StepTrail host a es
  | confirmed {a : EscalationAttempt} {asked es : List DeskEvent} : a.step = .insecureMode →
    Consented host true asked → AttemptTrail host a es → StepTrail host a (asked ++ es)

/-- Steps are considered in order, and all of them unless one succeeds, which is then the last. -/
structure Considered (steps : List EscalationStep) (attempts : List EscalationAttempt) : Prop where
  inOrder : attempts.map EscalationAttempt.step <+: steps
  stops : ∀ a ∈ attempts.dropLast, a.result ≠ .succeeded
  exhausts : (∀ a ∈ attempts, a.result ≠ .succeeded) →
    attempts.map EscalationAttempt.step = steps

/-- How the answer to a failure ends: with a connection by the last attempt, or with a record of the
denial when all have failed. -/
inductive Ending (failure : ClassifiedFailure) (recommendations : List String)
    (attempts : List EscalationAttempt) :
    Except EngineError FallbackOutcome → List DeskEvent → Prop
  | connected {earlier : List EscalationAttempt} {a : EscalationAttempt} :
    attempts = earlier ++ [a] → a.result = .succeeded →
      Ending failure recommendations attempts
        (.ok {
          step := a.step
          decision := a.step.successDecision failure a.attemptId
          error := failure
          attempts
          recommendations }) []
  | exhausted {r : AuditRecord} : (∀ a ∈ attempts, a.result ≠ .succeeded) →
    r.event = .securityDecision → r.host = failure.host → r.allowed = false →
      r.detail? "decision" = some Action.deny.name →
        Ending failure recommendations attempts
          (.error (.exhausted failure.host
            ((attempts.filter fun a => !a.wasSkipped).map EscalationAttempt.display)
            recommendations)) [.audited r]

/-- The records and probes of the answer to a failure: those of the failure, of the decision, of the
steps one after the other, and of the ending. -/
structure FailureCourse (failure : ClassifiedFailure) (recommendations : List String)
    (policy : Decision) (result : Except EngineError FallbackOutcome)
    (reported decided : AuditRecord) (attempts : List EscalationAttempt)
    (blocks : List (List DeskEvent)) (closing : List DeskEvent) : Prop where
  reported : reported.event = .certificateFailure ∧ reported.host = failure.host ∧
    reported.errorKind = some failure.kind
  decided : RecordsDecision failure.host failure.kind policy decided
  considered : Considered EscalationStep.all attempts
  tried : List.Forall₂ (StepTrail failure.host) attempts blocks
  ending : Ending failure recommendations attempts result closing

def verifiedProbes (es : List DeskEvent) : List (String × Transport × ProbeOutcome) :=
  (probes es).filter fun p => p.2.1.verifies

lemma Considered.eq_append (h : Considered EscalationStep.all attempts) (ha : a ∈ attempts)
    (hok : a.result = .succeeded) : ∃ earlier, attempts = earlier ++ [a] := by
  have hne : attempts ≠ [] := List.ne_nil_of_mem ha
  have hsplit := List.dropLast_concat_getLast hne
  rw [← hsplit] at ha
  rcases List.mem_append.1 ha with hearlier | hlast
  · exact absurd hok (h.stops a hearlier)
  · rw [List.mem_singleton] at hlast
    exact ⟨attempts.dropLast, by rw [hlast, hsplit]⟩

lemma Considered.cons_failed {steps : List EscalationStep} (h : Considered steps attempts)
    (ha : a.result ≠ .succeeded) : Considered (a.step :: steps) (a :: attempts) := by
  refine ⟨?_, ?_, ?_⟩
  · simpa using h.inOrder
  · intro b hb
    cases attempts with
    | nil => simp at hb
    | cons c cs =>
      rcases List.mem_cons.1 hb with rfl | hb
      · exact ha
      · exact h.stops b hb
  · intro hall
    have hrest := h.exhausts fun b hb => hall b (List.mem_cons_of_mem _ hb)
    simp [hrest]

lemma runSteps_considered (e : Engine) (host : String) (failure : ClassifiedFailure)
    (policy : Decision) (s : Strategy) (used : Nat) (steps : List EscalationStep) :
    Considered steps (e.runSteps host failure policy s used steps).1 := by
  refine runSteps_induction (motive := fun _ _ steps r => Considered steps r.1) ?_ ?_ ?_ e used steps
  · exact fun _ _ => ⟨List.prefix_refl _, by simp, fun _ => rfl⟩
  · exact fun _ _ a _ _ _ ha => ⟨by simp, by simp, fun hall => absurd ha (hall a (by simp))⟩
  · exact fun _ _ _ _ _ _ _ ha ih => ih.cons_failed ha

lemma runStep_trail (e : Engine) (hne : host ≠ "") (hkey : Host.key host = host)
    (failure : ClassifiedFailure) (policy : Decision) (s : Strategy) (used : Nat)
    (step : EscalationStep) :
    ∃ es, e.desk.Extends (e.runStep host failure policy s used step).2.desk es ∧
      StepTrail host (e.runStep host failure policy s used step).1 (visible es) := by
  obtain ⟨asked, hasked, hcons⟩ := e.confirmInsecure_consented host (by rwa [hkey])
  rw [hkey] at hcons
  rcases e.runStep_eq host failure policy s used step with
    ⟨_, -, h⟩ | ⟨-, ⟨rfl, e₁, hc, h⟩ | ⟨e₁, hmay, h⟩⟩
  · rw [h]
    exact ⟨[], .refl _, .leftOut⟩
  · rw [hc] at hasked hcons
    rw [h]
    exact ⟨asked, hasked, .unconfirmed hcons⟩
  · obtain ⟨es, he, htrail, hstep⟩ := e₁.attempt_events host step
    rw [h]
    rcases hmay with ⟨rfl, hc⟩ | ⟨hother, rfl⟩
    · rw [hc] at hasked hcons
      refine ⟨asked ++ es, hasked.trans he, ?_⟩
      rw [visible_append, htrail.visible_eq]
      exact .confirmed hstep hcons htrail
    · refine ⟨es, he, ?_⟩
      rw [htrail.visible_eq]
      exact .tried (by rwa [hstep]) htrail

lemma runSteps_trail (e : Engine) (hne : host ≠ "") (hkey : Host.key host = host)
    (failure : ClassifiedFailure) (policy : Decision) (s : Strategy) (used : Nat)
    (steps : List EscalationStep) :
    ∃ es blocks, e.desk.Extends (e.runSteps host failure policy s used steps).2.desk es ∧
      visible es = blocks.flatten ∧
        List.Forall₂ (StepTrail host) (e.runSteps host failure policy s used steps).1 blocks := by
  refine runSteps_induction (motive := fun e _ _ r => ∃ es blocks, e.desk.Extends r.2.desk es ∧
    visible es = blocks.flatten ∧ List.Forall₂ (StepTrail host) r.1 blocks) ?_ ?_ ?_ e used steps
  · exact fun e _ => ⟨[], [], .refl _, rfl, .nil⟩
  · intro e used a _ e₁ h _
    obtain ⟨es, he, htrail⟩ := e.runStep_trail hne hkey failure policy s used a.step
    rw [h] at he htrail
    exact ⟨es, [visible es], he, by simp, .cons htrail .nil⟩
  · intro e used a _ e₁ r h _ ih
    obtain ⟨es, he, htrail⟩ := e.runStep_trail hne hkey failure policy s used a.step
    rw [h] at he htrail
    obtain ⟨fs, blocks, hf, hvis, hall⟩ := ih
    exact ⟨es ++ fs, visible es :: blocks, he.trans hf, by simp [hvis], .cons htrail hall⟩

lemma runSteps_retries {limit : Nat}
    (hlimit : ∀ (e : Engine) step used, e.skipReason? step failure policy s used = none →
      step.disablesVerification = false → used < limit)
    (e : Engine) (host : String) (used : Nat) (steps : List EscalationStep) :
    (e.runSteps host failure policy s used steps).1.foldl retriesAfter used ≤ max limit used := by
  have hone : ∀ (e e₁ : Engine) used a, e.runStep host failure policy s used a.step = (a, e₁) →
      retriesAfter used a ≤ max limit used := by
    intro e e₁ used a h
    unfold retriesAfter
    split
    · exact Nat.le_max_right ..
    case isFalse hretry =>
      obtain ⟨htried, hon⟩ : a.wasSkipped = false ∧ a.step.disablesVerification = false := by
        simpa using hretry
      have := hlimit e a.step used (skipReason?_of_tried (by rwa [h])) hon
      omega
  refine runSteps_induction (motive := fun _ used _ r =>
    r.1.foldl retriesAfter used ≤ max limit used) ?_ ?_ ?_ e used steps
  · exact fun _ _ => Nat.le_max_right ..
  · exact fun e used a _ e₁ h _ => hone e e₁ used a h
  · intro e used a _ e₁ r h _ ih
    have := hone e e₁ used a h
    rw [List.foldl_cons]
    omega

lemma verifiedProbes_append (es fs : List DeskEvent) :
    verifiedProbes (es ++ fs) = verifiedProbes es ++ verifiedProbes fs := by
  simp [verifiedProbes]

lemma verifiedProbes_visible (es : List DeskEvent) :
    verifiedProbes (visible es) = verifiedProbes es := by
  simp only [verifiedProbes, probes_visible]

lemma verifiedProbes_of_probes_eq_nil (h : probes es = []) : verifiedProbes es = [] := by
  simp [verifiedProbes, h]

lemma retriesAfter_of_attemptTrail (h : AttemptTrail host a es) (used : Nat) :
    retriesAfter used a = used + (verifiedProbes es).length := by
  obtain ⟨o, hprobes, htried⟩ := h.probes_eq
  have hon := a.step.transport_verifies
  cases hoff : a.step.disablesVerification <;>
    simp [retriesAfter, verifiedProbes, hprobes, htried, hon, hoff]

lemma retriesAfter_of_stepTrail (h : StepTrail host a es) (used : Nat) :
    retriesAfter used a = used + (verifiedProbes es).length := by
  cases h with
  | leftOut => rfl
  | unconfirmed hasked =>
    rw [verifiedProbes_of_probes_eq_nil hasked.probes_eq]
    rfl
  | tried _ htrail => exact retriesAfter_of_attemptTrail htrail used
  | confirmed _ hasked htrail =>
    rw [verifiedProbes_append, verifiedProbes_of_probes_eq_nil hasked.probes_eq]
    exact retriesAfter_of_attemptTrail htrail used

lemma foldl_retriesAfter (h : List.Forall₂ (StepTrail host) attempts blocks) (used : Nat) :
    attempts.foldl retriesAfter used = used + (verifiedProbes blocks.flatten).length := by
  induction h generalizing used with
  | nil => rfl
  | cons hstep _ ih =>
    rw [List.foldl_cons, ih, retriesAfter_of_stepTrail hstep, List.flatten_cons,
      verifiedProbes_append, List.length_append, Nat.add_assoc]

lemma verifiedProbes_le_of_limit {limit : Nat} {steps : List EscalationStep}
    (hlimit : ∀ (e : Engine) step used, e.skipReason? step failure policy s used = none →
      step.disablesVerification = false → used < limit)
    (h : List.Forall₂ (StepTrail host) (e.runSteps host failure policy s 0 steps).1 blocks) :
    (verifiedProbes blocks.flatten).length ≤ limit := by
  have hretries := runSteps_retries hlimit e host 0 steps
  rw [foldl_retriesAfter h] at hretries
  omega

lemma not_date_of_verifying (hskip : e.skipReason? step failure policy s used = none)
    (hon : step.disablesVerification = false) :
    failure.kind ≠ .expired ∧ failure.kind ≠ .notYetValid := by
  have happ := (skipReason?_eq_none hskip).1
  cases step <;> simp [EscalationStep.appliesTo, EscalationStep.disablesVerification] at happ hon
  all_goals exact happ

lemma conclude_ending (e : Engine) (hhost : failure.host = host) (recommendations : List String)
    (h : Considered EscalationStep.all attempts) :
    ∃ closing, e.desk.Extends
        (e.conclude host failure attempts recommendations).2.desk closing ∧
      visible closing = closing ∧ probes closing = [] ∧
        Ending failure recommendations attempts
          (e.conclude host failure attempts recommendations).1 closing := by
  subst hhost
  unfold conclude
  cases hfind : attempts.find? fun a => a.result = .succeeded with
  | some a =>
    have hok : a.result = .succeeded := by simpa using List.find?_some hfind
    obtain ⟨earlier, heq⟩ := h.eq_append (List.mem_of_find?_eq_some hfind) hok
    exact ⟨[], .refl _, rfl, rfl, .connected heq hok⟩
  | none =>
    have hall : ∀ a ∈ attempts, a.result ≠ .succeeded := by
      simpa using List.find?_eq_none.1 hfind
    refine ⟨_, e.desk.audit_extends _, rfl, rfl, .exhausted hall rfl rfl rfl ?_⟩
    have hother : "decision" ≠ "reason" := by decide
    exact (Table.get?_insert_of_ne _ hother _).trans (Table.get?_insert_self ..)

lemma policyFor_trail {f : CertificateFailure} (hkey : Host.key (Host.key host) = Host.key host)
    (h : e.policyFor host f = .ok (policy, e₁)) :
    ∃ reported ds decided,
      e.desk.Extends e₁.desk (.audited reported :: (ds ++ [.audited decided])) ∧
        reported.event = .certificateFailure ∧ reported.host = Host.key host ∧
        reported.errorKind = some (e.classify f (Host.key host)).kind ∧ OnlySwaps ds ∧
        (visible ds = [] → e₁.strategy = e.strategy) ∧
        RecordsDecision (Host.key host) (e.classify f (Host.key host)).kind policy decided := by
  obtain ⟨ds, decided, hd, hswaps, hsame, hdecided⟩ := decide_trail h
  rw [classify_host, hkey] at hdecided
  have hreported := e.audit_trail fun s => .certificateFailure s (Host.key host)
    (e.classify f (Host.key host)).kind (e.classify f (Host.key host)).errorText
  exact ⟨_, ds, decided, hreported.trans hd, rfl, rfl, rfl, hswaps, hsame, hdecided⟩

/-- The answer to a failure at a host runs its course if the strategy is not replaced meanwhile. It
makes no more probes that verify than there are retries, and none against a wrong date. -/
theorem failure_runs_its_course (e : Engine) (host : String) (f : CertificateFailure)
    (hne : Host.key host ≠ "") (hkey : Host.key (Host.key host) = Host.key host) :
    ∃ es, e.desk.Extends (e.handleFailure host f).2.desk es ∧
      (recordsOf .strategyChanged es = [] →
        (∃ policy e₁ reported decided attempts blocks closing,
          e.policyFor host f = .ok (policy, e₁) ∧
            visible es = .audited reported :: .audited decided :: (blocks.flatten ++ closing) ∧
            FailureCourse (e.classify f (Host.key host))
              (Advice.recommend (Host.key host) (e.classify f (Host.key host)).errorText) policy
              (e.handleFailure host f).1 reported decided attempts blocks closing) ∧
        (verifiedProbes es).length ≤ e.strategy.maxRetries ∧
          ((e.classify f (Host.key host)).kind = .expired ∨
            (e.classify f (Host.key host)).kind = .notYetValid → verifiedProbes es = [])) := by
  obtain ⟨policy, e₁, hpolicy⟩ := exists_policyFor (by rwa [hkey]) e f
  obtain ⟨reported, ds, decided, hd, hevent, hhost, hkind, hswaps, hsame, hdecided⟩ :=
    policyFor_trail hkey hpolicy
  rw [handleFailure_of_policyFor hne hpolicy]
  unfold escalate
  have hfailure := e.classify_host f (Host.key host)
  generalize e.classify f (Host.key host) = failure at hkind hdecided hfailure ⊢
  obtain ⟨es, blocks, he, hvis, htried⟩ := e₁.runSteps_trail hne hkey failure
    policy e₁.strategy 0 EscalationStep.all
  have hconsidered := e₁.runSteps_considered (Host.key host) failure policy e₁.strategy 0
    EscalationStep.all
  have hlimit := fun limit h => @verifiedProbes_le_of_limit e₁ policy e₁.strategy (Host.key host)
    failure blocks limit EscalationStep.all h htried
  generalize e₁.runSteps (Host.key host) failure policy e₁.strategy 0 EscalationStep.all = r
    at he htried hconsidered ⊢
  obtain ⟨closing, hc, hcvis, hcprobes, hending⟩ := r.2.conclude_ending hfailure
    (Advice.recommend (Host.key host) failure.errorText) hconsidered
  refine ⟨_, (hd.trans he).trans hc, ?_⟩
  intro hno
  -- only a change of the strategy could stand between the report and the decision
  have hnil : visible ds = [] := by
    rw [← List.singleton_append] at hno
    simp only [recordsOf_append, List.append_eq_nil_iff] at hno
    exact hswaps.visible_eq_nil hno.1.1.2.1
  have hshape : visible (.audited reported :: (ds ++ [.audited decided]) ++ es ++ closing) =
      .audited reported :: .audited decided :: (blocks.flatten ++ closing) := by
    simp [hnil, hvis, hcvis]
  have hprobes : verifiedProbes (.audited reported :: (ds ++ [.audited decided]) ++ es ++ closing) =
      verifiedProbes blocks.flatten := by
    rw [← verifiedProbes_visible, hshape]
    change verifiedProbes (blocks.flatten ++ closing) = _
    rw [verifiedProbes_append, verifiedProbes_of_probes_eq_nil hcprobes, List.append_nil]
  refine ⟨⟨policy, e₁, reported, decided, r.1, blocks, closing, hpolicy, hshape, ?_⟩, ?_, ?_⟩
  · exact ⟨⟨hevent, by rw [hhost, hfailure], hkind⟩, by rwa [hfailure], hconsidered,
      by rwa [hfailure], hending⟩
  · rw [hprobes, ← hsame hnil]
    exact hlimit _ fun e step used hskip hon => (skipReason?_eq_none hskip).2.1 hon
  · intro hdate
    rw [hprobes, ← List.length_eq_zero_iff, ← Nat.le_zero]
    refine hlimit 0 fun e step used hskip hon => ?_
    obtain ⟨hexpired, hearly⟩ := not_date_of_verifying hskip hon
    exact absurd hdate (not_or.2 ⟨hexpired, hearly⟩)

def persistent : Engine :=
  { agreeable with
    network := .scripted [.hangs, .hangs, .refuses "reset", .refuses "reset", .connects] }

theorem persistent_runs_its_course :
    Host.key "Dev.Local" ≠ "" ∧ Host.key (Host.key "Dev.Local") = Host.key "Dev.Local" ∧
      recordsOf .strategyChanged (persistent.handleFailure "Dev.Local"
        ⟨"self-signed certificate", none, []⟩).2.desk.events = [] ∧
      ∃ reported decided attempts blocks closing,
        visible (persistent.handleFailure "Dev.Local"
          ⟨"self-signed certificate", none, []⟩).2.desk.events =
            .audited reported :: .audited decided :: (blocks.flatten ++ closing) ∧
        List.Forall₂ (StepTrail "dev.local") attempts blocks ∧
        attempts.map EscalationAttempt.step = EscalationStep.all ∧ closing = [] := by
  have hne : Host.key "Dev.Local" ≠ "" := by decide +kernel
  have hkey : Host.key (Host.key "Dev.Local") = Host.key "Dev.Local" := by decide +kernel
  have hno : recordsOf .strategyChanged (persistent.handleFailure "Dev.Local"
      ⟨"self-signed certificate", none, []⟩).2.desk.events = [] := by decide +kernel
  have hlast : (persistent.handleFailure "Dev.Local"
      ⟨"self-signed certificate", none, []⟩).1.toOption.map
        (fun outcome => outcome.attempts.map EscalationAttempt.step) =
          some EscalationStep.all := by decide +kernel
  obtain ⟨es, he, hcourse⟩ := persistent.failure_runs_its_course "Dev.Local"
    ⟨"self-signed certificate", none, []⟩ hne hkey
  rw [Desk.Extends, show persistent.desk.events = [] from rfl, List.nil_append] at he
  rw [he] at hno ⊢
  obtain ⟨⟨policy, e₁, reported, decided, attempts, blocks, closing, -, hshape, hc⟩, -, -⟩ :=
    hcourse hno
  refine ⟨hne, hkey, hno, reported, decided, attempts, blocks, closing, hshape, hc.tried, ?_⟩
  have hending := hc.ending
  generalize (persistent.handleFailure "Dev.Local" ⟨"self-signed certificate", none, []⟩).1 = result
    at hending hlast
  cases hending with
  | connected => exact ⟨Option.some.inj hlast, rfl⟩
  | exhausted => cases hlast

end Engine

end TlsTrust
