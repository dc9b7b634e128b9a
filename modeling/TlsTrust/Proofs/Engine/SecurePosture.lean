import TlsTrust.Proofs.Engine.Run
import TlsTrust.Proofs.Engine.UnverifiedProbe

/-!
Under the secure strategy and without trusted hosts, nothing that operators, variables, consents or
the network do gets a certificate accepted.
-/

namespace TlsTrust

/-- The secure strategy, with any memory, prompts and limits. -/
structure Strategy.IsSecure (s : Strategy) : Prop where
  mode : s.mode = .secure
  rules : s.rules = Strategy.secure.rules
  hostOverrides : s.hostOverrides = .empty
  insecureHosts : s.insecureHosts = .empty

structure Decision.Denies (d : Decision) : Prop where
  action : d.action = .deny
  risk : d.risk = .none

namespace Engine

open DecisionMemory Trail

variable {e e₁ : Engine} {s : Strategy} {host : String} {kind : FailureKind}
  {failure : ClassifiedFailure} {policy d : Decision} {generation : Nat}

/-- The strategy in force is the secure one, no host is trusted, and only denials are remembered. -/
structure Guarded (e : Engine) : Prop where
  secure : e.strategy.IsSecure
  untrusted : e.trusted = .empty
  denials : ∀ p ∈ e.memory.entries, p.2.Denies

/-- The call puts no other strategy than the secure one in force, and trusts no host. -/
def Call.KeepsGuard : Call → Prop
  | .setStrategy s => s.IsSecure
  | .addTrustedHost _ => False
  | _ => True

lemma resolve_secure (h : s.IsSecure) (host : String) (kind : FailureKind) :
    (resolve s false host kind).action = .deny := by
  have hover : s.hostOverride host = none := by
    simp [Strategy.hostOverride, h.hostOverrides]
  have hinsecure : s.isInsecureHost host = false := by
    simp [Strategy.isInsecureHost, h.insecureHosts, Table.contains_eq_isSome_get?]
  have hrule : s.rule kind = some .deny := by
    rw [Strategy.rule, h.rules]
    rfl
  simp [resolve, hover, hinsecure, hrule]

lemma decisionFor_denies (s : Strategy) (host : String) (kind : FailureKind) (reason : String)
    (source : DecisionSource) : (decisionFor s host kind .deny false reason source).Denies :=
  ⟨rfl, rfl⟩

lemma Guarded.decide (hg : e.Guarded) (h : e.decide failure = .ok (d, e₁)) :
    d.Denies ∧ e₁.strategy = e.strategy ∧ e₁.trusted = e.trusted ∧ e₁.consents = e.consents ∧
      ∃ es, e.desk.Extends e₁.desk es ∧ Restrained es := by
  rcases (decide_eq_ok h).2 with ⟨-, hfind, rfl⟩ | ⟨-, h⟩
  · exact ⟨hg.denials _ (mem_entries_of_find? hfind), rfl, rfl, rfl, _, e.desk.audit_extends _,
      .audited (by simp)⟩
  · have huntrusted : e.isTrustedHost (Host.key failure.host) = false := by
      simp [isTrustedHost, hg.untrusted, Table.contains_eq_isSome_get?]
    have hdeny := resolve_secure hg.secure (Host.key failure.host) failure.kind
    obtain ⟨e₂, ⟨-, rfl, hd⟩ | ⟨hprompt, -⟩, rfl⟩ := decideFresh_eq h
    · rw [huntrusted, hdeny] at hd
      exact ⟨hd ▸ decisionFor_denies .., rfl, rfl, rfl, _, e₂.desk.audit_extends _,
        .audited (by simp)⟩
    · rw [huntrusted, hdeny] at hprompt
      cases hprompt

lemma Guarded.of_eq (hg : e.Guarded) (hstrategy : e₁.strategy = e.strategy)
    (htrusted : e₁.trusted = e.trusted) (hdenials : ∀ p ∈ e₁.memory.entries, p.2.Denies) :
    e₁.Guarded :=
  ⟨by rw [hstrategy]; exact hg.secure, by rw [htrusted]; exact hg.untrusted, hdenials⟩

lemma Guarded.reported (hg : e.Guarded) (host : String) (f : CertificateFailure) :
    (e.reported host f).Guarded :=
  ⟨hg.secure, hg.untrusted, hg.denials⟩

lemma Guarded.of_question (hg : e.Guarded) {x : Call} {e₀ : Engine}
    (h : e.question? x = some (e₀, failure)) : e₀.Guarded := by
  have hsame := question?_escalated h
  exact hg.of_eq hsame.strategy hsame.trusted (by rw [hsame.memory]; exact hg.denials)

lemma Guarded.perform_denials (hg : e.Guarded) (x : Call) :
    ∀ p ∈ (e.perform x).memory.entries, p.2.Denies := by
  intro p hp
  rcases e.perform_memory x with (heq | ⟨-, hnil⟩) | ⟨e₀, failure, d, e₁, hq, hd, -, hins⟩
  · rw [heq] at hp
    exact hg.denials p hp
  · simp [hnil] at hp
  · rw [hins] at hp
    rcases mem_entries_insert hp with ⟨rfl, -⟩ | hp
    · exact ((hg.of_question hq).decide hd).1
    · exact hg.denials p hp

/-- The answer to a failure lets no certificate through that does not verify, and asks for no
consent. -/
structure Harmless (e : Engine) (r : Except EngineError FallbackOutcome × Engine) : Prop where
  strategy : r.2.strategy = e.strategy
  trusted : r.2.trusted = e.trusted
  consents : r.2.consents = e.consents
  trail : ∃ es, e.desk.Extends r.2.desk es ∧ Restrained es
  verifies : ∀ outcome, r.1 = .ok outcome → outcome.transport.verifies = true

lemma verifies_of_conclude {attempts : List EscalationAttempt} {recommendations : List String}
    {outcome : FallbackOutcome} (hno : policy.action.accepts = false)
    (htried : ∀ a ∈ attempts, a.wasSkipped = false →
      ∃ (e' : Engine) (used : Nat), e'.skipReason? a.step failure policy s used = none)
    (h : (e.conclude host failure attempts recommendations).1 = .ok outcome) :
    outcome.transport.verifies = true := by
  obtain ⟨a, ha, hok, htransport⟩ := conclude_eq_ok h
  obtain ⟨e', used, hskip⟩ := htried a ha (by simp [EscalationAttempt.wasSkipped, hok])
  rw [htransport, EscalationStep.transport_verifies]
  cases hoff : a.step.disablesVerification with
  | false => rfl
  | true => simpa [hno] using ((skipReason?_eq_none hskip).2.2 hoff).1

lemma Guarded.handleFailure (hg : e.Guarded) (host : String) (f : CertificateFailure) :
    e.Harmless (e.handleFailure host f) := by
  have hreported : ∃ es, e.desk.Extends (e.reported host f).desk es ∧ Restrained es :=
    ⟨_, e.audit_trail _, .audited (by simp)⟩
  rcases e.handleFailure_eq host f with
    ⟨-, h⟩ | ⟨-, ⟨err, -, h⟩ | ⟨policy, e₁, hpolicy, h⟩⟩
  · rw [h]
    exact ⟨rfl, rfl, rfl, ⟨[], .refl _, .nil⟩, by simp⟩
  · rw [h]
    exact ⟨rfl, rfl, rfl, hreported, by simp⟩
  · obtain ⟨es, he, hes⟩ := hreported
    obtain ⟨hdeny, hstrategy, htrusted, hconsents, fs, hf, hfs⟩ :=
      (hg.reported host f).decide hpolicy
    have hno : policy.action.accepts = false := by rw [hdeny.action]; rfl
    have hsteps : e₁.Escalated (e.escalate e₁ host f policy).2 := e₁.escalated_runSteps _ _ _ _ _ _
    have hend := escalated_conclude (e.escalate e₁ host f policy).2 (Host.key host)
      (e.classify f (Host.key host)) (e.escalate e₁ host f policy).1
      (Advice.recommend (Host.key host) (e.classify f (Host.key host)).errorText)
    obtain ⟨⟨gs, hgs, hsafe⟩, hkept⟩ := e₁.runSteps_refused (Host.key host)
      (e.classify f (Host.key host)) e₁.strategy 0 EscalationStep.all hno
    obtain ⟨cs, hc, -, hcs⟩ := (e.escalate e₁ host f policy).2.conclude_trail (Host.key host)
      (e.classify f (Host.key host)) (e.escalate e₁ host f policy).1
      (Advice.recommend (Host.key host) (e.classify f (Host.key host)).errorText)
    rw [h]
    refine ⟨?_, ?_, ?_, ?_, ?_⟩
    · exact (hsteps.trans hend).strategy.trans hstrategy
    · exact (hsteps.trans hend).trusted.trans htrusted
    · exact (conclude_consents _ _ _ _ _).trans (hkept.trans hconsents)
    · exact ⟨_, ((he.trans hf).trans hgs).trans hc, ((hes.append hfs).append hsafe).append hcs⟩
    · exact fun outcome hok => verifies_of_conclude hno (e₁.runSteps_tried _ _ _ _ _ _) hok

lemma Guarded.perform (hg : e.Guarded) {x : Call} (hx : x.KeepsGuard) : (e.perform x).Guarded := by
  have hdenials := hg.perform_denials x
  cases x with
  | decide f =>
    cases hd : e.decide f with
    | error err => simpa [Engine.perform, next, hd, Except.map] using hg
    | ok r =>
      obtain ⟨-, hstrategy, htrusted, -⟩ := hg.decide hd
      have heq : e.perform (.decide f) = r.2 := by rw [Engine.perform, hd]; rfl
      rw [heq] at hdenials ⊢
      exact hg.of_eq hstrategy htrusted hdenials
  | setStrategy s =>
    cases hs : e.setStrategy s with
    | error err => simpa [Engine.perform, next, hs] using hg
    | ok e₁ =>
      have heq : e.perform (.setStrategy s) = e₁ := by rw [Engine.perform, hs]; rfl
      rw [heq] at hdenials ⊢
      obtain ⟨-, make, rfl, -⟩ := setStrategy_eq_ok hs
      exact ⟨hx, hg.untrusted, hdenials⟩
  | forgetDecisions => exact ⟨hg.secure, hg.untrusted, hdenials⟩
  | addTrustedHost host => cases hx
  | removeTrustedHost host =>
    have hnone : e.trusted.contains (Host.key host) = false := by
      simp [hg.untrusted, Table.contains_eq_isSome_get?]
    simpa [Engine.perform, removeTrustedHost, hnone] using hg
  | confirmInsecure host =>
    have hsame := e.escalated_confirmInsecure host
    rw [Engine.perform] at hdenials ⊢
    exact hg.of_eq hsame.strategy hsame.trusted hdenials
  | revokeConsent host => exact ⟨hg.secure, hg.untrusted, hdenials⟩
  | handleFailure host f =>
    have hsame := hg.handleFailure host f
    rw [Engine.perform] at hdenials ⊢
    exact hg.of_eq hsame.strategy hsame.trusted hdenials
  | surround w => exact ⟨hg.secure, hg.untrusted, hdenials⟩

lemma Guarded.run (hg : e.Guarded) {calls : List Call} (hcalls : ∀ x ∈ calls, x.KeepsGuard) :
    (e.run calls).Guarded := by
  induction calls using List.reverseRecOn with
  | nil => exact hg
  | append_singleton calls x ih =>
    rw [run_append, run_singleton]
    have hbefore := ih fun y hy => hcalls y (List.mem_append_left _ hy)
    exact hbefore.perform (hcalls x (by simp))

lemma guarded_of_build {config : EngineConfig} {strategy : Strategy} {prompter : Prompter}
    {network : Network} {desk : Desk} (h : build config strategy prompter network desk = .ok e)
    (hsecure : strategy.IsSecure) : e.Guarded := by
  obtain rfl := eq_of_build h
  exact ⟨hsecure, rfl, by simp⟩

/-- Under the secure strategy and without trusted hosts, each decision denies and the answer to each
failure is harmless, whatever happens around the engine. Consent is not asked for, as each request for
it would leave a record. -/
theorem secure_posture_holds {config : EngineConfig} {strategy : Strategy} {prompter : Prompter}
    {network : Network} {desk : Desk} (h : build config strategy prompter network desk = .ok e)
    (hsecure : strategy.IsSecure) (calls : List Call) (hcalls : ∀ x ∈ calls, x.KeepsGuard) :
    (∀ failure, Host.key failure.host ≠ "" →
      ∃ d e₁, (e.run calls).decide failure = .ok (d, e₁) ∧ d.Denies) ∧
    (∀ host f, (e.run calls).Harmless ((e.run calls).handleFailure host f)) ∧
    ∀ (e' : Engine) host, Host.key host ≠ "" → ∃ fs,
      e'.desk.Extends (e'.confirmInsecure host).2.desk fs ∧ recordsOf .insecureModeUsed fs ≠ [] := by
  have hg := (guarded_of_build h hsecure).run hcalls
  refine ⟨?_, hg.handleFailure, ?_⟩
  · intro failure hne
    obtain ⟨d, e₁, hd⟩ := (e.run calls).exists_decide hne
    exact ⟨d, e₁, hd, (hg.decide hd).1⟩
  · intro e' host hne
    obtain ⟨fs, hf, hu⟩ := e'.confirmInsecure_trail host hne
    obtain ⟨r, hr, -⟩ := hu.use
    exact ⟨fs, hf, by simp [hr]⟩

def besieged : Engine :=
  { bare { Strategy.secure with rememberDecisions := true } with
    config := { auditFolder := "audit", allowInsecureMode := true, overrides := .forAll }
    consents := { config := {}, overrides := .forAll }
    prompter := .prepared true [⟨none, false, .chosen .accept⟩]
    network := .accepting [.unverified, Transport.strict.withMinVersion .tls10] }

theorem besieged_stays_secure :
    build besieged.config besieged.strategy besieged.prompter besieged.network besieged.desk =
        .ok besieged ∧ besieged.strategy.IsSecure ∧
      (∀ x ∈ [Call.confirmInsecure "dev.local"], x.KeepsGuard) ∧
      (besieged.confirmInsecure "dev.local").1 = true ∧
      ∃ outcome, ((besieged.run [.confirmInsecure "dev.local"]).handleFailure "dev.local"
        ⟨"self-signed certificate", none, []⟩).1 = .ok outcome ∧ outcome.step = .lowerTls ∧
          outcome.transport.verifies = true := by
  have hbuild : build besieged.config besieged.strategy besieged.prompter besieged.network
      besieged.desk = .ok besieged := rfl
  have hsecure : besieged.strategy.IsSecure := ⟨rfl, rfl, rfl, rfl⟩
  have hcalls : ∀ x ∈ [Call.confirmInsecure "dev.local"], x.KeepsGuard := by
    simp [Call.KeepsGuard]
  have hstep : ((besieged.run [.confirmInsecure "dev.local"]).handleFailure "dev.local"
      ⟨"self-signed certificate", none, []⟩).1.toOption.map FallbackOutcome.step =
        some .lowerTls := by decide +kernel
  refine ⟨hbuild, hsecure, hcalls, by decide +kernel, ?_⟩
  have hharmless := (secure_posture_holds hbuild hsecure _ hcalls).2.1 "dev.local"
    ⟨"self-signed certificate", none, []⟩
  cases hresult : ((besieged.run [.confirmInsecure "dev.local"]).handleFailure "dev.local"
      ⟨"self-signed certificate", none, []⟩).1 with
  | error err =>
    rw [hresult] at hstep
    cases hstep
  | ok outcome =>
    rw [hresult] at hstep
    exact ⟨outcome, rfl, Option.some.inj hstep, hharmless.verifies outcome hresult⟩

end Engine

end TlsTrust
