import TlsTrust.Proofs.Audit.Delivery
import TlsTrust.Proofs.Engine.Run

/-!
Each record of a change fits the state before it, and all of them in order lead to the state of the
engine.
-/

namespace TlsTrust

def EventType.isIncidental : EventType → Bool
  | trustChanged | strategyChanged => false
  | _ => true

namespace Desk

variable {d d₁ d₂ : Desk} {rs qs : List AuditRecord}

def recorded (d : Desk) : List AuditRecord :=
  d.events.filterMap DeskEvent.record?

structure Logs (d d₁ : Desk) (rs : List AuditRecord) : Prop where
  recorded : d₁.recorded = d.recorded ++ rs
  logger : d₁.logger = rs.foldl Logger.record d.logger

lemma Logs.refl (d : Desk) : d.Logs d [] :=
  ⟨(List.append_nil _).symm, rfl⟩

lemma Logs.trans (h : d.Logs d₁ rs) (k : d₁.Logs d₂ qs) : d.Logs d₂ (rs ++ qs) := by
  constructor
  · rw [k.recorded, h.recorded, List.append_assoc]
  · rw [k.logger, h.logger, List.foldl_append]

lemma logs_audit (d : Desk) (make : Stamp → AuditRecord) :
    d.Logs (d.audit make) [make ⟨.ofNat d.issued, d.wallClock⟩] :=
  ⟨by simp [recorded, audit, events, DeskEvent.record?], rfl⟩

lemma logs_note (d : Desk) {e : DeskEvent} (h : e.record? = none) : d.Logs (d.note e) [] :=
  ⟨by simp [recorded, note, events, h], rfl⟩

def Incidental (d d₁ : Desk) : Prop :=
  ∃ rs, d.Logs d₁ rs ∧ ∀ r ∈ rs, r.event.isIncidental = true

lemma Incidental.of_same (hpast : d₁.past = d.past) (hlogger : d₁.logger = d.logger) :
    d.Incidental d₁ :=
  ⟨[], ⟨by simp [recorded, events, hpast], hlogger⟩, by simp⟩

lemma Incidental.refl (d : Desk) : d.Incidental d :=
  .of_same rfl rfl

lemma Incidental.trans (h : d.Incidental d₁) (k : d₁.Incidental d₂) : d.Incidental d₂ := by
  obtain ⟨rs, hrs, hr⟩ := h
  obtain ⟨qs, hqs, hq⟩ := k
  refine ⟨rs ++ qs, hrs.trans hqs, fun r hm => ?_⟩
  exact (List.mem_append.1 hm).elim (hr r) (hq r)

lemma incidental_audit (d : Desk) {make : Stamp → AuditRecord}
    (h : ∀ s, (make s).event.isIncidental = true) : d.Incidental (d.audit make) :=
  ⟨_, d.logs_audit make, List.forall_mem_singleton.2 (h _)⟩

lemma incidental_note (d : Desk) {e : DeskEvent} (h : e.record? = none) : d.Incidental (d.note e) :=
  ⟨[], d.logs_note h, by simp⟩

lemma incidental_issue (d : Desk) : d.Incidental d.issue.2 :=
  .of_same rfl rfl

lemma incidental_readLine (d : Desk) : d.Incidental d.readLine.2 :=
  ⟨[], ⟨by simp [readLine, recorded, note, events, DeskEvent.record?], rfl⟩, by simp⟩

end Desk

lemma Logger.foldl_record {l : Logger} (henabled : l.enabled = true) (hinfo : l.minSeverity = .info)
    (rs : List AuditRecord) :
    (rs.foldl record l).enabled = true ∧ (rs.foldl record l).minSeverity = .info ∧
      (rs.foldl record l).actor = l.actor ∧ (rs.foldl record l).sinks =
        l.sinks.map (·.fed ((rs.map l.attributed).map AuditRecord.line)) := by
  induction rs using List.reverseRecOn with
  | nil => exact ⟨henabled, hinfo, rfl, (List.map_id _).symm⟩
  | append_singleton rs r ih =>
    obtain ⟨hon, hmin, hactor, hsinks⟩ := ih
    have hattributed : (rs.foldl record l).attributed r = l.attributed r := by
      rw [attributed, attributed, hactor]
    have haccepted : (rs.foldl record l).minSeverity.rank ≤ r.severity.rank := hmin ▸ Nat.zero_le _
    rw [List.foldl_concat, record_of_accepted hon haccepted]
    refine ⟨hon, hmin, hactor, ?_⟩
    simp only [hsinks, hattributed, List.map_append, List.map_map]
    exact List.map_congr_left fun s _ => (s.fed_concat _ _).symm

namespace ConsentManager

variable {m : ConsentManager} {d : Desk}

lemma incidental_grant (m : ConsentManager) (d : Desk) (key : String) (source : ConsentSource)
    (reason : String) (sessionScoped : Bool) :
    d.Incidental (m.grant d key source reason sessionScoped).2 :=
  ((d.incidental_audit fun _ => rfl).trans (Desk.incidental_audit _ fun _ => rfl)).trans
    (Desk.incidental_note _ rfl)

lemma incidental_refuse (m : ConsentManager) (d : Desk) (key reason : String) (remember : Bool) :
    d.Incidental (m.refuse d key reason remember).2 := by
  unfold refuse
  dsimp only
  exact (d.incidental_audit fun _ => rfl).trans (Desk.incidental_audit _ fun _ => rfl)

lemma incidental_act (m : ConsentManager) (d : Desk) (key : String) (o : ReadOutcome) :
    d.Incidental (m.act d key o).2.2 := by
  cases o with
  | line text =>
    simp only [act]
    split
    · exact m.incidental_grant d key _ _ _
    · exact m.incidental_refuse d key _ _
  | timedOut => exact (d.incidental_note rfl).trans (m.incidental_refuse _ key _ _)
  | closed => exact m.incidental_refuse d key _ _
  | failed reason => exact m.incidental_refuse d key _ _

lemma incidental_ask (m : ConsentManager) (d : Desk) (key : String) :
    d.Incidental (m.ask d key).2.2 := by
  have hwarn : d.Incidental (if m.config.showWarnings then
      d.write (SecurityWarning.render (SecurityWarning.forHost key)) else d) := by
    split
    · exact d.incidental_note rfl
    · exact .refl d
  have hquestion := hwarn.trans
    (Desk.incidental_note _ (e := .wrote (question key m.config.confirmationTimeout)) rfl)
  exact (hquestion.trans (Desk.incidental_readLine _)).trans (m.incidental_act _ key _)

lemma incidental_decideAnew (m : ConsentManager) (d : Desk) (key : String) :
    d.Incidental (m.decideAnew d key).2.2 := by
  unfold decideAnew
  split
  · exact m.incidental_grant d key _ _ _
  · split
    · exact m.incidental_ask d key
    · exact m.incidental_grant d key _ _ _

lemma incidental_confirm (m : ConsentManager) (d : Desk) (host : String) :
    d.Incidental (m.confirm d host).2.2 := by
  unfold confirm
  dsimp only
  split
  · exact .refl d
  · split
    · dsimp only
      exact d.incidental_audit fun _ => rfl
    case h_2 m' _ => exact m'.incidental_decideAnew d _

lemma incidental_revoke (m : ConsentManager) (d : Desk) (host : String) :
    d.Incidental (m.revoke d host).2.2 := by
  unfold revoke
  dsimp only
  split
  · dsimp only
    exact d.incidental_audit fun _ => rfl
  · exact .refl d

end ConsentManager

/-- The hosts that are trusted, and the name of the mode in force. -/
structure Posture where
  trusted : NameSet
  mode : String
deriving DecidableEq

namespace Posture

variable {p q : Posture} {rs qs : List AuditRecord}

/-- The posture after a change that is on record. A host is added once, and removed only when it is
there; a strategy follows on one of the mode that the record names as the previous one. -/
def after? (p : Posture) (r : AuditRecord) : Option Posture :=
  match r.event with
  | .trustChanged =>
    match r.detail? "change", p.trusted.contains r.host with
    | some "added", false => some { p with trusted := p.trusted.add r.host }
    | some "removed", true => some { p with trusted := p.trusted.erase r.host }
    | _, _ => none
  | .strategyChanged =>
    if r.detail? "previous" = some p.mode then r.strategy.map ({ p with mode := · }) else none
  | _ => some p

def replay? (p : Posture) (rs : List AuditRecord) : Option Posture :=
  rs.foldlM after? p

lemma replay?_append (h : p.replay? rs = some q) : p.replay? (rs ++ qs) = q.replay? qs := by
  rw [replay?, List.foldlM_append]
  exact congrArg (· >>= _) h

lemma replay?_of_incidental (h : ∀ r ∈ rs, r.event.isIncidental = true) :
    p.replay? rs = some p := by
  induction rs with
  | nil => rfl
  | cons r rs ih =>
    rw [List.forall_mem_cons] at h
    have hr : p.after? r = some p := by
      unfold after?
      split <;> simp_all [EventType.isIncidental]
    rw [replay?, List.foldlM_cons, hr]
    exact ih h.2

variable {r : AuditRecord}

lemma after?_added (hevent : r.event = .trustChanged) (hchange : r.detail? "change" = some "added")
    (habsent : p.trusted.contains r.host = false) :
    p.after? r = some { p with trusted := p.trusted.add r.host } := by
  simp only [after?, hevent, hchange, habsent]

lemma after?_removed (hevent : r.event = .trustChanged)
    (hchange : r.detail? "change" = some "removed") (hpresent : p.trusted.contains r.host = true) :
    p.after? r = some { p with trusted := p.trusted.erase r.host } := by
  simp only [after?, hevent, hchange, hpresent]

lemma after?_strategyChanged {mode : String} (hevent : r.event = .strategyChanged)
    (hprevious : r.detail? "previous" = some p.mode) (hmode : r.strategy = some mode) :
    p.after? r = some { p with mode } := by
  simp only [after?, hevent, hprevious, hmode, if_true, Option.map_some]

lemma replay?_attributed (l : Logger) (p : Posture) (rs : List AuditRecord) :
    p.replay? (rs.map l.attributed) = p.replay? rs := by
  rw [replay?, List.foldlM_map]
  rfl

end Posture

namespace Engine

variable {e e₁ e₂ : Engine} {s : Strategy}

def posture (e : Engine) : Posture :=
  ⟨e.trusted, e.strategy.mode.name⟩

/-- What was put on record leads from the posture of one engine to that of the other. -/
def Explained (e e₁ : Engine) : Prop :=
  ∃ rs, e.desk.Logs e₁.desk rs ∧ e.posture.replay? rs = some e₁.posture

lemma Explained.refl (e : Engine) : e.Explained e :=
  ⟨[], .refl _, rfl⟩

lemma Explained.trans (h : e.Explained e₁) (k : e₁.Explained e₂) : e.Explained e₂ := by
  obtain ⟨rs, hrs, hr⟩ := h
  obtain ⟨qs, hqs, hq⟩ := k
  exact ⟨rs ++ qs, hrs.trans hqs, (Posture.replay?_append hr).trans hq⟩

lemma explained_of_incidental (h : e.desk.Incidental e₁.desk) (hsame : e₁.posture = e.posture) :
    e.Explained e₁ := by
  obtain ⟨rs, hrs, hr⟩ := h
  exact ⟨rs, hrs, hsame ▸ Posture.replay?_of_incidental hr⟩

lemma explained_of_audit {make : Stamp → AuditRecord} (hdesk : e₁.desk = e.desk)
    (h : ∀ stamp, e.posture.after? (make stamp) = some e₁.posture) : e.Explained (e₁.audit make) := by
  have hsame : e.desk.Logs e₁.desk [] := hdesk ▸ .refl e.desk
  refine ⟨_, hsame.trans (e₁.desk.logs_audit make), ?_⟩
  rw [List.nil_append, Posture.replay?, List.foldlM_cons, h]
  rfl

lemma explained_setStrategy (h : e.setStrategy s = .ok e₁) : e.Explained e₁ := by
  unfold setStrategy at h
  split at h
  · cases h
  · obtain rfl := Except.ok.inj h
    refine explained_of_audit rfl fun stamp => Posture.after?_strategyChanged rfl ?_ rfl
    have hother : "previous" ≠ "memory_cleared" := by decide
    exact (Table.get?_insert_of_ne _ hother _).trans (Table.get?_insert_self ..)

lemma explained_addTrustedHost {host : String} (h : e.addTrustedHost host = .ok e₁) :
    e.Explained e₁ := by
  unfold addTrustedHost at h
  dsimp only at h
  split at h
  · cases h
  · split at h
    · obtain rfl := Except.ok.inj h
      exact .refl e
    case isFalse habsent =>
      obtain rfl := Except.ok.inj h
      exact explained_of_audit rfl fun stamp =>
        Posture.after?_added rfl (Table.get?_insert_self ..) (Bool.not_eq_true _ ▸ habsent)

lemma explained_removeTrustedHost (e : Engine) (host : String) :
    e.Explained (e.removeTrustedHost host).2 := by
  unfold removeTrustedHost
  dsimp only
  split
  case isTrue hpresent =>
    exact explained_of_audit rfl fun stamp =>
      Posture.after?_removed rfl (Table.get?_insert_self ..) hpresent
  · exact .refl e

lemma explained_next {r : Except EngineError Engine} (h : ∀ e₁, r = .ok e₁ → e.Explained e₁) :
    e.Explained (e.next r) := by
  cases r with
  | ok e₁ => exact h e₁ rfl
  | error err => exact .refl e

lemma explained_actOnAnswer (e : Engine) (a : PreparedAnswer) : e.Explained (e.actOnAnswer a) := by
  have hforget : ∀ e₁ : Engine, e₁.Explained (if a.forget then e₁.forgetDecisions else e₁) := by
    intro e₁
    split
    · exact explained_of_incidental (.refl _) rfl
    · exact .refl e₁
  unfold actOnAnswer
  cases a.swap with
  | none => exact hforget e
  | some s =>
    have hswap : e.Explained (e.next (e.setStrategy s)) :=
      explained_next fun _ => explained_setStrategy
    exact hswap.trans (hforget _)

lemma explained_prompt (e : Engine) (failure : ClassifiedFailure) (seconds : Nat) :
    e.Explained (e.prompt failure seconds).2 := by
  unfold prompt
  dsimp only
  split
  · exact .refl e
  · refine explained_of_incidental ?_ rfl
    have hread := (e.desk.incidental_note (e := .wrote (Prompter.question failure seconds)) rfl).trans
      (Desk.incidental_readLine _)
    dsimp only
    split
    · exact hread.trans (Desk.incidental_note _ rfl)
    · exact hread
  · have hasked : e.Explained
        { e with desk := e.desk.note (.asked failure.host failure.kind seconds) } :=
      explained_of_incidental (e.desk.incidental_note rfl) rfl
    split
    · exact hasked
    case h_2 a rest _ =>
      refine hasked.trans (Explained.trans ?_ (explained_actOnAnswer _ a))
      exact explained_of_incidental (.refl _) rfl

lemma explained_ask (e : Engine) (s : Strategy) (failure : ClassifiedFailure) :
    e.Explained (e.ask s failure).2 := by
  unfold ask
  split
  · exact e.explained_prompt _ _
  · exact .refl e

lemma explained_audit (e : Engine) {make : Stamp → AuditRecord}
    (h : ∀ stamp, (make stamp).event.isIncidental = true) : e.Explained (e.audit make) :=
  explained_of_incidental (e.desk.incidental_audit h) rfl

lemma explained_decide {failure : ClassifiedFailure} {d : Decision}
    (h : e.decide failure = .ok (d, e₁)) : e.Explained e₁ := by
  rcases (decide_eq_ok h).2 with ⟨-, -, rfl⟩ | ⟨-, hfresh⟩
  · exact e.explained_audit fun _ => rfl
  · obtain ⟨e₂, hasked, rfl⟩ := decideFresh_eq hfresh
    have he₂ : e.Explained e₂ := by
      rcases hasked with ⟨-, rfl, -⟩ | ⟨-, rfl, -⟩
      · exact .refl e₂
      · exact e.explained_ask _ _
    refine (he₂.trans ?_).trans (explained_audit _ fun _ => rfl)
    exact explained_of_incidental (.refl _) rfl

lemma explained_confirmInsecure (e : Engine) (host : String) :
    e.Explained (e.confirmInsecure host).2 := by
  have h := e.consents.incidental_confirm e.desk host
  unfold confirmInsecure
  generalize e.consents.confirm e.desk host = r at h ⊢
  exact explained_of_incidental h rfl

lemma explained_revokeConsent (e : Engine) (host : String) :
    e.Explained (e.revokeConsent host).2 := by
  have h := e.consents.incidental_revoke e.desk host
  unfold revokeConsent
  generalize e.consents.revoke e.desk host = r at h ⊢
  exact explained_of_incidental h rfl

lemma explained_probe (e : Engine) (host : String) (t : Transport) :
    e.Explained (e.probe host t).2 :=
  explained_of_incidental (e.desk.incidental_note rfl) rfl

lemma explained_auditSucceeded (e : Engine) (host : String) (step : EscalationStep) (id : String) :
    e.Explained (e.auditSucceeded host step id) := by
  have hattempt := e.explained_audit fun stamp =>
    congrArg _ (AuditRecord.fallbackAttempt_reports stamp host step id none).event
  have hsuccess := hattempt.trans (explained_audit _ fun stamp =>
    congrArg _ (AuditRecord.fallbackSuccess_reports stamp host step id).event)
  unfold auditSucceeded
  dsimp only
  split
  · refine hsuccess.trans (explained_audit _ ?_)
    exact fun _ => rfl
  · exact hsuccess

lemma explained_attempt (e : Engine) (host : String) (step : EscalationStep) :
    e.Explained (e.attempt host step).2 := by
  have hissue : e.Explained { e with desk := e.desk.issue.2 } :=
    explained_of_incidental e.desk.incidental_issue rfl
  have hprobe := hissue.trans (explained_probe _ host step.transport)
  unfold attempt
  dsimp only
  split
  · exact hprobe.trans (explained_auditSucceeded _ host step _)
  case h_2 err _ =>
    exact hprobe.trans (explained_audit _ fun stamp =>
      congrArg _ (AuditRecord.fallbackAttempt_reports stamp host step _ (some err.message)).event)

lemma explained_runStep (e : Engine) (host : String) (failure : ClassifiedFailure)
    (policy : Decision) (s : Strategy) (used : Nat) (step : EscalationStep) :
    e.Explained (e.runStep host failure policy s used step).2 := by
  have hconfirm := e.explained_confirmInsecure host
  rcases e.runStep_eq host failure policy s used step with
    ⟨_, -, h⟩ | ⟨-, ⟨-, e₁, hc, h⟩ | ⟨e₁, ⟨-, hc⟩ | ⟨-, rfl⟩, h⟩⟩
  · rw [h]
    exact .refl e
  · rw [h]
    rwa [hc] at hconfirm
  · rw [h]
    rw [hc] at hconfirm
    exact hconfirm.trans (e₁.explained_attempt host step)
  · rw [h]
    exact e₁.explained_attempt host step

lemma explained_runSteps (e : Engine) (host : String) (failure : ClassifiedFailure)
    (policy : Decision) (s : Strategy) (used : Nat) (steps : List EscalationStep) :
    e.Explained (e.runSteps host failure policy s used steps).2 := by
  have hone : ∀ (e e₁ : Engine) used a, e.runStep host failure policy s used a.step = (a, e₁) →
      e.Explained e₁ := by
    intro e e₁ used a h
    simpa only [h] using e.explained_runStep host failure policy s used a.step
  refine runSteps_induction (motive := fun e _ _ r => e.Explained r.2) ?_ ?_ ?_ e used steps
  · exact fun e _ => .refl e
  · exact fun e used a _ e₁ h _ => hone e e₁ used a h
  · exact fun e used a _ e₁ _ h _ ih => (hone e e₁ used a h).trans ih

lemma explained_conclude (e : Engine) (host : String) (failure : ClassifiedFailure)
    (attempts : List EscalationAttempt) (recommendations : List String) :
    e.Explained (e.conclude host failure attempts recommendations).2 := by
  unfold conclude
  split
  · exact .refl e
  · exact e.explained_audit fun _ => rfl

lemma explained_handleFailure (e : Engine) (host : String) (failure : CertificateFailure) :
    e.Explained (e.handleFailure host failure).2 := by
  have hreported : e.Explained (e.reported host failure) := e.explained_audit fun _ => rfl
  rcases e.handleFailure_eq host failure with
    ⟨-, h⟩ | ⟨-, ⟨err, -, h⟩ | ⟨policy, e₁, hpolicy, h⟩⟩
  · rw [h]
    exact .refl e
  · rw [h]
    exact hreported
  · rw [h]
    have hdecided : e.Explained e₁ := hreported.trans (explained_decide hpolicy)
    exact (hdecided.trans (explained_runSteps _ _ _ _ _ _ _)).trans (explained_conclude _ _ _ _ _)

lemma explained_perform (e : Engine) (x : Call) : e.Explained (e.perform x) := by
  cases x with
  | decide failure =>
    cases h : e.decide failure with
    | error err =>
      rw [perform, h]
      exact .refl e
    | ok r =>
      rw [perform, h]
      exact explained_decide h
  | setStrategy s =>
    rw [perform]
    exact explained_next fun _ => explained_setStrategy
  | forgetDecisions => exact explained_of_incidental (.refl _) rfl
  | addTrustedHost host =>
    rw [perform]
    exact explained_next fun _ => explained_addTrustedHost
  | removeTrustedHost host =>
    rw [perform]
    exact e.explained_removeTrustedHost host
  | confirmInsecure host => exact e.explained_confirmInsecure host
  | revokeConsent host => exact e.explained_revokeConsent host
  | handleFailure host failure => exact e.explained_handleFailure host failure
  | surround w => exact explained_of_incidental (.of_same rfl rfl) rfl

lemma explained_run (e : Engine) (calls : List Call) : e.Explained (e.run calls) := by
  induction calls using List.reverseRecOn with
  | nil => exact .refl e
  | append_singleton calls x ih =>
    rw [run_append, run_singleton]
    exact ih.trans (explained_perform _ x)

/-- What the sinks of a logger receive of an engine's life, replayed from its start, gives the hosts
that are trusted and the mode in force. -/
theorem audit_trail_accounts_for_posture {config : EngineConfig} {strategy : Strategy}
    {prompter : Prompter} {network : Network} {desk : Desk}
    (h : build config strategy prompter network desk = .ok e)
    (henabled : desk.logger.enabled = true) (hinfo : desk.logger.minSeverity = .info)
    (calls : List Call) :
    ∃ rs : List AuditRecord,
      (e.run calls).desk.recorded = desk.recorded ++ rs ∧
      (e.run calls).desk.logger.sinks = desk.logger.sinks.map
        (·.fed ((rs.map desk.logger.attributed).map AuditRecord.line)) ∧
      Posture.replay? ⟨.empty, strategy.mode.name⟩ (rs.map desk.logger.attributed) =
        some ⟨(e.run calls).trusted, (e.run calls).strategy.mode.name⟩ := by
  obtain ⟨rs, hlogs, hreplay⟩ := e.explained_run calls
  obtain rfl := eq_of_build h
  obtain ⟨-, -, -, hsinks⟩ := Logger.foldl_record henabled hinfo rs
  refine ⟨rs, hlogs.recorded, ?_, ?_⟩
  · rw [hlogs.logger]
    exact hsinks
  · rw [Posture.replay?_attributed]
    exact hreplay

theorem repeated_changes_are_recorded_once :
    let desk := { Desk.bare [] with logger := { (Desk.bare []).logger with sinks := [.memory []] } }
    let e := { bare .secure with desk }
    let calls : List Call := [.addTrustedHost "Registry.local.", .addTrustedHost "registry.local",
      .removeTrustedHost "other.local", .setStrategy { Strategy.secure with maxRetries := 99 },
      .setStrategy .permissive, .removeTrustedHost "REGISTRY.LOCAL"]
    build e.config e.strategy e.prompter e.network desk = .ok e ∧ desk.logger.enabled = true ∧
      desk.logger.minSeverity = .info ∧ ∃ rs : List AuditRecord, rs.length = 3 ∧
        (e.run calls).desk.logger.sinks = [.memory (rs.map AuditRecord.line)] ∧
        Posture.replay? ⟨.empty, "secure"⟩ rs = some ⟨.empty, "permissive"⟩ := by
  intro desk e calls
  have hbuild : build e.config e.strategy e.prompter e.network desk = .ok e := rfl
  obtain ⟨rs, hrecorded, hsinks, hreplay⟩ := audit_trail_accounts_for_posture hbuild rfl rfl calls
  have hlength : (e.run calls).desk.recorded.length = 3 := by decide +kernel
  have htrusted : (e.run calls).trusted = .empty := by decide +kernel
  have hmode : (e.run calls).strategy.mode = .permissive := by decide +kernel
  have hnone : desk.recorded = [] := rfl
  rw [hrecorded, hnone, List.nil_append] at hlength
  rw [htrusted, hmode] at hreplay
  refine ⟨hbuild, rfl, rfl, rs.map desk.logger.attributed, ?_, ?_, hreplay⟩
  · rw [List.length_map]
    exact hlength
  · rw [hsinks, List.map_singleton, Sink.fed_memory, List.nil_append]

end Engine

end TlsTrust
