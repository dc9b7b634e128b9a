import TlsTrust.Engine.Decide
import TlsTrust.Proofs.Desk.Trail
import TlsTrust.Proofs.Engine.Memory

namespace TlsTrust

/-- What every decision of the engine satisfies: it is an answer, a denial carries no risk, only
what takes a certificate turns verification off, and the risk is that of the score. -/
structure Decision.Sound (d : Decision) : Prop where
  answers : d.action ≠ .prompt
  denial : d.action = .deny → d.risk = .none ∧ d.riskScore = 0 ∧ d.transport = .strict
  unverified : d.transport.verifies = false ↔ d.action = .accept ∨ d.action = .log
  graded : d.action ≠ .deny → 1 ≤ d.riskScore ∧ d.riskScore ≤ 10 ∧ d.risk = .ofScore d.riskScore
  notCritical : d.risk ≠ .critical

namespace Engine

open Trail DecisionMemory

variable {e e' : Engine} {s : Strategy} {host : String} {kind : FailureKind} {a : Action}
  {failure : ClassifiedFailure} {d : Decision} {generation : Nat}

def bare (strategy : Strategy) : Engine where
  config := { auditFolder := "audit" }
  strategy := strategy
  consents := { config := {}, overrides := {} }
  prompter := .nobody
  network := .scripted []
  desk := .bare []

lemma riskScore_bounds (kind : FailureKind) (prompted : Bool) (h : a ≠ .deny) :
    1 ≤ riskScore kind a prompted ∧ riskScore kind a prompted ≤ 10 := by
  have hbase : 1 ≤ kind.baseRisk ∧ kind.baseRisk ≤ 10 := by cases kind <;> decide
  have hhalf : 1 ≤ max (kind.baseRisk / 2) 1 ∧ max (kind.baseRisk / 2) 1 ≤ 10 := by omega
  cases a with
  | deny => exact absurd rfl h
  | retry => exact hhalf
  | prompt => exact hhalf
  | accept =>
    cases prompted with
    | true => exact hhalf
    | false => exact hbase
  | log =>
    cases prompted with
    | true => exact hhalf
    | false => exact hbase

lemma forAction_verifies (a : Action) : (Transport.forAction a).verifies = !a.accepts := by
  cases a <;> rfl

lemma decisionFor_sound (s : Strategy) (host : String) (kind : FailureKind) (prompted : Bool)
    (reason : String) (source : DecisionSource) (ha : a ≠ .prompt) :
    (decisionFor s host kind a prompted reason source).Sound := by
  let d := decisionFor s host kind a prompted reason source
  have haction : d.action = a := rfl
  have hscore : d.riskScore = if a = .deny then 0 else min (riskScore kind a prompted) 10 := rfl
  have hrisk : d.risk = .ofScore d.riskScore := rfl
  have htransport : d.transport = .forAction a := rfl
  refine ⟨ha, ?_, ?_, ?_, ?_⟩
  · rintro rfl
    exact ⟨rfl, rfl, rfl⟩
  · change d.transport.verifies = false ↔ d.action = .accept ∨ d.action = .log
    rw [htransport, haction, forAction_verifies]
    cases a <;> decide
  · intro (hd : a ≠ .deny)
    have hb := riskScore_bounds kind prompted hd
    change 1 ≤ d.riskScore ∧ d.riskScore ≤ 10 ∧ d.risk = .ofScore d.riskScore
    rw [hrisk, hscore, if_neg hd]
    exact ⟨by omega, by omega, rfl⟩
  · exact Risk.ofScore_ne_critical _

lemma ofAnswer_ne_prompt (kind : FailureKind) (answer : Except PromptError Action) :
    (ofAnswer kind answer).1 ≠ .prompt := by
  cases answer with
  | error err => exact Action.noConfusion
  | ok a => cases a <;> exact Action.noConfusion

lemma audit_trail (e : Engine) (make : Stamp → AuditRecord) :
    e.desk.Extends (e.audit make).desk [.audited (make ⟨.ofNat e.desk.issued, e.desk.wallClock⟩)] :=
  e.desk.audit_extends make

lemma setStrategy_eq_ok (h : e.setStrategy s = .ok e') : s.validate = .ok () ∧
    ∃ make, e' = ({ e with
        strategy := s
        memory := if s.retainMemory then e.memory else e.memory.invalidate }).audit make ∧
      ∀ stamp, (make stamp).event = .strategyChanged := by
  unfold setStrategy at h
  split at h
  · cases h
  case h_2 hv =>
    obtain rfl := Except.ok.inj h
    exact ⟨hv, _, rfl, fun _ => rfl⟩

/-- What asking an operator leaves of an engine: its memory may be cleared and its strategy replaced,
which is all that is put on record. -/
structure Asked (e e' : Engine) : Prop where
  config : e'.config = e.config
  trusted : e'.trusted = e.trusted
  consents : e'.consents = e.consents
  network : e'.network = e.network
  memory : e.memory.Renewed e'.memory
  trail : ∃ es, e.desk.Extends e'.desk es ∧ OnlySwaps es ∧
    (visible es = [] → e'.strategy = e.strategy)

lemma Asked.refl (e : Engine) : e.Asked e :=
  ⟨rfl, rfl, rfl, rfl, .refl _, [], .refl _, .of_visible rfl, fun _ => rfl⟩

lemma Asked.trans {e₁ e₂ : Engine} (h : e.Asked e₁) (k : e₁.Asked e₂) : e.Asked e₂ := by
  obtain ⟨es, he, hes, hsame⟩ := h.trail
  obtain ⟨fs, hf, hfs, hsame'⟩ := k.trail
  refine ⟨k.config.trans h.config, k.trusted.trans h.trusted, k.consents.trans h.consents,
    k.network.trans h.network, h.memory.trans k.memory, es ++ fs, he.trans hf, hes.append hfs, ?_⟩
  intro hnil
  rw [visible_append, List.append_eq_nil_iff] at hnil
  exact (hsame' hnil.2).trans (hsame hnil.1)

lemma asked_setStrategy (h : e.setStrategy s = .ok e') : e.Asked e' := by
  obtain ⟨-, make, rfl, hmake⟩ := setStrategy_eq_ok h
  refine ⟨rfl, rfl, rfl, rfl, ?_, _, e.desk.audit_extends make, ?_, ?_⟩
  · change e.memory.Renewed (if s.retainMemory then e.memory else e.memory.invalidate)
    split
    · exact .refl _
    · exact renewed_invalidate _
  · simp [OnlySwaps, hmake]
  · simp

lemma asked_actOnAnswer (e : Engine) (a : PreparedAnswer) : e.Asked (e.actOnAnswer a) := by
  have hforget : ∀ e₁ : Engine, e₁.Asked (if a.forget then e₁.forgetDecisions else e₁) := by
    intro e₁
    split
    · exact ⟨rfl, rfl, rfl, rfl, renewed_invalidate _, [], .refl _, .of_visible rfl, fun _ => rfl⟩
    · exact .refl e₁
  unfold actOnAnswer
  cases a.swap with
  | none => exact hforget e
  | some s =>
    cases hs : e.setStrategy s with
    | error err => simpa only [hs] using hforget e
    | ok e₁ => simpa only [hs] using (asked_setStrategy hs).trans (hforget e₁)

lemma asked_prompt (e : Engine) (failure : ClassifiedFailure) (seconds : Nat) :
    e.Asked (e.prompt failure seconds).2 := by
  unfold prompt
  dsimp only
  split
  case h_1 => exact .refl e
  case h_2 =>
    have hw := e.desk.write_extends (Prompter.question failure seconds)
    have hr := (e.desk.write (Prompter.question failure seconds)).readLine_extends
    refine ⟨rfl, rfl, rfl, rfl, .refl _, ?_⟩
    dsimp only
    split
    · exact ⟨_, (hw.trans hr).trans (Desk.write_extends _ _), .of_visible rfl, fun _ => rfl⟩
    · exact ⟨_, hw.trans hr, .of_visible rfl, fun _ => rfl⟩
  case h_3 available answers _ =>
    have hnote : e.Asked { e with desk := e.desk.note (.asked failure.host failure.kind seconds) } :=
      ⟨rfl, rfl, rfl, rfl, .refl _, _, e.desk.note_extends _, .of_visible rfl, fun _ => rfl⟩
    split
    · exact hnote
    case h_2 a rest _ =>
      refine hnote.trans (Asked.trans ?_ (asked_actOnAnswer _ a))
      exact ⟨rfl, rfl, rfl, rfl, .refl _, [], .refl _, .of_visible rfl, fun _ => rfl⟩

lemma asked_ask (e : Engine) (s : Strategy) (failure : ClassifiedFailure) :
    e.Asked (e.ask s failure).2 := by
  unfold ask
  split
  · exact e.asked_prompt _ _
  · exact .refl e

lemma ask_ne_prompt (e : Engine) (s : Strategy) (failure : ClassifiedFailure) :
    (e.ask s failure).1.1 ≠ .prompt := by
  unfold ask
  split
  · exact ofAnswer_ne_prompt _ _
  · exact Action.noConfusion

@[simp] lemma cacheHitRecord_event (s : Strategy) (host : String) (kind : FailureKind)
    (d : Decision) (stamp : Stamp) :
    (cacheHitRecord s host kind d stamp).event = .decisionCacheHit := rfl

@[simp] lemma decisionRecord_event (s : Strategy) (host : String) (kind : FailureKind)
    (d : Decision) (stamp : Stamp) :
    (decisionRecord s host kind d stamp).event = .securityDecision := rfl

lemma decideFresh_eq (h : e.decideFresh s generation host failure = (d, e')) :
    ∃ e₁,
      ((resolve s (e.isTrustedHost host) host failure.kind).action ≠ .prompt ∧ e₁ = e ∧
          d = decisionFor s host failure.kind (resolve s (e.isTrustedHost host) host failure.kind).action
            false (resolve s (e.isTrustedHost host) host failure.kind).reason
            (resolve s (e.isTrustedHost host) host failure.kind).source ∨
        (resolve s (e.isTrustedHost host) host failure.kind).action = .prompt ∧
          e₁ = (e.ask s failure).2 ∧
          d = decisionFor s host failure.kind (e.ask s failure).1.1 true (e.ask s failure).1.2
            .prompt) ∧
      e' = ({ e₁ with
        memory := if s.rememberDecisions then e₁.memory.insert generation ⟨host, failure.kind⟩ d
          else e₁.memory }).audit (decisionRecord s host failure.kind d) := by
  unfold decideFresh at h
  dsimp only at h
  by_cases hp : (resolve s (e.isTrustedHost host) host failure.kind).action = .prompt
  · rw [if_pos hp] at h
    obtain ⟨rfl, rfl⟩ := Prod.mk.inj h
    refine ⟨(e.ask s failure).2, .inr ⟨hp, rfl, rfl⟩, ?_⟩
    congr 1
    split <;> rfl
  · rw [if_neg hp] at h
    obtain ⟨rfl, rfl⟩ := Prod.mk.inj h
    refine ⟨e, .inl ⟨hp, rfl, rfl⟩, ?_⟩
    congr 1
    split <;> rfl

lemma decide_eq_ok (h : e.decide failure = .ok (d, e')) : Host.key failure.host ≠ "" ∧
    (e.strategy.rememberDecisions = true ∧
        e.memory.find? ⟨Host.key failure.host, failure.kind⟩ = some d ∧
        e' = e.audit (cacheHitRecord e.strategy (Host.key failure.host) failure.kind d) ∨
      e.recalled? e.strategy e.memory.generation ⟨Host.key failure.host, failure.kind⟩ = none ∧
        e.decideFresh e.strategy e.memory.generation (Host.key failure.host) failure = (d, e')) := by
  unfold decide snapshot at h
  dsimp only at h
  split at h
  · cases h
  case isFalse hkey =>
    refine ⟨by simpa using hkey, ?_⟩
    split at h
    case h_1 d' hd =>
      left
      obtain ⟨rfl, rfl⟩ := Prod.mk.inj (Except.ok.inj h)
      simp only [recalled?, DecisionMemory.get?, ↓reduceIte, Option.ite_none_right_eq_some] at hd
      exact ⟨hd.1, hd.2, rfl⟩
    case h_2 hd => exact .inr ⟨hd, Except.ok.inj h⟩

lemma exists_decide (e : Engine) (h : Host.key failure.host ≠ "") :
    ∃ d e₁, e.decide failure = .ok (d, e₁) := by
  have hempty : (Host.key failure.host).isEmpty = false := by simpa using h
  unfold decide snapshot
  simp only [hempty]
  cases e.recalled? e.strategy e.memory.generation ⟨Host.key failure.host, failure.kind⟩ with
  | some d => exact ⟨_, _, rfl⟩
  | none => exact ⟨_, _, rfl⟩

lemma asked_of_decideFresh (h : e.decideFresh s generation host failure = (d, e')) :
    ∃ e₁ a prompted reason source, e.Asked e₁ ∧ a ≠ .prompt ∧
      d = decisionFor s host failure.kind a prompted reason source ∧
      (source = .trustedHost → e.isTrustedHost host = true ∨ s.isInsecureHost host = true) ∧
      e' = ({ e₁ with
        memory := if s.rememberDecisions then e₁.memory.insert generation ⟨host, failure.kind⟩ d
          else e₁.memory }).audit (decisionRecord s host failure.kind d) := by
  obtain ⟨e₁, ⟨ha, rfl, hd⟩ | ⟨-, rfl, hd⟩, he'⟩ := decideFresh_eq h
  · refine ⟨e₁, _, _, _, _, .refl e₁, ha, hd, ?_, he'⟩
    intro hs
    unfold resolve at hs
    split at hs
    · cases hs
    · split at hs
      case isTrue ht => simpa using ht
      case isFalse => split at hs <;> cases hs
  · exact ⟨_, _, _, _, _, e.asked_ask s failure, e.ask_ne_prompt s failure, hd, by simp, he'⟩

structure Decided (e e' : Engine) : Prop where
  config : e'.config = e.config
  trusted : e'.trusted = e.trusted
  consents : e'.consents = e.consents
  trail : ∃ es, e.desk.Extends e'.desk es ∧ Quiet es

/-- The record of a decision, taken afresh or from the memory, on a kind of failure at a host. -/
structure RecordsDecision (host : String) (kind : FailureKind) (d : Decision) (r : AuditRecord) :
    Prop where
  event : r.event = .securityDecision ∨ r.event = .decisionCacheHit
  host : r.host = host
  kind : r.errorKind = some kind
  risk : r.risk = d.risk
  allowed : r.allowed = d.isAllowed
  decision : r.detail? "decision" = some d.action.name

lemma cacheHitRecord_records (s : Strategy) (host : String) (kind : FailureKind) (d : Decision)
    (stamp : Stamp) : RecordsDecision host kind d (cacheHitRecord s host kind d stamp) :=
  ⟨.inr rfl, rfl, rfl, rfl, rfl, Table.get?_insert_self ..⟩

lemma decisionRecord_records (s : Strategy) (host : String) (kind : FailureKind) (d : Decision)
    (stamp : Stamp) : RecordsDecision host kind d (decisionRecord s host kind d stamp) := by
  refine ⟨.inl rfl, rfl, rfl, rfl, rfl, ?_⟩
  have hsource : "decision" ≠ "source" := by decide
  have hreason : "decision" ≠ "reason" := by decide
  exact (Table.get?_insert_of_ne _ hsource _).trans
    ((Table.get?_insert_of_ne _ hreason _).trans (Table.get?_insert_self ..))

lemma decide_trail (h : e.decide failure = .ok (d, e')) :
    ∃ es r, e.desk.Extends e'.desk (es ++ [.audited r]) ∧ OnlySwaps es ∧
      (visible es = [] → e'.strategy = e.strategy) ∧
        RecordsDecision (Host.key failure.host) failure.kind d r := by
  rcases (decide_eq_ok h).2 with ⟨-, -, rfl⟩ | ⟨-, h⟩
  · exact ⟨[], _, e.desk.audit_extends _, .of_visible rfl, fun _ => rfl, cacheHitRecord_records ..⟩
  · obtain ⟨e₁, a, prompted, reason, source, hask, -, -, -, rfl⟩ := asked_of_decideFresh h
    obtain ⟨es, he, hes, hsame⟩ := hask.trail
    exact ⟨es, _, he.trans (e₁.desk.audit_extends _), hes, hsame, decisionRecord_records ..⟩

lemma decide_decided (h : e.decide failure = .ok (d, e')) : e.Decided e' := by
  obtain ⟨es, r, he, hes, -, hr⟩ := decide_trail h
  have hquiet : Quiet (es ++ [.audited r]) :=
    hes.quiet.append (.audited (by rcases hr.event with h | h <;> simp [h]))
  rcases (decide_eq_ok h).2 with ⟨-, -, rfl⟩ | ⟨-, h⟩
  · exact ⟨rfl, rfl, rfl, _, he, hquiet⟩
  · obtain ⟨e₁, a, prompted, reason, source, hask, -, -, -, rfl⟩ := asked_of_decideFresh h
    exact ⟨hask.config, hask.trusted, hask.consents, _, he, hquiet⟩

lemma decide_memory (h : e.decide failure = .ok (d, e')) : e.memory.Renewed e'.memory ∨
    e.decideFresh e.strategy e.memory.generation (Host.key failure.host) failure = (d, e') ∧
      e'.memory =
        e.memory.insert e.memory.generation ⟨Host.key failure.host, failure.kind⟩ d := by
  rcases (decide_eq_ok h).2 with ⟨-, -, rfl⟩ | ⟨-, h⟩
  · exact .inl (.refl _)
  · obtain ⟨e₁, a, prompted, reason, source, hask, -, -, -, he'⟩ := asked_of_decideFresh h
    have hm : e'.memory = if e.strategy.rememberDecisions then
        e₁.memory.insert e.memory.generation ⟨Host.key failure.host, failure.kind⟩ d
      else e₁.memory := by rw [he']; rfl
    split at hm
    · rcases hask.memory with heq | ⟨hlt, hnil⟩
      · exact .inr ⟨h, by rw [hm, heq]⟩
      · left
        rw [hm, DecisionMemory.insert, if_neg (Nat.ne_of_lt hlt)]
        exact hask.memory
    · exact .inl (hm ▸ hask.memory)

end Engine

end TlsTrust
