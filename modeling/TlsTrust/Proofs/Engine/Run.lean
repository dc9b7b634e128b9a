import TlsTrust.Proofs.Engine.Escalation
import Mathlib.Data.List.Induction

/-! Runs of calls on an engine, along which only decisions that calls have taken are remembered. -/

namespace TlsTrust

namespace Engine

open DecisionMemory

variable {e e₀ e₁ : Engine} {failure : ClassifiedFailure} {d : Decision}

structure Surroundings where
  prompter : Prompter
  network : Network
  now : Instant
  wallClock : Instant
  input : List ReadOutcome
  interactive : Bool
  arrivals : List Instant := []

inductive Call where
  | decide (failure : ClassifiedFailure)
  | setStrategy (s : Strategy)
  | forgetDecisions
  | addTrustedHost (host : String)
  | removeTrustedHost (host : String)
  | confirmInsecure (host : String)
  | revokeConsent (host : String)
  | handleFailure (host : String) (failure : CertificateFailure)
  | surround (w : Surroundings)

def next (e : Engine) : Except EngineError Engine → Engine
  | .ok e₁ => e₁
  | .error _ => e

def perform (e : Engine) : Call → Engine
  | .decide failure => e.next ((e.decide failure).map Prod.snd)
  | .setStrategy s => e.next (e.setStrategy s)
  | .forgetDecisions => e.forgetDecisions
  | .addTrustedHost host => e.next (e.addTrustedHost host)
  | .removeTrustedHost host => (e.removeTrustedHost host).2
  | .confirmInsecure host => (e.confirmInsecure host).2
  | .revokeConsent host => (e.revokeConsent host).2
  | .handleFailure host failure => (e.handleFailure host failure).2
  | .surround w =>
    { e with
      prompter := w.prompter
      network := w.network
      desk := { e.desk with
        now := w.now
        wallClock := w.wallClock
        input := w.input
        arrivals := w.arrivals
        interactive := w.interactive } }

def run (e : Engine) (calls : List Call) : Engine :=
  calls.foldl perform e

@[simp] lemma run_nil (e : Engine) : e.run [] = e := rfl

@[simp] lemma run_append (e : Engine) (xs ys : List Call) : e.run (xs ++ ys) = (e.run xs).run ys := by
  simp [run]

@[simp] lemma run_singleton (e : Engine) (x : Call) : e.run [x] = e.perform x := rfl

lemma generation_lt_of_setStrategy (e : Engine) {s : Strategy} (hvalid : s.validate = .ok ())
    (hclears : s.retainMemory = false) :
    e.memory.generation < (e.next (e.setStrategy s)).memory.generation := by
  simp only [setStrategy, hvalid, hclears]
  exact Nat.lt_succ_self _

def question? (e : Engine) : Call → Option (Engine × ClassifiedFailure)
  | .decide failure => some (e, failure)
  | .handleFailure host failure =>
    some (e.reported host failure, e.classify failure (Host.key host))
  | _ => none

def decided? (e : Engine) (x : Call) : Option Decision :=
  match e.question? x with
  | some (e₀, failure) => match e₀.decide failure with
    | .ok (d, _) => some d
    | .error _ => none
  | none => none

lemma question?_escalated {x : Call} (h : e.question? x = some (e₀, failure)) : e.Escalated e₀ := by
  cases x with
  | decide f =>
    obtain ⟨rfl, rfl⟩ := Prod.mk.inj (Option.some.inj h)
    exact .refl e
  | handleFailure host f =>
    obtain ⟨rfl, rfl⟩ := Prod.mk.inj (Option.some.inj h)
    exact e.escalated_audit _
  | _ => cases h

lemma decided?_eq_some {x : Call} (h : e.decided? x = some d) :
    ∃ e₀ failure e₁, e.question? x = some (e₀, failure) ∧ e₀.decide failure = .ok (d, e₁) := by
  unfold decided? at h
  split at h
  case h_1 e₀ failure hq =>
    split at h
    case h_1 e₁ hd =>
      obtain rfl := Option.some.inj h
      exact ⟨e₀, failure, e₁, hq, hd⟩
    case h_2 => cases h
  case h_2 => cases h

lemma decided?_of_decide {x : Call} (hq : e.question? x = some (e₀, failure))
    (hd : e₀.decide failure = .ok (d, e₁)) : e.decided? x = some d := by
  simp only [decided?, hq, hd]

lemma escalated_of_decide {x : Call} (hq : e.question? x = some (e₀, failure))
    (hd : e₀.decide failure = .ok (d, e₁)) : e₁.Escalated (e.perform x) := by
  cases x with
  | decide f =>
    obtain ⟨rfl, rfl⟩ := Prod.mk.inj (Option.some.inj hq)
    rw [perform, hd]
    exact .refl e₁
  | handleFailure host f =>
    obtain ⟨rfl, rfl⟩ := Prod.mk.inj (Option.some.inj hq)
    have hne : Host.key host ≠ "" := by
      intro hkey
      refine absurd ?_ (decide_eq_ok hd).1
      rw [classify_host, hkey]
      decide
    rw [perform, handleFailure_of_policyFor hne hd]
    have hsteps : e₁.Escalated (e.escalate e₁ host f d).2 := e₁.escalated_runSteps _ _ _ _ _ _
    exact hsteps.trans (escalated_conclude _ _ _ _ _)
  | _ => cases hq

lemma perform_memory_of_decide {x : Call} (hq : e.question? x = some (e₀, failure))
    (hd : e₀.decide failure = .ok (d, e₁)) : (e.perform x).memory = e₁.memory :=
  (escalated_of_decide hq hd).memory

lemma addTrustedHost_memory {host : String} (h : e.addTrustedHost host = .ok e₁) :
    e₁.memory = e.memory := by
  unfold addTrustedHost at h
  dsimp only at h
  split at h
  · cases h
  · split at h <;> obtain rfl := Except.ok.inj h <;> rfl

def Call.Clears : Call → Prop
  | .forgetDecisions => True
  | .setStrategy s => s.validate = .ok () ∧ s.retainMemory = false
  | _ => False

lemma perform_decide_of_undecided {f : ClassifiedFailure} (h : e.decided? (.decide f) = none) :
    e.perform (.decide f) = e := by
  cases hd : e.decide f with
  | ok r => simp [decided?, question?, hd] at h
  | error err =>
    rw [perform, hd]
    rfl

lemma perform_handleFailure_of_undecided {host : String} {f : CertificateFailure}
    (h : e.decided? (.handleFailure host f) = none) :
    e.perform (.handleFailure host f) = e ∨ e.perform (.handleFailure host f) = e.reported host f := by
  rw [perform]
  rcases e.handleFailure_eq host f with ⟨-, hr⟩ | ⟨-, ⟨err, -, hr⟩ | ⟨policy, e₁, hok, -⟩⟩
  · exact .inl (by rw [hr])
  · exact .inr (by rw [hr])
  · rw [decided?_of_decide rfl hok] at h
    cases h

lemma memory_of_decided?_eq_none {x : Call} (h : e.decided? x = none) :
    (e.perform x).memory = e.memory ∨ x.Clears ∧ (e.perform x).memory = e.memory.invalidate := by
  cases x with
  | decide f =>
    rw [perform_decide_of_undecided h]
    exact .inl rfl
  | setStrategy s =>
    cases hs : e.setStrategy s with
    | ok e₁ =>
      obtain ⟨hvalid, make, rfl, -⟩ := setStrategy_eq_ok hs
      rw [perform, hs]
      change (if s.retainMemory then e.memory else e.memory.invalidate) = e.memory ∨
        _ ∧ (if s.retainMemory then e.memory else e.memory.invalidate) = e.memory.invalidate
      cases hretain : s.retainMemory with
      | true => exact .inl rfl
      | false => exact .inr ⟨⟨hvalid, hretain⟩, rfl⟩
    | error err =>
      rw [perform, hs]
      exact .inl rfl
  | forgetDecisions => exact .inr ⟨trivial, rfl⟩
  | addTrustedHost host =>
    cases ht : e.addTrustedHost host with
    | ok e₁ =>
      rw [perform, ht]
      exact .inl (addTrustedHost_memory ht)
    | error err =>
      rw [perform, ht]
      exact .inl rfl
  | removeTrustedHost host =>
    simp only [perform, removeTrustedHost]
    split <;> exact .inl rfl
  | confirmInsecure host =>
    rw [perform]
    exact .inl (e.escalated_confirmInsecure host).memory
  | revokeConsent host => exact .inl rfl
  | handleFailure host f =>
    rcases perform_handleFailure_of_undecided h with hsame | hsame <;> rw [hsame] <;> exact .inl rfl
  | surround w => exact .inl rfl

lemma perform_memory_of_decided?_eq_none {x : Call} (h : e.decided? x = none) :
    e.memory.Renewed (e.perform x).memory := by
  rcases memory_of_decided?_eq_none h with heq | ⟨-, heq⟩
  · exact .inl heq
  · rw [heq]
    exact renewed_invalidate _

lemma perform_memory (e : Engine) (x : Call) : e.memory.Renewed (e.perform x).memory ∨
    ∃ e₀ failure d e₁, e.question? x = some (e₀, failure) ∧ e₀.decide failure = .ok (d, e₁) ∧
      e₀.decideFresh e₀.strategy e₀.memory.generation (Host.key failure.host) failure = (d, e₁) ∧
        (e.perform x).memory =
          e.memory.insert e.memory.generation ⟨Host.key failure.host, failure.kind⟩ d := by
  cases hx : e.decided? x with
  | none => exact .inl (perform_memory_of_decided?_eq_none hx)
  | some d =>
    obtain ⟨e₀, failure, e₁, hq, hd⟩ := decided?_eq_some hx
    rw [perform_memory_of_decide hq hd, ← (question?_escalated hq).memory]
    rcases decide_memory hd with hm | ⟨hfresh, hm⟩
    · exact .inl hm
    · exact .inr ⟨e₀, failure, d, e₁, hq, hd, hfresh, hm⟩

lemma decide_sound {e₁ : Engine} (hmem : ∀ p ∈ e.memory.entries, p.2.Sound)
    (h : e.decide failure = .ok (d, e₁)) : d.Sound := by
  rcases (decide_eq_ok h).2 with ⟨-, hfind, -⟩ | ⟨-, h⟩
  · exact hmem _ (mem_entries_of_find? hfind)
  · obtain ⟨_, a, prompted, reason, source, -, ha, rfl, -⟩ := asked_of_decideFresh h
    exact decisionFor_sound _ _ _ _ _ _ ha

lemma perform_memory_sound (hmem : ∀ p ∈ e.memory.entries, p.2.Sound) (x : Call) :
    ∀ p ∈ (e.perform x).memory.entries, p.2.Sound := by
  intro p hp
  rcases e.perform_memory x with (heq | ⟨-, hnil⟩) | ⟨e₀, failure, d, e₁, hq, hd, -, hins⟩
  · rw [heq] at hp
    exact hmem p hp
  · simp [hnil] at hp
  · rw [hins] at hp
    rcases mem_entries_insert hp with ⟨rfl, -⟩ | hp
    · refine decide_sound ?_ hd
      rwa [(question?_escalated hq).memory]
    · exact hmem p hp

lemma run_memory_sound (hmem : ∀ p ∈ e.memory.entries, p.2.Sound) (calls : List Call) :
    ∀ p ∈ (e.run calls).memory.entries, p.2.Sound := by
  induction calls using List.reverseRecOn with
  | nil => exact hmem
  | append_singleton calls x ih =>
    rw [run_append, run_singleton]
    exact perform_memory_sound ih x

lemma eq_of_build {config : EngineConfig} {strategy : Strategy} {prompter : Prompter}
    {network : Network} {desk : Desk} (h : build config strategy prompter network desk = .ok e) :
    e = {
      config, strategy, prompter, network, desk
      consents := { config := config.consent, overrides := config.overrides } } := by
  unfold build at h
  split at h
  · cases h
  · split at h
    · cases h
    · exact (Except.ok.inj h).symm

lemma memory_of_build {config : EngineConfig} {strategy : Strategy} {prompter : Prompter}
    {network : Network} {desk : Desk} (h : build config strategy prompter network desk = .ok e) :
    e.memory = {} := by
  rw [eq_of_build h]

/-- Whatever is called on an engine, and whatever its operators answer, each decision is sound,
whether taken afresh or remembered. -/
theorem decisions_sound {config : EngineConfig} {strategy : Strategy} {prompter : Prompter}
    {network : Network} {desk : Desk} (h : build config strategy prompter network desk = .ok e)
    (calls : List Call) (x : Call) (hx : (e.run calls).decided? x = some d) : d.Sound := by
  obtain ⟨e₀, failure, e₁, hq, hd⟩ := decided?_eq_some hx
  refine decide_sound ?_ hd
  rw [(question?_escalated hq).memory]
  apply run_memory_sound
  simp [memory_of_build h]

def steered : Engine :=
  { bare .interactive with
    prompter := .prepared true
      [⟨some { Strategy.development with retainMemory := true }, false, .chosen .accept⟩] }

theorem steered_recalls_answer :
    build steered.config steered.strategy steered.prompter steered.network steered.desk =
        .ok steered ∧
      ∃ d, (steered.run [.handleFailure "dev.local" ⟨"self-signed certificate", none, []⟩]).decided?
          (.handleFailure "dev.local" ⟨"self-signed certificate", none, []⟩) = some d ∧
        d.source = .prompt ∧ d.Sound := by
  have hbuild : build steered.config steered.strategy steered.prompter steered.network
      steered.desk = .ok steered := rfl
  have hsome : ((steered.run [.handleFailure "dev.local"
      ⟨"self-signed certificate", none, []⟩]).decided?
      (.handleFailure "dev.local" ⟨"self-signed certificate", none, []⟩)).map Decision.source =
        some .prompt := by decide +kernel
  obtain ⟨d, hd, hsource⟩ := Option.map_eq_some_iff.1 hsome
  exact ⟨hbuild, d, hd, hsource, decisions_sound hbuild _ _ hd⟩

end Engine

end TlsTrust
