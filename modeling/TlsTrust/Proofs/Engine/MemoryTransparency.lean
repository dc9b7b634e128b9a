import TlsTrust.Proofs.Engine.TrustRevocation

/-!
Where nobody is asked and trust stays as it is, what is remembered is what the strategy in force
would decide afresh.
-/

namespace TlsTrust

def Strategy.remembering (s : Strategy) (b : Bool) : Strategy :=
  { s with rememberDecisions := b }

namespace Engine

open DecisionMemory

variable {e e₁ e₂ : Engine} {host : String} {kind : FailureKind} {failure : ClassifiedFailure}
  {a : Action} {source : DecisionSource} {reason : String} {d : Decision} {x : Call}
  {calls : List Call}

def Call.remembering (b : Bool) : Call → Call
  | .setStrategy s => .setStrategy (s.remembering b)
  | x => x

def Call.SetsUp : Call → Prop
  | .decide _ | .handleFailure _ _ => False
  | _ => True

/-- The hosts that are trusted stay the same, and a new strategy clears the memory. -/
def Call.KeepsTrust : Call → Prop
  | .decide _ | .forgetDecisions | .surround _ => True
  | .setStrategy s => s.retainMemory = false
  | _ => False

/-- What is to be done about a kind of failure at a host: the override of the host comes before trust
in it, then the rule of the kind, then the default of the mode. -/
inductive Resolves (e : Engine) (host : String) (kind : FailureKind) :
    Action → DecisionSource → String → Prop
  | hostOverride {a : Action} (hover : e.strategy.hostOverride host = some a) :
      Resolves e host kind a .hostOverride s!"host override for {host}"
  | trustedHost (hover : e.strategy.hostOverride host = none) (htrust : e.Trusts host) :
      Resolves e host kind .accept .trustedHost s!"{host} is trusted"
  | rule {a : Action} (hover : e.strategy.hostOverride host = none) (htrust : ¬ e.Trusts host)
      (hrule : e.strategy.rule kind = some a) :
      Resolves e host kind a .rule s!"rule for {kind.name}"
  | modeDefault (hover : e.strategy.hostOverride host = none) (htrust : ¬ e.Trusts host)
      (hrule : e.strategy.rule kind = none) :
      Resolves e host kind e.strategy.mode.defaultAction .modeDefault
        s!"{e.strategy.mode.name} mode default for {kind.name}"

def resolution (e : Engine) (key : MemoryKey) : Resolution :=
  resolve e.strategy (e.isTrustedHost key.host) key.host key.kind

lemma resolves_resolution (e : Engine) (key : MemoryKey) :
    e.Resolves key.host key.kind (e.resolution key).action (e.resolution key).source
      (e.resolution key).reason := by
  have htrusts : e.Trusts key.host ↔
      (e.isTrustedHost key.host || e.strategy.isInsecureHost key.host) = true := by
    simp [Trusts]
  unfold resolution resolve
  cases hover : e.strategy.hostOverride key.host with
  | some a => exact .hostOverride hover
  | none =>
    cases htrust : e.isTrustedHost key.host || e.strategy.isInsecureHost key.host with
    | true => exact .trustedHost hover (htrusts.2 htrust)
    | false =>
      have hno : ¬ e.Trusts key.host := by simp [htrusts, htrust]
      cases hrule : e.strategy.rule key.kind with
      | some a => exact .rule hover hno hrule
      | none => exact .modeDefault hover hno hrule

def fresh (e : Engine) (key : MemoryKey) : Decision :=
  decisionFor e.strategy key.host key.kind (e.resolution key).action false (e.resolution key).reason
    (e.resolution key).source

/-- The call has no decision to take on which the operator is to be asked. -/
def Unprompted (e : Engine) : Call → Prop
  | .decide failure => (e.resolution ⟨Host.key failure.host, failure.kind⟩).action ≠ .prompt
  | _ => True

instance (e : Engine) : (x : Call) → Decidable (e.Unprompted x)
  | .decide _ => inferInstanceAs (Decidable (Resolution.action _ ≠ .prompt))
  | .setStrategy _ | .forgetDecisions | .addTrustedHost _ | .removeTrustedHost _
  | .confirmInsecure _ | .revokeConsent _ | .handleFailure _ _ | .surround _ => isTrue trivial

def Unasked (e : Engine) : List Call → Prop
  | [] => True
  | x :: calls => e.Unprompted x ∧ (e.perform x).Unasked calls

instance decidableUnasked : (e : Engine) → (calls : List Call) → Decidable (e.Unasked calls)
  | _, [] => isTrue trivial
  | e, x :: calls =>
    have := decidableUnasked (e.perform x) calls
    inferInstanceAs (Decidable (e.Unprompted x ∧ (e.perform x).Unasked calls))

/-- Whatever is remembered would be decided again. -/
def Faithful (e : Engine) : Prop :=
  ∀ p ∈ e.memory.entries, p.2 = e.fresh p.1

lemma fresh_congr (hstrategy : e₁.strategy = e.strategy) (htrusted : e₁.trusted = e.trusted) :
    e₁.fresh = e.fresh := by
  funext key
  simp only [fresh, resolution, isTrustedHost, hstrategy, htrusted]

lemma Faithful.of_eq (hf : e.Faithful) (hstrategy : e₁.strategy = e.strategy)
    (htrusted : e₁.trusted = e.trusted) (hmem : ∀ p ∈ e₁.memory.entries, p ∈ e.memory.entries) :
    e₁.Faithful := by
  intro p hp
  rw [fresh_congr hstrategy htrusted]
  exact hf p (hmem p hp)

lemma faithful_of_nil (h : e.memory.entries = []) : e.Faithful := by
  simp [Faithful, h]

lemma Faithful.decide (hf : e.Faithful) (hu : e.Unprompted (.decide failure))
    (h : e.decide failure = .ok (d, e₁)) :
    d = e.fresh ⟨Host.key failure.host, failure.kind⟩ ∧ e₁.strategy = e.strategy ∧
      e₁.trusted = e.trusted ∧ e₁.Faithful := by
  rcases (decide_eq_ok h).2 with ⟨-, hfind, rfl⟩ | ⟨-, hfresh⟩
  · exact ⟨hf _ (mem_entries_of_find? hfind), rfl, rfl, hf.of_eq rfl rfl fun p hp => hp⟩
  · obtain ⟨e₀, ⟨-, rfl, hd⟩ | ⟨hprompt, -⟩, rfl⟩ := decideFresh_eq hfresh
    · refine ⟨hd, rfl, rfl, fun p hp => ?_⟩
      have hmem : p ∈ (if e₀.strategy.rememberDecisions then
          e₀.memory.insert e₀.memory.generation ⟨Host.key failure.host, failure.kind⟩ d
        else e₀.memory).entries := hp
      split at hmem
      · rcases mem_entries_insert hmem with ⟨rfl, -⟩ | hold
        · exact hd
        · exact hf p hold
      · exact hf p hmem
    · exact absurd hprompt hu

lemma Faithful.decided?_eq (hf : e.Faithful) (hu : e.Unprompted (.decide failure)) :
    e.decided? (.decide failure) = if Host.key failure.host = "" then none
      else some (e.fresh ⟨Host.key failure.host, failure.kind⟩) := by
  split
  case isTrue hempty => simp [decided?, question?, Engine.decide, hempty]
  case isFalse hkey =>
    obtain ⟨d, e₁, hd⟩ := e.exists_decide hkey
    rw [decided?_of_decide rfl hd, (hf.decide hu hd).1]

lemma Faithful.perform_decide (hf : e.Faithful) (hu : e.Unprompted (.decide failure)) :
    (e.perform (.decide failure)).strategy = e.strategy ∧
      (e.perform (.decide failure)).trusted = e.trusted ∧ (e.perform (.decide failure)).Faithful := by
  cases hd : e.decide failure with
  | ok r =>
    rw [perform, hd]
    exact (hf.decide hu hd).2
  | error err =>
    rw [perform, hd]
    exact ⟨rfl, rfl, hf⟩

lemma Faithful.perform (hf : e.Faithful) (hu : e.Unprompted x) (hx : x.KeepsTrust) :
    (e.perform x).Faithful := by
  cases x with
  | decide failure => exact (hf.perform_decide hu).2.2
  | setStrategy s =>
    rw [Engine.perform]
    cases hs : e.setStrategy s with
    -- A strategy that is turned down leaves the old one and its memory.
    | error err => exact hf
    | ok e₁ =>
      obtain ⟨-, make, rfl, -⟩ := setStrategy_eq_ok hs
      have hclears : s.retainMemory = false := hx
      apply faithful_of_nil
      change (if s.retainMemory then e.memory else e.memory.invalidate).entries = []
      rw [hclears]
      rfl
  | forgetDecisions => exact faithful_of_nil rfl
  | surround w => exact hf.of_eq rfl rfl fun p hp => hp
  | _ => cases hx

/-- Under like strategies the first engine remembers its decisions and the second does not, and they
trust the same hosts. -/
structure Twins (e₁ e₂ : Engine) : Prop where
  remembers : e₁.strategy = e₂.strategy.remembering true
  forgets : e₂.strategy = e₂.strategy.remembering false
  trusted : e₁.trusted = e₂.trusted

lemma Twins.resolution_eq (h : Twins e₁ e₂) : e₁.resolution = e₂.resolution := by
  funext key
  simp only [resolution, isTrustedHost, h.remembers, h.trusted]
  rfl

lemma Twins.fresh_eq (h : Twins e₁ e₂) (key : MemoryKey) :
    e₁.fresh key = { e₂.fresh key with remember := true } := by
  simp only [fresh, h.resolution_eq, h.remembers]
  rfl

lemma Twins.unprompted (h : Twins e₁ e₂) (hu : e₂.Unprompted x) : e₁.Unprompted x := by
  cases x with
  | decide failure =>
    simp only [Unprompted, h.resolution_eq]
    exact hu
  | _ => trivial

lemma Twins.of_escalated {e₁' e₂' : Engine} (h : Twins e₁ e₂) (h₁ : e₁.Escalated e₁')
    (h₂ : e₂.Escalated e₂') : Twins e₁' e₂' :=
  ⟨by rw [h₁.strategy, h₂.strategy, h.remembers], by rw [h₂.strategy, ← h.forgets],
    by rw [h₁.trusted, h₂.trusted, h.trusted]⟩

lemma Twins.setStrategy (h : Twins e₁ e₂) (s : Strategy) :
    Twins (e₁.perform (.setStrategy (s.remembering true)))
      (e₂.perform (.setStrategy (s.remembering false))) := by
  have hvalid : ∀ b, (s.remembering b).validate = s.validate := fun _ => rfl
  simp only [perform, Engine.setStrategy, hvalid]
  cases s.validate with
  | error err => exact h
  | ok u => exact ⟨rfl, rfl, h.trusted⟩

lemma Twins.addTrustedHost (h : Twins e₁ e₂) (host : String) :
    Twins (e₁.perform (.addTrustedHost host)) (e₂.perform (.addTrustedHost host)) := by
  simp only [perform, Engine.addTrustedHost, h.trusted]
  split
  · exact h
  · split
    · exact h
    · exact ⟨h.remembers, h.forgets, rfl⟩

lemma Twins.removeTrustedHost (h : Twins e₁ e₂) (host : String) :
    Twins (e₁.perform (.removeTrustedHost host)) (e₂.perform (.removeTrustedHost host)) := by
  simp only [perform, Engine.removeTrustedHost, h.trusted]
  split
  · exact ⟨h.remembers, h.forgets, rfl⟩
  · exact h

lemma Twins.decide (h : Twins e₁ e₂) (hf₁ : e₁.Faithful) (hf₂ : e₂.Faithful)
    (hu : e₂.Unprompted (.decide failure)) :
    Twins (e₁.perform (.decide failure)) (e₂.perform (.decide failure)) := by
  obtain ⟨hs₁, ht₁, -⟩ := hf₁.perform_decide (h.unprompted hu)
  obtain ⟨hs₂, ht₂, -⟩ := hf₂.perform_decide hu
  exact ⟨by rw [hs₁, hs₂, h.remembers], by rw [hs₂, ← h.forgets], by rw [ht₁, ht₂, h.trusted]⟩

structure Blank (e₁ e₂ : Engine) : Prop where
  twins : Twins e₁ e₂
  first : e₁.memory.entries = []
  second : e₂.memory.entries = []

lemma entries_of_setsUp (h : e.memory.entries = []) (hx : x.SetsUp) :
    (e.perform x).memory.entries = [] := by
  have hnone : e.decided? x = none := by
    cases x with
    | decide failure => cases hx
    | handleFailure host f => cases hx
    | _ => rfl
  rcases perform_memory_of_decided?_eq_none hnone with heq | ⟨-, hnil⟩
  · rw [heq, h]
  · exact hnil

lemma Call.SetsUp.remembering (hx : x.SetsUp) (b : Bool) : (x.remembering b).SetsUp := by
  cases x <;> exact hx

lemma Call.KeepsTrust.remembering (hx : x.KeepsTrust) (b : Bool) : (x.remembering b).KeepsTrust := by
  cases x <;> exact hx

lemma Blank.perform (h : Blank e₁ e₂) (hx : x.SetsUp) :
    Blank (e₁.perform (x.remembering true)) (e₂.perform (x.remembering false)) := by
  refine ⟨?_, entries_of_setsUp h.first (hx.remembering true),
    entries_of_setsUp h.second (hx.remembering false)⟩
  cases x with
  | decide failure => cases hx
  | handleFailure host f => cases hx
  | setStrategy s => exact h.twins.setStrategy s
  | forgetDecisions => exact ⟨h.twins.remembers, h.twins.forgets, h.twins.trusted⟩
  | addTrustedHost host => exact h.twins.addTrustedHost host
  | removeTrustedHost host => exact h.twins.removeTrustedHost host
  | confirmInsecure host =>
    exact h.twins.of_escalated (e₁.escalated_confirmInsecure host)
      (e₂.escalated_confirmInsecure host)
  | revokeConsent host => exact ⟨h.twins.remembers, h.twins.forgets, h.twins.trusted⟩
  | surround w => exact ⟨h.twins.remembers, h.twins.forgets, h.twins.trusted⟩

lemma Blank.run (h : Blank e₁ e₂) {setup : List Call} (hsetup : ∀ x ∈ setup, x.SetsUp) :
    Blank (e₁.run (setup.map (.remembering true))) (e₂.run (setup.map (.remembering false))) := by
  induction setup generalizing e₁ e₂ with
  | nil => exact h
  | cons x setup ih =>
    obtain ⟨hx, hsetup⟩ := List.forall_mem_cons.1 hsetup
    exact ih (h.perform hx) hsetup

structure Parallel (e₁ e₂ : Engine) : Prop where
  twins : Twins e₁ e₂
  first : e₁.Faithful
  second : e₂.Faithful

lemma Parallel.perform (h : Parallel e₁ e₂) (hu : e₂.Unprompted (x.remembering false))
    (hx : x.KeepsTrust) :
    Parallel (e₁.perform (x.remembering true)) (e₂.perform (x.remembering false)) := by
  have hu₁ : e₁.Unprompted (x.remembering true) := by
    cases x with
    | decide failure => exact h.twins.unprompted hu
    | _ => trivial
  refine ⟨?_, h.first.perform hu₁ (hx.remembering _), h.second.perform hu (hx.remembering _)⟩
  cases x with
  | decide failure => exact h.twins.decide h.first h.second hu
  | setStrategy s => exact h.twins.setStrategy s
  | forgetDecisions => exact ⟨h.twins.remembers, h.twins.forgets, h.twins.trusted⟩
  | surround w => exact ⟨h.twins.remembers, h.twins.forgets, h.twins.trusted⟩
  | _ => cases hx

lemma Parallel.run (h : Parallel e₁ e₂) {before after : List Call}
    (hcalls : ∀ x ∈ before ++ after, x.KeepsTrust)
    (hunasked : e₂.Unasked ((before ++ after).map (.remembering false))) :
    Parallel (e₁.run (before.map (.remembering true))) (e₂.run (before.map (.remembering false))) ∧
      (e₂.run (before.map (.remembering false))).Unasked (after.map (.remembering false)) := by
  induction before generalizing e₁ e₂ with
  | nil => exact ⟨h, hunasked⟩
  | cons x before ih =>
    obtain ⟨hx, hcalls⟩ := List.forall_mem_cons.1 hcalls
    obtain ⟨hu, hunasked⟩ := hunasked
    exact ih (h.perform hu hx) hcalls hunasked

/-- A memory is not to be noticed: two engines of which only the first remembers take the same
decisions, as long as nobody is asked and trust stays as it is from the first decision on. Each is
the one that the strategy in force resolves to. -/
theorem memory_is_transparent {config : EngineConfig} {s : Strategy} {prompter : Prompter}
    {network : Network} {desk : Desk}
    (hbuild₁ : build config (s.remembering true) prompter network desk = .ok e₁)
    (hbuild₂ : build config (s.remembering false) prompter network desk = .ok e₂)
    (setup calls : List Call) (hsetup : ∀ x ∈ setup, x.SetsUp) (hcalls : ∀ x ∈ calls, x.KeepsTrust)
    (hunasked : (e₂.run (setup.map (.remembering false))).Unasked (calls.map (.remembering false)))
    (before : List Call) (failure : ClassifiedFailure) (after : List Call)
    (hsplit : calls = before ++ .decide failure :: after) (e₁' e₂' : Engine)
    (h₁ : e₁' = e₁.run ((setup ++ before).map (.remembering true)))
    (h₂ : e₂' = e₂.run ((setup ++ before).map (.remembering false))) :
    e₁'.decided? (.decide failure) =
        (e₂'.decided? (.decide failure)).map (fun d => { d with remember := true }) ∧
      (Host.key failure.host = "" → e₂'.decided? (.decide failure) = none) ∧
      (Host.key failure.host ≠ "" → ∃ a source reason,
        e₂'.Resolves (Host.key failure.host) failure.kind a source reason ∧ a ≠ .prompt ∧
          e₂'.decided? (.decide failure) = some
            (decisionFor e₂'.strategy (Host.key failure.host) failure.kind a false reason source) ∧
          (decisionFor e₂'.strategy (Host.key failure.host) failure.kind a false reason
            source).remember = false) := by
  have hstart : Blank e₁ e₂ := by
    rw [eq_of_build hbuild₁, eq_of_build hbuild₂]
    exact ⟨⟨rfl, rfl, rfl⟩, rfl, rfl⟩
  have hblank := hstart.run hsetup
  have hready : Parallel (e₁.run (setup.map (.remembering true)))
      (e₂.run (setup.map (.remembering false))) :=
    ⟨hblank.twins, faithful_of_nil hblank.first, faithful_of_nil hblank.second⟩
  obtain ⟨h, hu, -⟩ := hready.run (hsplit ▸ hcalls) (hsplit ▸ hunasked)
  rw [← run_append, ← run_append, ← List.map_append, ← List.map_append, ← h₁, ← h₂] at h
  rw [← run_append, ← List.map_append, ← h₂] at hu
  have hdecided₁ := h.first.decided?_eq (h.twins.unprompted hu)
  have hdecided₂ := h.second.decided?_eq hu
  refine ⟨?_, fun hempty => by rw [hdecided₂, if_pos hempty], fun hkey => ?_⟩
  · rw [hdecided₁, hdecided₂, h.twins.fresh_eq]
    split <;> rfl
  · refine ⟨_, _, _, e₂'.resolves_resolution ⟨Host.key failure.host, failure.kind⟩, hu, ?_, ?_⟩
    · rw [hdecided₂, if_neg hkey]
      rfl
    · rw [h.twins.forgets]
      rfl

theorem recalled_trust_is_decided_again :
    let s := Strategy.permissive
    let first := bare (s.remembering true)
    let second := bare (s.remembering false)
    let before : List Call := [.decide (unknownAuthority "Registry.Local:5000."),
      .setStrategy { s with maxRetries := 100 }]
    let setup : List Call := [.addTrustedHost "registry.local"]
    let question : Call := .decide (unknownAuthority "registry.local:5000")
    let first' := first.run ((setup ++ before).map (.remembering true))
    let second' := second.run ((setup ++ before).map (.remembering false))
    (build first.config first.strategy first.prompter first.network first.desk = .ok first ∧
      build second.config second.strategy second.prompter second.network second.desk = .ok second) ∧
    (first'.memory.size = 1 ∧ second'.memory.size = 0) ∧
    first'.decided? question =
        (second'.decided? question).map (fun d => { d with remember := true }) ∧
      (second'.decided? question).map Decision.source = some .trustedHost := by
  intro s first second before setup question first' second'
  have hbuild₁ : build first.config (s.remembering true) first.prompter first.network first.desk =
      .ok first := rfl
  have hbuild₂ : build first.config (s.remembering false) first.prompter first.network first.desk =
      .ok second := rfl
  have hsetup : ∀ x ∈ setup, x.SetsUp := by
    simp [setup, Call.SetsUp]
  have hcalls : ∀ x ∈ before ++ [question], x.KeepsTrust := by
    simp [before, question, Call.KeepsTrust, s, Strategy.permissive, Strategy.base]
  have hunasked : (second.run (setup.map (.remembering false))).Unasked
      ((before ++ [question]).map (.remembering false)) := by decide +kernel
  have hsame := (memory_is_transparent hbuild₁ hbuild₂ setup _ hsetup hcalls hunasked before
    (unknownAuthority "registry.local:5000") [] rfl first' second' rfl rfl).1
  exact ⟨⟨hbuild₁, hbuild₂⟩, by decide +kernel, hsame, by decide +kernel⟩

end Engine

end TlsTrust
