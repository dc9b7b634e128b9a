import TlsTrust.Proofs.Engine.Run

/-!
A decision may outlive the trust that it rests on, but only in the memory, and only until this is
cleared.
-/

namespace TlsTrust

namespace Engine

open DecisionMemory Trail

variable {e e₀ e₁ : Engine} {host : String} {failure : ClassifiedFailure} {d : Decision}
  {key : MemoryKey} {before after : List Engine.Call} {x y : Engine.Call}

/-- The trusted hosts, or those that the strategy lists as insecure, include a host, with or without
its port. -/
def Trusts (e : Engine) (host : String) : Prop :=
  e.isTrustedHost host = true ∨ e.strategy.isInsecureHost host = true

instance (e : Engine) (host : String) : Decidable (e.Trusts host) :=
  inferInstanceAs (Decidable (_ ∨ _))

lemma Escalated.trusts_iff (h : e.Escalated e₁) : e₁.Trusts host ↔ e.Trusts host := by
  simp only [Trusts, isTrustedHost, h.trusted, h.strategy]

lemma trusts_of_decideFresh
    (h : e.decideFresh e.strategy e.memory.generation host failure = (d, e₁))
    (hd : d.source = .trustedHost) : e.Trusts host := by
  obtain ⟨_, a, prompted, reason, source, -, -, rfl, htrust, -⟩ := asked_of_decideFresh h
  exact htrust hd

lemma generation_lt_of_clears (h : x.Clears) :
    e.memory.generation < (e.perform x).memory.generation := by
  cases x with
  | forgetDecisions => exact Nat.lt_succ_self _
  | setStrategy s => exact e.generation_lt_of_setStrategy h.1 h.2
  | _ => cases h

/-- In a run from `e`, a call took a decision on a host and a kind of failure, and the memory has
not been cleared since. -/
structure Took (e : Engine) (before : List Call) (x : Call) (after : List Call) (key : MemoryKey)
    (d : Decision) : Prop where
  decided : (e.run before).decided? x = some d
  asked : ∃ e₀ failure, (e.run before).question? x = some (e₀, failure) ∧
    Host.key failure.host = key.host ∧ failure.kind = key.kind
  trusted : d.source = .trustedHost → (e.run before).Trusts key.host
  kept : (e.run (before ++ x :: after)).memory.generation = (e.run before).memory.generation
  uncleared : ∀ y ∈ after, ¬ y.Clears

lemma Took.snoc (h : e.Took before x after key d)
    (hy : ((e.run (before ++ x :: after)).perform y).memory.generation =
      (e.run (before ++ x :: after)).memory.generation) : e.Took before x (after ++ [y]) key d := by
  have hrun : e.run (before ++ x :: (after ++ [y])) =
      (e.run (before ++ x :: after)).perform y := by
    rw [← List.cons_append, ← List.append_assoc, run_append, run_singleton]
  refine ⟨h.decided, h.asked, h.trusted, by rw [hrun, hy, h.kept], ?_⟩
  intro z hz
  rcases List.mem_append.1 hz with hz | hz
  · exact h.uncleared z hz
  · obtain rfl := List.mem_singleton.1 hz
    intro hclears
    exact Nat.ne_of_gt (generation_lt_of_clears hclears) hy

lemma took_of_mem_entries (hempty : e.memory.entries = []) (calls : List Call) :
    ∀ p ∈ (e.run calls).memory.entries, ∃ before x after, calls = before ++ x :: after ∧
      e.Took before x after p.1 p.2 := by
  induction calls using List.reverseRecOn with
  | nil =>
    intro p hp
    rw [run_nil, hempty] at hp
    cases hp
  | append_singleton calls y ih =>
    intro p hp
    rw [run_append, run_singleton] at hp
    -- what outlives a call shows that this call did not clear the memory
    rcases (e.run calls).perform_memory y with
      (heq | ⟨-, hnil⟩) | ⟨e₀, failure, d, e₁, hq, hd, hfresh, hins⟩
    · rw [heq] at hp
      obtain ⟨before, x, after, rfl, htook⟩ := ih p hp
      exact ⟨before, x, after ++ [y], by simp, htook.snoc (by rw [heq])⟩
    · rw [hnil] at hp
      cases hp
    · rw [hins] at hp
      have hgen : ((e.run calls).perform y).memory.generation = (e.run calls).memory.generation := by
        rw [hins, insert_generation]
      rcases mem_entries_insert hp with ⟨rfl, -⟩ | hp
      · refine ⟨calls, y, [], rfl, decided?_of_decide hq hd, ⟨e₀, failure, hq, rfl, rfl⟩, ?_, ?_, ?_⟩
        · intro hsource
          exact (question?_escalated hq).trusts_iff.1 (trusts_of_decideFresh hfresh hsource)
        · rwa [run_append, run_singleton]
        · simp
      · obtain ⟨before, x, after, rfl, htook⟩ := ih p hp
        exact ⟨before, x, after ++ [y], by simp, htook.snoc hgen⟩

lemma recalled_of_not_trusts (h : e.decide failure = .ok (d, e₁)) (hd : d.source = .trustedHost)
    (hgone : ¬ e.Trusts (Host.key failure.host)) : e.strategy.rememberDecisions = true ∧
      e.memory.find? ⟨Host.key failure.host, failure.kind⟩ = some d := by
  rcases (decide_eq_ok h).2 with ⟨hremember, hfind, -⟩ | ⟨-, hfresh⟩
  · exact ⟨hremember, hfind⟩
  · exact absurd (trusts_of_decideFresh hfresh hd) hgone

lemma Took.before_revocation {pre post : List Call} {revoked : String}
    (h : e.Took before x after key d) (hd : d.source = .trustedHost)
    (hsplit : before ++ x :: after = pre ++ .removeTrustedHost revoked :: post)
    (hgone : ∀ mid rest, post = mid ++ rest →
      ¬ (e.run (pre ++ .removeTrustedHost revoked :: mid)).Trusts key.host) :
    ∃ mid, pre = before ++ x :: mid := by
  rcases split_append hsplit.symm with ⟨mid, hpre, -⟩ | ⟨mid, rfl, htail⟩
  · exact ⟨mid, hpre⟩
  · exfalso
    -- after the revocation, the decision would have been taken while the host was not trusted
    cases mid with
    | nil =>
      obtain ⟨rfl, -⟩ := List.cons.inj htail
      have := h.decided
      simp [decided?, question?] at this
    | cons z mid =>
      obtain ⟨rfl, hpost⟩ := List.cons.inj htail
      exact hgone mid _ hpost (h.trusted hd)

/-- Where a host is not trusted, a decision that rests on trust in it is returned only under a
strategy that remembers, and is one that a call of the run took while the host was trusted, with
the memory not cleared since. If trust was revoked and has been missing from then on, this call came
before the revocation. -/
theorem trust_outlives_revocation_in_memory {config : EngineConfig} {strategy : Strategy}
    {prompter : Prompter} {network : Network} {desk : Desk}
    (hbuild : build config strategy prompter network desk = .ok e) (calls : List Call)
    (h : (e.run calls).decide failure = .ok (d, e₁))
    (hgone : ¬ (e.run calls).Trusts (Host.key failure.host)) (hd : d.source = .trustedHost) :
    (e.run calls).strategy.rememberDecisions = true ∧
      ∃ before x after, calls = before ++ x :: after ∧
        e.Took before x after ⟨Host.key failure.host, failure.kind⟩ d ∧
        (e.run before).Trusts (Host.key failure.host) ∧
        ∀ pre revoked post, calls = pre ++ .removeTrustedHost revoked :: post →
          (∀ mid rest, post = mid ++ rest → ¬ (e.run (pre ++ .removeTrustedHost revoked :: mid)).Trusts
            (Host.key failure.host)) →
          ∃ mid, pre = before ++ x :: mid := by
  obtain ⟨hremember, hfind⟩ := recalled_of_not_trusts h hd hgone
  refine ⟨hremember, ?_⟩
  have hempty : e.memory.entries = [] := by rw [memory_of_build hbuild]
  obtain ⟨before, x, after, rfl, htook⟩ :=
    took_of_mem_entries hempty calls _ (mem_entries_of_find? hfind)
  exact ⟨before, x, after, rfl, htook, htook.trusted hd, fun pre revoked post hsplit hgone =>
    htook.before_revocation hd hsplit hgone⟩

def unknownAuthority (host : String) : ClassifiedFailure :=
  .classify ⟨"x509: certificate signed by unknown authority", none, []⟩ host (.atSecond 0)

theorem handled_trust_is_recalled :
    let e := bare .permissive
    let calls : List Call := [.addTrustedHost "registry.local",
      .handleFailure "Registry.Local" ⟨"x509: certificate signed by unknown authority", none, []⟩,
      .removeTrustedHost "registry.local",
      .setStrategy { Strategy.development with retainMemory := true }]
    build e.config e.strategy e.prompter e.network e.desk = .ok e ∧
      ¬ (e.run calls).Trusts "registry.local" ∧
      ∃ d e₁, (e.run calls).decide (unknownAuthority "registry.local") = .ok (d, e₁) ∧
        d.source = .trustedHost ∧ ∃ before x after, calls = before ++ x :: after ∧
          e.Took before x after ⟨"registry.local", .untrustedCA⟩ d := by
  intro e calls
  have hbuild : build e.config e.strategy e.prompter e.network e.desk = .ok e := rfl
  have hgone : ¬ (e.run calls).Trusts "registry.local" := by decide +kernel
  have hsome : ((e.run calls).decided? (.decide (unknownAuthority "registry.local"))).map
      Decision.source = some .trustedHost := by decide +kernel
  obtain ⟨d, hd, hsource⟩ := Option.map_eq_some_iff.1 hsome
  obtain ⟨e₀, failure, e₁, hq, hdecide⟩ := decided?_eq_some hd
  obtain ⟨rfl, rfl⟩ := Prod.mk.inj (Option.some.inj hq)
  obtain ⟨-, before, x, after, hsplit, htook, -⟩ :=
    trust_outlives_revocation_in_memory hbuild calls hdecide hgone hsource
  exact ⟨hbuild, hgone, d, e₁, hdecide, hsource, before, x, after, hsplit, htook⟩

/-- Trust in a host is revoked, and still the host is accepted as a trusted one. -/
theorem revoked_host_is_accepted :
    let e := bare .permissive
    let e' := e.run [.addTrustedHost "registry.local",
      .decide (unknownAuthority "registry.local"), .removeTrustedHost "registry.local"]
    build e.config e.strategy e.prompter e.network e.desk = .ok e ∧
      (e'.trusted = .empty ∧ e'.strategy.insecureHosts = .empty) ∧
        (e'.decided? (.decide (unknownAuthority "registry.local"))).map
            (fun d => (d.source, d.action)) = some (.trustedHost, .accept) :=
  ⟨rfl, by decide +kernel, by decide +kernel⟩

end Engine

end TlsTrust
