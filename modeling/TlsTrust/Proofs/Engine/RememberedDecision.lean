import TlsTrust.Proofs.Engine.TrustRevocation

/-!
As long as the memory is not cleared, a decision under a strategy that remembers is the answer to
every later failure of its kind at its host.
-/

namespace TlsTrust

def PreparedAnswer.clears (a : PreparedAnswer) : Bool :=
  a.forget || a.swap.any fun s => s.isValid && !s.retainMemory

lemma Strategy.isValid_iff {s : Strategy} : s.isValid = true ↔ s.validate = .ok () := by
  unfold isValid
  split
  case h_1 h => simp [h]
  case h_2 err h => simp [h]

namespace Engine

open DecisionMemory Trail

variable {e e₁ : Engine} {failure : ClassifiedFailure} {d d' : Decision} {key : MemoryKey}
  {x : Call} {a : PreparedAnswer} {s : Strategy} {host : String} {generation : Nat}

instance decidableClears : (x : Call) → Decidable x.Clears
  | .forgetDecisions => isTrue trivial
  | .setStrategy _ => inferInstanceAs (Decidable (_ ∧ _))
  | .decide _ | .addTrustedHost _ | .removeTrustedHost _ | .confirmInsecure _ | .revokeConsent _
  | .handleFailure _ _ | .surround _ => isFalse id

def answer? (e : Engine) (x : Call) : Option PreparedAnswer :=
  match e.question? x, e.prompter, (e.perform x).prompter with
  | some _, .prepared _ (a :: rest), .prepared _ left =>
    if left.length = rest.length then some a else none
  | _, _, _ => none

/-- The memory is cleared by a call, or by an operator who is asked in it. -/
def ClearsMemory (e : Engine) (x : Call) : Prop :=
  x.Clears ∨ ∃ a ∈ e.answer? x, a.clears = true

instance (e : Engine) (x : Call) : Decidable (e.ClearsMemory x) :=
  inferInstanceAs (Decidable (_ ∨ _))

def KeepsMemory (e : Engine) : List Call → Prop
  | [] => True
  | x :: calls => ¬ e.ClearsMemory x ∧ (e.perform x).KeepsMemory calls

instance decidableKeepsMemory : (e : Engine) → (calls : List Call) → Decidable (e.KeepsMemory calls)
  | _, [] => isTrue trivial
  | e, x :: calls =>
    have := decidableKeepsMemory (e.perform x) calls
    inferInstanceAs (Decidable (¬ e.ClearsMemory x ∧ (e.perform x).KeepsMemory calls))

/-- From one state to the other a prepared answer is taken that clears the memory. -/
def TakesClearing (e e₁ : Engine) : Prop :=
  ∃ available a rest, e.prompter = .prepared available (a :: rest) ∧
    e₁.prompter = .prepared available rest ∧ a.clears = true

lemma prompter_setStrategy (h : e.setStrategy s = .ok e₁) :
    e₁.prompter = e.prompter := by
  obtain ⟨-, make, rfl, -⟩ := setStrategy_eq_ok h
  rfl

lemma generation_setStrategy (h : e.setStrategy s = .ok e₁)
    (hretain : s.retainMemory = true) : e₁.memory.generation = e.memory.generation := by
  obtain ⟨-, make, rfl, -⟩ := setStrategy_eq_ok h
  change (if s.retainMemory then e.memory else e.memory.invalidate).generation = _
  rw [if_pos hretain]

lemma prompter_actOnAnswer (e : Engine) (a : PreparedAnswer) :
    (e.actOnAnswer a).prompter = e.prompter := by
  have hforget : ∀ e₁ : Engine,
      (if a.forget then e₁.forgetDecisions else e₁).prompter = e₁.prompter := by
    intro e₁
    split <;> rfl
  unfold actOnAnswer
  dsimp only
  rw [hforget]
  cases a.swap with
  | none => rfl
  | some s =>
    dsimp only
    cases hs : e.setStrategy s with
    | error err => rfl
    | ok e₁ => exact prompter_setStrategy hs

lemma generation_actOnAnswer (e : Engine) (h : a.clears = false) :
    (e.actOnAnswer a).memory.generation = e.memory.generation := by
  obtain ⟨hforget, hswap⟩ : a.forget = false ∧
      (a.swap.any fun s => s.isValid && !s.retainMemory) = false := by
    simpa [PreparedAnswer.clears] using h
  unfold actOnAnswer
  simp only [hforget, Bool.false_eq_true, if_false]
  cases hs : a.swap with
  | none => rfl
  | some s =>
    dsimp only
    cases hset : e.setStrategy s with
    | error err => rfl
    | ok e₁ =>
      have hvalid : s.isValid = true := Strategy.isValid_iff.2 (setStrategy_eq_ok hset).1
      exact generation_setStrategy hset (by simpa [hs, hvalid] using hswap)

lemma generation_prompt (e : Engine) (failure : ClassifiedFailure) (seconds : Nat) :
    (e.prompt failure seconds).2.memory.generation = e.memory.generation ∨
      e.TakesClearing (e.prompt failure seconds).2 := by
  unfold prompt
  dsimp only
  split
  case h_1 => exact .inl rfl
  case h_2 => exact .inl rfl
  case h_3 available answers hprompter =>
    cases answers with
    | nil => exact .inl rfl
    | cons a rest =>
      dsimp only
      cases ha : a.clears with
      | false => exact .inl (generation_actOnAnswer _ ha)
      | true => exact .inr ⟨available, a, rest, hprompter, prompter_actOnAnswer _ _, ha⟩

lemma generation_ask (e : Engine) (s : Strategy) (failure : ClassifiedFailure) :
    (e.ask s failure).2.memory.generation = e.memory.generation ∨
      e.TakesClearing (e.ask s failure).2 := by
  unfold ask
  split
  · exact e.generation_prompt _ _
  · exact .inl rfl

lemma memory_of_decideFresh (h : e.decideFresh s generation host failure = (d, e₁)) :
    ∃ e₀, (e₀ = e ∨ e₀ = (e.ask s failure).2) ∧ e₁.prompter = e₀.prompter ∧
      e₁.memory.generation = e₀.memory.generation ∧
      e₁.memory = if s.rememberDecisions then e₀.memory.insert generation ⟨host, failure.kind⟩ d
        else e₀.memory := by
  obtain ⟨e₀, hasked, rfl⟩ := decideFresh_eq h
  refine ⟨e₀, ?_, rfl, ?_, rfl⟩
  · exact hasked.imp (fun h => h.2.1) fun h => h.2.1
  · change (if s.rememberDecisions then e₀.memory.insert generation ⟨host, failure.kind⟩ d
      else e₀.memory).generation = e₀.memory.generation
    split
    · exact insert_generation _ _ _ _
    · rfl

lemma generation_decide (h : e.decide failure = .ok (d, e₁)) :
    e₁.memory.generation = e.memory.generation ∨ e.TakesClearing e₁ := by
  rcases (decide_eq_ok h).2 with ⟨-, -, rfl⟩ | ⟨-, hfresh⟩
  · exact .inl rfl
  · obtain ⟨e₀, hasked, hprompter, hgeneration, -⟩ := memory_of_decideFresh hfresh
    rw [TakesClearing, hprompter, hgeneration]
    rcases hasked with rfl | rfl
    · exact .inl rfl
    · exact e.generation_ask _ _

lemma clearsMemory_of_takesClearing (hq : (e.question? x).isSome = true)
    (h : e.TakesClearing (e.perform x)) : e.ClearsMemory x := by
  obtain ⟨available, a, rest, hbefore, hafter, ha⟩ := h
  obtain ⟨q, hq⟩ := Option.isSome_iff_exists.1 hq
  refine .inr ⟨a, ?_, ha⟩
  simp [answer?, hq, hbefore, hafter]

lemma generation_perform (h : ¬ e.ClearsMemory x) :
    (e.perform x).memory.generation = e.memory.generation := by
  cases hx : e.decided? x with
  | some d =>
    obtain ⟨e₀, failure, e₁, hq, hd⟩ := decided?_eq_some hx
    have hbefore := question?_escalated hq
    have hafter := escalated_of_decide hq hd
    rw [hafter.memory, ← hbefore.memory]
    refine (generation_decide hd).resolve_right fun htakes => h ?_
    refine clearsMemory_of_takesClearing (by rw [hq]; rfl) ?_
    rwa [TakesClearing, hafter.prompter, ← hbefore.prompter]
  | none =>
    rcases memory_of_decided?_eq_none hx with heq | ⟨hclears, -⟩
    · rw [heq]
    · exact absurd (.inl hclears) h

lemma find?_of_decide (hremember : e.strategy.rememberDecisions = true)
    (h : e.decide failure = .ok (d, e₁))
    (hkept : e₁.memory.generation = e.memory.generation) :
    e₁.memory.find? ⟨Host.key failure.host, failure.kind⟩ = some d := by
  rcases (decide_eq_ok h).2 with ⟨-, hfind, rfl⟩ | ⟨-, hfresh⟩
  · exact hfind
  · obtain ⟨e₀, -, -, hgeneration, hmemory⟩ := memory_of_decideFresh hfresh
    rw [hmemory, if_pos hremember]
    exact find?_insert_self (hkept.symm.trans hgeneration)

lemma find?_decide (hfind : e.memory.find? key = some d) (h : e.decide failure = .ok (d', e₁))
    (hkept : e₁.memory.generation = e.memory.generation) : e₁.memory.find? key = some d := by
  rcases (decide_eq_ok h).2 with ⟨-, -, rfl⟩ | ⟨hnone, hfresh⟩
  · exact hfind
  · obtain ⟨e₀, hasked, -, hgeneration, hmemory⟩ := memory_of_decideFresh hfresh
    have hrenewed : e.memory.Renewed e₀.memory := by
      rcases hasked with rfl | rfl
      · exact .refl _
      · exact (e.asked_ask _ _).memory
    have hsame : e₀.memory = e.memory :=
      hrenewed.resolve_right fun hcleared =>
        Nat.ne_of_lt hcleared.1 (hkept.symm.trans hgeneration)
    rw [hmemory, hsame]
    split
    case isTrue hremember =>
      have hne : key ≠ ⟨Host.key failure.host, failure.kind⟩ := by
        rintro rfl
        simp [recalled?, hremember, DecisionMemory.get?, hfind] at hnone
      rw [find?_insert_of_ne hne, hfind]
    case isFalse => exact hfind

lemma find?_perform (hfind : e.memory.find? key = some d) (h : ¬ e.ClearsMemory x) :
    (e.perform x).memory.find? key = some d := by
  have hkept := generation_perform h
  cases hx : e.decided? x with
  | some d' =>
    obtain ⟨e₀, failure, e₁, hq, hd⟩ := decided?_eq_some hx
    rw [perform_memory_of_decide hq hd] at hkept ⊢
    rw [← (question?_escalated hq).memory] at hkept hfind
    exact find?_decide hfind hd hkept
  | none =>
    rcases memory_of_decided?_eq_none hx with heq | ⟨hclears, -⟩
    · rw [heq, hfind]
    · exact absurd (.inl hclears) h

lemma find?_run (hfind : e.memory.find? key = some d) {calls : List Call}
    (hcalls : e.KeepsMemory calls) : (e.run calls).memory.find? key = some d := by
  induction calls generalizing e with
  | nil => exact hfind
  | cons x calls ih => exact ih (find?_perform hfind hcalls.1) hcalls.2

/-- A decision is recalled: nobody is asked, nothing is read or tried, and all that happens is that one
record of it is handed to the logger. -/
structure Recalls (e : Engine) (key : MemoryKey) (d : Decision) (e₁ : Engine) : Prop where
  memory : e₁.memory = e.memory
  prompter : e₁.prompter = e.prompter
  network : e₁.network = e.network
  input : e₁.desk.input = e.desk.input
  trail : ∃ r, e.desk.Extends e₁.desk [.audited r] ∧ r.event = .decisionCacheHit ∧
    RecordsDecision key.host key.kind d r

lemma decide_of_find? (hne : Host.key failure.host ≠ "")
    (hremember : e.strategy.rememberDecisions = true)
    (hfind : e.memory.find? ⟨Host.key failure.host, failure.kind⟩ = some d) :
    ∃ e₁, e.decide failure = .ok (d, e₁) ∧
      e.Recalls ⟨Host.key failure.host, failure.kind⟩ d e₁ := by
  obtain ⟨d', e₁, h⟩ := e.exists_decide hne
  rcases (decide_eq_ok h).2 with ⟨-, hfind', rfl⟩ | ⟨hnone, -⟩
  · obtain rfl := Option.some.inj (hfind.symm.trans hfind')
    exact ⟨_, h, rfl, rfl, rfl, rfl, _, e.desk.audit_extends _, rfl, cacheHitRecord_records ..⟩
  · simp [recalled?, hremember, DecisionMemory.get?, hfind] at hnone

/-- A decision under a strategy that remembers is stored, unless an operator who is asked has the
memory cleared. From then on, whatever is called, as long as the memory is not cleared, each strategy
that remembers gives this decision to every failure of its kind at its host. -/
theorem remembered_decision_stands (hremember : e.strategy.rememberDecisions = true)
    (h : e.decide failure = .ok (d, e₁)) (calls : List Call)
    (hkept : e.KeepsMemory (.decide failure :: calls))
    (hlater : (e₁.run calls).strategy.rememberDecisions = true) :
    e₁.memory.find? ⟨Host.key failure.host, failure.kind⟩ = some d ∧
      ∀ later : ClassifiedFailure, Host.key later.host = Host.key failure.host →
        later.kind = failure.kind →
        ∃ e₂, (e₁.run calls).decide later = .ok (d, e₂) ∧
          (e₁.run calls).Recalls ⟨Host.key failure.host, failure.kind⟩ d e₂ := by
  have hperform : e.perform (.decide failure) = e₁ := by
    rw [perform, h]
    rfl
  obtain ⟨hdecide, hcalls⟩ := hkept
  have hgeneration := generation_perform hdecide
  rw [hperform] at hcalls hgeneration
  have hstored := find?_of_decide hremember h hgeneration
  refine ⟨hstored, fun later hhost hkind => ?_⟩
  have hne : Host.key later.host ≠ "" := by
    rw [hhost]
    exact (decide_eq_ok h).1
  rw [← hhost, ← hkind] at hstored ⊢
  exact decide_of_find? hne hlater (find?_run hstored hcalls)

def obliging : Engine :=
  { bare .interactive with
    prompter := .prepared true [⟨none, false, .chosen .accept⟩,
      ⟨some { Strategy.secure with retainMemory := true }, false, .chosen .deny⟩] }

def selfSignedAt (host text : String) : ClassifiedFailure :=
  .classify ⟨text, none, []⟩ host (.atSecond 0)

theorem acceptance_outlives_strategies :
    let first := selfSignedAt "dev.local" "self-signed certificate"
    let later := selfSignedAt " DEV.local." "x509: certificate is self-signed"
    let calls : List Call := [.decide (unknownAuthority "registry.local"), .decide first,
      .confirmInsecure "dev.local", .setStrategy { Strategy.development with retainMemory := true }]
    obliging.strategy.rememberDecisions = true ∧ obliging.KeepsMemory (.decide first :: calls) ∧
      ∃ d e₁ e₂, obliging.decide first = .ok (d, e₁) ∧ d.action = .accept ∧
        (e₁.run (calls.take 1)).decided? (.decide first) ≠ some d ∧
        (e₁.run calls).strategy.rememberDecisions = true ∧
        (e₁.run calls).decide later = .ok (d, e₂) ∧
        (e₁.run calls).Recalls ⟨"dev.local", .selfSigned⟩ d e₂ := by
  intro first later calls
  have hkept : obliging.KeepsMemory (.decide first :: calls) := by decide +kernel
  have hlater : ((obliging.perform (.decide first)).run calls).strategy.rememberDecisions = true := by
    decide +kernel
  have haction : (obliging.decided? (.decide first)).map Decision.action = some .accept := by
    decide +kernel
  have hdenied : (((obliging.perform (.decide first)).run (calls.take 1)).decided?
      (.decide first)).map Decision.action = some .deny := by decide +kernel
  obtain ⟨d, hd, haccept⟩ := Option.map_eq_some_iff.1 haction
  obtain ⟨e₀, failure, e₁, hq, hdecide⟩ := decided?_eq_some hd
  obtain ⟨rfl, rfl⟩ := Prod.mk.inj (Option.some.inj hq)
  have hperform : obliging.perform (.decide first) = e₁ := by
    rw [perform, hdecide]
    rfl
  rw [hperform] at hlater hdenied
  have hne : (e₁.run (calls.take 1)).decided? (.decide first) ≠ some d := by
    intro heq
    rw [heq, Option.map_some, haccept] at hdenied
    cases hdenied
  have hkey : (⟨Host.key first.host, first.kind⟩ : MemoryKey) = ⟨"dev.local", .selfSigned⟩ := by
    decide +kernel
  have hhost : Host.key later.host = Host.key first.host := by decide +kernel
  have hkind : later.kind = first.kind := by decide +kernel
  obtain ⟨e₂, hrecall, hrecalls⟩ :=
    (remembered_decision_stands rfl hdecide calls hkept hlater).2 later hhost hkind
  rw [hkey] at hrecalls
  exact ⟨rfl, hkept, d, e₁, e₂, hdecide, haccept, hne, hlater, hrecall, hrecalls⟩

end Engine

end TlsTrust
