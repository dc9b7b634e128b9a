import TlsTrust.Proofs.Engine.MemoryTransparency
import TlsTrust.Proofs.Text.Ascii
import TlsTrust.Proofs.Text.Cut

/-! A clear yes at the console takes the certificate, and whatever else happens denies it. -/

namespace TlsTrust

open Text

namespace Prompter

def IsWord (line : String) (word : List Char) : Prop :=
  ∃ before letters after, line.toList = before ++ letters ++ after ∧
    before.all isBlank = true ∧ after.all isBlank = true ∧ letters.map Char.toLower = word

/-- The operator answers `y` or `yes`. -/
def SaysYes (line : String) : Prop :=
  IsWord line ['y'] ∨ IsWord line ['y', 'e', 's']

lemma lower_trim_eq_iff (line : String) {word : String} (hne : word.toList ≠ [])
    (hword : word.toList.any isBlank = false) :
    lower (trim line) = word ↔ IsWord line word.toList := by
  have hblank (letters : List Char) (h : letters.map Char.toLower = word.toList) :
      ∀ c ∈ letters, isBlank c = false := by
    intro c hc
    rw [← isBlank_toLower]
    exact Bool.eq_false_iff.2 (List.any_eq_false.1 hword _ (h ▸ List.mem_map_of_mem hc))
  -- what the line trims to, whatever the case of its letters
  have htrim (letters : List Char) (h : letters.map Char.toLower = word.toList) :
      (trim line).toList = letters ↔ ∃ before after, line.toList = before ++ letters ++ after ∧
        before.all isBlank = true ∧ after.all isBlank = true :=
    toList_trim_eq_iff (fun hnil => hne (by rw [← h, hnil, List.map_nil]))
      (fun c hc => hblank letters h c (List.mem_of_head? hc))
      (fun c hc => hblank letters h c (List.mem_of_getLast? hc))
  rw [lower, ← String.toList_inj, String.toList_ofList]
  constructor
  · intro h
    obtain ⟨before, after, hline, hbefore, hafter⟩ := (htrim _ h).1 rfl
    exact ⟨before, _, after, hline, hbefore, hafter, h⟩
  · rintro ⟨before, letters, after, hline, hbefore, hafter, h⟩
    rw [(htrim letters h).2 ⟨before, after, hline, hbefore, hafter⟩, h]

lemma isYes_iff {line : String} : isYes line = true ↔ SaysYes line := by
  have hshort : lower (trim line) = "y" ↔ IsWord line "y".toList :=
    lower_trim_eq_iff line (by decide) (by decide)
  have hlong : lower (trim line) = "yes" ↔ IsWord line "yes".toList :=
    lower_trim_eq_iff line (by decide) (by decide)
  rw [isYes, Bool.or_eq_true, beq_iff_eq, beq_iff_eq, hshort, hlong]
  rfl

end Prompter

namespace Engine

variable {e : Engine} {s : Strategy} {failure : ClassifiedFailure} {a : Action}
  {host reason : String} {kind : FailureKind} {source : DecisionSource}

lemma Resolves.action_eq (h : e.Resolves host kind a source reason) :
    (resolve e.strategy (e.isTrustedHost host) host kind).action = a := by
  cases h with
  | hostOverride hover => simp [resolve, hover]
  | trustedHost hover htrust =>
    have htrusts : (e.isTrustedHost host || e.strategy.isInsecureHost host) = true := by
      simpa [Trusts] using htrust
    simp [resolve, hover, htrusts]
  | rule hover htrust hrule =>
    have huntrusted : (e.isTrustedHost host || e.strategy.isInsecureHost host) = false := by
      simpa [Trusts] using htrust
    simp [resolve, hover, huntrusted, hrule]
  | modeDefault hover htrust hrule =>
    have huntrusted : (e.isTrustedHost host || e.strategy.isInsecureHost host) = false := by
      simpa [Trusts] using htrust
    simp [resolve, hover, huntrusted, hrule]

def Asks (e : Engine) (s : Strategy) : Prop :=
  s.promptEnabled = true ∧ e.desk.interactive = true

instance (e : Engine) (s : Strategy) : Decidable (e.Asks s) :=
  inferInstanceAs (Decidable (_ ∧ _))

def HearsYes (e : Engine) : Prop :=
  ∃ line, e.desk.input.headD .closed = .line line ∧ Prompter.SaysYes line

lemma ofAnswer_answerOf (kind : FailureKind) (timeout : Duration) (o : ReadOutcome) :
    ((ofAnswer kind (Prompter.answerOf timeout o)).1 = .accept ↔
        ∃ line, o = .line line ∧ Prompter.SaysYes line) ∧
      ((ofAnswer kind (Prompter.answerOf timeout o)).1 = .accept ∨
        (ofAnswer kind (Prompter.answerOf timeout o)).1 = .deny) := by
  cases o with
  | line text =>
    simp only [Prompter.answerOf, ReadOutcome.line.injEq, exists_eq_left', ← Prompter.isYes_iff]
    cases Prompter.isYes text <;> simp [ofAnswer]
  | timedOut => simp [Prompter.answerOf, ofAnswer]
  | closed => simp [Prompter.answerOf, ofAnswer]
  | failed reason => simp [Prompter.answerOf, ofAnswer]

lemma prompt_terminal (hterminal : e.prompter = .terminal) (failure : ClassifiedFailure)
    (seconds : Nat) :
    (e.prompt failure seconds).1 =
        Prompter.answerOf (Duration.ofSeconds seconds) (e.desk.input.headD .closed) ∧
      (e.prompt failure seconds).2.desk.input = e.desk.input.tail ∧
      (e.prompt failure seconds).2.desk.readings =
        e.desk.readings ++ [e.desk.input.headD .closed] := by
  obtain ⟨houtcome, hinput, hreadings⟩ :=
    (e.desk.write (Prompter.question failure seconds)).readLine_eq
  rw [Desk.readings_write] at hreadings
  unfold prompt
  simp only [hterminal]
  refine ⟨congrArg _ houtcome, ?_, ?_⟩
  · split
    · exact hinput
    · exact hinput
  · rw [houtcome] at hreadings
    split
    · rw [Desk.readings_write]
      exact hreadings
    · exact hreadings

lemma ask_terminal (hterminal : e.prompter = .terminal) (hasks : e.Asks s)
    (failure : ClassifiedFailure) :
    ((e.ask s failure).1.1 = .accept ↔ e.HearsYes) ∧
      ((e.ask s failure).1.1 = .accept ∨ (e.ask s failure).1.1 = .deny) ∧
      (e.ask s failure).2.desk.input = e.desk.input.tail ∧
      (e.ask s failure).2.desk.readings = e.desk.readings ++ [e.desk.input.headD .closed] := by
  have hcan : (s.promptEnabled && e.canPrompt) = true := by
    simp [canPrompt, hterminal, hasks.1, hasks.2]
  obtain ⟨hanswer, hinput, hreadings⟩ := prompt_terminal hterminal failure s.decisionTimeout
  simp only [ask, hcan, if_true, hanswer]
  obtain ⟨hyes, hboth⟩ := ofAnswer_answerOf failure.kind (Duration.ofSeconds s.decisionTimeout)
    (e.desk.input.headD .closed)
  exact ⟨hyes, hboth, hinput, hreadings⟩

lemma ask_of_not_asks (hterminal : e.prompter = .terminal) (hasks : ¬ e.Asks s)
    (failure : ClassifiedFailure) :
    e.ask s failure = ((.deny, "prompting unavailable, denying"), e) := by
  have hcan : (s.promptEnabled && e.canPrompt) = false := by
    simpa [canPrompt, hterminal, Asks] using hasks
  simp [ask, hcan]

lemma ask_settled (hterminal : e.prompter = .terminal) (s : Strategy) (failure : ClassifiedFailure) :
    ((e.ask s failure).1.1 = .accept ↔ e.Asks s ∧ e.HearsYes) ∧
      ((e.ask s failure).1.1 = .accept ∨ (e.ask s failure).1.1 = .deny) ∧
      (e.Asks s → (e.ask s failure).2.desk.input = e.desk.input.tail ∧
        (e.ask s failure).2.desk.readings = e.desk.readings ++ [e.desk.input.headD .closed]) ∧
      (¬ e.Asks s → (e.ask s failure).2 = e) := by
  by_cases hasks : e.Asks s
  · obtain ⟨hyes, hboth, hinput, hreadings⟩ := ask_terminal hterminal hasks failure
    exact ⟨by rw [hyes, and_iff_right hasks], hboth, fun _ => ⟨hinput, hreadings⟩,
      fun hno => absurd hasks hno⟩
  · rw [ask_of_not_asks hterminal hasks failure]
    exact ⟨by simp [hasks], .inr rfl, fun h => absurd h hasks, fun _ => rfl⟩

lemma decisionFor_accept_score (s : Strategy) (host : String) (kind : FailureKind) (reason : String)
    (source : DecisionSource) : (decisionFor s host kind .accept true reason source).riskScore =
      max (kind.baseRisk / 2) 1 := by
  have hbounds := riskScore_bounds (a := .accept) kind true (by decide)
  change min (riskScore kind .accept true) 10 = riskScore kind .accept true
  omega

/-- A failure that is put to the operator at the console, and on which nothing is remembered, is
accepted only where the strategy allows the question, somebody sits there and the next line is a clear
yes; it then has half the risk of its kind. In every other case it is denied. One outcome of the input
is taken for the question, and none where nobody is asked. -/
theorem only_clear_yes_accepts (hterminal : e.prompter = .terminal)
    (hhost : Host.key failure.host ≠ "")
    (hfresh : e.strategy.rememberDecisions = true →
      e.memory.find? ⟨Host.key failure.host, failure.kind⟩ = none)
    (hprompt : e.Resolves (Host.key failure.host) failure.kind .prompt source reason) :
    ∃ d e₁, e.decide failure = .ok (d, e₁) ∧ d.source = .prompt ∧
      (d.action.accepts = true ↔ e.Asks e.strategy ∧ e.HearsYes) ∧
      (d.action.accepts = true → d.riskScore = max (failure.kind.baseRisk / 2) 1 ∧
        d.risk = .ofScore d.riskScore) ∧
      (d.action.accepts = false → d.action = .deny ∧ d.risk = .none ∧ d.transport = .strict) ∧
      (e.Asks e.strategy → e₁.desk.input = e.desk.input.tail ∧
        e₁.desk.readings = e.desk.readings ++ [e.desk.input.headD .closed]) ∧
      (¬ e.Asks e.strategy → e₁.desk.input = e.desk.input ∧
        e₁.desk.readings = e.desk.readings) := by
  obtain ⟨d, e₁, h⟩ := e.exists_decide hhost
  rcases (decide_eq_ok h).2 with ⟨hremember, hfind, -⟩ | ⟨-, hdecide⟩
  · rw [hfresh hremember] at hfind
    cases hfind
  obtain ⟨e₀, ⟨hother, -⟩ | ⟨-, rfl, hd⟩, rfl⟩ := decideFresh_eq hdecide
  · exact absurd hprompt.action_eq hother
  obtain ⟨hyes, hboth, hasked, hunasked⟩ := ask_settled hterminal e.strategy failure
  have hsound : d.Sound := by
    rw [hd]
    exact decisionFor_sound _ _ _ _ _ _ (e.ask_ne_prompt _ _)
  have haction : d.action = (e.ask e.strategy failure).1.1 := by
    rw [hd]
    rfl
  have haccepts : d.action.accepts = true ↔ d.action = .accept := by
    rw [haction]
    rcases hboth with heq | heq <;> rw [heq] <;> decide
  refine ⟨d, _, h, by rw [hd]; rfl, ?_, ?_, ?_, ?_, ?_⟩
  · rw [haccepts, haction, hyes]
  · intro hok
    rw [haccepts, haction] at hok
    have hscore : d.riskScore = max (failure.kind.baseRisk / 2) 1 := by
      rw [hd, hok]
      exact decisionFor_accept_score _ _ _ _ _
    exact ⟨hscore, (hsound.graded (by rw [haction, hok]; decide)).2.2⟩
  · intro hno
    have hdeny : d.action = .deny := by
      rw [haction]
      refine hboth.resolve_left fun heq => ?_
      rw [haction, heq] at hno
      cases hno
    obtain ⟨hrisk, -, htransport⟩ := hsound.denial hdeny
    exact ⟨hdeny, hrisk, htransport⟩
  · intro hasks
    obtain ⟨hinput, hreadings⟩ := hasked hasks
    exact ⟨hinput, (Desk.readings_audit _ _).trans hreadings⟩
  · intro hasks
    have hsame := hunasked hasks
    exact ⟨congrArg (·.desk.input) hsame,
      (Desk.readings_audit _ _).trans (congrArg (·.desk.readings) hsame)⟩

def attended : Engine :=
  { bare (Strategy.interactive.withHostOverride "dev.local" .prompt) with
    prompter := .terminal
    desk := .bare [.line " Yes\r", .line "y"] }

theorem expired_certificate_is_accepted :
    let failure : ClassifiedFailure :=
      .classify ⟨"x509: certificate has expired", none, []⟩ "Dev.Local:5000" (.atSecond 0)
    (attended.prompter = .terminal ∧ Host.key failure.host ≠ "" ∧
      (attended.strategy.rememberDecisions = true →
        attended.memory.find? ⟨Host.key failure.host, failure.kind⟩ = none)) ∧
    attended.Resolves (Host.key failure.host) failure.kind .prompt .hostOverride
      s!"host override for {Host.key failure.host}" ∧
    (attended.Asks attended.strategy ∧ attended.HearsYes) ∧
    ∃ d e₁, attended.decide failure = .ok (d, e₁) ∧ d.action.accepts = true ∧ d.riskScore = 4 ∧
      e₁.desk.input = [.line "y"] := by
  intro failure
  have hhost : Host.key failure.host ≠ "" := by decide +kernel
  have hprompt : attended.Resolves (Host.key failure.host) failure.kind .prompt .hostOverride
      s!"host override for {Host.key failure.host}" := .hostOverride (by decide +kernel)
  have hyes : attended.HearsYes :=
    ⟨_, rfl, .inr ⟨[' '], ['Y', 'e', 's'], ['\r'], by decide, by decide, by decide, by decide⟩⟩
  have hasks : attended.Asks attended.strategy := by decide
  have hscore : max (failure.kind.baseRisk / 2) 1 = 4 := by decide +kernel
  obtain ⟨d, e₁, h, -, haccepts, hgraded, -, hasked, -⟩ :=
    only_clear_yes_accepts rfl hhost (fun _ => rfl) hprompt
  have hok := haccepts.2 ⟨hasks, hyes⟩
  exact ⟨⟨rfl, hhost, fun _ => rfl⟩, hprompt, ⟨hasks, hyes⟩, d, e₁, h, hok,
    (hgraded hok).1.trans hscore, (hasked hasks).1⟩

end Engine

end TlsTrust
