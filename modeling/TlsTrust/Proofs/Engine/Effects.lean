import TlsTrust.Proofs.Engine.Run

/-!
Calls as effects that come one after the other: a call that fails is not taken back, and what it has
done to the engine up to then stays done.
-/

namespace TlsTrust

abbrev Effects := ExceptT EngineError (StateM Engine)

namespace Effects

variable {α β : Type}

def exec (p : Effects α) (e : Engine) : Except EngineError α × Engine := p.run.run e

lemma exec_pure (a : α) (e : Engine) : (pure a : Effects α).exec e = (.ok a, e) := rfl

lemma exec_get (e : Engine) : (get : Effects Engine).exec e = (.ok e, e) := rfl

lemma exec_modify (f : Engine → Engine) (e : Engine) :
    (modify f : Effects Unit).exec e = (.ok (), f e) := rfl

lemma exec_modifyGet (f : Engine → α × Engine) (e : Engine) :
    (modifyGet f : Effects α).exec e = (.ok (f e).1, (f e).2) := rfl

lemma exec_bind (p : Effects α) (k : α → Effects β) (e : Engine) :
    (p >>= k).exec e = match p.exec e with
      | (.ok a, e₁) => (k a).exec e₁
      | (.error err, e₁) => (.error err, e₁) := by
  simp only [exec, ExceptT.run, StateT.run, bind, ExceptT.bind, ExceptT.mk, StateT.bind]
  rcases p e with ⟨_ | _, e₁⟩ <;> rfl

lemma exec_tryCatch (p : Effects α) (k : EngineError → Effects α) (e : Engine) :
    (tryCatch p k).exec e = match p.exec e with
      | (.ok a, e₁) => (.ok a, e₁)
      | (.error err, e₁) => (k err).exec e₁ := by
  simp only [exec, ExceptT.run, StateT.run, tryCatch, tryCatchThe, MonadExceptOf.tryCatch,
    ExceptT.tryCatch, ExceptT.mk, bind, StateT.bind]
  rcases p e with ⟨_ | _, e₁⟩ <;> rfl

def audit (make : Stamp → AuditRecord) : Effects Unit :=
  modify (·.audit make)

def setStrategy (s : Strategy) : Effects Unit := do
  match s.validate with
  | .error problem => throw (.strategy problem)
  | .ok () =>
    let previous := (← get).strategy.mode
    unless s.retainMemory do modify fun e => { e with memory := e.memory.invalidate }
    modify fun e => { e with strategy := s }
    audit fun stamp =>
      { AuditRecord.new stamp .strategyChanged "" with
        strategy := some s.mode.name, allowed := true }
        |>.withDetail "previous" previous.name
        |>.withDetail "memory_cleared" (toString (!s.retainMemory))

def keyOf (host : String) : Effects String := do
  let key := Host.key host
  if key.isEmpty then throw .emptyHostname
  return key

def addTrustedHost (host : String) : Effects Unit := do
  let key ← keyOf host
  unless (← get).trusted.contains key do
    modify fun e => { e with trusted := e.trusted.add key }
    audit fun stamp =>
      { AuditRecord.new stamp .trustChanged key with allowed := true }.withDetail "change" "added"

def actOnAnswer (a : PreparedAnswer) : Effects Unit := do
  if let some s := a.swap then
    try setStrategy s catch _ => pure ()
  if a.forget then modify (·.forgetDecisions)

def prompt (failure : ClassifiedFailure) (seconds : Nat) : Effects (Except PromptError Action) := do
  match (← get).prompter with
  | .prepared available answers =>
    let timeout := Duration.ofSeconds seconds
    modify fun e => { e with desk := e.desk.note (.asked failure.host failure.kind seconds) }
    match answers with
    | [] => return .error (.timedOut timeout)
    | a :: rest =>
      modify fun e => { e with prompter := .prepared available rest }
      actOnAnswer a
      return a.reply.result timeout
  | _ => modifyGet (·.prompt failure seconds)

def ask (s : Strategy) (failure : ClassifiedFailure) : Effects (Action × String) := do
  if s.promptEnabled && (← get).canPrompt then
    return Engine.ofAnswer failure.kind (← prompt failure s.decisionTimeout)
  else return (.deny, "prompting unavailable, denying")

def decideBy (r : Engine.Resolution) (s : Strategy) (host : String) (failure : ClassifiedFailure) :
    Effects Decision := do
  if r.action = .prompt then
    let (a, reason) ← ask s failure
    return Engine.decisionFor s host failure.kind a true reason .prompt
  else return Engine.decisionFor s host failure.kind r.action false r.reason r.source

def decideFresh (s : Strategy) (generation : Nat) (host : String) (failure : ClassifiedFailure) :
    Effects Decision := do
  let r := Engine.resolve s ((← get).isTrustedHost host) host failure.kind
  let d ← decideBy r s host failure
  if s.rememberDecisions then
    modify fun e => { e with memory := e.memory.insert generation ⟨host, failure.kind⟩ d }
  audit (Engine.decisionRecord s host failure.kind d)
  return d

def decide (failure : ClassifiedFailure) : Effects Decision := do
  let host ← keyOf failure.host
  let (s, generation) := (← get).snapshot
  match (← get).recalled? s generation ⟨host, failure.kind⟩ with
  | some d =>
    audit (Engine.cacheHitRecord s host failure.kind d)
    return d
  | none => decideFresh s generation host failure

def handleFailure (host : String) (failure : CertificateFailure) : Effects FallbackOutcome := do
  let key ← keyOf host
  let classified := (← get).classify failure key
  audit fun s => .certificateFailure s key classified.kind classified.errorText
  let recommendations := Advice.recommend key classified.errorText
  let policy ← decide classified
  let s := (← get).strategy
  let attempts ← modifyGet (·.runSteps key classified policy s 0 EscalationStep.all)
  fun e => e.conclude key classified attempts recommendations

def ofCall : Engine.Call → Effects Unit
  | .decide failure => do
    let _ ← decide failure
    return ()
  | .setStrategy s => setStrategy s
  | .addTrustedHost host => addTrustedHost host
  | .handleFailure host failure => do
    let _ ← handleFailure host failure
    return ()
  | x => modify (·.perform x)

lemma exec_setStrategy (s : Strategy) (e : Engine) : (setStrategy s).exec e =
    ((e.setStrategy s).map fun _ => (), e.next (e.setStrategy s)) := by
  unfold setStrategy Engine.setStrategy
  cases s.validate with
  | error problem => rfl
  | ok _ => cases s.retainMemory <;> rfl

lemma exec_keyOf (host : String) (e : Engine) : (keyOf host).exec e =
    if (Host.key host).isEmpty then (.error .emptyHostname, e) else (.ok (Host.key host), e) := by
  unfold keyOf
  dsimp only
  split <;> rfl

lemma exec_addTrustedHost (host : String) (e : Engine) : (addTrustedHost host).exec e =
    ((e.addTrustedHost host).map fun _ => (), e.next (e.addTrustedHost host)) := by
  unfold addTrustedHost Engine.addTrustedHost
  simp only [exec_bind, exec_keyOf]
  cases (Host.key host).isEmpty with
  | true => rfl
  | false =>
    simp only [exec_get, Bool.false_eq_true, if_false]
    cases e.trusted.contains (Host.key host) <;> rfl

lemma exec_actOnAnswer (a : PreparedAnswer) (e : Engine) :
    (actOnAnswer a).exec e = (.ok (), e.actOnAnswer a) := by
  unfold actOnAnswer Engine.actOnAnswer
  cases a.swap with
  | none => cases a.forget <;> rfl
  | some s =>
    simp only [exec_bind, exec_tryCatch, exec_setStrategy]
    cases e.setStrategy s with
    | error err => cases a.forget <;> rfl
    | ok e₁ => cases a.forget <;> rfl

lemma exec_prompt (failure : ClassifiedFailure) (seconds : Nat) (e : Engine) :
    (prompt failure seconds).exec e =
      (.ok (e.prompt failure seconds).1, (e.prompt failure seconds).2) := by
  unfold prompt
  simp only [exec_bind, exec_get]
  cases h : e.prompter with
  | nobody => rfl
  | terminal => rfl
  | prepared available answers =>
    cases answers with
    | nil => simp only [exec_bind, exec_modify, exec_pure, Engine.prompt, h]
    | cons a rest =>
      simp only [exec_bind, exec_modify, exec_pure, exec_actOnAnswer, Engine.prompt, h]

lemma exec_ask (s : Strategy) (failure : ClassifiedFailure) (e : Engine) :
    (ask s failure).exec e = (.ok (e.ask s failure).1, (e.ask s failure).2) := by
  unfold ask Engine.ask
  simp only [exec_bind, exec_get]
  split
  · simp only [exec_bind, exec_prompt, exec_pure]
  · rfl

lemma exec_decideFresh (s : Strategy) (generation : Nat) (host : String)
    (failure : ClassifiedFailure) (e : Engine) : (decideFresh s generation host failure).exec e =
      (.ok (e.decideFresh s generation host failure).1,
        (e.decideFresh s generation host failure).2) := by
  unfold decideFresh decideBy Engine.decideFresh
  simp only [exec_bind, exec_get]
  by_cases hprompt : (Engine.resolve s (e.isTrustedHost host) host failure.kind).action = .prompt
  · simp only [hprompt, if_true, exec_bind, exec_ask, exec_pure]
    cases s.rememberDecisions <;> rfl
  · simp only [hprompt, if_false, exec_pure]
    cases s.rememberDecisions <;> rfl

lemma exec_decide (failure : ClassifiedFailure) (e : Engine) : (decide failure).exec e =
    ((e.decide failure).map Prod.fst, e.next ((e.decide failure).map Prod.snd)) := by
  unfold decide Engine.decide
  simp only [exec_bind, exec_keyOf]
  cases (Host.key failure.host).isEmpty with
  | true => rfl
  | false =>
    simp only [exec_get, Bool.false_eq_true, if_false]
    cases e.recalled? e.snapshot.1 e.snapshot.2 ⟨Host.key failure.host, failure.kind⟩ with
    | some d => rfl
    | none =>
      simp only [exec_decideFresh]
      rfl

lemma exec_handleFailure (host : String) (failure : CertificateFailure) (e : Engine) :
    (handleFailure host failure).exec e = e.handleFailure host failure := by
  unfold handleFailure Engine.handleFailure
  simp only [exec_bind, exec_keyOf]
  cases (Host.key host).isEmpty with
  | true => rfl
  | false =>
    simp only [exec_get, audit, exec_modify, exec_decide, Bool.false_eq_true, if_false]
    cases Engine.decide _ _ with
    | error err => rfl
    | ok r =>
      simp only [Except.map, Engine.next, exec_modifyGet]
      rfl

theorem exec_ofCall (x : Engine.Call) (e : Engine) : ((ofCall x).exec e).2 = e.perform x := by
  cases x with
  | decide failure =>
    rw [ofCall, exec_bind, exec_decide, Engine.perform]
    cases e.decide failure <;> rfl
  | setStrategy s => rw [ofCall, exec_setStrategy, Engine.perform]
  | addTrustedHost host => rw [ofCall, exec_addTrustedHost, Engine.perform]
  | handleFailure host failure =>
    rw [ofCall, exec_bind, exec_handleFailure, Engine.perform]
    rcases e.handleFailure host failure with ⟨_ | _, _⟩ <;> rfl
  | _ => simp only [ofCall, exec_modify]

end Effects

end TlsTrust
