import TlsTrust.Proofs.Engine.Effects
import TlsTrust.Proofs.Engine.Interleaving

/-!
The strategy in force is always a valid one, and a call that is rejected for its arguments leaves
the engine as it was.
-/

namespace TlsTrust

namespace Engine

variable {e : Engine} {x : Call} {err : EngineError} {host : String}

def hostRejection? (host : String) : Option EngineError :=
  if Host.key host = "" then some .emptyHostname else none

/-- What is wrong with the arguments of a call: a strategy that is not valid, or a host of which its key
leaves nothing. -/
def Call.rejection? : Call → Option EngineError
  | .decide failure => hostRejection? failure.host
  | .setStrategy s => match s.validate with
    | .error problem => some (.strategy problem)
    | .ok () => none
  | .addTrustedHost host => hostRejection? host
  | .handleFailure host _ => hostRejection? host
  | _ => none

lemma hostRejection?_eq_none_iff : hostRejection? host = none ↔ Host.key host ≠ "" := by
  simp [hostRejection?]

lemma exec_keyOf_of_rejection (h : hostRejection? host = some err) (e : Engine) :
    (Effects.keyOf host).exec e = (.error err, e) := by
  unfold hostRejection? at h
  split at h
  case isTrue hkey =>
    obtain rfl := Option.some.inj h
    rw [Effects.exec_keyOf, hkey]
    rfl
  case isFalse => cases h

lemma exec_of_rejection (h : x.rejection? = some err) (e : Engine) :
    (Effects.ofCall x).exec e = (.error err, e) := by
  cases x with
  | decide failure =>
    simp only [Effects.ofCall, Effects.decide, Effects.exec_bind, exec_keyOf_of_rejection h]
  | setStrategy s =>
    rw [Call.rejection?] at h
    rw [Effects.ofCall, Effects.setStrategy]
    cases hs : s.validate with
    | error problem =>
      rw [hs] at h
      obtain rfl := Option.some.inj h
      rfl
    | ok _ =>
      rw [hs] at h
      cases h
  | addTrustedHost host =>
    simp only [Effects.ofCall, Effects.addTrustedHost, Effects.exec_bind, exec_keyOf_of_rejection h]
  | handleFailure host failure =>
    simp only [Effects.ofCall, Effects.handleFailure, Effects.exec_bind, exec_keyOf_of_rejection h]
  | _ => cases h

lemma exec_of_not_rejected (h : x.rejection? = none)
    (hx : ∀ host failure, x ≠ .handleFailure host failure) (e : Engine) :
    ((Effects.ofCall x).exec e).1 = .ok () := by
  cases x with
  | decide failure =>
    obtain ⟨d, e₁, hd⟩ := e.exists_decide (hostRejection?_eq_none_iff.1 h)
    rw [Effects.ofCall, Effects.exec_bind, Effects.exec_decide, hd]
    rfl
  | setStrategy s =>
    rw [Effects.ofCall, Effects.exec_setStrategy]
    rw [Call.rejection?] at h
    cases hs : s.validate with
    | error problem =>
      rw [hs] at h
      cases h
    | ok _ => simp only [setStrategy, hs, Except.map]
  | addTrustedHost host =>
    have hkey : (Host.key host).isEmpty = false := by simpa using hostRejection?_eq_none_iff.1 h
    rw [Effects.ofCall, Effects.exec_addTrustedHost]
    simp only [addTrustedHost, hkey]
    cases e.trusted.contains (Host.key host) <;> rfl
  | handleFailure host failure => exact absurd rfl (hx host failure)
  | _ => rfl

lemma exec_actOnAnswer_of_invalid (e : Engine) {s : Strategy} {problem : StrategyError}
    (h : s.validate = .error problem) (reply : PreparedReply) :
    (Effects.actOnAnswer ⟨some s, false, reply⟩).exec e = (.ok (), e) := by
  simp [Effects.exec_actOnAnswer, actOnAnswer, setStrategy, h]

lemma strategy_of_decided?_eq_none (h : e.decided? x = none) (hx : ∀ s, x ≠ .setStrategy s) :
    (e.perform x).strategy = e.strategy := by
  cases x with
  | decide failure => rw [perform_decide_of_undecided h]
  | setStrategy s => exact absurd rfl (hx s)
  | addTrustedHost host =>
    simp only [perform, addTrustedHost]
    split
    · rfl
    · split <;> rfl
  | removeTrustedHost host =>
    simp only [perform, removeTrustedHost]
    split <;> rfl
  | confirmInsecure host =>
    rw [perform]
    exact (e.escalated_confirmInsecure host).strategy
  | handleFailure host f =>
    rcases perform_handleFailure_of_undecided h with hsame | hsame <;> rw [hsame]
    rfl
  | _ => rfl

namespace Traffic

variable {t : Traffic}

lemma move_strategy (p : Pending) (e : Engine) (m : Pending.Move) :
    (p.move e m).2.strategy = e.strategy := by
  unfold Pending.move
  dsimp only
  split
  · split <;> rfl
  · split <;> rfl
  · rfl
  · split <;> rfl
  · rfl

lemma valid_step (h : t.engine.strategy.validate = .ok ()) (y : Event) :
    (t.step y).engine.strategy.validate = .ok () := by
  cases y with
  | begin failure =>
    unfold step
    dsimp only
    split <;> exact h
  | move i m =>
    unfold step
    dsimp only
    split
    case h_1 p _ => rw [move_strategy]; exact h
    case h_2 => exact h
  | setStrategy s =>
    cases hs : t.engine.setStrategy s with
    | ok e₁ =>
      obtain ⟨hvalid, make, rfl, -⟩ := setStrategy_eq_ok hs
      simp only [step, hs, next]
      exact hvalid
    | error problem =>
      simp only [step, hs, next]
      exact h
  | forgetDecisions => exact h
  | elsewhere w => exact h

lemma valid_run (h : t.engine.strategy.validate = .ok ()) (events : List Event) :
    (t.run events).engine.strategy.validate = .ok () := by
  induction events generalizing t with
  | nil => exact h
  | cons y events ih => exact ih (valid_step h y)

lemma perform_runs (e : Engine) (x : Call) :
    ∃ events, (run ⟨e, []⟩ events).engine = e.perform x := by
  have helsewhere : ∀ e' : Engine, e'.memory = e.memory → e'.strategy = e.strategy →
      ∃ events, (run ⟨e, []⟩ events).engine = e' := fun e' hmemory hstrategy =>
    ⟨[.elsewhere e'], by rw [run_cons, step_elsewhere hmemory hstrategy]; rfl⟩
  cases hx : e.decided? x with
  | some d =>
    obtain ⟨e₀, failure, e₁, hq, hd⟩ := decided?_eq_some hx
    have hbefore := question?_escalated hq
    have hafter := escalated_of_decide hq hd
    obtain ⟨steps, hsteps⟩ := decide_runs hd []
    refine ⟨.elsewhere e₀ :: (.begin failure :: steps ++ [.elsewhere (e.perform x)]), ?_⟩
    rw [run_cons, step_elsewhere hbefore.memory hbefore.strategy, run_append, hsteps, run_cons,
      step_elsewhere hafter.memory hafter.strategy]
    rfl
  | none =>
    have hmemory := memory_of_decided?_eq_none hx
    cases x with
    | setStrategy s => exact ⟨[.setStrategy s], rfl⟩
    | forgetDecisions => exact ⟨[.forgetDecisions], rfl⟩
    | _ =>
      exact helsewhere _ (hmemory.resolve_right fun hclears => hclears.1)
        (strategy_of_decided?_eq_none hx (by simp))

end Traffic

lemma valid_run (h : e.strategy.validate = .ok ()) (calls : List Call) :
    (e.run calls).strategy.validate = .ok () := by
  induction calls using List.reverseRecOn with
  | nil => exact h
  | append_singleton calls x ih =>
    obtain ⟨events, hevents⟩ := Traffic.perform_runs (e.run calls) x
    rw [run_append, run_singleton, ← hevents]
    exact Traffic.valid_run ih events

lemma valid_of_build {config : EngineConfig} {strategy : Strategy} {prompter : Prompter}
    {network : Network} {desk : Desk} (h : build config strategy prompter network desk = .ok e) :
    e.strategy.validate = .ok () := by
  unfold build at h
  split at h
  · cases h
  · split at h
    case h_1 => cases h
    case h_2 hvalid =>
      obtain rfl := Except.ok.inj h
      exact hvalid

/-- However calls follow and overlap each other, the strategy in force is valid. A call that is rejected
for its arguments returns what is wrong with them before it has any effect on the engine, its desk
included, where its records, its probes and the lines typed are. No other call fails but an answer to a
failure. A strategy that an operator puts in force while asked is rejected alike. -/
theorem rejected_calls_change_nothing {config : EngineConfig} {strategy : Strategy}
    {prompter : Prompter} {network : Network} {desk : Desk}
    (hbuild : build config strategy prompter network desk = .ok e) :
    (∀ events, (Traffic.run ⟨e, []⟩ events).engine.strategy.validate = .ok ()) ∧
    (∀ calls, (e.run calls).strategy.validate = .ok ()) ∧
    (∀ x (e' : Engine), ((Effects.ofCall x).exec e').2 = e'.perform x) ∧
    (∀ x err, x.rejection? = some err → ∀ e', (Effects.ofCall x).exec e' = (.error err, e')) ∧
    (∀ x, x.rejection? = none → (∀ host failure, x ≠ .handleFailure host failure) →
      ∀ e', ((Effects.ofCall x).exec e').1 = .ok ()) ∧
    ∀ s problem, s.validate = .error problem → ∀ reply e',
      (Effects.actOnAnswer ⟨some s, false, reply⟩).exec e' = (.ok (), e') := by
  have hvalid := valid_of_build hbuild
  exact ⟨Traffic.valid_run hvalid, valid_run hvalid, Effects.exec_ofCall,
    fun x err => exec_of_rejection, fun x => exec_of_not_rejected,
    fun s problem h reply e' => e'.exec_actOnAnswer_of_invalid h reply⟩

def overreaching : Engine :=
  { bare .interactive with
    prompter := .prepared true
      [⟨some { Strategy.custom with maxRetries := 11 }, false, .chosen .accept⟩] }

theorem overreaching_stays_interactive :
    let e := overreaching.run [.decide (overreaching.classify ⟨"self-signed certificate", none, []⟩
      "dev.local")]
    let rejected : Call := .handleFailure " .. " ⟨"self-signed certificate", none, []⟩
    build overreaching.config overreaching.strategy overreaching.prompter overreaching.network
        overreaching.desk = .ok overreaching ∧
      e.strategy.mode = .interactive ∧ e.memory.size = 1 ∧ e.strategy.validate = .ok () ∧
      rejected.rejection? = some .emptyHostname ∧
      (Effects.ofCall rejected).exec e = (.error .emptyHostname, e) := by
  intro e rejected
  have hbuild : build overreaching.config overreaching.strategy overreaching.prompter
      overreaching.network overreaching.desk = .ok overreaching := rfl
  have hrejection : rejected.rejection? = some .emptyHostname := by decide +kernel
  obtain ⟨-, hvalid, -, hrejected, -⟩ := rejected_calls_change_nothing hbuild
  exact ⟨hbuild, by decide +kernel, by decide +kernel, hvalid _, hrejection,
    hrejected rejected _ hrejection e⟩

end Engine

end TlsTrust
