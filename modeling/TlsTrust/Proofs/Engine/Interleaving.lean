import TlsTrust.Proofs.Engine.Run

/-!
Decisions that overlap on one engine: between the steps of a call other calls go on, the strategy is
replaced, the memory is cleared, and all else may change.
-/

namespace TlsTrust

namespace Engine

open DecisionMemory

inductive Stage where
  | begun
  | missed
  | asking
  | settled (d : Decision)
  | returned (d : Decision)

/-- A call under way, with the strategy and the generation of the memory as they stood when it began. -/
structure Pending where
  failure : ClassifiedFailure
  strategy : Strategy
  generation : Nat
  stage : Stage

namespace Pending

def key (p : Pending) : MemoryKey :=
  ⟨Host.key p.failure.host, p.failure.kind⟩

def reach (p : Pending) (stage : Stage) : Pending :=
  { p with stage }

def start (e : Engine) (failure : ClassifiedFailure) : Pending :=
  ⟨failure, e.snapshot.1, e.snapshot.2, .begun⟩

inductive Move where
  | recall
  | settle
  | answer (a : Action) (reason : String)
  | insert

/-- The next step of a call; a step out of turn does nothing. -/
def move (p : Pending) (e : Engine) (m : Move) : Pending × Engine :=
  match p.stage, m with
  | .begun, .recall =>
    match e.recalled? p.strategy p.generation p.key with
    | some d =>
      (p.reach (.returned d), e.audit (cacheHitRecord p.strategy p.key.host p.failure.kind d))
    | none => (p.reach .missed, e)
  | .missed, .settle =>
    let r := resolve p.strategy (e.isTrustedHost p.key.host) p.key.host p.failure.kind
    if r.action = .prompt then (p.reach .asking, e)
    else
      let d := decisionFor p.strategy p.key.host p.failure.kind r.action false r.reason r.source
      (p.reach (.settled d), e)
  | .asking, .answer a reason =>
    let d := decisionFor p.strategy p.key.host p.failure.kind a true reason .prompt
    (p.reach (.settled d), e)
  | .settled d, .insert =>
    let e := if p.strategy.rememberDecisions then
        { e with memory := e.memory.insert p.generation p.key d }
      else e
    (p.reach (.returned d), e.audit (decisionRecord p.strategy p.key.host p.failure.kind d))
  | _, _ => (p, e)

end Pending

structure Traffic where
  engine : Engine
  calls : List Pending

namespace Traffic

inductive Event where
  | begin (failure : ClassifiedFailure)
  | move (i : Nat) (m : Pending.Move)
  | setStrategy (s : Strategy)
  | forgetDecisions
  /-- All but the memory and the strategy becomes that of another engine. -/
  | elsewhere (w : Engine)

def step (t : Traffic) : Event → Traffic
  | .begin failure =>
    if (Host.key failure.host).isEmpty then t
    else { t with calls := t.calls ++ [.start t.engine failure] }
  | .move i m =>
    match t.calls[i]? with
    | some p => ⟨(p.move t.engine m).2, t.calls.set i (p.move t.engine m).1⟩
    | none => t
  | .setStrategy s => { t with engine := t.engine.next (t.engine.setStrategy s) }
  | .forgetDecisions => { t with engine := t.engine.forgetDecisions }
  | .elsewhere w =>
    { t with engine := { w with memory := t.engine.memory, strategy := t.engine.strategy } }

def run (t : Traffic) (events : List Event) : Traffic :=
  events.foldl step t

@[simp] lemma run_nil (t : Traffic) : t.run [] = t := rfl

@[simp] lemma run_cons (t : Traffic) (x : Event) (events : List Event) :
    t.run (x :: events) = (t.step x).run events := rfl

@[simp] lemma run_append (t : Traffic) (xs ys : List Event) :
    t.run (xs ++ ys) = (t.run xs).run ys := by
  simp [run]

variable {e e' : Engine} {failure : ClassifiedFailure} {d : Decision} {calls : List Pending}

lemma step_move_last (e : Engine) (calls : List Pending) (p : Pending) (m : Pending.Move) :
    step ⟨e, calls ++ [p]⟩ (.move calls.length m) =
      ⟨(p.move e m).2, calls ++ [(p.move e m).1]⟩ := by
  simp [step]

lemma step_elsewhere (hmemory : e'.memory = e.memory) (hstrategy : e'.strategy = e.strategy) :
    step ⟨e, calls⟩ (.elsewhere e') = ⟨e', calls⟩ := by
  simp only [step, ← hmemory, ← hstrategy]

lemma actOnAnswer_runs (e : Engine) (a : PreparedAnswer) :
    ∃ events, ∀ calls, run ⟨e, calls⟩ events = ⟨e.actOnAnswer a, calls⟩ := by
  have hforget : ∀ e₁ : Engine, ∃ events, ∀ calls, run ⟨e₁, calls⟩ events =
      ⟨if a.forget then e₁.forgetDecisions else e₁, calls⟩ := by
    intro e₁
    by_cases h : a.forget
    · exact ⟨[.forgetDecisions], fun calls => by simp [step, h]⟩
    · exact ⟨[], fun calls => by simp [h]⟩
  unfold actOnAnswer
  cases a.swap with
  | none => exact hforget e
  | some s =>
    cases hs : e.setStrategy s with
    | error err => simpa only [hs] using hforget e
    | ok e₁ =>
      obtain ⟨events, hevents⟩ := hforget e₁
      refine ⟨.setStrategy s :: events, fun calls => ?_⟩
      simpa only [run_cons, step, hs, next] using hevents calls

lemma prompt_runs (e : Engine) (failure : ClassifiedFailure) (seconds : Nat) :
    ∃ events, ∀ calls, run ⟨e, calls⟩ events = ⟨(e.prompt failure seconds).2, calls⟩ := by
  unfold prompt
  dsimp only
  split
  case h_1 => exact ⟨[], fun _ => rfl⟩
  case h_2 => exact ⟨[.elsewhere _], fun _ => step_elsewhere rfl rfl⟩
  case h_3 available answers _ =>
    cases answers with
    | nil => exact ⟨[.elsewhere _], fun _ => step_elsewhere rfl rfl⟩
    | cons a rest =>
      let asked : Engine := { e with
        desk := e.desk.note (.asked failure.host failure.kind seconds)
        prompter := .prepared available rest }
      obtain ⟨events, hevents⟩ := actOnAnswer_runs asked a
      refine ⟨.elsewhere asked :: events, fun calls => ?_⟩
      have hasked : step ⟨e, calls⟩ (.elsewhere asked) = ⟨asked, calls⟩ := step_elsewhere rfl rfl
      rw [run_cons, hasked, hevents]

lemma ask_runs (e : Engine) (s : Strategy) (failure : ClassifiedFailure) :
    ∃ events, ∀ calls, run ⟨e, calls⟩ events = ⟨(e.ask s failure).2, calls⟩ := by
  unfold ask
  split
  · exact prompt_runs e failure s.decisionTimeout
  · exact ⟨[], fun _ => rfl⟩

lemma decideFresh_runs (e : Engine) (s : Strategy) (generation : Nat)
    (failure : ClassifiedFailure) (calls : List Pending) :
    ∃ events, run ⟨e, calls ++ [⟨failure, s, generation, .missed⟩]⟩ events =
      ⟨(e.decideFresh s generation (Host.key failure.host) failure).2, calls ++ [⟨failure, s,
        generation, .returned (e.decideFresh s generation (Host.key failure.host) failure).1⟩]⟩ := by
  unfold decideFresh
  dsimp only
  by_cases hprompt : (resolve s (e.isTrustedHost (Host.key failure.host)) (Host.key failure.host)
      failure.kind).action = .prompt
  · obtain ⟨events, hevents⟩ := ask_runs e s failure
    refine ⟨.move calls.length .settle :: (events ++ [.move calls.length
      (.answer (e.ask s failure).1.1 (e.ask s failure).1.2), .move calls.length .insert]), ?_⟩
    simp only [run_cons, run_append, run_nil, step_move_last, Pending.move, Pending.key,
      Pending.reach, hprompt, if_true, hevents]
  · refine ⟨[.move calls.length .settle, .move calls.length .insert], ?_⟩
    simp only [run_cons, run_nil, step_move_last, Pending.move, Pending.key, Pending.reach, hprompt,
      if_false]

lemma decide_runs (h : e.decide failure = .ok (d, e')) (calls : List Pending) :
    ∃ events, run ⟨e, calls⟩ (.begin failure :: events) =
      ⟨e', calls ++ [⟨failure, e.strategy, e.memory.generation, .returned d⟩]⟩ := by
  obtain ⟨hkey, hcases⟩ := decide_eq_ok h
  have hbegin : step ⟨e, calls⟩ (.begin failure) =
      ⟨e, calls ++ [⟨failure, e.strategy, e.memory.generation, .begun⟩]⟩ := by
    simp [step, hkey, Pending.start, snapshot]
  rcases hcases with ⟨hremember, hfind, rfl⟩ | ⟨hmiss, hfresh⟩
  · refine ⟨[.move calls.length .recall], ?_⟩
    simp [hbegin, step_move_last, Pending.move, Pending.key, Pending.reach, recalled?, get?,
      hremember, hfind]
  · obtain ⟨events, hevents⟩ := decideFresh_runs e e.strategy e.memory.generation failure calls
    rw [hfresh] at hevents
    refine ⟨.move calls.length .recall :: events, ?_⟩
    rw [run_cons, hbegin, run_cons, step_move_last]
    simpa only [Pending.move, Pending.key, Pending.reach, hmiss] using hevents

variable {t t₀ : Traffic} {x : Event} {before after events : List Event} {i : Nat} {p : Pending}
  {key : MemoryKey}

lemma move_reaches (p : Pending) (e : Engine) (m : Pending.Move) :
    ∃ stage, (p.move e m).1 = p.reach stage := by
  unfold Pending.move
  dsimp only
  split
  · split <;> exact ⟨_, rfl⟩
  · split <;> exact ⟨_, rfl⟩
  · exact ⟨_, rfl⟩
  · exact ⟨_, rfl⟩
  · exact ⟨p.stage, rfl⟩

lemma calls_step (h : (t.step x).calls[i]? = some p) :
    (∃ q stage, t.calls[i]? = some q ∧ p = q.reach stage) ∨
      ∃ failure, x = .begin failure ∧ i = t.calls.length ∧ p = .start t.engine failure := by
  have hsame : t.calls[i]? = some p → ∃ q stage, t.calls[i]? = some q ∧ p = q.reach stage :=
    fun h => ⟨p, p.stage, h, rfl⟩
  cases x with
  | begin failure =>
    unfold step at h
    dsimp only at h
    split at h
    · exact .inl (hsame h)
    · by_cases hi : i < t.calls.length
      · rw [List.getElem?_append_left hi] at h
        exact .inl (hsame h)
      · obtain ⟨hle, hstart⟩ : i = t.calls.length ∧ p = .start t.engine failure := by
          rw [List.getElem?_append_right (Nat.le_of_not_lt hi), List.getElem?_singleton] at h
          split at h
          case isTrue hzero => exact ⟨by omega, (Option.some.inj h).symm⟩
          case isFalse => cases h
        exact .inr ⟨failure, rfl, hle, hstart⟩
  | move j m =>
    unfold step at h
    dsimp only at h
    split at h
    case h_1 q hq =>
      obtain ⟨stage, hstage⟩ := move_reaches q t.engine m
      rw [hstage, List.getElem?_set] at h
      split at h
      case isTrue hij =>
        obtain rfl := hij
        split at h
        · exact .inl ⟨q, stage, hq, (Option.some.inj h).symm⟩
        · cases h
      case isFalse => exact .inl (hsame h)
    case h_2 => exact .inl (hsame h)
  | setStrategy s => exact .inl (hsame h)
  | forgetDecisions => exact .inl (hsame h)
  | elsewhere w => exact .inl (hsame h)

lemma length_calls_step (t : Traffic) (x : Event) : t.calls.length ≤ (t.step x).calls.length := by
  cases x with
  | begin failure =>
    unfold step
    dsimp only
    split <;> simp
  | move j m =>
    unfold step
    dsimp only
    split <;> simp
  | _ => exact Nat.le_refl _

lemma length_calls_run (t : Traffic) (events : List Event) :
    t.calls.length ≤ (t.run events).calls.length := by
  induction events generalizing t with
  | nil => exact Nat.le_refl _
  | cons x events ih => exact Nat.le_trans (t.length_calls_step x) (ih _)

def Began (t₀ : Traffic) (events : List Event) (i : Nat) (p : Pending) : Prop :=
  ∃ before failure after stage, events = before ++ .begin failure :: after ∧
    i = (t₀.run before).calls.length ∧
    p = (Pending.start (t₀.run before).engine failure).reach stage

lemma began_of_calls (hnone : t₀.calls = []) (events : List Event)
    (h : (t₀.run events).calls[i]? = some p) : Began t₀ events i p := by
  induction events using List.reverseRecOn generalizing p with
  | nil => simp [hnone] at h
  | append_singleton events x ih =>
    rw [run_append] at h
    rcases calls_step h with ⟨q, stage, hq, rfl⟩ | ⟨failure, rfl, hi, rfl⟩
    · obtain ⟨before, failure, after, stage', rfl, hi, rfl⟩ := ih hq
      exact ⟨before, failure, after ++ [x], stage, by simp, hi, rfl⟩
    · exact ⟨events, failure, [], .begun, rfl, hi, rfl⟩

structure Writes (t : Traffic) (i : Nat) (p : Pending) (d : Decision) : Prop where
  call : t.calls[i]? = some p
  settled : p.stage = .settled d
  remembers : p.strategy.rememberDecisions = true
  current : p.generation = t.engine.memory.generation

lemma step_memory_of_writes (h : t.Writes i p d) :
    (t.step (.move i .insert)).engine.memory = t.engine.memory.insert p.generation p.key d := by
  simp only [step, h.call, Pending.move, h.settled, h.remembers, if_true]
  rfl

lemma move_memory (p : Pending) (e : Engine) (m : Pending.Move) :
    (p.move e m).2.memory = e.memory ∨ ∃ d, m = .insert ∧ p.stage = .settled d ∧
      p.strategy.rememberDecisions = true ∧ p.generation = e.memory.generation := by
  unfold Pending.move
  dsimp only
  split
  · left
    split <;> rfl
  · left
    split <;> rfl
  · exact .inl rfl
  case h_4 d hstage =>
    by_cases hremember : p.strategy.rememberDecisions = true
    · by_cases hcurrent : p.generation = e.memory.generation
      · exact .inr ⟨d, rfl, hstage, hremember, hcurrent⟩
      · left
        simp only [hremember, if_true]
        exact insert_of_outdated hcurrent
    · left
      simp only [hremember]
      rfl
  · exact .inl rfl

lemma step_memory_of_not_writes (h : ∀ i p d, x = .move i .insert → ¬ t.Writes i p d) :
    t.engine.memory.Renewed (t.step x).engine.memory := by
  cases x with
  | begin failure =>
    unfold step
    dsimp only
    split <;> exact .refl _
  | move i m =>
    unfold step
    dsimp only
    split
    case h_1 p hp =>
      rcases move_memory p t.engine m with hsame | ⟨d, rfl, hstage, hremember, hcurrent⟩
      · exact .inl hsame
      · exact absurd ⟨hp, hstage, hremember, hcurrent⟩ (h i p d rfl)
    case h_2 => exact .refl _
  | setStrategy s =>
    cases hs : t.engine.setStrategy s with
    | ok e₁ =>
      simp only [step, hs, next]
      exact (asked_setStrategy hs).memory
    | error err =>
      simp only [step, hs, next]
      exact .refl _
  | forgetDecisions => exact renewed_invalidate _
  | elsewhere w => exact .refl _

lemma generation_step_le (t : Traffic) (x : Event) :
    t.engine.memory.generation ≤ (t.step x).engine.memory.generation := by
  by_cases hw : ∃ i p d, x = .move i .insert ∧ t.Writes i p d
  · obtain ⟨i, p, d, rfl, hw⟩ := hw
    exact Nat.le_of_eq (by rw [step_memory_of_writes hw, insert_generation])
  · rcases step_memory_of_not_writes fun i p d hx h => hw ⟨i, p, d, hx, h⟩ with heq | ⟨hlt, -⟩
    · exact Nat.le_of_eq (by rw [heq])
    · exact Nat.le_of_lt hlt

lemma generation_run_le (t : Traffic) (events : List Event) :
    t.engine.memory.generation ≤ (t.run events).engine.memory.generation := by
  induction events generalizing t with
  | nil => exact Nat.le_refl _
  | cons x events ih => exact Nat.le_trans (t.generation_step_le x) (ih _)

/-- A call that began in the run was the last to remember a decision under a key, in the generation of
its snapshot, which is still the current one. -/
def WroteLast (t₀ : Traffic) (events : List Event) (key : MemoryKey) (i : Nat) (d : Decision) :
    Prop :=
  ∃ before p after, events = before ++ .move i .insert :: after ∧ Began t₀ before i p ∧
    (t₀.run before).Writes i p d ∧ p.key = key ∧
    p.generation = (t₀.run events).engine.memory.generation ∧
    ∀ mid j q d' rest, after = mid ++ .move j .insert :: rest →
      (t₀.run (before ++ .move i .insert :: mid)).Writes j q d' → q.key ≠ key

lemma WroteLast.snoc {key : MemoryKey} (h : WroteLast t₀ events key i d)
    (hsame : (t₀.run (events ++ [x])).engine.memory.generation =
      (t₀.run events).engine.memory.generation)
    (hother : ∀ j q d', x = .move j .insert → (t₀.run events).Writes j q d' → q.key ≠ key) :
    WroteLast t₀ (events ++ [x]) key i d := by
  obtain ⟨before, p, after, rfl, hbegan, hwrites, hkey, hgen, hlast⟩ := h
  refine ⟨before, p, after ++ [x], by simp, hbegan, hwrites, hkey, hgen.trans hsame.symm, ?_⟩
  intro mid j q d' rest hsplit hq
  rcases Trail.split_append hsplit with ⟨mid', rfl, -⟩ | ⟨mid', rfl, hx⟩
  · exact hlast mid j q d' mid' rfl hq
  · cases mid' with
    | nil =>
      obtain ⟨rfl, -⟩ := List.cons.inj hx
      exact hother j q d' rfl (by simpa using hq)
    | cons y mid' => simp at hx

lemma wroteLast_of_mem {key : MemoryKey} (hcalls : t₀.calls = [])
    (hempty : t₀.engine.memory.entries = []) (events : List Event)
    (h : (key, d) ∈ (t₀.run events).engine.memory.entries) : ∃ i, WroteLast t₀ events key i d := by
  -- by induction on the run: an entry is the one just written, or was there before
  induction events using List.reverseRecOn generalizing d with
  | nil => simp [hempty] at h
  | append_singleton events x ih =>
    have hrun : t₀.run (events ++ [x]) = (t₀.run events).step x := by simp
    by_cases hw : ∃ i p d, x = .move i .insert ∧ (t₀.run events).Writes i p d
    · obtain ⟨j, q, d', rfl, hw⟩ := hw
      have hmem := step_memory_of_writes hw
      have hsame : (t₀.run (events ++ [.move j .insert])).engine.memory.generation =
          (t₀.run events).engine.memory.generation := by
        rw [hrun, hmem, insert_generation]
      rw [hrun, hmem, mem_entries_insert_of_current hw.current] at h
      rcases h with heq | ⟨hold, hne⟩
      · obtain ⟨rfl, rfl⟩ := Prod.mk.inj heq
        exact ⟨j, events, q, [], rfl, began_of_calls hcalls events hw.call, hw, rfl,
          hw.current.trans hsame.symm, by simp⟩
      · obtain ⟨i, hi⟩ := ih hold
        refine ⟨i, hi.snoc hsame ?_⟩
        rintro j' q' d'' hx hw'
        obtain ⟨rfl, -⟩ := Event.move.inj hx
        obtain rfl := Option.some.inj (hw.call.symm.trans hw'.call)
        exact fun hkey => hne hkey.symm
    · have hnone : ∀ i p d, x = .move i .insert → ¬ (t₀.run events).Writes i p d :=
        fun i p d hx h => hw ⟨i, p, d, hx, h⟩
      rw [hrun] at h
      rcases step_memory_of_not_writes hnone with heq | ⟨-, hnil⟩
      · rw [heq] at h
        obtain ⟨i, hi⟩ := ih h
        exact ⟨i, hi.snoc (by rw [hrun, heq]) fun j q d' hx hq => absurd hq (hnone j q d' hx)⟩
      · simp [hnil] at h

def Event.Clears : Event → Prop
  | .forgetDecisions => True
  | .setStrategy s => s.validate = .ok () ∧ s.retainMemory = false
  | _ => False

lemma generation_lt_of_clears (h : x.Clears) :
    t.engine.memory.generation < (t.step x).engine.memory.generation := by
  cases x with
  | forgetDecisions => exact Nat.lt_succ_self _
  | setStrategy s => exact t.engine.generation_lt_of_setStrategy h.1 h.2
  | _ => cases h

lemma WroteLast.began_after {key : MemoryKey} (hx : x.Clears)
    (h : WroteLast t₀ (before ++ x :: after) key i d) : (t₀.run before).calls.length ≤ i := by
  obtain ⟨written, p, rest, heq, ⟨start, failure, mid, stage, rfl, rfl, rfl⟩, -, -, hgen, -⟩ := h
  rw [List.append_assoc] at heq
  rcases List.append_eq_append_iff.1 heq with ⟨later, rfl, -⟩ | ⟨later, rfl, -⟩
  · rw [run_append]
    exact length_calls_run _ later
  · -- the call held a generation from before the memory was cleared
    have hbefore := (t₀.run start).generation_run_le later
    have hclear : ((t₀.run start).run later).engine.memory.generation <
        (((t₀.run start).run later).step x).engine.memory.generation := generation_lt_of_clears hx
    have hafter := (((t₀.run start).run later).step x).generation_run_le after
    have hheld : (t₀.run start).engine.memory.generation =
        ((((t₀.run start).run later).step x).run after).engine.memory.generation := by
      simpa [Pending.start, Pending.reach, snapshot] using hgen
    omega

lemma mem_entries_of_recalled? {s : Strategy} {generation : Nat} {key : MemoryKey}
    (h : e.recalled? s generation key = some d) : (key, d) ∈ e.memory.entries := by
  unfold recalled? DecisionMemory.get? at h
  split at h
  · split at h
    · exact mem_entries_of_find? h
    · cases h
  · cases h

lemma step_insert_of_outdated (h : t.calls[i]? = some p)
    (hold : p.generation ≠ t.engine.memory.generation) :
    (t.step (.move i .insert)).engine.memory = t.engine.memory := by
  have hmove : (t.step (.move i .insert)).engine = (p.move t.engine .insert).2 := by
    simp only [step, h]
  rw [hmove]
  rcases move_memory p t.engine .insert with hsame | ⟨d, -, -, -, hcurrent⟩
  · exact hsame
  · exact absurd hcurrent hold

/-- However decisions overlap with each other, with changes of the strategy and with requests to
forget: what is remembered was written last by a call that holds the current generation and, if the
memory has been cleared, began after this. A call that holds an older generation leaves the memory as
it is. A decision that is not interrupted is among these runs. -/
theorem memory_belongs_to_current_calls {config : EngineConfig} {strategy : Strategy}
    {prompter : Prompter} {network : Network} {desk : Desk}
    (h : build config strategy prompter network desk = .ok e) (events : List Event) :
    (∀ key d, (key, d) ∈ (run ⟨e, []⟩ events).engine.memory.entries →
      ∃ i, WroteLast ⟨e, []⟩ events key i d) ∧
    (∀ before x after, events = before ++ x :: after → x.Clears → ∀ s generation key d,
      (run ⟨e, []⟩ events).engine.recalled? s generation key = some d →
        ∃ i, (run ⟨e, []⟩ before).calls.length ≤ i ∧ WroteLast ⟨e, []⟩ events key i d) ∧
    (∀ i p, (run ⟨e, []⟩ events).calls[i]? = some p →
      p.generation ≠ (run ⟨e, []⟩ events).engine.memory.generation →
        ((run ⟨e, []⟩ events).step (.move i .insert)).engine.memory =
          (run ⟨e, []⟩ events).engine.memory) ∧
    ∀ failure d e', (run ⟨e, []⟩ events).engine.decide failure = .ok (d, e') → ∃ steps p,
      (run ⟨e, []⟩ events).run (.begin failure :: steps) =
        ⟨e', (run ⟨e, []⟩ events).calls ++ [p]⟩ ∧ p.stage = .returned d := by
  have hempty : e.memory.entries = [] := by rw [memory_of_build h]
  have hlast : ∀ key d, (key, d) ∈ (run ⟨e, []⟩ events).engine.memory.entries →
      ∃ i, WroteLast ⟨e, []⟩ events key i d := fun key d => wroteLast_of_mem rfl hempty events
  refine ⟨hlast, ?_, ?_, ?_⟩
  · rintro before x after rfl hx s generation key d hd
    obtain ⟨i, hi⟩ := hlast key d (mem_entries_of_recalled? hd)
    exact ⟨i, hi.began_after hx, hi⟩
  · exact fun i p hp hold => step_insert_of_outdated hp hold
  · intro failure d e' hd
    obtain ⟨steps, hsteps⟩ := decide_runs hd (run ⟨e, []⟩ events).calls
    exact ⟨steps, _, hsteps, rfl⟩

def selfSigned : ClassifiedFailure :=
  (bare .interactive).classify ⟨"self-signed certificate", none, []⟩ "dev.local"

def lateAnswer : List Event :=
  [.begin selfSigned, .move 0 .recall, .move 0 .settle,
    .setStrategy { Strategy.secure with rememberDecisions := true },
    .move 0 (.answer .accept "operator accepted"), .move 0 .insert,
    .begin selfSigned, .move 1 .recall, .move 1 .settle, .move 1 .insert]

theorem late_answer_is_forgotten :
    build (bare .interactive).config .interactive (bare .interactive).prompter
        (bare .interactive).network (bare .interactive).desk = .ok (bare .interactive) ∧
      (run ⟨bare .interactive, []⟩ (lateAnswer.take 6)).engine.memory.entries = [] ∧
      ∃ d i, (run ⟨bare .interactive, []⟩ lateAnswer).engine.recalled?
          { Strategy.secure with rememberDecisions := true } 1 ⟨"dev.local", .selfSigned⟩ = some d ∧
        d.action = .deny ∧ 1 ≤ i ∧
          WroteLast ⟨bare .interactive, []⟩ lateAnswer ⟨"dev.local", .selfSigned⟩ i d := by
  have hbuild : build (bare .interactive).config .interactive (bare .interactive).prompter
      (bare .interactive).network (bare .interactive).desk = .ok (bare .interactive) := rfl
  have hempty : (run ⟨bare .interactive, []⟩ (lateAnswer.take 6)).engine.memory.entries = [] := by
    decide +kernel
  have haction : ((run ⟨bare .interactive, []⟩ lateAnswer).engine.recalled?
      { Strategy.secure with rememberDecisions := true } 1 ⟨"dev.local", .selfSigned⟩).map
        Decision.action = some .deny := by decide +kernel
  obtain ⟨d, hd, hdeny⟩ := Option.map_eq_some_iff.1 haction
  obtain ⟨i, hi, hwrote⟩ := (memory_belongs_to_current_calls hbuild lateAnswer).2.1
    (lateAnswer.take 3) _ (lateAnswer.drop 4) rfl ⟨rfl, rfl⟩ _ _ _ d hd
  exact ⟨hbuild, hempty, d, i, hd, hdeny, hi, hwrote⟩

end Traffic

end Engine

end TlsTrust
