import TlsTrust.Proofs.Strategy.RoundTrip

/-!
Overrides are told apart by the keys of their hosts, and all else that a document says stands before
the values of the preset.
-/

namespace TlsTrust

namespace StrategyDocument

variable {d : StrategyDocument} {t t' : Table Action} {es es' : List (String × Action)}
  {key host : String} {a b : Action} {err : StrategyError}

/-- An action for a key, in a table or by an override that is still to be added to it. -/
def Gives (t : Table Action) (es : List (String × Action)) (key : String) (a : Action) : Prop :=
  t.get? key = some a ∨ ∃ e ∈ es, Host.key e.1 = key ∧ e.2 = a

lemma gives_empty : Gives .empty es key a ↔ ∃ e ∈ es, Host.key e.1 = key ∧ e.2 = a := by
  rw [Gives, Table.get?_empty, or_iff_right (Option.some_ne_none a).symm]

def Agrees (t : Table Action) (e : String × Action) : Prop :=
  ∀ b, t.get? (Host.key e.1) = some b → b = e.2

lemma addOverrides_cons_of_agrees {e : String × Action} (h : Agrees t e) :
    addOverrides t (e :: es) = addOverrides (t.insert (Host.key e.1) e.2) es := by
  simp only [addOverrides]
  split
  case h_1 b hget => rw [if_pos (h b hget)]
  case h_2 => rfl

lemma addOverrides_cons_of_conflict {e : String × Action} (hget : t.get? (Host.key e.1) = some b)
    (h : b ≠ e.2) : addOverrides t (e :: es) = .error (.conflictingOverrides (Host.key e.1)) := by
  simp only [addOverrides, hget, if_neg h]

lemma gives_insert {e : String × Action} (h : Agrees t e) :
    Gives (t.insert (Host.key e.1) e.2) es key b ↔ Gives t (e :: es) key b := by
  have hinsert : (t.insert (Host.key e.1) e.2).get? key = some b ↔
      t.get? key = some b ∨ Host.key e.1 = key ∧ e.2 = b := by
    by_cases hkey : key = Host.key e.1
    · subst hkey
      rw [Table.get?_insert_self, Option.some_inj]
      refine ⟨fun hab => .inr ⟨rfl, hab⟩, ?_⟩
      rintro (hget | ⟨-, hab⟩)
      · exact (h b hget).symm
      · exact hab
    · rw [Table.get?_insert_of_ne _ hkey, or_iff_left fun hk => hkey hk.1.symm]
  simp only [Gives, hinsert, List.mem_cons, exists_eq_or_imp, or_assoc]

/-- What comes of adding overrides: a table of all that they give, or a conflict among them. -/
inductive Added (t : Table Action) (es : List (String × Action)) :
    Except StrategyError (Table Action) → Prop where
  | ok {t' : Table Action} (h : ∀ key a, t'.get? key = some a ↔ Gives t es key a) : Added t es (.ok t')
  | conflict {key : String} {a b : Action} (ha : Gives t es key a) (hb : Gives t es key b)
    (hne : a ≠ b) : Added t es (.error (.conflictingOverrides key))

lemma added_addOverrides (t : Table Action) (es : List (String × Action)) :
    Added t es (addOverrides t es) := by
  induction es generalizing t with
  | nil => exact .ok fun key a => by simp [Gives]
  | cons e es ih =>
    by_cases hagrees : Agrees t e
    · have hrest := ih (t.insert (Host.key e.1) e.2)
      rw [addOverrides_cons_of_agrees hagrees]
      generalize addOverrides (t.insert (Host.key e.1) e.2) es = result at hrest ⊢
      cases hrest with
      | ok h => exact .ok fun key a => (h key a).trans (gives_insert hagrees)
      | conflict ha hb hne =>
        exact .conflict ((gives_insert hagrees).1 ha) ((gives_insert hagrees).1 hb) hne
    · obtain ⟨b, hget, hne⟩ : ∃ b, t.get? (Host.key e.1) = some b ∧ b ≠ e.2 := by
        simpa [Agrees] using hagrees
      rw [addOverrides_cons_of_conflict hget hne]
      exact .conflict (.inl hget) (.inr ⟨e, List.mem_cons_self, rfl, rfl⟩) hne

lemma Added.error_iff {result : Except StrategyError (Table Action)} (h : Added t es result) :
    (∃ err, result = .error err) ↔ ∃ key a b, Gives t es key a ∧ Gives t es key b ∧ a ≠ b := by
  cases h with
  | ok hgives =>
    refine iff_of_false (fun ⟨_, he⟩ => nomatch he) ?_
    rintro ⟨key, a, b, ha, hb, hne⟩
    exact hne (Option.some.inj (((hgives key a).2 ha).symm.trans ((hgives key b).2 hb)))
  | conflict ha hb hne => exact iff_of_true ⟨_, rfl⟩ ⟨_, _, _, ha, hb, hne⟩

lemma Added.toOption_eq {result result' : Except StrategyError (Table Action)}
    (h : Added t es result) (h' : Added t es' result')
    (hgives : ∀ key a, Gives t es key a ↔ Gives t es' key a) : result.toOption = result'.toOption := by
  have hiff : (∃ err, result = .error err) ↔ ∃ err, result' = .error err := by
    simp only [h.error_iff, h'.error_iff, hgives]
  cases h with
  | ok htable =>
    cases h' with
    | ok htable' =>
      refine congrArg some (Table.eq_of_get? fun key a => ?_)
      rw [htable, htable', hgives]
    | conflict => simp at hiff
  | conflict =>
    cases h' with
    | ok => simp at hiff
    | conflict => rfl

def merged (d : StrategyDocument) (overrides : Table Action) : Strategy :=
  let preset := Strategy.ofMode d.mode
  { preset with
    rules := preset.rules.override d.rules
    hostOverrides := overrides
    insecureHosts := d.insecureHosts.foldl (fun s h => s.add (Host.key h)) preset.insecureHosts
    promptEnabled := d.promptEnabled.getD preset.promptEnabled
    rememberDecisions := d.rememberDecisions.getD preset.rememberDecisions
    retainMemory := d.retainMemory.getD preset.retainMemory
    decisionTimeout := d.decisionTimeout.getD preset.decisionTimeout
    maxRetries := d.maxRetries.getD preset.maxRetries }

lemma toStrategy_eq (d : StrategyDocument) :
    d.toStrategy = (addOverrides .empty d.hostOverrides.entries).map d.merged := by
  simp only [toStrategy, (Strategy.hosts_ofMode d.mode).1]
  cases addOverrides .empty d.hostOverrides.entries <;> rfl

def HasOverride (d : StrategyDocument) (key : String) (a : Action) : Prop :=
  ∃ host, d.hostOverrides.get? host = some a ∧ Host.key host = key

lemma gives_entries : Gives .empty d.hostOverrides.entries key a ↔ d.HasOverride key a := by
  rw [gives_empty]
  constructor
  · rintro ⟨⟨host, a⟩, he, rfl, rfl⟩
    exact ⟨host, Table.mem_entries.1 he, rfl⟩
  · rintro ⟨host, hget, rfl⟩
    exact ⟨(host, a), Table.mem_entries.2 hget, rfl, rfl⟩

/-- A strategy has what the document gives, and what the preset of its mode has of all else. -/
structure Follows (s : Strategy) (d : StrategyDocument) : Prop where
  mode : s.mode = d.mode
  rules : ∀ kind, s.rules.get? kind =
    (d.rules.get? kind).or ((Strategy.ofMode d.mode).rules.get? kind)
  hostOverrides : ∀ key a, s.hostOverrides.get? key = some a ↔ d.HasOverride key a
  insecureHosts : ∀ key, s.insecureHosts.contains key = true ↔
    ∃ host ∈ d.insecureHosts, Host.key host = key
  promptEnabled : s.promptEnabled = d.promptEnabled.getD (Strategy.ofMode d.mode).promptEnabled
  rememberDecisions : s.rememberDecisions =
    d.rememberDecisions.getD (Strategy.ofMode d.mode).rememberDecisions
  retainMemory : s.retainMemory = d.retainMemory.getD (Strategy.ofMode d.mode).retainMemory
  decisionTimeout : s.decisionTimeout =
    d.decisionTimeout.getD (Strategy.ofMode d.mode).decisionTimeout
  maxRetries : s.maxRetries = d.maxRetries.getD (Strategy.ofMode d.mode).maxRetries

lemma follows_merged (h : ∀ key a, t.get? key = some a ↔ d.HasOverride key a) :
    Follows (d.merged t) d where
  mode := Strategy.mode_ofMode d.mode
  rules _ := rfl
  hostOverrides := h
  insecureHosts key := by
    simp only [merged, (Strategy.hosts_ofMode d.mode).2, NameSet.contains_foldl_add]
    simp [Table.contains_eq_isSome_get?]
  promptEnabled := rfl
  rememberDecisions := rfl
  retainMemory := rfl
  decisionTimeout := rfl
  maxRetries := rfl

lemma merged_of_perm {hosts : List String} (h : hosts.Perm d.insecureHosts) (o t : Table Action) :
    { d with hostOverrides := o, insecureHosts := hosts }.merged t = d.merged t := by
  simp only [merged, NameSet.foldl_add_of_perm h]

/-- A document fails exactly when two of its overrides give one host different actions. Otherwise the
strategy follows it. Neither the order in which entries are listed nor that in which overrides are added
leaves a trace. -/
theorem document_is_merged_over_preset (d : StrategyDocument) :
    ((∃ err, d.toStrategy = .error err) ↔
      ∃ key a b, d.HasOverride key a ∧ d.HasOverride key b ∧ a ≠ b) ∧
    (∀ err, d.toStrategy = .error err → ∃ key a b, err = .conflictingOverrides key ∧
      d.HasOverride key a ∧ d.HasOverride key b ∧ a ≠ b) ∧
    (∀ s, d.toStrategy = .ok s → Follows s d) ∧
    ∀ es hosts, es.Perm d.hostOverrides.entries → hosts.Perm d.insecureHosts →
      { d with hostOverrides := .ofList es, insecureHosts := hosts }.toStrategy = d.toStrategy ∧
      (addOverrides .empty es).toOption = d.toStrategy.toOption.map (·.hostOverrides) := by
  have hadded := added_addOverrides .empty d.hostOverrides.entries
  have hmap : ∀ result : Except StrategyError (Table Action),
      (∃ err, result.map d.merged = .error err) ↔ ∃ err, result = .error err := by
    rintro (_ | _) <;> simp [Except.map]
  refine ⟨?_, fun err herr => ?_, fun s hs => ?_, fun es hosts hes hhosts => ⟨?_, ?_⟩⟩
  · rw [toStrategy_eq, hmap, hadded.error_iff]
    simp only [gives_entries]
  · rw [toStrategy_eq] at herr
    generalize addOverrides .empty d.hostOverrides.entries = result at hadded herr
    cases hadded with
    | ok => cases herr
    | conflict ha hb hne =>
      cases herr
      exact ⟨_, _, _, rfl, gives_entries.1 ha, gives_entries.1 hb, hne⟩
  · rw [toStrategy_eq] at hs
    generalize addOverrides .empty d.hostOverrides.entries = result at hadded hs
    cases hadded with
    | ok h =>
      cases hs
      exact follows_merged fun key a => (h key a).trans gives_entries
    | conflict => cases hs
  · rw [toStrategy_eq, toStrategy_eq, Table.ofList_of_perm hes]
    exact congrArg (Except.map · _) (funext fun t => merged_of_perm hhosts _ t)
  · have hsame : (addOverrides .empty es).toOption =
        (addOverrides .empty d.hostOverrides.entries).toOption := by
      refine (added_addOverrides .empty es).toOption_eq hadded fun key a => ?_
      simp only [Gives, hes.mem_iff]
    rw [hsame, toStrategy_eq]
    cases addOverrides .empty d.hostOverrides.entries <;> rfl

theorem three_spellings_of_one_host_agree :
    let document (a : Action) : StrategyDocument := {
      mode := .interactive
      rules := .insert .empty .expired .log
      hostOverrides := .ofList [("A.example", .log), (" a.example", .log), ("a.example.", a)]
      insecureHosts := ["Dev.local.", "kind:5000"]
      maxRetries := some 7 }
    let es : List (String × Action) := [("A.example", .log), ("a.example.", .log), (" a.example", .log)]
    let hosts := ["kind:5000", "Dev.local."]
    es.Perm (document .log).hostOverrides.entries ∧ hosts.Perm (document .log).insecureHosts ∧
      { document .log with hostOverrides := .ofList es, insecureHosts := hosts }.toStrategy =
        (document .log).toStrategy ∧
      (∃ s, (document .log).toStrategy = .ok s ∧ Follows s (document .log)) ∧
      (document .deny).toStrategy = .error (.conflictingOverrides "a.example") ∧
      ∃ key a b, StrategyError.conflictingOverrides "a.example" = .conflictingOverrides key ∧
        (document .deny).HasOverride key a ∧ (document .deny).HasOverride key b ∧ a ≠ b := by
  intro document es hosts
  obtain ⟨-, -, hfollows, horder⟩ := document_is_merged_over_preset (document .log)
  obtain ⟨-, hconflict, -, -⟩ := document_is_merged_over_preset (document .deny)
  have hes : es.Perm (document .log).hostOverrides.entries := by decide +kernel
  have hhosts : hosts.Perm (document .log).insecureHosts := by decide +kernel
  have hfails : (document .deny).toStrategy = .error (.conflictingOverrides "a.example") := by
    decide +kernel
  have hok : (document .log).toStrategy.isOk = true := by decide +kernel
  refine ⟨hes, hhosts, (horder es hosts hes hhosts).1, ?_, hfails, hconflict _ hfails⟩
  cases hs : (document .log).toStrategy with
  | ok s => exact ⟨s, rfl, hfollows s hs⟩
  | error err =>
    rw [hs] at hok
    cases hok

end StrategyDocument

end TlsTrust
