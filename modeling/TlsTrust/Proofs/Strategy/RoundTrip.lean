import TlsTrust.Proofs.Host.Spelling
import TlsTrust.Proofs.Table
import TlsTrust.Proofs.Yaml.Shown
import TlsTrust.Strategy.Reader

/-!
A strategy keeps a rule for every kind that has one in the preset of its mode, so the preset leaves
no trace in it.
-/

namespace TlsTrust

open Yaml

namespace RuleTable

variable {r s : RuleTable}

@[simp] lemma get?_insert (r : RuleTable) (kind k : FailureKind) (a : Action) :
    (r.insert kind a).get? k = if k = kind then some a else r.get? k := rfl

@[simp] lemma get?_override (r s : RuleTable) (k : FailureKind) :
    (r.override s).get? k = (s.get? k).or (r.get? k) := rfl

/-- The table has a rule for every kind that has one in `r`. -/
def Covers (s r : RuleTable) : Prop :=
  ∀ k, r.get? k ≠ none → s.get? k ≠ none

lemma Covers.override_eq (h : s.Covers r) : r.override s = s := by
  apply RuleTable.ext
  intro k
  rw [get?_override]
  cases hs : s.get? k with
  | none => exact not_not.1 fun hr => h k hr hs
  | some a => rfl

lemma Covers.insert (h : s.Covers r) (kind : FailureKind) (a : Action) :
    (s.insert kind a).Covers r := by
  intro k hr
  rw [get?_insert]
  split
  · exact Option.some_ne_none a
  · exact h k hr

lemma covers_override (r s : RuleTable) : (r.override s).Covers r := by
  intro k hr
  rw [get?_override]
  cases s.get? k with
  | none => exact hr
  | some a => exact Option.some_ne_none a

lemma get?_foldl_insert {k : FailureKind} (ks : List FailureKind) (t : RuleTable) :
    ((ks.filterMap fun k => (r.get? k).map (k, ·)).foldl (fun t e => t.insert e.1 e.2) t).get? k =
      if k ∈ ks then (r.get? k).or (t.get? k) else t.get? k := by
  induction ks generalizing t with
  | nil => rfl
  | cons kind ks ih =>
    by_cases hk : k = kind
    · subst hk
      cases hr : r.get? k <;> simp [hr, ih]
    · cases hr : r.get? kind <;> simp [hr, hk, ih]

lemma foldl_insert_entries (r : RuleTable) :
    r.entries.foldl (fun t e => t.insert e.1 e.2) .empty = r := by
  apply RuleTable.ext
  intro k
  rw [entries, get?_foldl_insert, if_pos (FailureKind.mem_all k)]
  exact Option.or_none

end RuleTable

namespace Strategy

variable {s : Strategy} {d : StrategyDocument}

inductive Call where
  | rule (kind : FailureKind) (a : Action)
  | hostOverride (host : String) (a : Action)
  | insecureHost (host : String)
  | promptEnabled (enabled : Bool)
  | memory (enabled : Bool)
  | retainingMemory
  | decisionTimeout (timeout : Duration)
  | maxRetries (retries : Nat)

def apply (s : Strategy) : Call → Strategy
  | .rule kind a => s.withRule kind a
  | .hostOverride host a => s.withHostOverride host a
  | .insecureHost host => s.withInsecureHost host
  | .promptEnabled enabled => s.withPromptEnabled enabled
  | .memory enabled => s.withMemory enabled
  | .retainingMemory => s.retainingMemory
  | .decisionTimeout timeout => s.withDecisionTimeout timeout
  | .maxRetries retries => s.withMaxRetries retries

inductive Start : Strategy → Prop
  | preset (mode : Mode) : Start (ofMode mode)
  | document {d : StrategyDocument} {s : Strategy} (h : d.toStrategy = .ok s) : Start s

def CoversPreset (s : Strategy) : Prop :=
  s.rules.Covers (ofMode s.mode).rules

lemma mode_ofMode (mode : Mode) : (ofMode mode).mode = mode := by
  cases mode <;> rfl

lemma hosts_ofMode (mode : Mode) :
    (ofMode mode).hostOverrides = .empty ∧ (ofMode mode).insecureHosts = .empty := by
  cases mode <;> exact ⟨rfl, rfl⟩

lemma Start.coversPreset (h : Start s) : s.CoversPreset := by
  cases h with
  | preset mode =>
    rw [CoversPreset, mode_ofMode]
    exact fun _ => id
  | @document d _ h =>
    simp only [StrategyDocument.toStrategy] at h
    cases hover : StrategyDocument.addOverrides (ofMode d.mode).hostOverrides
        d.hostOverrides.entries with
    | error e => simp [hover] at h
    | ok overrides =>
      simp only [hover] at h
      cases h
      show RuleTable.Covers _ (ofMode (ofMode d.mode).mode).rules
      rw [mode_ofMode]
      exact RuleTable.covers_override _ _

lemma CoversPreset.apply (h : s.CoversPreset) (c : Call) : (s.apply c).CoversPreset := by
  cases c with
  | rule kind a => exact RuleTable.Covers.insert h kind a
  | hostOverride | insecureHost | promptEnabled | memory | retainingMemory | decisionTimeout
  | maxRetries => exact h

lemma CoversPreset.foldl (h : s.CoversPreset) (calls : List Call) :
    (calls.foldl Strategy.apply s).CoversPreset := by
  induction calls generalizing s with
  | nil => exact h
  | cons c calls ih => exact ih (h.apply c)

lemma bounds_of_validate (h : s.validate = .ok ()) :
    s.decisionTimeout ≤ maxDecisionTimeout ∧ s.maxRetries ≤ maxRetryLimit := by
  unfold validate at h
  split_ifs at h with _ htimeout hretries
  exact ⟨Nat.not_lt.1 htimeout, Nat.not_lt.1 hretries⟩

end Strategy

namespace StrategyDocument

variable {s : Strategy} {n : Node} {es : List (String × Action)} {t : Table Action}

lemma addOverrides_eq (hkeys : ∀ e ∈ es, Host.key e.1 = e.1) (hfresh : ∀ e ∈ es, t.get? e.1 = none)
    (hsorted : es.Pairwise fun a b => a.1 < b.1) :
    addOverrides t es = .ok (es.foldl (fun t e => t.insert e.1 e.2) t) := by
  induction es generalizing t with
  | nil => rfl
  | cons e es ih =>
    rw [List.forall_mem_cons] at hkeys hfresh
    rw [List.pairwise_cons] at hsorted
    simp only [addOverrides, hkeys.1, hfresh.1, List.foldl_cons]
    refine ih hkeys.2 (fun d hd => ?_) hsorted.2
    have hne : d.1 ≠ e.1 := fun he => String.lt_irrefl e.1 (he ▸ hsorted.1 d hd)
    rw [Table.get?_insert_of_ne _ hne, hfresh.2 d hd]

lemma foldl_add_keys (names : NameSet) (hkeys : ∀ h ∈ names.keys, Host.key h = h) :
    names.keys.foldl (fun (s : NameSet) h => s.add (Host.key h)) Table.empty = names := by
  calc names.keys.foldl (fun (s : NameSet) h => s.add (Host.key h)) Table.empty
      = names.keys.foldl NameSet.add Table.empty :=
        List.foldl_ext _ _ _ fun s h hh => by rw [hkeys h hh]
    _ = names.entries.foldl (fun t e => t.insert e.1 e.2) Table.empty := by
        rw [Table.keys, List.foldl_map]
        rfl
    _ = names := Table.ofList_entries names

lemma toStrategy_ofStrategy (hcovers : s.CoversPreset) (hvalid : s.validate = .ok ()) :
    (ofStrategy s).toStrategy = .ok s := by
  have hkey : ∀ h ∈ s.hostNames, Host.key h = h := fun _ => Strategy.key_eq_of_validate hvalid
  obtain ⟨hover, hinsecure⟩ := Strategy.hosts_ofMode s.mode
  have hoverrides : addOverrides Table.empty s.hostOverrides.entries = .ok s.hostOverrides := by
    rw [addOverrides_eq _ _ s.hostOverrides.sorted]
    · exact congrArg _ (Table.ofList_entries _)
    · exact fun e he => hkey _ (List.mem_append_left _ (List.mem_map_of_mem he))
    · exact fun _ _ => rfl
  have hhosts := foldl_add_keys s.insecureHosts fun h hh => hkey h (List.mem_append_right _ hh)
  have hrules : (Strategy.ofMode s.mode).rules.override s.rules = s.rules := hcovers.override_eq
  simp only [toStrategy, ofStrategy, hover, hinsecure, hoverrides, hhosts, hrules,
    Option.getD_some, Strategy.mode_ofMode]
  rfl

lemma action?_eq {a : Action} (h : n.Shows (.string a.name)) : action? n = some a :=
  h.word?_eq (by cases a <;> decide) (by cases a <;> decide)

lemma rules?_eq {r : RuleTable}
    (h : n.Shows (.object (r.entries.map fun e => (e.1.name, .string e.2.name)))) :
    rules? n = some r := by
  have hkind : ∀ (m : Node) (k : FailureKind), m.Shows (.string k.name) →
      m.word? FailureKind.all FailureKind.name = some k :=
    fun m k hm => hm.word?_eq k.mem_all (by cases k <;> decide)
  rw [rules?, h.table?_eq hkind fun m a hm => action?_eq hm]
  exact congrArg some r.foldl_insert_entries

lemma overrides?_eq (h : n.Shows (.object (t.entries.map fun e => (e.1, .string e.2.name)))) :
    overrides? n = some t := by
  rw [overrides?, h.table?_eq (fun m a hm => hm.text?_eq) fun m a hm => action?_eq hm]
  exact congrArg some (Table.ofList_entries t)

lemma fieldD_eq {α : Type} {read : List (String × Node)} {fields : List (String × Json)}
    (h : List.Forall₂ (fun r f => r.1 = f.1 ∧ r.2.Shows f.2) read fields) {j : Json}
    {value : Node → Option α} {a : α} (name : String) (d : α) (hj : fields.lookup name = some j)
    (hvalue : ∀ m : Node, m.Shows j → value m = some a) : fieldD read name d value = some a := by
  suffices hfound : ∃ m, read.lookup name = some m ∧ m.Shows j by
    obtain ⟨m, hm, hshows⟩ := hfound
    simp only [fieldD, hm, hvalue m hshows]
  induction h with
  | nil => cases hj
  | @cons r f _ _ hr _ ih =>
    rw [List.lookup_cons] at hj ⊢
    rw [hr.1]
    cases hname : name == f.1 with
    | true =>
      simp only [hname, Option.some.injEq] at hj ⊢
      exact ⟨r.2, rfl, hj ▸ hr.2⟩
    | false =>
      simp only [hname] at hj ⊢
      exact ih hj

lemma ofNode?_eq (hvalid : s.validate = .ok ()) (h : n.Shows s.toJson) :
    ofNode? n = some (ofStrategy s) := by
  obtain ⟨htimeout, hretries⟩ := Strategy.bounds_of_validate hvalid
  simp only [Strategy.maxDecisionTimeout, Strategy.maxRetryLimit] at htimeout hretries
  obtain ⟨read, hread, hfields⟩ := h.fields?_eq (show _ = fieldNames from rfl) (by decide)
  have hmode : fieldD read "mode" .secure (Node.word? Mode.all Mode.name) = some s.mode :=
    fieldD_eq hfields "mode" .secure rfl fun m hm =>
      hm.word?_eq (by cases s.mode <;> decide) (by cases s.mode <;> decide)
  have hrules := fieldD_eq hfields "rules" .empty rfl fun m hm => rules?_eq (r := s.rules) hm
  have hoverrides := fieldD_eq hfields "host_overrides" .empty rfl fun m hm =>
    overrides?_eq (t := s.hostOverrides) hm
  have hhosts : fieldD read "insecure_hosts" [] hosts? = some s.insecureHosts.keys :=
    fieldD_eq hfields "insecure_hosts" [] rfl fun m hm => hm.items_read fun m a hm => hm.text?_eq
  have hprompt : optionalField read "prompt_enabled" Scalar.bool? = some (some s.promptEnabled) :=
    fieldD_eq hfields "prompt_enabled" none rfl fun m hm => hm.bool?_eq
  have hremember : optionalField read "remember_decisions" Scalar.bool? =
      some (some s.rememberDecisions) :=
    fieldD_eq hfields "remember_decisions" none rfl fun m hm => hm.bool?_eq
  have hretain : optionalField read "retain_memory" Scalar.bool? = some (some s.retainMemory) :=
    fieldD_eq hfields "retain_memory" none rfl fun m hm => hm.bool?_eq
  have hsize : s.decisionTimeout < UInt64.size := Nat.lt_of_le_of_lt htimeout (by decide)
  have hwait : optionalField read "decision_timeout_secs" Scalar.nat? = some (some s.decisionTimeout) :=
    fieldD_eq hfields "decision_timeout_secs" none rfl fun m hm =>
      hm.number_eq hsize (fun _ => id) fun _ => id
  have hbudget : optionalField read "max_retries" retries? = some (some s.maxRetries) := by
    have hsmall : s.maxRetries < UInt32.size := Nat.lt_of_le_of_lt hretries (by decide)
    refine fieldD_eq hfields "max_retries" none rfl fun m hm =>
      hm.number_eq (Nat.lt_of_le_of_lt hretries (by decide)) (fun w hw => ?_) fun w hw => ?_
    · rw [retries?, hw, Option.filter_some, if_pos (by simpa using hsmall)]
    · rw [retries?, hw, Option.filter_none]
  simp only [ofNode?, hread, hmode, hrules, hoverrides, hhosts, hprompt, hremember, hretain, hwait,
    hbudget, Option.bind_eq_bind, Option.bind_some, Option.pure_def]
  rfl

end StrategyDocument

namespace Strategy

variable {start s : Strategy} {n : Node}

/-- A valid strategy that a document shows is read from it as it was. -/
theorem shown_strategy_reads_back (hstart : Start start) (calls : List Call)
    (hvalid : (calls.foldl apply start).validate = .ok ())
    (hshown : n.Shows (calls.foldl apply start).toJson) :
    let s := calls.foldl apply start
    (StrategyDocument.ofStrategy s).toStrategy = .ok s ∧
      ofDocument { root := some n, isOnly := true } = .ok s ∧
      (ofMode s.mode).rules.override s.rules = s.rules := by
  have hcovers := hstart.coversPreset.foldl calls
  generalize calls.foldl apply start = s at hcovers hvalid hshown
  have hread := StrategyDocument.toStrategy_ofStrategy hcovers hvalid
  refine ⟨hread, ?_, hcovers.override_eq⟩
  simp only [ofDocument, Option.elim_some, StrategyDocument.ofNode?_eq hvalid hshown, hread, if_true]

theorem changed_custom_strategy_reads_back :
    let calls : List Call := [.hostOverride " Registry.Example.COM. " .log,
      .insecureHost "Dev.local:5000", .rule .expired .prompt, .decisionTimeout 45900000000]
    let text (t : String) : Node := .scalar { text := t }
    let n : Node := .mapping [
      (text "mode", text "custom"),
      (text "rules", .mapping [(text "expired", text "prompt")]),
      (text "host_overrides", .mapping [(text "registry.example.com", text "log")]),
      (text "insecure_hosts", .sequence [text "dev.local:5000"]),
      (text "prompt_enabled", text "false"),
      (text "remember_decisions", text "false"),
      (text "retain_memory", text "false"),
      (text "decision_timeout_secs", text "45"),
      (text "max_retries", text "3")]
    (calls.foldl apply custom).validate = .ok () ∧ n.Shows (calls.foldl apply custom).toJson ∧
      ofDocument { root := some n, isOnly := true } = .ok (calls.foldl apply custom) := by
  intro calls text n
  have htext : ∀ t, (text t).Shows (.string t) := fun t => .text .plain t
  have hvalid : (calls.foldl apply custom).validate = .ok () := by decide +kernel
  have hcalls : calls.foldl apply custom =
      { custom with
        rules := .insert .empty .expired .prompt
        hostOverrides := .insert .empty "registry.example.com" .log
        insecureHosts := .ofNames ["dev.local:5000"]
        decisionTimeout := 45 } := by
    decide +kernel
  have hshown : n.Shows (calls.foldl apply custom).toJson := by
    rw [hcalls]
    have hfalse : (text "false").Shows (.bool false) := .switch false
    have hwait : (text "45").Shows (.int 45) := .number 45
    have hbudget : (text "3").Shows (.int 3) := .number 3
    have hrules : (Node.mapping [(text "expired", text "prompt")]).Shows
        (.object [("expired", .string "prompt")]) :=
      .mapping (.cons (htext _) .nil) (.cons (htext _) .nil)
    have hoverrides : (Node.mapping [(text "registry.example.com", text "log")]).Shows
        (.object [("registry.example.com", .string "log")]) :=
      .mapping (.cons (htext _) .nil) (.cons (htext _) .nil)
    have hhosts : (Node.sequence [text "dev.local:5000"]).Shows (.array [.string "dev.local:5000"]) :=
      .sequence (.cons (htext _) .nil)
    refine .mapping ?_ ?_
    · repeat' apply List.Forall₂.cons (htext _)
      exact .nil
    · exact .cons (htext _) <| .cons hrules <| .cons hoverrides <| .cons hhosts <| .cons hfalse <|
        .cons hfalse <| .cons hfalse <| .cons hwait <| .cons hbudget .nil
  exact ⟨hvalid, hshown, (shown_strategy_reads_back (.preset .custom) calls hvalid hshown).2.1⟩

end Strategy

end TlsTrust
