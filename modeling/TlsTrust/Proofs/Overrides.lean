import TlsTrust.Engine.Config
import TlsTrust.Proofs.Table
import TlsTrust.Proofs.Text.Cut

/-!
Hosts and registries as a whole share one start of their variables, so a host that is called
registries has none of its own.
-/

namespace TlsTrust

open Text

variable {vars : List (String × String)} {host name suffix : String} {o : Overrides}

namespace Overrides

def hostSuffix? (name : String) : Option String :=
  if name = GlobalOverride.skipVerify.variable_
      || name = GlobalOverride.insecureRegistries.variable_ then none
  else
    match stripStart? hostVariableStart.toList name.toList with
    | some (c :: cs) => some (String.ofList (c :: cs))
    | _ => none

def sets (vars : List (String × String)) (name : String) : Bool :=
  vars.any fun v => v.1 == name && isOn v.2

def hostSuffixes (vars : List (String × String)) : List String :=
  vars.filterMap fun v => if isOn v.2 then hostSuffix? v.1 else none

lemma apply_eq (o : Overrides) (v : String × String) : o.apply v =
    { everywhere := if v.1 == GlobalOverride.skipVerify.variable_ && isOn v.2 then some .skipVerify
        else o.everywhere.or (if v.1 == GlobalOverride.insecureRegistries.variable_ && isOn v.2 then
          some .insecureRegistries else none)
      hosts := (hostSuffixes [v]).foldl NameSet.add o.hosts } := by
  obtain ⟨name, value⟩ := v
  have hdistinct : GlobalOverride.insecureRegistries.variable_ ≠ GlobalOverride.skipVerify.variable_ := by
    decide
  have hone : hostSuffixes [(name, value)] = (if isOn value then hostSuffix? name else none).toList := by
    rw [hostSuffixes, List.filterMap_cons]
    cases (if isOn value then hostSuffix? name else none) <;> rfl
  rw [apply, hone]
  cases isOn value with
  | false => simp
  | true =>
    by_cases hskip : name = GlobalOverride.skipVerify.variable_
    · simp [hskip, hostSuffix?]
    · by_cases hregistries : name = GlobalOverride.insecureRegistries.variable_
      · simp [hregistries, hdistinct, hostSuffix?]
      · simp only [hskip, hregistries, hostSuffix?]
        cases stripStart? hostVariableStart.toList name.toList with
        | none => simp [hskip, hregistries]
        | some cs => cases cs <;> simp [hskip, hregistries]

lemma foldl_apply (vars : List (String × String)) (o : Overrides) : vars.foldl apply o =
    { everywhere := if sets vars GlobalOverride.skipVerify.variable_ then some .skipVerify
        else o.everywhere.or (if sets vars GlobalOverride.insecureRegistries.variable_ then
          some .insecureRegistries else none)
      hosts := (hostSuffixes vars).foldl NameSet.add o.hosts } := by
  induction vars generalizing o with
  | nil => simp [sets, hostSuffixes]
  | cons v vars ih =>
    have hsuffixes : hostSuffixes (v :: vars) = hostSuffixes [v] ++ hostSuffixes vars :=
      List.filterMap_append (l := [v])
    have hsets (name : String) : sets (v :: vars) name = (v.1 == name && isOn v.2 || sets vars name) :=
      List.any_cons
    rw [List.foldl_cons, ih, apply_eq, hsuffixes, List.foldl_append, hsets, hsets]
    cases sets vars GlobalOverride.skipVerify.variable_ with
    | true => simp
    | false =>
      cases v.1 == GlobalOverride.skipVerify.variable_ && isOn v.2 with
      | true => simp
      | false => cases v.1 == GlobalOverride.insecureRegistries.variable_ && isOn v.2 <;> simp

lemma ofVariables_eq (vars : List (String × String)) : ofVariables vars =
    { everywhere := if sets vars GlobalOverride.skipVerify.variable_ then some .skipVerify
        else if sets vars GlobalOverride.insecureRegistries.variable_ then some .insecureRegistries
        else none
      hosts := .ofNames (hostSuffixes vars) } :=
  foldl_apply vars {}

lemma hostSuffix?_eq_some_iff : hostSuffix? name = some suffix ↔
    name = hostVariableStart ++ suffix ∧ suffix ≠ "" ∧ ∀ g : GlobalOverride, name ≠ g.variable_ := by
  have hglobal : (∀ g : GlobalOverride, name ≠ g.variable_) ↔
      ¬ ((name = GlobalOverride.skipVerify.variable_ ||
        name = GlobalOverride.insecureRegistries.variable_) = true) := by
    rw [Bool.or_eq_true, decide_eq_true_iff, decide_eq_true_iff, not_or]
    exact ⟨fun h => ⟨h _, h _⟩, fun h g => by cases g; exacts [h.1, h.2]⟩
  have hname : name = hostVariableStart ++ suffix ↔
      name.toList = hostVariableStart.toList ++ suffix.toList := by
    rw [← String.toList_inj, String.toList_append]
  rw [hostSuffix?, hglobal, hname, ← stripStart?_eq_some_iff]
  split
  case isTrue h => simp [h]
  case isFalse h =>
    split
    case h_1 c cs hstrip =>
      rw [hstrip, Option.some_inj, Option.some_inj, ← String.toList_inj, String.toList_ofList]
      refine ⟨fun he => ⟨he, ?_, h⟩, fun he => he.1⟩
      rintro rfl
      exact List.cons_ne_nil c cs he
    case h_2 hnone =>
      refine ⟨nofun, fun ⟨hsome, hne, _⟩ => ?_⟩
      rw [ne_eq, ← String.toList_inj] at hne
      obtain ⟨c, cs, hcs⟩ := List.exists_cons_of_ne_nil hne
      exact absurd (hsome.trans (congrArg some hcs)) (hnone c cs)

lemma eq_variable_iff {g : GlobalOverride} : hostVariableStart ++ suffix = g.variable_ ↔
    g = .insecureRegistries ∧ suffix = "REGISTRIES" := by
  have hregistries : hostVariableStart ++ "REGISTRIES" = GlobalOverride.insecureRegistries.variable_ := by
    decide +kernel
  cases g with
  | skipVerify =>
    refine iff_of_false (fun h => ?_) (by simp)
    have hstart := congrArg (List.take 18) (congrArg String.toList h)
    rw [String.toList_append, List.take_left' (by decide +kernel)] at hstart
    exact absurd hstart (by decide +kernel)
  | insecureRegistries => rw [← hregistries, String.append_right_inj, and_iff_right rfl]

lemma sets_iff : sets vars name = true ↔ ∃ v ∈ vars, isOn v.2 = true ∧ v.1 = name := by
  simp [sets, and_comm]

lemma everywhere_ofVariables : (ofVariables vars).everywhere = none ↔
    ∀ v ∈ vars, isOn v.2 = true → ∀ g : GlobalOverride, v.1 ≠ g.variable_ := by
  have hsets : (ofVariables vars).everywhere = none ↔ ∀ g : GlobalOverride, ¬ sets vars g.variable_ := by
    rw [ofVariables_eq]
    constructor
    · intro h g hg
      cases g with
      | skipVerify => simp [hg] at h
      | insecureRegistries =>
        cases hskip : sets vars GlobalOverride.skipVerify.variable_ <;> simp [hg, hskip] at h
    · intro h
      simp [h .skipVerify, h .insecureRegistries]
  simp only [hsets, sets_iff, not_exists, not_and]
  exact ⟨fun h v hv hon g => h g v hv hon, fun h g v hv hon => h v hv hon g⟩

lemma contains_hosts_ofVariables : (ofVariables vars).hosts.contains suffix = true ↔
    ∃ v ∈ vars, isOn v.2 = true ∧ hostSuffix? v.1 = some suffix := by
  rw [ofVariables_eq, NameSet.contains_ofNames, hostSuffixes, List.mem_filterMap]
  simp only [Option.ite_none_right_eq_some]

lemma allows_iff : o.allows host = true ↔ o.everywhere ≠ none ∨
    o.hosts.contains (Host.variableSuffix host) = true ∨
      o.hosts.contains (Host.variableSuffix (Host.withoutPort host)) = true := by
  rw [allows, sourceFor]
  cases o.everywhere with
  | some g => simp
  | none => simp [List.find?_isSome]

/-- The variable of a host covers the hosts that share it, with any port, and no other host. -/
theorem host_variable_stays_per_host (host : String) (hne : Host.variableSuffix host ≠ "")
    (hregistries : Host.variableSuffix host ≠ "REGISTRIES") :
    let o := ofVariables [(hostVariableStart ++ Host.variableSuffix host, "true")]
    o.everywhere = none ∧ ∀ other, o.allows other = true ↔
      Host.variableSuffix other = Host.variableSuffix host ∨
        Host.variableSuffix (Host.withoutPort other) = Host.variableSuffix host := by
  intro o
  have hon : isOn "true" = true := by decide +kernel
  have hglobal : ∀ g : GlobalOverride, hostVariableStart ++ Host.variableSuffix host ≠ g.variable_ :=
    fun g hg => hregistries (eq_variable_iff.1 hg).2
  have hnone : o.everywhere = none := by
    apply everywhere_ofVariables.2
    rintro v hv - g
    obtain rfl := List.mem_singleton.1 hv
    exact hglobal g
  have hhosts : ∀ suffix, o.hosts.contains suffix = true ↔ suffix = Host.variableSuffix host := by
    intro suffix
    refine contains_hosts_ofVariables.trans ?_
    simp only [List.mem_singleton, exists_eq_left, hon, true_and, hostSuffix?_eq_some_iff]
    constructor
    · rintro ⟨hname, -, -⟩
      rw [String.append_right_inj] at hname
      exact hname.symm
    · rintro rfl
      exact ⟨rfl, hne, hglobal⟩
  refine ⟨hnone, fun other => ?_⟩
  rw [allows_iff, hhosts, hhosts]
  simp [hnone]

theorem kind_registry_covers_its_ports :
    let o := ofVariables [("TLSGUARD_INSECURE_KIND_REGISTRY", "true")]
    Host.variableSuffix "kind-registry" ≠ "" ∧ Host.variableSuffix "kind-registry" ≠ "REGISTRIES" ∧
      o.everywhere = none ∧ o.allows "Kind.Registry:5000" = true ∧
      o.allows "kind-registry-2:5000" = false := by
  have hsuffix : Host.variableSuffix "kind-registry" = "KIND_REGISTRY" := by decide +kernel
  have hne : Host.variableSuffix "kind-registry" ≠ "" := by decide +kernel
  have hregistries : Host.variableSuffix "kind-registry" ≠ "REGISTRIES" := by decide +kernel
  obtain ⟨hnone, hallows⟩ := host_variable_stays_per_host "kind-registry" hne hregistries
  rw [hsuffix] at hnone hallows
  refine ⟨hne, hregistries, hnone, (hallows _).2 (.inr (by decide +kernel)), ?_⟩
  exact eq_false_of_ne_true (mt (hallows _).1 (by decide +kernel))

theorem registries_variable_covers_every_host :
    let o := ofVariables [(hostVariableStart ++ Host.variableSuffix "registries", "true")]
    Host.variableSuffix "registries" ≠ "" ∧ o.everywhere = some .insecureRegistries ∧
      o.allows "registry.example.com" = true ∧
      Host.variableSuffix "registry.example.com" ≠ Host.variableSuffix "registries" ∧
      Host.variableSuffix (Host.withoutPort "registry.example.com") ≠
        Host.variableSuffix "registries" := by
  decide +kernel

/-- The variables that cover a host, in the order in which they are named as its source. -/
def variablesFor (host : String) : List String :=
  [GlobalOverride.skipVerify.variable_, GlobalOverride.insecureRegistries.variable_] ++
    (([host, Host.withoutPort host].map Host.variableSuffix).filter (· != "")).map
      (hostVariableStart ++ ·)

lemma mem_variablesFor : name ∈ variablesFor host ↔
    name = GlobalOverride.skipVerify.variable_ ∨ name = GlobalOverride.insecureRegistries.variable_ ∨
      ∃ h ∈ [host, Host.withoutPort host], Host.variableSuffix h ≠ "" ∧
        name = hostVariableStart ++ Host.variableSuffix h := by
  rw [variablesFor, List.mem_append, List.mem_pair, or_assoc]
  refine or_congr_right (or_congr_right ?_)
  simp only [List.mem_map, List.mem_filter, bne_iff_ne]
  constructor
  · rintro ⟨_, ⟨⟨h, hh, rfl⟩, hne⟩, rfl⟩
    exact ⟨h, hh, hne, rfl⟩
  · rintro ⟨h, hh, hne, rfl⟩
    exact ⟨_, ⟨⟨h, hh, rfl⟩, hne⟩, rfl⟩

lemma isOn_iff {value : String} : isOn value = true ↔ lower (trim value) ∈ ["1", "true", "yes", "on"] := by
  simp [isOn, or_assoc]

lemma contains_hosts_eq (hregistries : sets vars GlobalOverride.insecureRegistries.variable_ = false)
    (suffix : String) : (ofVariables vars).hosts.contains suffix =
      (suffix != "" && sets vars (hostVariableStart ++ suffix)) := by
  rw [Bool.eq_iff_iff, contains_hosts_ofVariables, Bool.and_eq_true, sets_iff, bne_iff_ne]
  simp only [hostSuffix?_eq_some_iff]
  constructor
  · rintro ⟨v, hv, hon, hname, hne, -⟩
    exact ⟨hne, v, hv, hon, hname⟩
  · rintro ⟨hne, v, hv, hon, hname⟩
    refine ⟨v, hv, hon, hname, hne, fun g hg => ?_⟩
    -- the only variable for all hosts that starts as those of single hosts is not set
    obtain ⟨rfl, -⟩ := eq_variable_iff.1 (hname.symm.trans hg)
    rw [sets_iff.2 ⟨v, hv, hon, hg⟩] at hregistries
    cases hregistries

lemma find?_hosts (hregistries : sets vars GlobalOverride.insecureRegistries.variable_ = false)
    (suffixes : List String) :
    (suffixes.find? (ofVariables vars).hosts.contains).map (hostVariableStart ++ ·) =
      ((suffixes.filter (· != "")).map (hostVariableStart ++ ·)).find? (sets vars) := by
  rw [List.find?_map, List.find?_filter]
  congr 2
  funext suffix
  rw [contains_hosts_eq hregistries, Bool.decide_and, Bool.decide_eq_true, Bool.decide_eq_true]
  rfl

lemma sourceFor_eq (vars : List (String × String)) (host : String) :
    (ofVariables vars).sourceFor host = (variablesFor host).find? (sets vars) := by
  have heverywhere := congrArg Overrides.everywhere (ofVariables_eq vars)
  rw [sourceFor, heverywhere, variablesFor, List.cons_append, List.find?_cons, List.cons_append,
    List.find?_cons, List.nil_append]
  cases sets vars GlobalOverride.skipVerify.variable_ with
  | true => rfl
  | false =>
    cases hregistries : sets vars GlobalOverride.insecureRegistries.variable_ with
    | true => rfl
    | false => exact find?_hosts hregistries _

lemma ofVariables_of_perm {vars' : List (String × String)} (h : vars.Perm vars') :
    ofVariables vars = ofVariables vars' := by
  have hsets (name : String) : sets vars name = sets vars' name := h.any_eq
  have hsuffixes : (hostSuffixes vars).Perm (hostSuffixes vars') :=
    h.filterMap _
  simp only [ofVariables_eq, hsets, NameSet.ofNames_of_perm hsuffixes]

lemma overrides_ofVariables {order : List (String × String) → List (String × String)}
    (horder : ∀ entries, (order entries).Perm entries) (h : (vars.map (·.1)).Nodup) (folder : String) :
    (EngineConfig.ofVariables folder vars order).overrides = ofVariables vars :=
  ofVariables_of_perm ((horder _).trans (Table.perm_entries_ofList h))

/-- The variables of an environment cover a host when one for all hosts, one for the host, or one for the
host without its port is on, and the first of these in this order is named. The order of the environment
leaves no trace, and a configuration has the overrides of its environment, in whichever order it goes
through the variables. -/
theorem variables_cover_hosts (vars : List (String × String)) :
    (∀ vars', vars.Perm vars' → ofVariables vars' = ofVariables vars) ∧
    (∀ host, (ofVariables vars).allows host = true ↔
      ∃ v ∈ vars, lower (trim v.2) ∈ ["1", "true", "yes", "on"] ∧
        (v.1 = "TLSGUARD_SKIP_TLS_VERIFY" ∨ v.1 = "TLSGUARD_INSECURE_REGISTRIES" ∨
          ∃ h ∈ [host, Host.withoutPort host], Host.variableSuffix h ≠ "" ∧
            v.1 = "TLSGUARD_INSECURE_" ++ Host.variableSuffix h)) ∧
    (∀ host, (ofVariables vars).sourceFor host = (variablesFor host).find? (sets vars)) ∧
    ((vars.map (·.1)).Nodup → ∀ folder order, (∀ entries, (order entries).Perm entries) →
      (EngineConfig.ofVariables folder vars order).overrides = ofVariables vars) := by
  refine ⟨fun _ h => (ofVariables_of_perm h).symm, fun host => ?_, sourceFor_eq vars,
    fun h folder order horder => overrides_ofVariables horder h folder⟩
  rw [allows, sourceFor_eq, List.find?_isSome]
  constructor
  · rintro ⟨name, hname, hsets⟩
    obtain ⟨v, hv, hon, rfl⟩ := sets_iff.1 hsets
    exact ⟨v, hv, isOn_iff.1 hon, mem_variablesFor.1 hname⟩
  · rintro ⟨v, hv, hon, hname⟩
    exact ⟨v.1, mem_variablesFor.2 hname, sets_iff.2 ⟨v, hv, isOn_iff.2 hon, rfl⟩⟩

theorem spaced_yes_covers_dev_local :
    let vars := [("TLSGUARD_INSECURE_REGISTRIES", "0"), ("TLSGUARD_INSECURE_DEV_LOCAL", " Yes "),
      ("TLSGUARD_INSECURE_DEV_LOCAL_5000", "off"), ("TLSGUARD_INSECURE_LOCAL", "1")]
    vars.Perm vars.reverse ∧ (vars.map (·.1)).Nodup ∧ ofVariables vars.reverse = ofVariables vars ∧
      (ofVariables vars).allows "Dev.local:5000" = true ∧
      (ofVariables vars).sourceFor "Dev.local:5000" = some "TLSGUARD_INSECURE_DEV_LOCAL" ∧
      (ofVariables vars).allows "dev.example.com" = false ∧
      (∀ entries : List (String × String), entries.reverse.Perm entries) ∧
      (EngineConfig.ofVariables "/var/log" vars List.reverse).overrides = ofVariables vars := by
  intro vars
  obtain ⟨hperm, hallows, hsource, hconfig⟩ := variables_cover_hosts vars
  have hrev : vars.Perm vars.reverse := (List.reverse_perm vars).symm
  have hnodup : (vars.map (·.1)).Nodup := by decide +kernel
  have horder : ∀ entries : List (String × String), entries.reverse.Perm entries := List.reverse_perm
  refine ⟨hrev, hnodup, hperm _ hrev, (hallows _).2 (by decide +kernel), ?_, ?_, horder,
    hconfig hnodup _ _ horder⟩
  · rw [hsource]
    decide +kernel
  · exact eq_false_of_ne_true (mt (hallows _).1 (by decide +kernel))

end Overrides

end TlsTrust
