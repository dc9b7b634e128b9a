import TlsTrust.Proofs.Host.Spelling

/-! A key is its own key unless the dots that were dropped for it stood behind a blank. -/

namespace TlsTrust

open Text

namespace Host

variable {host : String} {c : Char}

/-- A blank stands before dots at the end of a host, behind something that is no blank. -/
def HidesBlank (host : String) : Prop :=
  ∃ (before : List Char) (blank : Char) (dots : Nat) (after : List Char),
    host.toList = before ++ blank :: (List.replicate (dots + 1) '.' ++ after) ∧
    (∃ c ∈ before, isBlank c = false) ∧ isBlank blank = true ∧ after.all isBlank = true

lemma toList_key_trim (host : String) : (key host).toList =
    (dropEndWhile (· == '.') (trim host).toList).map Char.toLower := by
  simp [key, lower, dropTrailingDots]

lemma map_toLower_key (host : String) : (key host).toList.map Char.toLower = (key host).toList := by
  simp only [toList_key_trim, List.map_map, Function.comp_def, toLower_toLower]

lemma head?_key (hc : (key host).toList.head? = some c) : isBlank c = false := by
  rw [toList_key_trim, List.head?_map, Option.map_eq_some_iff] at hc
  obtain ⟨d, hd, rfl⟩ := hc
  rw [isBlank_toLower]
  obtain ⟨rest, hrest⟩ := dropEndWhile_prefix (· == '.') (trim host).toList
  refine (trim_ends host).1 d ?_
  rw [← hrest, List.head?_append, hd]
  rfl

lemma getLast?_key (hc : (key host).toList.getLast? = some c) : (c == '.') = false := by
  rw [toList_key_trim, List.getLast?_map, Option.map_eq_some_iff] at hc
  obtain ⟨d, hd, rfl⟩ := hc
  have hdot := getLast?_dropEndWhile hd
  rw [beq_eq_false_iff_ne] at hdot ⊢
  rwa [ne_eq, toLower_eq_iff (by decide)]

lemma key_key_iff : key (key host) = key host ↔
    ∀ c, (key host).toList.getLast? = some c → isBlank c = false := by
  refine ⟨fun h c hc => ((ends_of_key_eq h).2 c hc).1, fun h => ?_⟩
  rw [← String.toList_inj, toList_key, dropWhile_eq_self_iff.2 fun c hc => head?_key hc,
    dropEndWhile_eq_self h, dropEndWhile_eq_self fun c hc => getLast?_key hc, map_toLower_key]

lemma exists_dots (host : String) : ∃ dots, dropEndWhile (· == '.') (trim host).toList ++
    List.replicate dots '.' = (trim host).toList := by
  obtain ⟨rest, hrest, hall⟩ := exists_dropEndWhile_append (· == '.') (trim host).toList
  have hdots : rest = List.replicate rest.length '.' :=
    List.eq_replicate_of_mem fun c hc => beq_iff_eq.1 (hall c hc)
  rw [hdots] at hrest
  exact ⟨rest.length, hrest⟩

lemma hidesBlank_iff : HidesBlank host ↔ ∃ (word : List Char) (blank : Char) (dots : Nat),
    word ≠ [] ∧ isBlank blank = true ∧
      (trim host).toList = word ++ blank :: List.replicate (dots + 1) '.' := by
  constructor
  · rintro ⟨before, blank, dots, after, hhost, ⟨c, hc, hnone⟩, hblank, hafter⟩
    have hword : before.dropWhile isBlank ≠ [] := fun hnil => by
      rw [List.dropWhile_eq_nil_iff] at hnil
      rw [hnil c hc] at hnone
      cases hnone
    refine ⟨before.dropWhile isBlank, blank, dots, hword, hblank,
      (toList_trim_eq_iff (by simp) (fun d hd => ?_) fun d hd => ?_).2
        ⟨before.takeWhile isBlank, after, ?_, List.all_takeWhile, hafter⟩⟩
    · rw [List.head?_append_of_ne_nil _ hword] at hd
      exact dropWhile_eq_self_iff.1 (List.dropWhile_idempotent isBlank before) d hd
    · rw [List.replicate_succ', ← List.cons_append, ← List.append_assoc, List.getLast?_concat] at hd
      obtain rfl := Option.some.inj hd
      decide
    · rw [List.append_assoc, List.append_assoc, ← List.append_assoc,
        List.takeWhile_append_dropWhile, hhost, List.cons_append]
  · rintro ⟨word, blank, dots, hne, hblank, hword⟩
    obtain ⟨hhead, hlast⟩ := trim_ends host
    rw [hword] at hhead hlast
    obtain ⟨lead, trail, hhost, -, htrail⟩ := (toList_trim_eq_iff (by simp) hhead hlast).1 hword
    obtain ⟨c, rest, rfl⟩ := List.exists_cons_of_ne_nil hne
    refine ⟨lead ++ c :: rest, blank, dots, trail, ?_, ⟨c, by simp, hhead c rfl⟩, hblank, htrail⟩
    rw [hhost]
    simp only [List.append_assoc, List.cons_append]

lemma hidesBlank_of_getLast? (hc : (key host).toList.getLast? = some c) (hblank : isBlank c = true) :
    HidesBlank host := by
  rw [toList_key_trim, List.getLast?_map, Option.map_eq_some_iff] at hc
  obtain ⟨d, hd, rfl⟩ := hc
  rw [isBlank_toLower] at hblank
  obtain ⟨word, hname⟩ := List.getLast?_eq_some_iff.1 hd
  obtain ⟨dots, hword⟩ := exists_dots host
  rw [hname, List.append_assoc, List.singleton_append] at hword
  obtain ⟨hhead, hlast⟩ := trim_ends host
  rw [← hword] at hhead hlast
  -- a blank with nothing before it, or no dot behind it, would have been trimmed off
  have hne : word ≠ [] := by
    rintro rfl
    rw [hhead d rfl] at hblank
    cases hblank
  cases dots with
  | zero =>
    rw [hlast d List.getLast?_concat] at hblank
    cases hblank
  | succ dots => exact hidesBlank_iff.2 ⟨word, d, dots, hne, hblank, hword.symm⟩

lemma HidesBlank.getLast? (h : HidesBlank host) :
    ∃ c, (key host).toList.getLast? = some c ∧ isBlank c = true := by
  obtain ⟨word, blank, dots, -, hblank, hword⟩ := hidesBlank_iff.1 h
  have hdot : dropEndWhile (· == '.') (word ++ [blank]) = word ++ [blank] := by
    refine dropEndWhile_eq_self fun c hc => ?_
    rw [List.getLast?_concat] at hc
    obtain rfl := Option.some.inj hc
    rw [beq_eq_false_iff_ne]
    rintro rfl
    cases hblank
  refine ⟨blank.toLower, ?_, (isBlank_toLower blank).trans hblank⟩
  rw [toList_key_trim, hword, List.append_cons, dropEndWhile_append_replicate (by decide), hdot,
    List.getLast?_map, List.getLast?_concat]
  rfl

theorem key_key_eq_iff : key (key host) = key host ↔ ¬ HidesBlank host := by
  rw [key_key_iff]
  constructor
  · intro h hhides
    obtain ⟨c, hc, hblank⟩ := hhides.getLast?
    rw [h c hc] at hblank
    cases hblank
  · intro h c hc
    by_contra hblank
    exact h (hidesBlank_of_getLast? hc (by simpa using hblank))

instance (host : String) : Decidable (HidesBlank host) :=
  decidable_of_iff (key (key host) ≠ key host) (by rw [ne_eq, key_key_eq_iff, not_not])

lemma length_withoutPort_le (host : String) :
    (withoutPort host).toList.length ≤ host.toList.length := by
  rw [withoutPort, String.toList_ofList]
  unfold withoutPortChars
  split
  case h_1 rest heq =>
    rw [heq, List.length_cons]
    have hname : rest.takeWhile (· != ']') <+: rest := List.takeWhile_prefix _
    exact Nat.le_succ_of_le hname.length_le
  case h_2 =>
    split
    case h_1 name port hsplit =>
      obtain ⟨heq, -⟩ := splitLast?_eq_some_iff.1 hsplit
      have hname : name.length ≤ host.toList.length := by
        rw [heq, List.length_append]
        exact Nat.le_add_right _ _
      split
      · exact hname
      · exact Nat.le_refl _
    case h_2 => exact Nat.le_refl _

lemma length_key_lt (h : key host ≠ host) (hlower : host.toList.map Char.toLower = host.toList) :
    (key host).toList.length < host.toList.length := by
  have hword := dropEndWhile_prefix isBlank (host.toList.dropWhile isBlank)
  have hname := dropEndWhile_prefix (· == '.')
    (dropEndWhile isBlank (host.toList.dropWhile isBlank))
  have hsub := (hname.sublist.trans hword.sublist).trans (List.dropWhile_suffix isBlank).sublist
  rw [toList_key, List.length_map]
  refine Nat.lt_of_le_of_ne hsub.length_le fun hlength => h ?_
  rw [← String.toList_inj, toList_key, hsub.eq_of_length hlength, hlower]

end Host

namespace Engine

open Host

/-- The key of a host is its own key unless the host hides a blank. If it is, each table answers for the
key as for the host itself. If not, who looks the key up does not find what the tables hold under it,
and no valid strategy names it. -/
theorem keys_stand_unless_blank_hidden (e : Engine) (host : String) :
    (key (key host) = key host ↔ ¬ HidesBlank host) ∧
    (¬ HidesBlank host →
      e.strategy.hostOverride (key host) = e.strategy.hostOverride host ∧
      e.strategy.isInsecureHost (key host) = e.strategy.isInsecureHost host ∧
      e.isTrustedHost (key host) = e.isTrustedHost host ∧
      e.confirmInsecure (key host) = e.confirmInsecure host) ∧
    (HidesBlank host →
      (e.strategy.validate = .ok () → key host ∉ e.strategy.hostNames) ∧
      (e.without (key host)).strategy.hostOverride (key host) = e.strategy.hostOverride (key host) ∧
      (e.without (key host)).strategy.isInsecureHost (key host) =
        e.strategy.isInsecureHost (key host) ∧
      (e.without (key host)).isTrustedHost (key host) = e.isTrustedHost (key host)) := by
  refine ⟨key_key_eq_iff, fun h => ?_, fun h => ?_⟩
  · have hkey := key_key_eq_iff.2 h
    refine ⟨?_, ?_, ?_, ?_⟩
    · simp only [Strategy.hostOverride, hkey]
    · simp only [Strategy.isInsecureHost, hkey]
    · simp only [isTrustedHost, hkey]
    · simp only [confirmInsecure, ConsentManager.confirm, hkey]
  · have hkey : key (key host) ≠ key host := fun hsame => key_key_eq_iff.1 hsame h
    have hlt := length_key_lt hkey (map_toLower_key host)
    have hbare : withoutPort (key (key host)) ≠ key host := fun hsame => by
      have hle := length_withoutPort_le (key (key host))
      rw [hsame] at hle
      exact absurd hlt (Nat.not_lt.2 hle)
    exact ⟨fun hvalid hmem => hkey (Strategy.key_eq_of_validate hvalid hmem), e.without_eq hkey hbare⟩

theorem trust_is_lost_behind_blank :
    let e := (bare .secure).run [.addTrustedHost " Registry.Local.. ", .addTrustedHost "dev.local ."]
    ¬ HidesBlank " Registry.Local.. " ∧ HidesBlank "dev.local ." ∧
      e.isTrustedHost (key " Registry.Local.. ") = true ∧ e.isTrustedHost "dev.local ." = true ∧
      (e.without (key "dev.local .")).isTrustedHost (key "dev.local .") =
        e.isTrustedHost (key "dev.local .") ∧
      e.isTrustedHost (key "dev.local .") = false := by
  intro e
  have hplain : ¬ HidesBlank " Registry.Local.. " := by decide +kernel
  have hhides : HidesBlank "dev.local ." := by decide +kernel
  have htrusted := ((keys_stand_unless_blank_hidden e " Registry.Local.. ").2.1 hplain).2.2.1
  have hlost := ((keys_stand_unless_blank_hidden e "dev.local .").2.2 hhides).2.2.2
  exact ⟨hplain, hhides, htrusted.trans (by decide +kernel), by decide +kernel, hlost,
    by decide +kernel⟩

/-- With a blank before its last dot, the key of a host is cut once more. A strategy that names the host
is refused for the key under which it put it, and the host is denied though it is trusted. A host of
which nothing is left the second time is refused only after its failure is on record. -/
theorem key_is_cut_again :
    let e := (bare .secure).run [.addTrustedHost "registry.local ."]
    let answer := (bare .secure).handleFailure ". ." ⟨"self-signed certificate", none, []⟩
    key (key "registry.local .") ≠ key "registry.local ." ∧
      (Strategy.custom.withHostOverride "registry.local ." .deny).validate =
        .error (.notNormalized "registry.local ") ∧
      e.isTrustedHost "registry.local ." = true ∧
      (e.decided? (.decide (.classify ⟨"self-signed certificate", none, []⟩ "registry.local ."
        (.atSecond 0)))).map (·.action) = some .deny ∧
      answer.1.toOption.isNone = true ∧ answer.2.desk.events.length = 1 := by
  decide +kernel

end Engine

end TlsTrust
