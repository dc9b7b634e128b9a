import TlsTrust.Proofs.Chain.Analysis

/-!
The window that the certificates of a chain share, the issues with each of them, and what a valid
chain means for its validation.
-/

namespace TlsTrust

/-- Inside the validity window of a certificate, to which both of its ends belong. -/
def Certificate.IsCurrent (c : Certificate) (t : Instant) : Prop :=
  c.notBefore ≤ t ∧ t ≤ c.notAfter

namespace Chain

variable {now t : Instant} {ts : List Instant} {chain : List Certificate} {c : Certificate}
  {i : Nat} {x : Issue}

lemma foldl_pick {r : Instant → Instant → Prop} {pick : Instant → Instant → Instant}
    (htrans : ∀ {a b c}, r a b → r b c → r a c) (hrefl : ∀ a, r a a)
    (hpick : ∀ a b, (pick a b = a ∨ pick a b = b) ∧ r a (pick a b) ∧ r b (pick a b))
    (t : Instant) (ts : List Instant) :
    ts.foldl pick t ∈ t :: ts ∧ ∀ u ∈ t :: ts, r u (ts.foldl pick t) := by
  induction ts generalizing t with
  | nil => exact ⟨List.mem_singleton_self t, List.forall_mem_singleton.2 (hrefl t)⟩
  | cons u ts ih =>
    obtain ⟨hone, ht, hu⟩ := hpick t u
    obtain ⟨hmem, hbound⟩ := ih (pick t u)
    rw [List.forall_mem_cons] at hbound
    rw [List.foldl_cons]
    constructor
    · rcases List.mem_cons.1 hmem with hpicked | hlater
      · rw [hpicked]
        rcases hone with h | h <;> simp [h]
      · exact List.mem_cons_of_mem _ (List.mem_cons_of_mem _ hlater)
    · rw [List.forall_mem_cons, List.forall_mem_cons]
      exact ⟨htrans ht hbound.1, htrans hu hbound.1, hbound.2⟩

lemma latest?_eq_some_iff : latest? ts = some t ↔ t ∈ ts ∧ ∀ u ∈ ts, u ≤ t := by
  cases ts with
  | nil => simp [latest?]
  | cons u ts =>
    have hpick : ∀ a b : Instant, ((if a ≤ b then b else a) = a ∨ (if a ≤ b then b else a) = b) ∧
        a ≤ (if a ≤ b then b else a) ∧ b ≤ (if a ≤ b then b else a) := by
      intro a b
      split
      case isTrue h => exact ⟨.inr rfl, h, Instant.le_refl b⟩
      case isFalse h => exact ⟨.inl rfl, Instant.le_refl a, (Instant.le_total a b).resolve_left h⟩
    obtain ⟨hmem, hbound⟩ := foldl_pick (r := (· ≤ ·)) Instant.le_trans Instant.le_refl hpick u ts
    rw [latest?, Option.some.injEq]
    constructor
    · rintro rfl
      exact ⟨hmem, hbound⟩
    · rintro ⟨ht, hall⟩
      exact Instant.le_antisymm (hall _ hmem) (hbound t ht)

lemma earliest?_eq_some_iff : earliest? ts = some t ↔ t ∈ ts ∧ ∀ u ∈ ts, t ≤ u := by
  cases ts with
  | nil => simp [earliest?]
  | cons u ts =>
    have hpick : ∀ a b : Instant, ((if b < a then b else a) = a ∨ (if b < a then b else a) = b) ∧
        (if b < a then b else a) ≤ a ∧ (if b < a then b else a) ≤ b := by
      intro a b
      split
      case isTrue h => exact ⟨.inr rfl, Int.le_of_lt h, Instant.le_refl b⟩
      case isFalse h => exact ⟨.inl rfl, Instant.le_refl a, Instant.not_lt.1 h⟩
    obtain ⟨hmem, hbound⟩ := foldl_pick (r := fun a b => b ≤ a) (fun h k => Instant.le_trans k h)
      Instant.le_refl hpick u ts
    rw [earliest?, Option.some.injEq]
    constructor
    · rintro rfl
      exact ⟨hmem, hbound⟩
    · rintro ⟨ht, hall⟩
      exact Instant.le_antisymm (hbound t ht) (hall _ hmem)

lemma notBefore_info {first : Instant} : (info now chain).notBefore = some first ↔
    (∃ c ∈ chain, c.notBefore = first) ∧ ∀ c ∈ chain, c.notBefore ≤ first := by
  exact latest?_eq_some_iff.trans (by rw [List.mem_map, List.forall_mem_map])

lemma notAfter_info {last : Instant} : (info now chain).notAfter = some last ↔
    (∃ c ∈ chain, c.notAfter = last) ∧ ∀ c ∈ chain, last ≤ c.notAfter := by
  exact earliest?_eq_some_iff.trans (by rw [List.mem_map, List.forall_mem_map])

lemma window_iff (hne : chain ≠ []) :
    (∃ first last, (info now chain).notBefore = some first ∧ (info now chain).notAfter = some last ∧
      first ≤ t ∧ t ≤ last) ↔ ∀ c ∈ chain, c.IsCurrent t := by
  constructor
  · rintro ⟨first, last, hfirst, hlast, hstart, hend⟩ c hc
    exact ⟨Instant.le_trans ((notBefore_info.1 hfirst).2 c hc) hstart,
      Instant.le_trans hend ((notAfter_info.1 hlast).2 c hc)⟩
  · intro hall
    obtain ⟨leaf, rest, rfl⟩ := List.exists_cons_of_ne_nil hne
    obtain ⟨first, hfirst⟩ : ∃ first, (info now (leaf :: rest)).notBefore = some first := ⟨_, rfl⟩
    obtain ⟨last, hlast⟩ : ∃ last, (info now (leaf :: rest)).notAfter = some last := ⟨_, rfl⟩
    obtain ⟨c, hc, rfl⟩ := (notBefore_info.1 hfirst).1
    obtain ⟨d, hd, rfl⟩ := (notAfter_info.1 hlast).1
    exact ⟨_, _, hfirst, hlast, (hall c hc).1, (hall d hd).2⟩

def Issue.isFatal : Issue → Bool
  | .endsSoon _ _ _ => false
  | _ => true

def issueAt? (now : Instant) (i : Nat) (c : Certificate) : Option Issue :=
  if c.isExpiredAt now then some (.expired i c)
  else if now < c.notBefore then some (.notYetValid i c)
  else
    let days := (c.notAfter.since now).wholeDays
    if days < warningDays then some (.endsSoon i c days) else none

def issues (now : Instant) (chain : List Certificate) : List Issue :=
  if chain.isEmpty then [.emptyChain]
  else chain.zipIdx.filterMap fun (c, i) => issueAt? now i c

lemma inspect_eq (now : Instant) (found : List Issue × Bool) (c : Certificate) (i : Nat) :
    inspect now found (c, i) =
      (found.1 ++ (issueAt? now i c).toList, found.2 && !(issueAt? now i c).any Issue.isFatal) := by
  unfold inspect issueAt?
  dsimp only
  split_ifs <;> simp [Issue.isFatal]

lemma foldl_inspect (now : Instant) (entries : List (Certificate × Nat)) (found : List Issue × Bool) :
    entries.foldl (inspect now) found =
      (found.1 ++ entries.filterMap fun (c, i) => issueAt? now i c,
        found.2 && !(entries.filterMap fun (c, i) => issueAt? now i c).any Issue.isFatal) := by
  induction entries generalizing found with
  | nil => simp
  | cons entry entries ih =>
    obtain ⟨c, i⟩ := entry
    rw [List.foldl_cons, ih, inspect_eq, List.filterMap_cons]
    dsimp only
    cases issueAt? now i c with
    | none => simp
    | some x => simp [Bool.and_assoc]

lemma survey_eq (now : Instant) (chain : List Certificate) :
    survey now chain = (issues now chain, !(issues now chain).any Issue.isFatal) := by
  rw [survey, foldl_inspect]
  cases chain with
  | nil => rfl
  | cons leaf rest => simp [issues]

lemma issues_info : (info now chain).issues = issues now chain :=
  congrArg Prod.fst (survey_eq now chain)

lemma isValid_info : (info now chain).isValid = !(issues now chain).any Issue.isFatal :=
  congrArg Prod.snd (survey_eq now chain)

def Issue.place? : Issue → Option (Certificate × Nat)
  | .expired i c | .notYetValid i c | .endsSoon i c _ => some (c, i)
  | .emptyChain => none

lemma Issue.isFatal_eq_false_iff : x.isFatal = false ↔ ∃ i c days, x = .endsSoon i c days := by
  cases x <;> simp [isFatal]

lemma wholeDays_lt_iff (d : Duration) :
    d.wholeDays < warningDays ↔ d < Duration.ofSeconds (30 * 86400) := by
  simp only [Duration.wholeDays, warningDays, Duration.day, Duration.ofSeconds, Duration.second]
  dsimp only [Duration]
  rcases Int.le_total 0 d with hpos | hneg
  · rw [Int.tdiv_eq_ediv_of_nonneg hpos]
    omega
  · -- a negative duration is below the bound on either side
    have htdiv : 0 ≤ Int.tdiv (-d) (86400 * 1000000000) := Int.tdiv_nonneg (by omega) (by decide)
    rw [Int.neg_tdiv] at htdiv
    omega

lemma issueAt?_of_isCurrent (h : c.IsCurrent now) : issueAt? now i c =
    if c.notAfter.since now < Duration.ofSeconds (30 * 86400) then
      some (.endsSoon i c (c.notAfter.since now).wholeDays)
    else none := by
  simp only [issueAt?, Certificate.isExpiredAt, decide_eq_true_eq, Instant.not_lt.2 h.1,
    Instant.not_lt.2 h.2, if_false, wholeDays_lt_iff]

lemma exists_fatal_of_not_isCurrent (h : ¬ c.IsCurrent now) :
    ∃ x, issueAt? now i c = some x ∧ x.isFatal = true := by
  by_cases hexpired : c.notAfter < now
  · exact ⟨.expired i c, by simp [issueAt?, Certificate.isExpiredAt, hexpired], rfl⟩
  · have hearly : now < c.notBefore := by
      rw [← not_not (a := now < c.notBefore), Instant.not_lt]
      exact fun hstart => h ⟨hstart, Instant.not_lt.1 hexpired⟩
    exact ⟨.notYetValid i c, by simp [issueAt?, Certificate.isExpiredAt, hexpired, hearly], rfl⟩

lemma place?_of_issueAt? (h : issueAt? now i c = some x) : x.place? = some (c, i) := by
  unfold issueAt? at h
  dsimp only at h
  split_ifs at h <;> cases h <;> rfl

lemma mem_issues (hne : chain ≠ []) :
    x ∈ issues now chain ↔ ∃ i c, chain[i]? = some c ∧ issueAt? now i c = some x := by
  rw [issues, if_neg (by simpa using hne), List.mem_filterMap]
  constructor
  · rintro ⟨⟨c, i⟩, hmem, hx⟩
    exact ⟨i, c, List.mem_zipIdx_iff_getElem?.1 hmem, hx⟩
  · rintro ⟨i, c, hc, hx⟩
    exact ⟨(c, i), List.mem_zipIdx_iff_getElem?.2 hc, hx⟩

lemma places_issues (now : Instant) (chain : List Certificate) :
    (issues now chain).filterMap Issue.place? =
      chain.zipIdx.filter fun (c, i) => (issueAt? now i c).isSome := by
  cases chain with
  | nil => rfl
  | cons leaf rest =>
    rw [issues, if_neg (by simp), List.filterMap_filterMap, ← List.filterMap_eq_filter]
    apply List.filterMap_congr
    rintro ⟨c, i⟩ -
    cases hx : issueAt? now i c with
    | none => simp [hx, Option.guard]
    | some x => simp [hx, Option.guard, place?_of_issueAt? hx]

lemma isValid_iff_issues :
    (info now chain).isValid = true ↔ ∀ x ∈ issues now chain, x.isFatal = false := by
  simp [isValid_info]

lemma isValid_iff :
    (info now chain).isValid = true ↔ chain ≠ [] ∧ ∀ c ∈ chain, c.IsCurrent now := by
  rw [isValid_iff_issues]
  by_cases hne : chain = []
  · simp [hne, issues, Issue.isFatal]
  · simp only [mem_issues hne, ne_eq, hne, not_false_eq_true, true_and]
    constructor
    · intro hall c hc
      obtain ⟨i, hi⟩ := List.mem_iff_getElem?.1 hc
      by_contra hout
      obtain ⟨x, hx, hfatal⟩ := exists_fatal_of_not_isCurrent (i := i) hout
      rw [hall x ⟨i, c, hi, hx⟩] at hfatal
      cases hfatal
    · rintro hall x ⟨i, c, hc, hx⟩
      rw [issueAt?_of_isCurrent (hall c (List.mem_of_getElem? hc)), Option.ite_none_right_eq_some] at hx
      rw [← Option.some.inj hx.2]
      rfl

lemma mem_places_iff (hc : chain[i]? = some c) (h : c.IsCurrent now) :
    (c, i) ∈ (issues now chain).filterMap Issue.place? ↔
      c.notAfter.since now < Duration.ofSeconds (30 * 86400) := by
  rw [places_issues, List.mem_filter]
  simp only [List.mem_zipIdx_iff_getElem?, hc, true_and, issueAt?_of_isCurrent h, Option.isSome_ite]

lemma checkWindow_of_isCurrent {v : Validator} (h : c.IsCurrent t) (hskew : 0 ≤ v.skew) :
    v.checkWindow c t = .ok () := by
  have hstart : c.notBefore.minus v.skew ≤ t := Instant.le_trans (c.notBefore.minus_le hskew) h.1
  have hend : t ≤ c.notAfter.plus v.skew := Instant.le_trans h.2 (c.notAfter.le_plus hskew)
  rw [Validator.checkWindow, if_neg (Instant.not_lt.2 hend), if_neg (Instant.not_lt.2 hstart)]

lemma root_of_validateChain {v : Validator} {roots : Option RootStore} {host : Option String}
    {err : ChainError} (hall : ∀ c ∈ chain, v.checkWindow c v.now = .ok ())
    (h : v.validateChain chain roots host = .error err)
    (hkind : err.kind? = some .expired ∨ err.kind? = some .notYetValid) :
    ∃ root ∈ (v.store roots).roots, root ∉ chain ∧ v.checkWindow root v.now = .error err := by
  cases chain with
  | nil =>
    obtain rfl : ChainError.emptyChain = err := Except.error.inj h
    rcases hkind with hkind | hkind <;> cases hkind
  | cons leaf rest =>
    obtain ⟨c, hc, hwindow⟩ := Validator.checkWindow_of_check h hkind
    have hout : c ∉ leaf :: rest := by
      intro hmem
      rw [hall c hmem] at hwindow
      cases hwindow
    exact ⟨c, hc.resolve_left hout, hout, hwindow⟩

/-- A chain is valid when it has certificates and now is between the latest of their starts and the
earliest of their ends, so that each of them is current and no issue is more than an end that is near.
The issues are about different certificates, in the order of the chain. Whatever the tolerance of a
validator, no certificate of a valid chain makes the validation of the chain fail for its window. -/
theorem info_tells_validity (now : Instant) (chain : List Certificate) :
    let summary := info now chain
    (summary.isValid = true ↔ chain ≠ [] ∧ ∃ first last, summary.notBefore = some first ∧
      summary.notAfter = some last ∧ first ≤ now ∧ now ≤ last) ∧
    (∀ first, summary.notBefore = some first ↔
      (∃ c ∈ chain, c.notBefore = first) ∧ ∀ c ∈ chain, c.notBefore ≤ first) ∧
    (∀ last, summary.notAfter = some last ↔
      (∃ c ∈ chain, c.notAfter = last) ∧ ∀ c ∈ chain, last ≤ c.notAfter) ∧
    (summary.isValid = true ↔ chain ≠ [] ∧ ∀ c ∈ chain, c.IsCurrent now) ∧
    (summary.isValid = true ↔ ∀ x ∈ summary.issues, ∃ i c days, x = .endsSoon i c days) ∧
    ((summary.issues.filterMap Issue.place?).Sublist chain.zipIdx ∧
      (chain ≠ [] → ∀ x ∈ summary.issues, ∃ c i, x.place? = some (c, i))) ∧
    (∀ i c, chain[i]? = some c → c.IsCurrent now →
      ((c, i) ∈ summary.issues.filterMap Issue.place? ↔
        c.notAfter.since now < Duration.ofSeconds (30 * 86400))) ∧
    (summary.isValid = true → ∀ v : Validator, v.now = now → 0 ≤ v.skew →
      (∀ c ∈ chain, v.checkWindow c v.now = .ok ()) ∧
      ∀ roots host err, v.validateChain chain roots host = .error err →
        err.kind? = some .expired ∨ err.kind? = some .notYetValid →
        ∃ root ∈ (v.store roots).roots, root ∉ chain ∧ v.checkWindow root v.now = .error err) := by
  intro summary
  have hissues : summary.issues = issues now chain := issues_info
  rw [hissues]
  refine ⟨?_, fun first => notBefore_info, fun last => notAfter_info, isValid_iff, ?_, ⟨?_, ?_⟩,
    fun i c => mem_places_iff, ?_⟩
  · exact isValid_iff.trans (and_congr_right fun hne => (window_iff hne).symm)
  · exact isValid_iff_issues.trans (by simp only [Issue.isFatal_eq_false_iff])
  · exact (places_issues now chain).symm ▸ List.filter_sublist
  · intro hne x hx
    obtain ⟨i, c, -, hissue⟩ := (mem_issues hne).1 hx
    exact ⟨c, i, place?_of_issueAt? hissue⟩
  · rintro hvalid v rfl hskew
    have hall : ∀ c ∈ chain, v.checkWindow c v.now = .ok () := fun c hc =>
      checkWindow_of_isCurrent ((isValid_iff.1 hvalid).2 c hc) hskew
    exact ⟨hall, fun roots host err => root_of_validateChain hall⟩

theorem leaf_is_current_to_its_end :
    let root := { Validator.exampleRoot with notAfter := .atSecond 3000000 }
    let chain := [Validator.exampleLeaf, root]
    let v : Validator := { now := .atSecond 200, skew := 0 }
    (info v.now chain).isValid = true ∧
      (Validator.exampleLeaf, 0) ∈ (info v.now chain).issues.filterMap Issue.place? ∧
      (root, 1) ∉ (info v.now chain).issues.filterMap Issue.place? ∧
      v.checkWindow Validator.exampleLeaf v.now = .ok () := by
  intro root chain v
  obtain ⟨-, -, -, hvalid, -, -, hlisted, hchecked⟩ := info_tells_validity v.now chain
  have hcurrent : ∀ c ∈ chain, c.IsCurrent v.now := by
    rw [List.forall_mem_cons, List.forall_mem_singleton]
    exact ⟨⟨by decide, by decide⟩, ⟨by decide, by decide⟩⟩
  have hleaf : Validator.exampleLeaf ∈ chain := List.mem_cons_self
  have hroot : root ∈ chain := List.mem_cons_of_mem _ (List.mem_singleton_self root)
  have hok := hvalid.2 ⟨by decide, hcurrent⟩
  refine ⟨hok, (hlisted 0 _ rfl (hcurrent _ hleaf)).2 (by decide), ?_,
    (hchecked hok v rfl (by decide)).1 _ hleaf⟩
  rw [hlisted 1 _ rfl (hcurrent _ hroot)]
  decide

end Chain

end TlsTrust
