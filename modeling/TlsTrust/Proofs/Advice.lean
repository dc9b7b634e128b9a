import TlsTrust.Advice
import TlsTrust.Proofs.Text.Search
import Mathlib.Data.List.Forall2
import Mathlib.Data.List.Induction
import Mathlib.Data.List.Nodup
import Mathlib.Data.List.Pairwise

/-!
Templates of different lines never say the same for any host, so a repeated text is a repeated line,
and the tiers share none.
-/

namespace TlsTrust

open Text

namespace Advice

section FirstOccurrences

variable {α : Type} [DecidableEq α] {as bs : List α}

lemma eraseDups_concat (as : List α) (b : α) :
    (as ++ [b]).eraseDups = if b ∈ as then as.eraseDups else as.eraseDups ++ [b] := by
  rw [List.eraseDups_append]
  split
  case isTrue hb =>
    have hnone : [b].removeAll as = [] := by simp [List.removeAll, hb]
    rw [hnone, List.eraseDups_nil, List.append_nil]
  case isFalse hb =>
    have hone : [b].removeAll as = [b] := by simp [List.removeAll, hb]
    rw [hone, List.eraseDups_cons, List.filter_nil, List.eraseDups_nil]

lemma nodup_eraseDups (as : List α) : as.eraseDups.Nodup := by
  induction as using List.reverseRecOn with
  | nil => exact List.nodup_nil
  | append_singleton as b ih =>
    rw [eraseDups_concat]
    split
    case isTrue => exact ih
    case isFalse hb =>
      refine List.nodup_append.2 ⟨ih, List.nodup_singleton b, fun a ha c hc hac => hb ?_⟩
      rw [← List.mem_singleton.1 hc, ← hac]
      exact List.mem_eraseDups.1 ha

lemma eraseDups_filter (q : α → Bool) (as : List α) :
    (as.filter q).eraseDups = as.eraseDups.filter q := by
  induction as using List.reverseRecOn with
  | nil => rfl
  | append_singleton as b ih =>
    rw [List.filter_append, eraseDups_concat]
    cases hq : q b with
    | false => split <;> simp [hq, ih]
    | true =>
      have hb : [b].filter q = [b] := by simp [hq]
      rw [hb, eraseDups_concat, ih]
      simp only [List.mem_filter, hq, and_true]
      split
      · rfl
      · rw [List.filter_append, hb]

lemma eraseDups_append_of_subset (h : bs ⊆ as) (cs : List α) :
    (as ++ bs ++ cs).eraseDups = (as ++ cs).eraseDups := by
  have hnone : bs.removeAll as = [] := by
    simpa [List.removeAll, List.filter_eq_nil_iff] using fun b hb => h hb
  have hsame : cs.removeAll (as ++ bs) = cs.removeAll as := by
    refine List.filter_congr fun c _ => ?_
    have hmem : c ∈ as ∨ c ∈ bs ↔ c ∈ as := or_iff_left_of_imp fun hc => h hc
    simp [hmem]
  rw [List.eraseDups_append, List.eraseDups_append, List.eraseDups_append, hnone, hsame]
  simp

lemma firstOfEach_subset (ls : List (Tier × String)) : firstOfEach ls ⊆ ls := by
  induction ls with
  | nil => exact List.Subset.refl _
  | cons l ls ih =>
    rw [firstOfEach]
    exact List.cons_subset_cons l (List.Subset.trans (List.filter_subset_self _) ih)

lemma firstOfEach_filter {ls : List (Tier × String)}
    (h : ∀ l ∈ ls, ∀ m ∈ ls, l.2 = m.2 → l.1 = m.1) (t : Tier) :
    ((firstOfEach ls).filter (·.1 == t)).map (·.2) =
      ((ls.filter (·.1 == t)).map (·.2)).eraseDups := by
  induction ls with
  | nil => rfl
  | cons l ls ih =>
    have hrest := ih fun m hm n hn => h m (List.mem_cons_of_mem _ hm) n (List.mem_cons_of_mem _ hn)
    rw [firstOfEach, List.filter_cons, List.filter_cons]
    split
    case isTrue ht =>
      rw [List.map_cons, List.map_cons, List.eraseDups_cons, List.filter_comm]
      congr 1
      have hmap : (((firstOfEach ls).filter (·.1 == t)).filter (fun m => m.2 != l.2)).map (·.2) =
          (((firstOfEach ls).filter (·.1 == t)).map (·.2)).filter (· != l.2) := by
        rw [List.filter_map]
        rfl
      rw [hmap, hrest, eraseDups_filter]
      rfl
    case isFalse ht =>
      -- a later line of the tier with the same text would be of the tier of this one
      rw [← hrest, List.filter_filter]
      congr 1
      refine List.filter_congr fun m hm => ?_
      cases hm' : m.1 == t with
      | false => rfl
      | true =>
        have hne : m.2 ≠ l.2 := fun he => by
          have hsame := h l List.mem_cons_self m (List.mem_cons_of_mem _ (firstOfEach_subset ls hm)) he.symm
          rw [hsame] at ht
          exact ht hm'
        simpa using hne

end FirstOccurrences

/-- Every line that may be given before the closing one. -/
def catalogue : List AdviceLine :=
  Issue.recognized.flatMap Issue.lines ++ AdviceLine.localCluster ++ AdviceLine.publicRegistry ++
    PublicRegistry.all.map (fun r => ⟨.advice, r.advice⟩) ++ AdviceLine.selfHosted

/-- Two templates differ at some character, and up to there neither has a place to fill. -/
def apart : List Char → List Char → Bool
  | a :: as, b :: bs => a != '\x7b' && b != '\x7b' && (a != b || apart as bs)
  | _, _ => false

lemma exists_of_apart {as bs : List Char} (h : apart as bs = true) :
    ∃ start a b, a ≠ b ∧ '\x7b' ∉ start ++ [a] ∧ '\x7b' ∉ start ++ [b] ∧
      start ++ [a] <+: as ∧ start ++ [b] <+: bs := by
  induction as generalizing bs with
  | nil => cases h
  | cons a as ih =>
    cases bs with
    | nil => cases h
    | cons b bs =>
      simp only [apart, Bool.and_eq_true, Bool.or_eq_true, bne_iff_ne] at h
      obtain ⟨⟨ha, hb⟩, hrest⟩ := h
      by_cases hab : a = b
      · obtain ⟨start, c, d, hcd, hc, hd, has, hbs⟩ := ih (hrest.resolve_left (not_not_intro hab))
        subst hab
        refine ⟨a :: start, c, d, hcd, ?_, ?_, ?_, ?_⟩
        · simpa [Ne.symm ha] using hc
        · simpa [Ne.symm ha] using hd
        · exact List.cons_prefix_cons.2 ⟨rfl, has⟩
        · exact List.cons_prefix_cons.2 ⟨rfl, hbs⟩
      · refine ⟨[], a, b, hab, ?_, ?_, ?_, ?_⟩
        · simpa using Ne.symm ha
        · simpa using Ne.symm hb
        · exact List.prefix_append [a] as
        · exact List.prefix_append [b] bs

lemma prefix_fill {template : String} {start : List Char} (hplace : '\x7b' ∉ start)
    (h : start <+: template.toList) (host : String) : start <+: (fill template host).toList := by
  unfold fill
  refine prefix_replaceAll String.toList_ofList hplace ?_
  refine prefix_replaceAll String.toList_ofList hplace ?_
  refine prefix_replaceAll String.toList_ofList hplace ?_
  exact prefix_replaceAll String.toList_ofList hplace h

lemma fill_ne_of_apart {template template' : String}
    (h : apart template.toList template'.toList = true) (host : String) :
    fill template host ≠ fill template' host := by
  obtain ⟨start, a, b, hab, ha, hb, hpre, hpre'⟩ := exists_of_apart h
  intro he
  have hfill := prefix_fill ha hpre host
  have hfill' := prefix_fill hb hpre' host
  rw [he] at hfill
  have hsame := (List.prefix_of_prefix_length_le hfill hfill' (by simp)).eq_of_length (by simp)
  exact hab (List.singleton_inj.1 (List.append_cancel_left hsame))

lemma pairwise_apart : (catalogue ++ [AdviceLine.closing]).Pairwise fun l m =>
    apart l.text.toList m.text.toList = true := by
  -- the characters of the literals are found by unification, which is quicker than to decode them
  obtain ⟨css, hcss, hpairwise⟩ : ∃ css,
      List.Forall₂ (fun (l : AdviceLine) cs => l.text = String.ofList cs)
        (catalogue ++ [AdviceLine.closing]) css ∧ css.Pairwise fun as bs => apart as bs = true := by
    apply Exists.intro
    apply And.intro
    · repeat' constructor
    · decide +kernel
  have htexts : (catalogue ++ [AdviceLine.closing]).map (·.text.toList) = css := by
    rw [← List.forall₂_eq_eq_eq, List.forall₂_map_left_iff]
    exact hcss.imp fun l cs hl => by rw [hl, String.toList_ofList]
  rwa [← htexts, List.pairwise_map] at hpairwise

lemma pairwise_fill (host : String) : (catalogue ++ [AdviceLine.closing]).Pairwise fun l m =>
    fill l.text host ≠ fill m.text host :=
  pairwise_apart.imp fun h => fill_ne_of_apart h host

lemma eq_of_fill_eq {l m : AdviceLine} {host : String} (hl : l ∈ catalogue ++ [AdviceLine.closing])
    (hm : m ∈ catalogue ++ [AdviceLine.closing]) (h : fill l.text host = fill m.text host) : l = m := by
  have hsymm : Std.Symm fun l m : AdviceLine => fill l.text host ≠ fill m.text host :=
    ⟨fun _ _ => Ne.symm⟩
  by_contra hne
  exact (pairwise_fill host).forall hl hm hne h

lemma fill_ne_closing {l : AdviceLine} (h : l ∈ catalogue) (host : String) :
    fill l.text host ≠ fill AdviceLine.closing.text host :=
  (List.pairwise_append.1 (pairwise_fill host)).2.2 l h _ (List.mem_singleton_self _)

lemma fill_closing (host : String) : fill AdviceLine.closing.text host = AdviceLine.closing.text := by
  have hplace : '\x7b' ∉ AdviceLine.closing.text.toList := by
    rw [show AdviceLine.closing.text.toList = _ from String.toList_ofList]
    decide
  rw [fill]
  simp only [replaceAll_eq_self String.toList_ofList hplace]

/-- The lines of the issues that the text mentions, of the issue of its kind, of the profile of the
host, and the closing one. -/
def linesFor (host errorText : String) : List AdviceLine :=
  (Issue.recognized.filter fun i => i.phrases.any (mentionsFolded errorText)).flatMap Issue.lines ++
    (Issue.ofKind? (FailureKind.ofText errorText)).toList.flatMap Issue.lines ++
    profileLines (HostProfile.ofHost host) ++ [AdviceLine.closing]

/-- What the lines of a tier say for a host, each text where it comes first. -/
def said (host : String) (lines : List AdviceLine) (t : Tier) : List String :=
  ((lines.filter (·.tier == t)).map fun l => fill l.text host).eraseDups

variable {host errorText : String}

lemma said_append_of_subset {as bs : List AdviceLine} (h : bs ⊆ as) (cs : List AdviceLine) (t : Tier) :
    said host (as ++ bs ++ cs) t = said host (as ++ cs) t := by
  simp only [said, List.filter_append, List.map_append]
  exact eraseDups_append_of_subset (List.map_subset _ (List.filter_subset _ h)) _

lemma said_analyze (host errorText : String) (t : Tier) :
    said host (analyze host errorText).lines t = said host (linesFor host errorText) t := by
  simp only [analyze, linesFor, issuesOf]
  cases Issue.ofKind? (FailureKind.ofText errorText) with
  | none => simp
  | some i =>
    simp only [Option.toList_some, List.flatMap_singleton, List.append_assoc _ (profileLines _)]
    split
    case isTrue hi =>
      refine (said_append_of_subset (fun l hl => ?_) _ t).symm
      exact List.mem_flatMap.2 ⟨i, List.contains_iff_mem.1 hi, hl⟩
    case isFalse => rw [List.flatMap_append, List.flatMap_singleton]

lemma mem_recognized_of_ofKind? {kind : FailureKind} {i : Issue} (h : Issue.ofKind? kind = some i) :
    i ∈ Issue.recognized := by
  cases kind <;> cases h <;> decide

lemma mem_all_of_ofHost {r : PublicRegistry} (h : HostProfile.ofHost host = .publicRegistry r) :
    r ∈ PublicRegistry.all := by
  simp only [HostProfile.ofHost] at h
  split at h
  · cases h
  · split at h
    case h_1 hfind =>
      cases h
      exact List.mem_of_find?_eq_some hfind
    case h_2 => cases h

lemma profileLines_subset (host : String) : profileLines (HostProfile.ofHost host) ⊆ catalogue := by
  intro l hl
  simp only [catalogue, List.mem_append, List.mem_map]
  cases hprofile : HostProfile.ofHost host with
  | localCluster =>
    rw [hprofile] at hl
    exact .inl (.inl (.inl (.inr hl)))
  | selfHosted =>
    rw [hprofile] at hl
    exact .inr hl
  | publicRegistry r =>
    rw [hprofile, profileLines, List.mem_append, List.mem_singleton] at hl
    rcases hl with hl | rfl
    · exact .inl (.inl (.inr hl))
    · exact .inl (.inr ⟨r, mem_all_of_ofHost hprofile, rfl⟩)

lemma lines_subset {i : Issue} (h : i ∈ Issue.recognized) : i.lines ⊆ catalogue := by
  intro l hl
  simp only [catalogue, List.mem_append]
  exact .inl (.inl (.inl (.inl (List.mem_flatMap.2 ⟨i, h, hl⟩))))

lemma exists_linesFor_eq (host errorText : String) :
    ∃ ls, ls ⊆ catalogue ∧ linesFor host errorText = ls ++ [AdviceLine.closing] := by
  refine ⟨_, fun l hl => ?_, rfl⟩
  rcases List.mem_append.1 hl with hl | hl
  · rcases List.mem_append.1 hl with hl | hl
    · obtain ⟨i, hi, hl⟩ := List.mem_flatMap.1 hl
      exact lines_subset (List.mem_of_mem_filter hi) hl
    · obtain ⟨i, hi, hl⟩ := List.mem_flatMap.1 hl
      exact lines_subset (mem_recognized_of_ofKind? (Option.mem_toList.1 hi)) hl
  · exact profileLines_subset host hl

lemma issuesOf_subset (errorText : String) (kind : FailureKind) : issuesOf errorText kind ⊆
    (Issue.recognized.filter fun i => i.phrases.any (mentionsFolded errorText)) ++
      (Issue.ofKind? kind).toList := by
  simp only [issuesOf]
  cases Issue.ofKind? kind with
  | none => exact List.subset_append_left _ _
  | some i =>
    dsimp only
    split
    · exact List.subset_append_left _ _
    · exact List.Subset.refl _

lemma linesFor_subset (host errorText : String) :
    linesFor host errorText ⊆ catalogue ++ [AdviceLine.closing] := by
  obtain ⟨ls, hls, heq⟩ := exists_linesFor_eq host errorText
  rw [heq, List.append_subset]
  exact ⟨List.Subset.trans hls (List.subset_append_left _ _), List.subset_append_right _ _⟩

lemma analyze_subset (host errorText : String) :
    (analyze host errorText).lines ⊆ linesFor host errorText := by
  intro l hl
  simp only [analyze, linesFor, ← List.flatMap_append, List.mem_append] at hl ⊢
  refine hl.imp_left (Or.imp_left fun hl => ?_)
  obtain ⟨i, hi, hl⟩ := List.mem_flatMap.1 hl
  exact List.mem_flatMap.2 ⟨i, issuesOf_subset errorText _ hi, hl⟩

variable {lines : List AdviceLine} {text : String} {t : Tier}

lemma mem_said :
    text ∈ said host lines t ↔ ∃ l ∈ lines, l.tier = t ∧ fill l.text host = text := by
  simp only [said, List.mem_eraseDups, List.mem_map, List.mem_filter, beq_iff_eq, and_assoc]

lemma tierLE_trans (l m n : Tier × String) (h : tierLE l m = true) (h' : tierLE m n = true) :
    tierLE l n = true := by
  rw [tierLE, decide_eq_true_iff] at *
  exact Nat.le_trans h h'

lemma tierLE_total (l m : Tier × String) : (tierLE l m || tierLE m l) = true := by
  rw [tierLE, tierLE, Bool.or_eq_true, decide_eq_true_iff, decide_eq_true_iff]
  exact Nat.le_total ..

lemma filter_mergeSort (ls : List (Tier × String)) (t : Tier) :
    (ls.mergeSort tierLE).filter (·.1 == t) = ls.filter (·.1 == t) := by
  have htier : (ls.filter (·.1 == t)).Pairwise (tierLE · ·) := by
    refine List.pairwise_of_forall_mem_list fun l hl m hm => ?_
    have hl : l.1 = t := by simpa using (List.mem_filter.1 hl).2
    have hm : m.1 = t := by simpa using (List.mem_filter.1 hm).2
    rw [tierLE, hl, hm]
    exact decide_eq_true (Nat.le_refl _)
  have hkept := (List.sublist_mergeSort tierLE_trans tierLE_total htier List.filter_sublist).filter
    (·.1 == t)
  rw [List.filter_filter] at hkept
  simp only [Bool.and_self] at hkept
  exact (hkept.eq_of_length ((List.mergeSort_perm ls tierLE).filter _).length_eq.symm).symm

lemma eq_flatMap_of_pairwise {ls : List (Tier × String)} (h : ls.Pairwise (tierLE · ·)) :
    ls = Tier.all.flatMap fun t => ls.filter (·.1 == t) := by
  induction ls with
  | nil => rfl
  | cons l ls ih =>
    obtain ⟨hfirst, hrest⟩ := List.pairwise_cons.1 h
    have hnone : ∀ t : Tier, t.rank < l.1.rank → ls.filter (·.1 == t) = [] := by
      intro t ht
      rw [List.filter_eq_nil_iff]
      intro m hm hmt
      have hle := of_decide_eq_true (hfirst m hm)
      rw [beq_iff_eq.1 hmt] at hle
      exact Nat.not_le.2 ht hle
    have htiers := ih hrest
    simp only [Tier.all, List.flatMap_cons, List.flatMap_nil, List.append_nil] at htiers ⊢
    obtain ⟨t, text⟩ := l
    cases t with
    | warning => simpa using htiers
    | command =>
      have hwarning := hnone .warning Nat.zero_lt_one
      simpa [hwarning] using htiers
    | advice =>
      have hwarning := hnone .warning Nat.zero_lt_two
      have hcommand := hnone .command Nat.one_lt_two
      simpa [hwarning, hcommand] using htiers

def group (host : String) (lines : List AdviceLine) (t : Tier) : List (Tier × String) :=
  (firstOfEach (lines.map fun l => (l.tier, fill l.text host))).filter (·.1 == t)

lemma finish_eq (host : String) (lines : List AdviceLine) :
    finish host lines = Tier.all.flatMap (group host lines) := by
  have hsorted := List.pairwise_mergeSort tierLE_trans tierLE_total
    (firstOfEach (lines.map fun l => (l.tier, fill l.text host)))
  refine (eq_flatMap_of_pairwise hsorted).trans ?_
  simp only [filter_mergeSort]
  rfl

lemma filter_group (host : String) (lines : List AdviceLine) (p : Tier → Bool) (t : Tier) :
    (group host lines t).filter (fun e => p e.1) = if p t then group host lines t else [] := by
  have htier : ∀ e ∈ group host lines t, e.1 = t := fun e he => by
    simpa using (List.mem_filter.1 he).2
  split
  case isTrue hp => exact List.filter_eq_self.2 fun e he => htier e he ▸ hp
  case isFalse hp => exact List.filter_eq_nil_iff.2 fun e he => htier e he ▸ hp

lemma map_group (h : lines ⊆ catalogue ++ [AdviceLine.closing]) (t : Tier) :
    (group host lines t).map (·.2) = said host lines t := by
  rw [group, firstOfEach_filter, List.filter_map, List.map_map]
  · rfl
  · simp only [List.forall_mem_map]
    exact fun l hl m hm htext => congrArg AdviceLine.tier (eq_of_fill_eq (h hl) (h hm) htext)

lemma exists_command (host errorText : String) : ∃ l ∈ linesFor host errorText, l.tier = .command := by
  have hprofile : ∀ p : HostProfile, ∃ l ∈ profileLines p, l.tier = .command := by
    rintro (_ | r | _)
    · exact ⟨_, List.mem_cons_self, rfl⟩
    · exact ⟨_, List.mem_cons_of_mem _ List.mem_cons_self, rfl⟩
    · exact ⟨_, List.mem_cons_self, rfl⟩
  obtain ⟨l, hl, htier⟩ := hprofile (HostProfile.ofHost host)
  exact ⟨l, List.mem_append_left _ (List.mem_append_right _ hl), htier⟩

lemma getLast?_said (host errorText : String) :
    (said host (linesFor host errorText) .advice).getLast? = some AdviceLine.closing.text := by
  obtain ⟨ls, hls, heq⟩ := exists_linesFor_eq host errorText
  have hnew : fill AdviceLine.closing.text host ∉
      (ls.filter (·.tier == .advice)).map fun l => fill l.text host := by
    simp only [List.mem_map, not_exists, not_and]
    exact fun l hl => fill_ne_closing (hls (List.mem_of_mem_filter hl)) host
  have hclosing : [AdviceLine.closing].filter (·.tier == .advice) = [AdviceLine.closing] := rfl
  rw [said, heq, List.filter_append, hclosing, List.map_append, List.map_singleton, eraseDups_concat,
    if_neg hnew, List.getLast?_concat, fill_closing]

lemma map_finished (host errorText : String) (t : Tier) :
    (group host (analyze host errorText).lines t).map (·.2) = said host (linesFor host errorText) t := by
  have hlines := List.Subset.trans (analyze_subset host errorText) (linesFor_subset host errorText)
  rw [map_group hlines, said_analyze]

lemma filter_finished (host errorText : String) (p : Tier → Bool) :
    ((finished host errorText).filter (fun e => p e.1)).map (·.2) =
      (Tier.all.filter p).flatMap (said host (linesFor host errorText)) := by
  have htiers : ∀ ts : List Tier, ((ts.flatMap (group host (analyze host errorText).lines)).filter
      (fun e => p e.1)).map (·.2) = (ts.filter p).flatMap (said host (linesFor host errorText)) := by
    intro ts
    induction ts with
    | nil => rfl
    | cons t ts ih =>
      rw [List.flatMap_cons, List.filter_append, filter_group, List.map_append, ih, List.filter_cons]
      split
      · rw [map_finished, List.flatMap_cons]
      · rfl
  rw [finished, finish_eq]
  exact htiers Tier.all

lemma recommend_eq (host errorText : String) : recommend host errorText =
    said host (linesFor host errorText) .warning ++ said host (linesFor host errorText) .command ++
      said host (linesFor host errorText) .advice := by
  have hall := filter_finished host errorText fun _ => true
  rw [List.filter_true, List.filter_true] at hall
  simpa [Tier.all, recommend] using hall

lemma eq_of_mem_said {t' : Tier} (h : text ∈ said host (linesFor host errorText) t)
    (h' : text ∈ said host (linesFor host errorText) t') : t = t' := by
  have hlines := linesFor_subset host errorText
  obtain ⟨l, hl, rfl, htext⟩ := mem_said.1 h
  obtain ⟨m, hm, rfl, htext'⟩ := mem_said.1 h'
  exact congrArg AdviceLine.tier (eq_of_fill_eq (hlines hl) (hlines hm) (htext.trans htext'.symm))

lemma nodup_recommend (host errorText : String) : (recommend host errorText).Nodup := by
  have hapart : ∀ t t', t ≠ t' →
      (said host (linesFor host errorText) t).Disjoint (said host (linesFor host errorText) t') :=
    fun t t' hne text h h' => hne (eq_of_mem_said h h')
  have hcommands := hapart .warning .command (by decide)
  have hadvice := List.disjoint_append_left.2
    ⟨hapart .warning .advice (by decide), hapart .command .advice (by decide)⟩
  rw [recommend_eq]
  exact ((nodup_eraseDups _).append (nodup_eraseDups _) hcommands).append (nodup_eraseDups _) hadvice

lemma fill_mem_recommend {l : AdviceLine} (h : l ∈ linesFor host errorText) :
    fill l.text host ∈ recommend host errorText := by
  have hsaid : fill l.text host ∈ said host (linesFor host errorText) l.tier :=
    mem_said.2 ⟨l, h, rfl, rfl⟩
  rw [recommend_eq, List.mem_append, List.mem_append]
  cases htier : l.tier <;> rw [htier] at hsaid
  case warning => exact .inl (.inl hsaid)
  case command => exact .inl (.inr hsaid)
  case advice => exact .inr hsaid

lemma nextSteps_eq (host errorText : String) :
    (recommendDetailed host errorText).nextSteps = said host (linesFor host errorText) .advice := by
  have hadvice : Tier.all.filter (· == .advice) = [.advice] := rfl
  have hcut := filter_finished host errorText (· == .advice)
  rwa [hadvice, List.flatMap_singleton] at hcut

lemma solutions_eq (host errorText : String) : (recommendDetailed host errorText).solutions =
    said host (linesFor host errorText) .warning ++ said host (linesFor host errorText) .command := by
  have hothers : Tier.all.filter (· != .advice) = [.warning, .command] := rfl
  have hcut := filter_finished host errorText (· != .advice)
  rwa [hothers, List.flatMap_cons, List.flatMap_singleton] at hcut

lemma head?_said_command (host errorText : String) :
    (said host (linesFor host errorText) .command).head? = some (quickFix host errorText) := by
  have hcommands : Tier.all.filter (· == .command) = [.command] := rfl
  have hfind : ((finished host errorText).find? (·.1 == .command)).map (·.2) =
      (said host (linesFor host errorText) .command).head? := by
    rw [← List.head?_filter, ← List.head?_map, filter_finished host errorText (· == .command),
      hcommands, List.flatMap_singleton]
  obtain ⟨l, hl, htier⟩ := exists_command host errorText
  obtain ⟨first, rest, hsaid⟩ := List.exists_cons_of_ne_nil
    (List.ne_nil_of_mem (mem_said.2 ⟨l, hl, htier, rfl⟩))
  rw [hsaid, List.head?_cons] at hfind ⊢
  obtain ⟨e, he, hfirst⟩ := Option.map_eq_some_iff.1 hfind
  simp only [quickFix, he, Option.some_or, Option.map_some, Option.getD_some, hfirst]

/-- Advice gives every text once: the warnings, then the commands, then the rest, each in the order in
which the lines that bear on the failure say it first. It ends with the closing line, the detailed form
cuts it in two, and the quick fix is its first command. -/
theorem advice_is_given_in_tiers (host errorText : String) :
    let said := said host (linesFor host errorText)
    let detailed := recommendDetailed host errorText
    recommend host errorText = said .warning ++ said .command ++ said .advice ∧
      (recommend host errorText).Nodup ∧
      (∀ i, Issue.ofKind? (FailureKind.ofText errorText) = some i →
        ∀ l ∈ i.lines, fill l.text host ∈ recommend host errorText) ∧
      (recommend host errorText).getLast? =
        some "Review the security audit log before accepting any certificate bypass" ∧
      detailed.solutions ++ detailed.nextSteps = recommend host errorText ∧
      detailed.nextSteps = said .advice ∧
      (said .command).head? = some (quickFix host errorText) := by
  intro said detailed
  have hrecommend : recommend host errorText = said .warning ++ said .command ++ said .advice :=
    recommend_eq host errorText
  refine ⟨hrecommend, nodup_recommend .., fun i hi l hl => fill_mem_recommend ?_, ?_, ?_,
    nextSteps_eq .., head?_said_command ..⟩
  · simp only [linesFor, List.mem_append, List.mem_flatMap, Option.mem_toList]
    exact .inl (.inl (.inr ⟨i, hi, hl⟩))
  · rw [hrecommend, List.getLast?_append, getLast?_said]
    rfl
  · rw [solutions_eq, nextSteps_eq, hrecommend]

theorem hostname_mismatch_is_advised_on :
    let host := "kind-registry:5000"
    let errorText := "hostname mismatch"
    Issue.ofKind? (FailureKind.ofText errorText) = some .hostnameMismatch ∧
      "Reissue the certificate with kind-registry in its subject alternative names" ∈
        recommend host errorText ∧
      (recommend host errorText).getLast? =
        some "Review the security audit log before accepting any certificate bypass" ∧
      quickFix host errorText ∈ recommend host errorText := by
  have hkind : Issue.ofKind? (FailureKind.ofText "hostname mismatch") = some .hostnameMismatch := by
    decide +kernel
  have hfill : fill "Reissue the certificate with {name} in its subject alternative names"
      "kind-registry:5000" =
        "Reissue the certificate with kind-registry in its subject alternative names" := by
    decide +kernel
  obtain ⟨hrecommend, -, hkindly, hlast, -, -, hquick⟩ :=
    advice_is_given_in_tiers "kind-registry:5000" "hostname mismatch"
  have hline := hkindly _ hkind _ (.tail _ (.tail _ (.head _)))
  have hfirst := List.mem_of_head? hquick
  rw [hfill] at hline
  refine ⟨hkind, hline, hlast, ?_⟩
  rw [hrecommend]
  exact List.mem_append_left _ (List.mem_append_right _ hfirst)

end Advice

end TlsTrust
