import TlsTrust.Failure.Phrase
import TlsTrust.Proofs.Text.Search

/-! How the place of the first rule that matches depends on the text. -/

namespace TlsTrust

open Text

namespace PhraseRule

variable {r : PhraseRule} {form form' : List Char} {s t : String}

def phrases (r : PhraseRule) : List String :=
  r.all ++ r.any

lemma isAscii_phrases : ∀ r ∈ rules, ∀ p ∈ r.phrases, ∀ c ∈ p.toList, c.toNat < 128 := by
  have hall : (rules.all fun r => r.phrases.all fun p => p.toList.all fun c => c.toNat < 128) = true := by
    decide +kernel
  simpa only [List.all_eq_true, decide_eq_true_eq] using hall

lemma matchesForm_mono (h : ∀ p ∈ r.phrases, p.toList <:+: form → p.toList <:+: form')
    (hmatch : r.matchesForm form = true) : r.matchesForm form' = true := by
  simp only [matchesForm, Bool.and_eq_true, Bool.or_eq_true, List.all_eq_true, List.any_eq_true,
    occursIn_iff] at hmatch ⊢
  obtain ⟨hall, hany⟩ := hmatch
  refine ⟨fun p hp => h p (List.mem_append_left _ hp) (hall p hp), hany.imp_right ?_⟩
  rintro ⟨p, hp, hin⟩
  exact ⟨p, hp, h p (List.mem_append_right _ hp) hin⟩

def rankForm (form : List Char) : Nat :=
  rules.findIdx fun r => r.matchesForm form

lemma rankForm_le_of_occurs (h : form <:+: form') : rankForm form' ≤ rankForm form :=
  List.findIdx_le_findIdx fun _ _ => matchesForm_mono fun _ _ hin => hin.trans h

lemma rank_le_of_occurs (h : s.toList <:+: t.toList) : rank t ≤ rank s :=
  rankForm_le_of_occurs (infix_searchForm h)

lemma rankForm_of_lowersTo (h : LowersTo t.toList form) : rankForm form = rank t := by
  have hform := lowersTo_searchForm t.toList
  apply Nat.le_antisymm
  · exact List.findIdx_le_findIdx fun r hr =>
      matchesForm_mono fun p hp => hform.occurs h (isAscii_phrases r hr p hp)
  · exact List.findIdx_le_findIdx fun r hr =>
      matchesForm_mono fun p hp => h.occurs hform (isAscii_phrases r hr p hp)

lemma rank_congr (h : sameLetters s t = true) : rank s = rank t := by
  have hform : searchForm s.toList = searchForm t.toList := by
    rw [← searchForm_map_toLower, beq_iff_eq.1 h, searchForm_map_toLower]
  rw [rank, rank, hform]

end PhraseRule

namespace FailureKind

open PhraseRule

variable {s t : String}

lemma ofText_eq (text : String) :
    ofText text = ((rules[rank text]?).map PhraseRule.kind).getD .unknown := by
  rw [ofText, List.find?_eq_getElem?_findIdx]
  rfl

lemma ofText_ne_unknown_iff : ofText t ≠ .unknown ↔ rank t < rules.length := by
  have hkinds : ∀ r ∈ rules, r.kind ≠ .unknown := by decide
  rw [ofText_eq]
  constructor
  · intro h
    by_contra hge
    rw [List.getElem?_eq_none (Nat.le_of_not_lt hge)] at h
    exact h rfl
  · intro hlt
    rw [List.getElem?_eq_getElem hlt]
    exact hkinds _ (List.getElem_mem hlt)

lemma ofText_ne_unknown_of_rank_le (h : rank t ≤ rank s) (hs : ofText s ≠ .unknown) :
    ofText t ≠ .unknown :=
  ofText_ne_unknown_iff.2 (Nat.lt_of_le_of_lt h (ofText_ne_unknown_iff.1 hs))

end FailureKind

namespace PhraseRule

open FailureKind

/-- The kind of a text is that of the first rule that matches it in small letters, whichever way these
are written. A text around it only lets an earlier rule match, so that a kind is never lost, and the
case of ASCII letters does not count. -/
theorem surroundings_never_raise_rank :
    (∀ (text : String) (form : List Char), LowersTo text.toList form → rankForm form = rank text) ∧
    (∀ text, ofText text = ((rules[rank text]?).map PhraseRule.kind).getD .unknown) ∧
    (∀ p t s : String, rank (p ++ t ++ s) ≤ rank t) ∧
    (∀ p t s : String, ofText t ≠ .unknown → ofText (p ++ t ++ s) ≠ .unknown) ∧
    ∀ text text' : String, sameLetters text text' = true →
      rank text = rank text' ∧ ofText text = ofText text' := by
  have hembedded : ∀ p t s : String, rank (p ++ t ++ s) ≤ rank t := by
    intro p t s
    apply rank_le_of_occurs
    rw [String.toList_append, String.toList_append]
    exact List.infix_append _ _ _
  refine ⟨fun _ _ => rankForm_of_lowersTo, ofText_eq, hembedded,
    fun p t s => ofText_ne_unknown_of_rank_le (hembedded p t s), fun text text' h => ?_⟩
  have hrank := rank_congr h
  exact ⟨hrank, by rw [ofText_eq, ofText_eq, hrank]⟩

theorem sigma_leaves_certificate_revoked :
    rankForm ('ς' :: "revoked".toList) = rank "ΣREVOKED" ∧
      rankForm ('σ' :: "revoked".toList) = rank "ΣREVOKED" ∧
      ofText ("Σ" ++ "REVOKED" ++ "") ≠ .unknown ∧ ofText "REVOKED" = ofText "Revoked" := by
  obtain ⟨hlower, -, -, hkept, hcase⟩ := surroundings_never_raise_rank
  have hform : ∀ c : Char, 128 ≤ c.toNat →
      LowersTo "ΣREVOKED".toList (c :: "revoked".toList) := fun c hc =>
    .cons (.foreign (by decide) ⟨List.cons_ne_nil _ _, List.forall_mem_singleton.2 hc⟩)
      (lowersTo_searchForm "REVOKED".toList)
  exact ⟨hlower _ _ (hform _ (by decide)), hlower _ _ (hform _ (by decide)),
    hkept "Σ" "REVOKED" "" (by decide +kernel), (hcase _ _ (by decide +kernel)).2⟩

end PhraseRule

end TlsTrust
