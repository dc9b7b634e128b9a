import TlsTrust.Text.Blank
import TlsTrust.Text.Search
import Mathlib.Data.List.DropRight
import Mathlib.Tactic.Lemma

namespace TlsTrust.Text

variable {p : Char → Bool} {c d : Char} {cs as bs : List Char}

lemma dropWhile_eq_self_iff : cs.dropWhile p = cs ↔ ∀ c, cs.head? = some c → p c = false := by
  cases cs with
  | nil => simp
  | cons d ds =>
    cases hd : p d with
    | false => simp [hd]
    | true =>
      have hlt : (ds.dropWhile p).length < (d :: ds).length :=
        Nat.lt_succ_of_le (List.dropWhile_suffix p).length_le
      simp only [List.dropWhile_cons, hd, if_true, List.head?_cons, Option.some.injEq]
      exact ⟨fun h => absurd (congrArg List.length h) (Nat.ne_of_lt hlt),
        fun h => absurd (h d rfl) (by simp [hd])⟩

lemma dropEndWhile_eq_self (h : ∀ c, cs.getLast? = some c → p c = false) : dropEndWhile p cs = cs := by
  refine List.rdropWhile_eq_self_iff.2 fun hne => ?_
  simp [h _ (List.getLast?_eq_getLast_of_ne_nil hne)]

lemma dropEndWhile_append_replicate (hd : p d = true) (cs : List Char)
    (n : Nat) : dropEndWhile p (cs ++ List.replicate n d) = dropEndWhile p cs := by
  induction n with
  | zero => simp
  | succ n ih =>
    rw [List.replicate_succ', ← List.append_assoc]
    exact (List.rdropWhile_concat_pos p _ _ hd).trans ih

lemma dropEndWhile_append (h : dropEndWhile p bs ≠ []) :
    dropEndWhile p (as ++ bs) = as ++ dropEndWhile p bs := by
  have hne : ((bs.reverse.dropWhile p).isEmpty) = false := by
    rw [List.isEmpty_eq_false_iff]
    exact fun hnil => h (by rw [dropEndWhile, hnil, List.reverse_nil])
  rw [dropEndWhile, dropEndWhile, List.reverse_append, List.dropWhile_append, hne]
  simp

lemma dropEndWhile_append_of_nil (h : dropEndWhile p bs = []) :
    dropEndWhile p (as ++ bs) = dropEndWhile p as := by
  have hnil : bs.reverse.dropWhile p = [] := List.reverse_eq_nil_iff.1 h
  rw [dropEndWhile, dropEndWhile, List.reverse_append, List.dropWhile_append, hnil]
  rfl

lemma dropEndWhile_map (f : Char → Char) (cs : List Char) :
    dropEndWhile p (cs.map f) = (dropEndWhile (p ∘ f) cs).map f := by
  rw [dropEndWhile, dropEndWhile, ← List.map_reverse, List.dropWhile_map, List.map_reverse]

lemma dropEndWhile_prefix (p : Char → Bool) (cs : List Char) : dropEndWhile p cs <+: cs :=
  List.rdropWhile_prefix p cs

lemma dropEndWhile_getLast? (h : dropEndWhile p cs = cs) (hc : cs.getLast? = some c) : p c = false := by
  have hne : cs ≠ [] := by
    rintro rfl
    cases hc
  have hlast := List.rdropWhile_eq_self_iff.1 h hne
  rw [List.getLast?_eq_getLast_of_ne_nil hne, Option.some.injEq] at hc
  rw [← hc]
  simpa using hlast

lemma exists_dropEndWhile_append (p : Char → Bool) (cs : List Char) :
    ∃ rest, dropEndWhile p cs ++ rest = cs ∧ ∀ c ∈ rest, p c = true :=
  ⟨cs.rtakeWhile p, List.rdropWhile_append_rtakeWhile, fun _ => List.mem_rtakeWhile_imp⟩

lemma getLast?_dropEndWhile (hc : (dropEndWhile p cs).getLast? = some c) : p c = false :=
  dropEndWhile_getLast? (List.rdropWhile_idempotent p cs) hc

lemma trim_ends (s : String) : (∀ c, (trim s).toList.head? = some c → isBlank c = false) ∧
    ∀ c, (trim s).toList.getLast? = some c → isBlank c = false := by
  rw [trim, String.toList_ofList]
  refine ⟨fun c hc => ?_, fun c hc => getLast?_dropEndWhile hc⟩
  have hstart := List.dropWhile_idempotent isBlank s.toList
  refine dropWhile_eq_self_iff.1 hstart c ?_
  obtain ⟨rest, hrest⟩ := dropEndWhile_prefix isBlank (s.toList.dropWhile isBlank)
  rw [← hrest, List.head?_append, hc]
  rfl

lemma toList_trim_eq_iff {s : String} {word : List Char} (hne : word ≠ [])
    (hhead : ∀ c, word.head? = some c → isBlank c = false)
    (hlast : ∀ c, word.getLast? = some c → isBlank c = false) :
    (trim s).toList = word ↔ ∃ before after, s.toList = before ++ word ++ after ∧
      before.all isBlank = true ∧ after.all isBlank = true := by
  rw [trim, String.toList_ofList]
  constructor
  · rintro rfl
    refine ⟨s.toList.takeWhile isBlank,
      ((s.toList.dropWhile isBlank).reverse.takeWhile isBlank).reverse, ?_, List.all_takeWhile, ?_⟩
    · rw [dropEndWhile, List.append_assoc, ← List.reverse_append, List.takeWhile_append_dropWhile,
        List.reverse_reverse, List.takeWhile_append_dropWhile]
    · rw [List.all_reverse]
      exact List.all_takeWhile
  · rintro ⟨before, after, hs, hbefore, hafter⟩
    have hstart : (word ++ after).dropWhile isBlank = word ++ after := by
      refine dropWhile_eq_self_iff.2 fun c hc => hhead c ?_
      rwa [List.head?_append_of_ne_nil _ hne] at hc
    have hend : dropEndWhile isBlank after = [] := by
      rw [dropEndWhile, List.reverse_eq_nil_iff, List.dropWhile_eq_nil_iff]
      intro c hc
      exact List.all_eq_true.1 hafter c (List.mem_reverse.1 hc)
    rw [hs, List.append_assoc, List.dropWhile_append_of_pos (List.all_eq_true.1 hbefore), hstart,
      dropEndWhile_append_of_nil hend, dropEndWhile_eq_self hlast]

lemma splitFirst?_append (h : c ∉ as) : splitFirst? c (as ++ c :: bs) = some (as, bs) := by
  have hall : ∀ x ∈ as, (x != c) = true := fun x hx => bne_iff_ne.2 fun he => h (he ▸ hx)
  unfold splitFirst?
  rw [List.dropWhile_append_of_pos hall, List.takeWhile_append_of_pos hall]
  simp

lemma splitLast?_append (h : c ∉ bs) : splitLast? c (as ++ c :: bs) = some (as, bs) := by
  have hrev : (as ++ c :: bs).reverse = bs.reverse ++ c :: as.reverse := by simp
  rw [splitLast?, hrev, splitFirst?_append (by simpa using h)]
  simp

lemma splitFirst?_eq_some_iff :
    splitFirst? c cs = some (as, bs) ↔ cs = as ++ c :: bs ∧ c ∉ as := by
  refine ⟨fun h => ?_, fun ⟨hcs, hc⟩ => hcs ▸ splitFirst?_append hc⟩
  unfold splitFirst? at h
  split at h
  case h_1 => cases h
  case h_2 d rest hdrop =>
    obtain ⟨rfl, rfl⟩ := Prod.mk.inj (Option.some.inj h)
    obtain rfl : d = c := by
      have hhead := List.head?_dropWhile_not (· != c) cs
      rw [hdrop] at hhead
      simpa using hhead
    refine ⟨?_, fun hmem => ?_⟩
    · rw [← hdrop, List.takeWhile_append_dropWhile]
    · simpa using List.all_eq_true.1 List.all_takeWhile _ hmem

lemma splitLast?_eq_some_iff :
    splitLast? c cs = some (as, bs) ↔ cs = as ++ c :: bs ∧ c ∉ bs := by
  refine ⟨fun h => ?_, fun ⟨hcs, hc⟩ => hcs ▸ splitLast?_append hc⟩
  obtain ⟨⟨after, before⟩, hsplit, hparts⟩ := Option.map_eq_some_iff.1 h
  obtain ⟨rfl, rfl⟩ := Prod.mk.inj hparts
  obtain ⟨hcs, hc⟩ := splitFirst?_eq_some_iff.1 hsplit
  refine ⟨?_, by simpa using hc⟩
  rw [← List.reverse_reverse cs, hcs]
  simp

lemma splitLast?_eq_none (h : c ∉ cs) : splitLast? c cs = none := by
  refine Option.eq_none_iff_forall_ne_some.2 fun parts hparts => h ?_
  rw [(splitLast?_eq_some_iff.1 hparts).1]
  exact List.mem_append_right _ List.mem_cons_self

lemma stripStart?_eq_some_iff {start rest : List Char} :
    stripStart? start cs = some rest ↔ cs = start ++ rest := by
  rw [stripStart?, Option.ite_none_right_eq_some, List.isPrefixOf_iff_prefix]
  constructor
  · rintro ⟨⟨tail, rfl⟩, hrest⟩
    simpa using hrest
  · rintro rfl
    simp

end TlsTrust.Text
