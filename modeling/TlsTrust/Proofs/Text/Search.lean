import TlsTrust.Text.Search
import TlsTrust.Proofs.Text.Ascii
import Mathlib.Data.List.Infix

namespace TlsTrust.Text

variable {p as bs cs before rest form form' small small' : List Char} {c : Char}

lemma occursIn_iff : occursIn p cs = true ↔ p <:+: cs := by
  induction cs with
  | nil => rw [occursIn, List.isEmpty_iff, List.infix_nil]
  | cons c cs ih => rw [occursIn, Bool.or_eq_true, List.isPrefixOf_iff_prefix, ih, List.infix_cons_iff]

lemma includes_iff {s part : String} : includes s part = true ↔ part.toList <:+: s.toList :=
  occursIn_iff

lemma afterFirst?_eq_none_iff : afterFirst? p cs = none ↔ ¬ p <:+: cs := by
  induction cs with
  | nil => simp [afterFirst?, List.infix_nil]
  | cons c cs ih =>
    rw [afterFirst?, List.infix_cons_iff, ← List.isPrefixOf_iff_prefix, not_or, ← ih]
    split <;> simp [*]

lemma afterFirst?_append (h : ∀ before' rest', before ++ (p ++ rest) = before' ++ (p ++ rest') →
    before.length ≤ before'.length) : afterFirst? p (before ++ (p ++ rest)) = some rest := by
  induction before with
  | nil =>
    rw [List.nil_append]
    cases hcs : p ++ rest with
    | nil =>
      obtain ⟨rfl, rfl⟩ := List.append_eq_nil_iff.1 hcs
      rfl
    | cons c cs =>
      have hpre : p.isPrefixOf (p ++ rest) = true :=
        List.isPrefixOf_iff_prefix.2 (List.prefix_append p rest)
      rw [afterFirst?, ← hcs, if_pos hpre, List.drop_left]
  | cons c before ih =>
    have hpre : ¬ p.isPrefixOf (c :: (before ++ (p ++ rest))) = true := by
      rw [List.isPrefixOf_iff_prefix]
      rintro ⟨after, hafter⟩
      -- an occurrence at the very start would stand before this one
      have hle := h [] after hafter.symm
      simp at hle
    rw [List.cons_append, afterFirst?, if_neg hpre]
    refine ih fun before' rest' heq => ?_
    have hle := h (c :: before') rest' (by rw [List.cons_append, heq, List.cons_append])
    simpa using hle

lemma replaceWithin_append {start r : List Char} (h : c ∉ start) (n : Nat) :
    replaceWithin (c :: p) r n (start ++ cs) =
      start ++ replaceWithin (c :: p) r (n - start.length) cs := by
  induction start generalizing n with
  | nil => rfl
  | cons d start ih =>
    obtain ⟨hd, hstart⟩ := not_or.1 (List.mem_cons.not.1 h)
    cases n with
    | zero => simp [replaceWithin]
    | succ n =>
      have hpre : (c :: p).isPrefixOf (d :: (start ++ cs)) = false := by
        simp [List.isPrefixOf, hd]
      have hfuel : n + 1 - (d :: start).length = n - start.length := Nat.add_sub_add_right ..
      rw [List.cons_append, replaceWithin, hpre, ih hstart, hfuel]
      rfl

lemma prefix_replaceAll {s marker by_ : String} {start : List Char} (hmarker : marker.toList = c :: p)
    (hc : c ∉ start) (h : start <+: s.toList) : start <+: (replaceAll s marker by_).toList := by
  obtain ⟨rest, hrest⟩ := h
  rw [replaceAll, String.toList_ofList, hmarker, ← hrest, replaceWithin_append hc]
  exact List.prefix_append _ _

lemma replaceAll_eq_self {s marker by_ : String} (hmarker : marker.toList = c :: p)
    (h : c ∉ s.toList) : replaceAll s marker by_ = s := by
  have hwhole : replaceWithin (c :: p) by_.toList s.toList.length (s.toList ++ []) = s.toList := by
    rw [replaceWithin_append h, Nat.sub_self, replaceWithin, List.append_nil]
  rw [List.append_nil] at hwhole
  rw [replaceAll, hmarker, hwhole, String.ofList_toList]

def IsForeign (small : List Char) : Prop :=
  small ≠ [] ∧ ∀ d ∈ small, 128 ≤ d.toNat

/-- The small letters of one character by the full case map. Outside ASCII only the Kelvin sign and the
dotted capital `İ` bring an ASCII letter; which text the others become may depend on their place, as
with the two small forms of the capital sigma. -/
inductive SmallForm (c : Char) : List Char → Prop where
  | ascii (h : c.toNat < 128) : SmallForm c [c.toLower]
  | kelvin (h : c.toNat = 0x212A) : SmallForm c ['k']
  | dotted (h : c.toNat = 0x130) : SmallForm c ['i', Char.ofNat 0x307]
  | foreign {small : List Char} (h : 128 ≤ c.toNat ∧ c.toNat ≠ 0x212A ∧ c.toNat ≠ 0x130)
    (hsmall : IsForeign small) : SmallForm c small

inductive LowersTo : List Char → List Char → Prop where
  | nil : LowersTo [] []
  | cons {c : Char} {cs small form : List Char} (hc : SmallForm c small) (h : LowersTo cs form) :
    LowersTo (c :: cs) (small ++ form)

lemma SmallForm.eq_or_foreign (h : SmallForm c small) (h' : SmallForm c small') :
    small = small' ∨ IsForeign small ∧ IsForeign small' := by
  cases h <;> cases h' <;> first | exact .inl rfl | exact .inr ⟨‹_›, ‹_›⟩ | omega

lemma eq_nil_of_subset (hp : ∀ d ∈ p, d.toNat < 128) (hsmall : ∀ d ∈ small, 128 ≤ d.toNat)
    (h : p ⊆ small) : p = [] := by
  refine List.eq_nil_iff_forall_not_mem.2 fun d hd => ?_
  have hlow := hp d hd
  have hhigh := hsmall d (h hd)
  omega

lemma IsForeign.eq_nil_of_starts (hsmall : IsForeign small) (hp : ∀ d ∈ p, d.toNat < 128)
    (h : p <+: small ++ form) : p = [] := by
  rcases List.prefix_or_prefix_of_prefix h (List.prefix_append small form) with hin | ⟨q, rfl⟩
  · exact eq_nil_of_subset hp hsmall.2 hin.subset
  · have hascii : ∀ d ∈ small, d.toNat < 128 := fun d hd => hp d (List.mem_append_left _ hd)
    exact absurd (eq_nil_of_subset hascii hsmall.2 (List.Subset.refl _)) hsmall.1

lemma IsForeign.infix_of_append (hsmall : IsForeign small) (hp : ∀ d ∈ p, d.toNat < 128)
    (h : p <:+: small ++ form) : p <:+: form := by
  rcases List.infix_append_iff.1 h with hin | hin | ⟨front, back, rfl, hfront, hback⟩
  · rw [eq_nil_of_subset hp hsmall.2 hin.subset]
    exact List.nil_infix
  · exact hin
  · have hascii : ∀ d ∈ front, d.toNat < 128 := fun d hd => hp d (List.mem_append_left _ hd)
    rw [eq_nil_of_subset hascii hsmall.2 hfront.subset, List.nil_append]
    exact hback.isInfix

lemma LowersTo.starts (h : LowersTo cs form) (h' : LowersTo cs form')
    (hp : ∀ d ∈ p, d.toNat < 128) (hpre : p <+: form) : p <+: form' := by
  induction h generalizing form' p with
  | nil =>
    cases h'
    exact hpre
  | @cons c cs small form hc h ih =>
    cases h' with
    | @cons _ _ small' form' hc' h' =>
      rcases hc.eq_or_foreign hc' with rfl | ⟨hforeign, -⟩
      · rcases List.prefix_or_prefix_of_prefix hpre (List.prefix_append small form) with hin | ⟨q, rfl⟩
        · exact hin.trans (List.prefix_append _ _)
        · rw [List.prefix_append_right_inj] at hpre ⊢
          exact ih h' (fun d hd => hp d (List.mem_append_right _ hd)) hpre
      · rw [hforeign.eq_nil_of_starts hp hpre]
        exact List.nil_prefix

lemma LowersTo.occurs (h : LowersTo cs form) (h' : LowersTo cs form')
    (hp : ∀ d ∈ p, d.toNat < 128) (hin : p <:+: form) : p <:+: form' := by
  induction h generalizing form' with
  | nil =>
    cases h'
    exact hin
  | @cons c cs small form hc h ih =>
    cases h' with
    | @cons _ _ small' form' hc' h' =>
      rcases hc.eq_or_foreign hc' with rfl | ⟨hforeign, -⟩
      · rw [List.infix_append_iff] at hin ⊢
        refine hin.imp_right (Or.imp (ih h') ?_)
        -- an occurrence that straddles the two: its back is a phrase at the start of the rest
        rintro ⟨front, back, rfl, hfront, hback⟩
        have hascii : ∀ d ∈ back, d.toNat < 128 := fun d hd => hp d (List.mem_append_right _ hd)
        exact ⟨front, back, rfl, hfront, h.starts h' hascii hback⟩
      · exact List.infix_append_of_infix_right (ih h' (hforeign.infix_of_append hp hin))

lemma searchForm_append (as bs : List Char) : searchForm (as ++ bs) = searchForm as ++ searchForm bs :=
  List.flatMap_append

lemma smallForm_searchForm (c : Char) : SmallForm c (searchForm [c]) := by
  have hform : searchForm [c] = if c.toNat == 0x212A then ['k']
      else if c.toNat == 0x130 then ['i', Char.ofNat 0x307] else [c.toLower] :=
    List.append_nil _
  rw [hform]
  by_cases hascii : c.toNat < 128
  · rw [if_neg (by rw [beq_iff_eq]; omega), if_neg (by rw [beq_iff_eq]; omega)]
    exact .ascii hascii
  · split
    case isTrue h => exact .kelvin (beq_iff_eq.1 h)
    case isFalse hkelvin =>
      split
      case isTrue h => exact .dotted (beq_iff_eq.1 h)
      case isFalse hdotted =>
        rw [beq_iff_eq] at hkelvin hdotted
        have hsame : c.toLower.toNat = c.toNat := by
          rw [toNat_toLower, if_neg (by omega)]
        refine .foreign ⟨by omega, hkelvin, hdotted⟩ ⟨by simp, List.forall_mem_singleton.2 ?_⟩
        omega

lemma lowersTo_searchForm (cs : List Char) : LowersTo cs (searchForm cs) := by
  induction cs with
  | nil => exact .nil
  | cons c cs ih =>
    rw [← List.singleton_append, searchForm_append]
    exact .cons (smallForm_searchForm c) ih

lemma infix_searchForm (h : as <:+: bs) : searchForm as <:+: searchForm bs := by
  obtain ⟨before, after, rfl⟩ := h
  rw [searchForm_append, searchForm_append]
  exact List.infix_append _ _ _

lemma searchForm_map_toLower (cs : List Char) : searchForm (cs.map Char.toLower) = searchForm cs := by
  have hiff : ∀ c : Char, ∀ n, 122 < n → (c.toLower.toNat == n) = (c.toNat == n) := by
    intro c n hn
    rw [Bool.eq_iff_iff, beq_iff_eq, beq_iff_eq, toNat_toLower]
    split <;> omega
  rw [searchForm, searchForm, List.flatMap_map]
  simp only [hiff _ 0x212A (by decide), hiff _ 0x130 (by decide), toLower_toLower]

end TlsTrust.Text
