import TlsTrust.Proofs.Text.Ascii
import Mathlib.Algebra.Group.Nat.Defs
import Mathlib.Data.List.Induction

namespace TlsTrust.Text

variable {n w b : Nat} {ds rest : List Char} {c : Char}

lemma natOfDigits_eq (ds : List Char) : natOfDigits ds = Nat.ofDigitChars 10 ds 0 := rfl

@[simp] lemma natOfDigits_toDigits (n : Nat) : natOfDigits (Nat.toDigits 10 n) = n := by
  rw [natOfDigits_eq, Nat.ofDigitChars_ten_toDigits]

lemma isDigit_of_mem_toDigits (h : c ∈ Nat.toDigits 10 n) : c.isDigit = true :=
  Nat.isDigit_of_mem_toDigits (by decide) (by decide) h

lemma head?_toDigits_ne (hb : 1 < b) (hn : 0 < n) : (Nat.toDigits b n).head? ≠ some '0' := by
  induction n using Nat.strongRecOn with
  | ind n ih =>
    rw [Nat.toDigits_eq_if hb]
    split
    case isTrue =>
      cases n with
      | zero => cases hn
      | succ n =>
        simp only [List.head?_cons, ne_eq, Option.some.injEq]
        match n with
        | 0 | 1 | 2 | 3 | 4 | 5 | 6 | 7 | 8 | 9 | 10 | 11 | 12 | 13 | 14 | n + 15 => simp [Nat.digitChar]
    case isFalse hge =>
      have hdiv : 0 < n / b := Nat.div_pos (by omega) (by omega)
      have hdrop : n / b < n := Nat.div_lt_self hn hb
      obtain ⟨c, cs, hc⟩ := List.exists_cons_of_ne_nil (Nat.toDigits_ne_nil (n := n / b) (b := b))
      simpa [hc] using ih _ hdrop hdiv

lemma natOfDigits_concat (ds : List Char) (c : Char) :
    natOfDigits (ds ++ [c]) = 10 * natOfDigits ds + (c.toNat - '0'.toNat) := by
  simp [natOfDigits]

lemma natOfDigits_lt (h : ∀ c ∈ ds, c.isDigit = true) : natOfDigits ds < 10 ^ ds.length := by
  induction ds using List.reverseRecOn with
  | nil => decide
  | append_singleton ds c ih =>
    have hlt := ih fun d hd => h d (List.mem_append_left _ hd)
    have hc := isDigit_iff.1 (h c (by simp))
    have hzero : '0'.toNat = 48 := rfl
    rw [natOfDigits_concat, List.length_append, List.length_singleton, Nat.pow_succ]
    omega

lemma length_toDigits_of_head? (h : (Nat.toDigits 10 n).head? = some '0') :
    (Nat.toDigits 10 n).length = 1 := by
  rcases Nat.eq_zero_or_pos n with rfl | hn
  · rfl
  · exact absurd h (head?_toDigits_ne (by decide) hn)

lemma takeWhile_append_of_all {p : Char → Bool} (hds : ∀ c ∈ ds, p c = true)
    (hrest : ∀ c, rest.head? = some c → p c = false) :
    (ds ++ rest).takeWhile p = ds ∧ (ds ++ rest).dropWhile p = rest := by
  rw [List.takeWhile_append_of_pos hds, List.dropWhile_append_of_pos hds]
  cases rest with
  | nil => simp
  | cons c cs => simp [hrest c rfl]

lemma toList_padded (w n : Nat) : (padded w n).toList =
    List.replicate (w - (Nat.toDigits 10 n).length) '0' ++ Nat.toDigits 10 n := by
  simp [padded]

@[simp] lemma natOfDigits_padded (w n : Nat) : natOfDigits (padded w n).toList = n := by
  rw [toList_padded, natOfDigits_eq, Nat.ofDigitChars_append]
  simp

lemma isDigit_of_mem_padded (h : c ∈ (padded w n).toList) : c.isDigit = true := by
  rw [toList_padded, List.mem_append] at h
  rcases h with h | h
  · rw [List.eq_of_mem_replicate h]
    decide
  · exact isDigit_of_mem_toDigits h

lemma length_padded (hw : 0 < w) (hn : n < 10 ^ w) : (padded w n).toList.length = w := by
  have hle := (Nat.length_toDigits_le_iff (by decide) hw).2 hn
  rw [toList_padded, List.length_append, List.length_replicate]
  omega

lemma le_length_padded (w n : Nat) : w ≤ (padded w n).toList.length := by
  rw [toList_padded, List.length_append, List.length_replicate]
  omega

lemma append_lt_append {as bs : List Char} (hlength : as.length = bs.length) (h : as < bs)
    (xs ys : List Char) : as ++ xs < bs ++ ys := by
  induction as generalizing bs with
  | nil =>
    obtain rfl := List.eq_nil_of_length_eq_zero hlength.symm
    exact absurd h (List.lt_irrefl [])
  | cons a as ih =>
    cases bs with
    | nil => cases hlength
    | cons b bs =>
      rw [List.cons_lt_cons_iff] at h
      rw [List.cons_append, List.cons_append, List.cons_lt_cons_iff]
      exact h.imp_right fun ⟨hab, h⟩ => ⟨hab, ih (Nat.succ.inj hlength) h⟩

lemma natOfDigits_cons (c : Char) (ds : List Char) :
    natOfDigits (c :: ds) = (c.toNat - '0'.toNat) * 10 ^ ds.length + natOfDigits ds := by
  rw [natOfDigits_eq, Nat.ofDigitChars_cons, Nat.ofDigitChars_eq_ofDigitChars_zero, natOfDigits_eq,
    Nat.mul_zero, Nat.zero_add, Nat.mul_comm]

lemma lt_of_natOfDigits_lt {es : List Char} (hlength : ds.length = es.length)
    (hds : ∀ c ∈ ds, c.isDigit = true) (hes : ∀ c ∈ es, c.isDigit = true)
    (h : natOfDigits ds < natOfDigits es) : ds < es := by
  induction ds generalizing es with
  | nil =>
    obtain rfl := List.eq_nil_of_length_eq_zero hlength.symm
    exact absurd h (Nat.lt_irrefl _)
  | cons d ds ih =>
    cases es with
    | nil => cases hlength
    | cons e es =>
      rw [List.forall_mem_cons] at hds hes
      have hlength := Nat.succ.inj hlength
      have hd := isDigit_iff.1 hds.1
      have he := isDigit_iff.1 hes.1
      have hlow := natOfDigits_lt hes.2
      rw [natOfDigits_cons, natOfDigits_cons, hlength] at h
      have hzero : '0'.toNat = 48 := rfl
      rw [List.cons_lt_cons_iff]
      rcases Nat.lt_trichotomy d.toNat e.toNat with hlt | heq | hgt
      · exact .inl hlt
      · rw [heq] at h
        exact .inr ⟨Char.toNat_inj.1 heq, ih hlength hds.2 hes.2 (Nat.lt_of_add_lt_add_left h)⟩
      · -- a digit more outweighs all digits after it
        have hmul : (e.toNat - '0'.toNat + 1) * 10 ^ es.length ≤
            (d.toNat - '0'.toNat) * 10 ^ es.length := Nat.mul_le_mul_right _ (by omega)
        rw [Nat.add_mul, Nat.one_mul] at hmul
        omega

lemma padded_append_lt {m : Nat} (hw : 0 < w) (hm : m < 10 ^ w) (hn : n < 10 ^ w) {xs ys : List Char}
    (h : m < n ∨ m = n ∧ xs < ys) : (padded w m).toList ++ xs < (padded w n).toList ++ ys := by
  rcases h with hlt | ⟨rfl, hlt⟩
  · have hlength : (padded w m).toList.length = (padded w n).toList.length := by
      rw [length_padded hw hm, length_padded hw hn]
    refine append_lt_append hlength (lt_of_natOfDigits_lt hlength (fun _ => isDigit_of_mem_padded)
      (fun _ => isDigit_of_mem_padded) ?_) _ _
    rwa [natOfDigits_padded, natOfDigits_padded]
  · exact List.append_left_lt hlt

lemma hexDigit_eq_digitChar (h : n < 16) : hexDigit n = n.digitChar := by
  revert n
  decide

lemma hexDigit?_digitChar (h : n < 16) : hexDigit? n.digitChar = some n := by
  revert n
  decide

lemma mapM_eq_some_map {α β : Type} {f : α → Option β} {g : α → β} {as : List α}
    (h : ∀ a ∈ as, f a = some (g a)) : as.mapM f = some (as.map g) := by
  induction as with
  | nil => rfl
  | cons a as ih =>
    have htail := ih fun b hb => h b (List.mem_cons_of_mem _ hb)
    simp [h a List.mem_cons_self, htail]

lemma mapM_eq_none_of_mem {α β : Type} {f : α → Option β} {as : List α} {a : α} (ha : a ∈ as)
    (h : f a = none) : as.mapM f = none := by
  induction as with
  | nil => cases ha
  | cons b as ih =>
    rcases List.mem_cons.1 ha with rfl | hmem
    · simp [h]
    · simp [ih hmem]

lemma mapM_map_eq_some {α β : Type} {f : β → Option α} {g : α → β} {as : List α}
    (h : ∀ a ∈ as, f (g a) = some a) : (as.map g).mapM f = some as := by
  rw [List.mapM_map]
  exact (mapM_eq_some_map (g := id) h).trans (by rw [List.map_id])

lemma mapM_hexDigit?_toDigits (n : Nat) : ∃ ds, (Nat.toDigits 16 n).mapM hexDigit? = some ds ∧
    ds.foldl (fun n d => 16 * n + d) 0 = n := by
  induction n using Nat.strongRecOn with
  | ind n ih =>
    rcases Nat.lt_or_ge n 16 with hlt | hge
    · exact ⟨[n], by simp [Nat.toDigits_of_lt_base hlt, hexDigit?_digitChar hlt], by simp⟩
    · obtain ⟨ds, hds, hvalue⟩ := ih (n / 16) (by omega)
      have hlast := hexDigit?_digitChar (n := n % 16) (by omega)
      refine ⟨ds ++ [n % 16], ?_, ?_⟩
      · simp [Nat.toDigits_of_base_le (by decide) hge, List.mapM_append, hds, hlast]
      · rw [List.foldl_append, hvalue]
        exact Nat.div_add_mod n 16

lemma hexDigit?_hexDigit (h : n < 16) : hexDigit? (hexDigit n) = some n := by
  rw [hexDigit_eq_digitChar h, hexDigit?_digitChar h]

end TlsTrust.Text
