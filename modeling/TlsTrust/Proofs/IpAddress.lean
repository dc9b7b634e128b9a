import TlsTrust.IpAddress
import TlsTrust.Proofs.Text.Digits
import Mathlib.Tactic.SplitIfs

/-! An address that is written reads back as itself. -/

namespace TlsTrust.IpAddress

open Text

def byteParts (a b c d : Nat) : List (List Char) :=
  [Nat.toDigits 10 a, Nat.toDigits 10 b, Nat.toDigits 10 c, Nat.toDigits 10 d]

lemma toList_byteText (a b c d : Nat) :
    (byteText a b c d).toList = ['.'].intercalate (byteParts a b c d) := by
  simp [byteText, byteParts, toString, List.intercalate]

lemma splitOn_byteText (a b c d : Nat) :
    (byteText a b c d).toList.splitOn '.' = byteParts a b c d := by
  have hdot (n : Nat) : '.' ∉ Nat.toDigits 10 n := fun h =>
    absurd (isDigit_of_mem_toDigits h) (by decide)
  rw [toList_byteText, List.splitOn_intercalate _ ?_ (by simp [byteParts])]
  simp only [byteParts, List.mem_cons, List.not_mem_nil, or_false]
  rintro l (rfl | rfl | rfl | rfl) <;> exact hdot _

lemma byte?_toDigits {n : Nat} (h : n < 256) : byte? (Nat.toDigits 10 n) = some ⟨n, h⟩ := by
  have hlength : (Nat.toDigits 10 n).length ≤ 3 :=
    (Nat.length_toDigits_le_iff (by decide) (by decide)).2 (by omega)
  have hall : (Nat.toDigits 10 n).all Char.isDigit = true :=
    List.all_eq_true.2 fun c hc => isDigit_of_mem_toDigits hc
  have hzero : ((Nat.toDigits 10 n).head? == some '0' &&
      decide (1 < (Nat.toDigits 10 n).length)) = false := by
    by_cases hhead : (Nat.toDigits 10 n).head? = some '0'
    · simp [length_toDigits_of_head? hhead]
    · simp [hhead]
  simp [byte?, hall, hzero, h, Nat.not_lt.2 hlength]

lemma bytes?_byteText {a b c d : Nat} (ha : a < 256) (hb : b < 256) (hc : c < 256) (hd : d < 256) :
    bytes? (byteText a b c d).toList = some (⟨a, ha⟩, ⟨b, hb⟩, ⟨c, hc⟩, ⟨d, hd⟩) := by
  simp [bytes?, splitOn_byteText, byteParts, byte?_toDigits, ha, hb, hc, hd]

lemma bytes?_eq_none {cs : List Char} {c : Char} (hc : c ∈ cs) (hdigit : c.isDigit = false)
    (hdot : c ≠ '.') : bytes? cs = none := by
  have hbyte {part : List Char} (h : c ∈ part) : byte? part = none := by
    have hall : part.all Char.isDigit = false := List.all_eq_false.2 ⟨c, h, by simp [hdigit]⟩
    simp [byte?, hall]
  unfold bytes?
  split
  case h_1 a₁ a₂ a₃ a₄ heq =>
    have hcs : cs = ['.'].intercalate [a₁, a₂, a₃, a₄] := by rw [← heq, List.intercalate_splitOn]
    simp only [hcs, List.intercalate_cons_cons, List.intercalate_singleton, List.mem_append,
      List.mem_singleton, hdot, or_false] at hc
    rcases hc with hc | hc | hc | hc
    all_goals simp [hbyte hc]
  case h_2 => rfl

lemma exists_of_mem_toDigits {n : Nat} {c : Char} (h : c ∈ Nat.toDigits 16 n) :
    ∃ d, d < 16 ∧ c = d.digitChar := by
  induction n using Nat.strongRecOn with
  | ind n ih =>
    rcases Nat.lt_or_ge n 16 with hlt | hge
    · rw [Nat.toDigits_of_lt_base hlt, List.mem_singleton] at h
      exact ⟨n, hlt, h⟩
    · rw [Nat.toDigits_of_base_le (by decide) hge, List.mem_append, List.mem_singleton] at h
      rcases h with h | h
      · exact ih (n / 16) (by omega) h
      · exact ⟨n % 16, Nat.mod_lt _ (by decide), h⟩

lemma ne_of_mem_toDigits {n : Nat} {c d : Char} (h : c ∈ Nat.toDigits 16 n) (hd : d = ':' ∨ d = '.') :
    c ≠ d := by
  obtain ⟨k, hk, rfl⟩ := exists_of_mem_toDigits h
  have hall : ∀ k < 16, k.digitChar ≠ ':' ∧ k.digitChar ≠ '.' := by decide
  rcases hd with rfl | rfl
  · exact (hall k hk).1
  · exact (hall k hk).2

def groupDigits (g : Fin 65536) : List Char :=
  Nat.toDigits 16 g

def groupsChars (gs : List (Fin 65536)) : List Char :=
  [':'].intercalate (gs.map groupDigits)

lemma toList_groupsText (gs : List (Fin 65536)) : (groupsText gs).toList = groupsChars gs := by
  have hgroups : (gs.map groupText).map String.toList = gs.map groupDigits := by
    simp [groupText, groupDigits, Function.comp_def]
  rw [groupsText, String.toList_intercalate, hgroups]
  rfl

lemma groupsChars_cons_cons (g g' : Fin 65536) (gs : List (Fin 65536)) :
    groupsChars (g :: g' :: gs) = groupDigits g ++ ':' :: groupsChars (g' :: gs) := by
  simp [groupsChars, List.intercalate_cons_cons]

lemma exists_groupsChars (g : Fin 65536) (gs : List (Fin 65536)) :
    ∃ c cs, groupsChars (g :: gs) = c :: cs ∧ c ≠ ':' := by
  obtain ⟨c, cs, h⟩ := List.exists_cons_of_ne_nil (l := groupDigits g) Nat.toDigits_ne_nil
  have hmem : c ∈ groupDigits g := h ▸ List.mem_cons_self
  have hc : c ≠ ':' := ne_of_mem_toDigits hmem (.inl rfl)
  cases gs with
  | nil => exact ⟨c, cs, by simp [groupsChars, h], hc⟩
  | cons g' gs => exact ⟨c, cs ++ ':' :: groupsChars (g' :: gs), by simp [groupsChars_cons_cons, h], hc⟩

lemma splitOn_groupsChars (g : Fin 65536) (gs : List (Fin 65536)) :
    (groupsChars (g :: gs)).splitOn ':' = (g :: gs).map groupDigits := by
  refine List.splitOn_intercalate _ (fun l hl hmem => ?_) (by simp)
  obtain ⟨g, -, rfl⟩ := List.mem_map.1 hl
  exact ne_of_mem_toDigits hmem (.inl rfl) rfl

lemma group?_groupDigits (g : Fin 65536) : group? (groupDigits g) = some g := by
  have hlength : (groupDigits g).length ≤ 4 :=
    (Nat.length_toDigits_le_iff (by decide) (by decide)).2 (by have := g.isLt; omega)
  obtain ⟨ds, hds, hvalue⟩ := mapM_hexDigit?_toDigits g
  rw [groupDigits] at hlength ⊢
  simp [group?, hds, hvalue, Nat.not_lt.2 hlength]

lemma groups?_groupDigits (gs : List (Fin 65536)) :
    groups? (gs.map groupDigits) = some gs := by
  induction gs with
  | nil => rfl
  | cons g gs ih =>
    cases gs with
    | nil => simp [groups?, group?_groupDigits]
    | cons g' gs =>
      simp only [List.map_cons] at ih ⊢
      simp [groups?, group?_groupDigits, ih]

lemma side?_groupsChars (gs : List (Fin 65536)) : side? (groupsChars gs) = some gs := by
  cases gs with
  | nil => rfl
  | cons g gs =>
    obtain ⟨c, cs, h, -⟩ := exists_groupsChars g gs
    have hempty : (groupsChars (g :: gs)).isEmpty = false := by rw [h]; rfl
    rw [side?, hempty, splitOn_groupsChars, groups?_groupDigits]
    rfl

lemma frontSide?_groupsChars (gs : List (Fin 65536)) : frontSide? (groupsChars gs) = some gs := by
  have hdot : (groupsChars gs).contains '.' = false := by
    induction gs with
    | nil => rfl
    | cons g gs ih =>
      have hg : '.' ∉ groupDigits g := fun h => ne_of_mem_toDigits h (.inr rfl) rfl
      cases gs with
      | nil => simpa [groupsChars] using hg
      | cons g' gs =>
        rw [groupsChars_cons_cons]
        simp only [List.contains_eq_mem, decide_eq_false_iff_not] at ih ⊢
        simp [hg, ih]
  rw [frontSide?, hdot, side?_groupsChars]
  rfl

lemma splitDouble?_cons {c : Char} {cs : List Char} (h : c = ':' → cs.head? ≠ some ':') :
    splitDouble? (c :: cs) = (splitDouble? cs).map fun p => (c :: p.1, p.2) := by
  rw [splitDouble?]
  intro rest hc hcs
  exact h hc (by rw [hcs]; rfl)

lemma splitDouble?_append {l : List Char} (h : ':' ∉ l) (cs : List Char) :
    splitDouble? (l ++ cs) = (splitDouble? cs).map fun p => (l ++ p.1, p.2) := by
  induction l with
  | nil => simp
  | cons c l ih =>
    rw [List.mem_cons, not_or] at h
    rw [List.cons_append, splitDouble?_cons fun hc => absurd hc.symm h.1, ih h.2, Option.map_map]
    rfl

lemma splitDouble?_groupsChars (gs : List (Fin 65536)) (cs : List Char) :
    splitDouble? (groupsChars gs ++ cs) =
      (splitDouble? cs).map fun p => (groupsChars gs ++ p.1, p.2) := by
  induction gs with
  | nil => simp [groupsChars]
  | cons g gs ih =>
    have hg : ':' ∉ groupDigits g := fun h => ne_of_mem_toDigits h (.inl rfl) rfl
    cases gs with
    | nil => simpa [groupsChars] using splitDouble?_append hg cs
    | cons g' gs =>
      obtain ⟨c, ds, h, hc⟩ := exists_groupsChars g' gs
      have hhead : (groupsChars (g' :: gs) ++ cs).head? ≠ some ':' := by simpa [h] using hc
      rw [groupsChars_cons_cons, List.append_assoc, List.cons_append, splitDouble?_append hg,
        splitDouble?_cons fun _ => hhead, ih]
      simp [Option.map_map, Function.comp_def]

lemma longestRun_eq_zeroRun (gs : List (Fin 65536)) :
    (longestRun gs).2 = 0 ∨ (longestRun gs).2 = zeroRun (gs.drop (longestRun gs).1) := by
  refine List.foldlRecOn (motive := fun best : Nat × Nat => best.2 = 0 ∨
    best.2 = zeroRun (gs.drop best.1)) _ _ (.inl rfl) fun best h i _ => ?_
  split
  · exact .inr rfl
  · exact h

lemma take_zeroRun (gs : List (Fin 65536)) : gs.take (zeroRun gs) = List.replicate (zeroRun gs) 0 := by
  have htake : gs.take (zeroRun gs) = gs.takeWhile (· == 0) :=
    List.prefix_iff_eq_take.1 (List.takeWhile_prefix _) |>.symm
  rw [htake, List.eq_replicate_iff]
  exact ⟨rfl, fun g hg => by simpa using List.all_eq_true.1 List.all_takeWhile g hg⟩

lemma zeroRun_le (gs : List (Fin 65536)) : zeroRun gs ≤ gs.length :=
  (List.takeWhile_prefix _).length_le

lemma v6?_groupsChars {gs : List (Fin 65536)} (h : gs ≠ []) :
    v6? (groupsChars gs) = ofGroups? gs := by
  have hnone := splitDouble?_groupsChars gs []
  rw [List.append_nil] at hnone
  obtain ⟨g, gs, rfl⟩ := List.exists_cons_of_ne_nil h
  rw [v6?, hnone, splitOn_groupsChars, groups?_groupDigits]
  rfl

lemma v6?_double {front back : List (Fin 65536)} {run : Nat} (hrun : 0 < run)
    (hlength : front.length + run + back.length = 8) :
    v6? (groupsChars front ++ ':' :: ':' :: groupsChars back) =
      ofGroups? (front ++ List.replicate run 0 ++ back) := by
  have hsplit : splitDouble? (':' :: ':' :: groupsChars back) = some ([], groupsChars back) := rfl
  have hmissing : 8 - (front.length + back.length) = run := by omega
  simp only [v6?, splitDouble?_groupsChars, hsplit, Option.map_some, List.append_nil,
    frontSide?_groupsChars, side?_groupsChars, Option.bind_eq_bind, Option.bind_some, hmissing]
  rw [if_pos (by omega)]

lemma v6?_shortGroups {gs : List (Fin 65536)} (h : gs.length = 8) :
    v6? (shortGroups gs).toList = ofGroups? gs := by
  unfold shortGroups
  simp only
  split_ifs with hrun
  · rw [toList_groupsText, v6?_groupsChars (List.ne_nil_of_length_pos (by omega))]
  · have hzero : (longestRun gs).2 = zeroRun (gs.drop (longestRun gs).1) :=
      (longestRun_eq_zeroRun gs).resolve_left (by omega)
    generalize (longestRun gs).1 = start at hzero ⊢
    generalize (longestRun gs).2 = run at hzero hrun ⊢
    have hle := zeroRun_le (gs.drop start)
    rw [← hzero, List.length_drop] at hle
    have hparts : gs.take start ++ List.replicate run 0 ++ gs.drop (start + run) = gs := by
      rw [hzero, ← take_zeroRun, List.append_assoc, ← List.drop_drop, List.take_append_drop,
        List.take_append_drop]
    have hread : v6? (groupsChars (gs.take start) ++ ':' :: ':' :: groupsChars (gs.drop (start + run))) =
        ofGroups? (gs.take start ++ List.replicate run 0 ++ gs.drop (start + run)) :=
      v6?_double (by omega) (by rw [List.length_take, List.length_drop]; omega)
    rw [hparts] at hread
    simpa [toList_groupsText] using hread

lemma colon_mem_shortGroups {gs : List (Fin 65536)} (h : gs.length = 8) :
    ':' ∈ (shortGroups gs).toList := by
  obtain ⟨g, g', rest, rfl⟩ : ∃ g g' rest, gs = g :: g' :: rest := by
    match gs, h with
    | g :: g' :: rest, _ => exact ⟨g, g', rest, rfl⟩
  unfold shortGroups
  simp only
  split_ifs
  · simp [toList_groupsText, groupsChars_cons_cons]
  · simp

lemma ofGroups?_toList (groups : Vector (Fin 65536) 8) :
    ofGroups? groups.toList = some (.v6 groups) := by
  simp [ofGroups?, Vector.toArray_toList]

lemma groups?_byteText (g h : Fin 65536) :
    groups? [(byteText (g / 256) (g % 256) (h / 256) (h % 256)).toList] = some [g, h] := by
  have hbound (n : Fin 65536) : n.val / 256 < 256 ∧ n.val % 256 < 256 := by omega
  have hlong : 4 < (byteText (g / 256) (g % 256) (h / 256) (h % 256)).toList.length := by
    have hpos (n : Nat) : 1 ≤ (Nat.toDigits 10 n).length :=
      List.length_pos_iff.2 Nat.toDigits_ne_nil
    have h₁ := hpos (g / 256)
    have h₂ := hpos (g % 256)
    have h₃ := hpos (h / 256)
    have h₄ := hpos (h % 256)
    rw [toList_byteText]
    simp only [byteParts, List.intercalate_cons_cons, List.intercalate_singleton, List.length_append,
      List.length_singleton]
    omega
  have hjoin (n : Fin 65536) : Fin.ofNat 65536 (256 * (n / 256) + n % 256) = n := by
    rw [Nat.div_add_mod]
    exact Fin.ofNat_val_eq_self n
  have hbytes := bytes?_byteText (hbound g).1 (hbound g).2 (hbound h).1 (hbound h).2
  simp only [groups?, group?, hlong, hbytes, decide_true, Bool.or_true, if_true, Option.map_some, hjoin]

lemma colon_notMem_byteText (a b c d : Nat) : ':' ∉ (byteText a b c d).toList := by
  have hdigit (n : Nat) : ':' ∉ Nat.toDigits 10 n := fun h =>
    absurd (isDigit_of_mem_toDigits h) (by decide)
  simp [toList_byteText, byteParts, List.intercalate_cons_cons, hdigit]

lemma v6?_mapped (g h : Fin 65536) :
    v6? ("::ffff:" ++ byteText (g / 256) (g % 256) (h / 256) (h % 256)).toList =
      ofGroups? [0, 0, 0, 0, 0, 65535, g, h] := by
  have hgroups := groups?_byteText g h
  have hsplit := List.splitOn_eq_singleton (colon_notMem_byteText (g / 256) (g % 256) (h / 256) (h % 256))
  rw [String.toList_append]
  generalize (byteText (g / 256) (g % 256) (h / 256) (h % 256)).toList = cs at hgroups hsplit
  have hffff : group? ['f', 'f', 'f', 'f'] = some 65535 := by decide
  have hparts : ("ffff:".toList ++ cs).splitOn ':' = [['f', 'f', 'f', 'f'], cs] := by
    rw [← hsplit]
    have hcolon : ':' ∉ ['f', 'f', 'f', 'f'] := by decide
    exact List.splitOn_append_cons_self_of_not_mem hcolon cs
  have hback : side? ("ffff:".toList ++ cs) = some [65535, g, h] := by
    rw [side?, hparts, groups?, hffff, hgroups]
    · rfl
    · simp
  have hfront : frontSide? [] = some [] := rfl
  have hdouble : splitDouble? ("::ffff:".toList ++ cs) = some ([], "ffff:".toList ++ cs) := rfl
  rw [v6?, hdouble]
  simp only [hfront, hback, Option.bind_eq_bind, Option.bind_some]
  rfl

theorem parse?_text (ip : IpAddress) : parse? ip.text = some ip := by
  cases ip with
  | v4 a b c d => simp [parse?, text, bytes?_byteText]
  | v6 groups =>
    rw [← ofGroups?_toList]
    have hlength : groups.toList.length = 8 := by simp
    simp only [text]
    split
    case h_1 g h heq =>
      rw [heq, ← v6?_mapped, parse?, bytes?_eq_none (c := ':') (by simp) (by decide) (by decide)]
    case h_2 =>
      simp only [parse?, bytes?_eq_none (colon_mem_shortGroups hlength) (by decide) (by decide),
        v6?_shortGroups hlength]

end TlsTrust.IpAddress
