import TlsTrust.Json.Parser
import TlsTrust.Json.Printer
import TlsTrust.Proofs.Text.Digits
import Mathlib.Tactic.SplitIfs

/-! A rendered value reads back as itself, and its text is a single line. -/

namespace TlsTrust.Json

open TlsTrust.Text

variable {c : Char} {cs rest : List Char} {n : Nat}

def pieceOf (c : Char) : Piece :=
  if c.toNat < 32 ∧ c.toNat ∉ [8, 9, 10, 12, 13] then .unit c.toNat else .char c

lemma pieces_escape (c : Char) (cs : List Char) : pieces (escape c ++ cs) =
    (pieces cs).map fun p => (pieceOf c :: p.1, p.2) := by
  unfold escape
  split_ifs with hquote hback hnl hcr htab hbs hff hctl
  · obtain rfl : c = '\x22' := by simpa using hquote
    cases h : pieces cs <;> simp [pieces, h, pieceOf]
  · obtain rfl : c = '\\' := by simpa using hback
    cases h : pieces cs <;> simp [pieces, h, pieceOf]
  · obtain rfl : c = '\n' := by simpa using hnl
    cases h : pieces cs <;> simp [pieces, h, pieceOf]
  · obtain rfl : c = '\r' := by simpa using hcr
    cases h : pieces cs <;> simp [pieces, h, pieceOf]
  · obtain rfl : c = '\t' := by simpa using htab
    cases h : pieces cs <;> simp [pieces, h, pieceOf]
  · obtain rfl : c = Char.ofNat 8 := by
      rw [← Char.toNat_inj]
      simpa using hbs
    cases h : pieces cs <;> simp [pieces, h, pieceOf]
  · obtain rfl : c = Char.ofNat 12 := by
      rw [← Char.toNat_inj]
      simpa using hff
    cases h : pieces cs <;> simp [pieces, h, pieceOf]
  · have hhigh := hexDigit?_hexDigit (n := c.toNat / 16) (by omega)
    have hlow := hexDigit?_hexDigit (n := c.toNat % 16) (by omega)
    have hunit : pieceOf c = .unit c.toNat := by
      simp only [beq_iff_eq, ← Char.toNat_inj] at hnl hcr htab hbs hff
      rw [pieceOf, if_pos]
      simp only [List.mem_cons, List.not_mem_nil, or_false, not_or]
      exact ⟨hctl, hbs, htab, hnl, hff, hcr⟩
    have hnum : 16 * (c.toNat / 16) + c.toNat % 16 = c.toNat := Nat.div_add_mod _ _
    have hzero : hexDigit? '0' = some 0 := by decide
    simp only [List.cons_append, List.nil_append, pieces, hzero, hhigh, hlow, hunit]
    cases pieces cs <;> simp [hnum]
  · have hchar : pieceOf c = .char c := if_neg fun h => hctl h.1
    have hescape : c ≠ '\\' := by simpa using hback
    rw [List.cons_append, List.nil_append, pieces, if_neg hquote, if_neg (by simp [hescape, hctl])]
    · cases pieces cs <;> simp [hchar]
    · intros; exact hescape ‹_›
    · intros; exact hescape ‹_›

lemma pieces_escaped (cs rest : List Char) :
    pieces (cs.flatMap escape ++ '\x22' :: rest) = some (cs.map pieceOf, rest) := by
  induction cs with
  | nil => simp [pieces]
  | cons c cs ih => simp [List.flatMap_cons, List.append_assoc, pieces_escape, ih]

lemma joinPieces_unit (h : n < 0xD800) (ps : List Piece) :
    joinPieces (.unit n :: ps) = (joinPieces ps).map (Char.ofNat n :: ·) := by
  have hhigh : ¬ (0xD800 ≤ n ∧ n < 0xDC00) := by omega
  have hlow : ¬ (0xDC00 ≤ n ∧ n < 0xE000) := by omega
  have hhalf : ¬ (0xD800 ≤ n ∧ n < 0xE000) := by omega
  match ps with
  | [] => simp only [joinPieces, if_neg hhalf]
  | .char c :: ps => simp only [joinPieces, if_neg hhalf]
  | .unit lo :: ps => rw [joinPieces, if_neg hhigh, if_neg hlow]

lemma joinPieces_pieceOf (cs : List Char) : joinPieces (cs.map pieceOf) = some cs := by
  induction cs with
  | nil => rfl
  | cons c cs ih =>
    rw [List.map_cons]
    by_cases h : c.toNat < 32 ∧ c.toNat ∉ [8, 9, 10, 12, 13]
    · rw [pieceOf, if_pos h, joinPieces_unit (by omega), ih]
      simp
    · rw [pieceOf, if_neg h, joinPieces, ih]
      rfl

lemma stringBody_quoted (s : String) (rest : List Char) :
    stringBody (s.toList.flatMap escape ++ '\x22' :: rest) = some (some s, rest) := by
  simp [stringBody, pieces_escaped, joinPieces_pieceOf]

def EndsNumber (rest : List Char) : Prop :=
  ∀ c, rest.head? = some c → c.isDigit = false ∧ c ≠ '.' ∧ c ≠ 'e' ∧ c ≠ 'E'

lemma EndsNumber.cons (h : c.isDigit = false ∧ c ≠ '.' ∧ c ≠ 'e' ∧ c ≠ 'E') :
    EndsNumber (c :: rest) := by
  intro d hd
  obtain rfl := Option.some.inj hd
  exact h

lemma digits_toDigits (h : ∀ c, rest.head? = some c → c.isDigit = false) (n : Nat) :
    digits (Nat.toDigits 10 n ++ rest) = (Nat.toDigits 10 n, rest) := by
  obtain ⟨htake, hdrop⟩ := takeWhile_append_of_all (fun c hc => isDigit_of_mem_toDigits hc) h
  rw [digits, htake, hdrop]

lemma fraction_of_ends (h : ∀ c, rest.head? = some c → c ≠ '.') :
    fraction rest = some (none, rest) := by
  unfold fraction
  split
  · exact absurd rfl (h '.' rfl)
  · rfl

lemma exponentPart_of_ends (h : EndsNumber rest) : exponentPart rest = some (none, rest) := by
  cases rest with
  | nil => rfl
  | cons c cs =>
    obtain ⟨-, -, he, hE⟩ := h c rfl
    simp [exponentPart, he, hE]

lemma intText_eq (n : Int) : intText n =
    if n < 0 then '-' :: Nat.toDigits 10 n.natAbs else Nat.toDigits 10 n.natAbs := by
  rw [intText, Int.toString_eq_repr, Int.repr_eq_if]
  by_cases h : n < 0
  · have habs : (-n).toNat = n.natAbs := by omega
    rw [if_neg (by omega), if_pos h, habs]
    simp
  · have habs : n.toNat = n.natAbs := by omega
    rw [if_pos (by omega), if_neg h, habs]
    simp

lemma exists_toDigits (n : Nat) : ∃ d ds, Nat.toDigits 10 n = d :: ds ∧ d.isDigit = true := by
  obtain ⟨d, ds, h⟩ := List.exists_cons_of_ne_nil (Nat.toDigits_ne_nil (n := n) (b := 10))
  exact ⟨d, ds, h, isDigit_of_mem_toDigits (n := n) (h ▸ List.mem_cons_self)⟩

lemma exponentPart_intText (h : EndsNumber rest) (e : Int) :
    exponentPart ('e' :: (intText e ++ rest)) = some (some e, rest) := by
  have hends : ∀ c, rest.head? = some c → c.isDigit = false := fun c hc => (h c hc).1
  have hne : (Nat.toDigits 10 e.natAbs).isEmpty = false := by simp
  rw [intText_eq]
  split_ifs with hneg
  · have habs : -(e.natAbs : Int) = e := by omega
    generalize e.natAbs = n at habs ⊢
    simp [exponentPart, digits_toDigits hends, habs]
  · have habs : (e.natAbs : Int) = e := by omega
    obtain ⟨d, ds, hds, hd⟩ := exists_toDigits e.natAbs
    have hplus : d ≠ '+' := ne_of_isDigit hd (by decide)
    have hminus : d ≠ '-' := ne_of_isDigit hd (by decide)
    have hread := digits_toDigits hends e.natAbs
    have hvalue := natOfDigits_toDigits e.natAbs
    rw [hds, List.cons_append] at hread
    rw [hds] at hvalue
    simp [exponentPart, hds, hplus, hminus, hread, hvalue, habs]

lemma number_toDigits {exp : Option Int} {after : List Char} (negative : Bool) (n : Nat)
    (hdigit : ∀ c, rest.head? = some c → c.isDigit = false)
    (hdot : ∀ c, rest.head? = some c → c ≠ '.') (hexp : exponentPart rest = some (exp, after)) :
    number negative (Nat.toDigits 10 n ++ rest) =
      some (if exp.isNone && !(negative && n == 0) then .int (if negative then -(n : Int) else n)
        else .decimal (if negative then -(n : Int) else n) (exp.getD 0), after) := by
  have hhead : ((Nat.toDigits 10 n).isEmpty || ((Nat.toDigits 10 n).head? == some '0' &&
      decide (1 < (Nat.toDigits 10 n).length))) = false := by
    by_cases hzero : (Nat.toDigits 10 n).head? = some '0'
    · simp [length_toDigits_of_head? hzero]
    · simp [hzero]
  simp only [number, digits_toDigits hdigit, hhead, fraction_of_ends hdot, Option.bind_eq_bind,
    Option.bind_some, Bool.false_eq_true, if_false, hexp, Option.getD_none, List.append_nil,
    natOfDigits_toDigits]
  cases exp with
  | none => by_cases hn : n = 0 <;> cases negative <;> simp [hn]
  | some e => simp

lemma value_of_isDigit (h : c.isDigit = true) : value (n + 1) (c :: cs) = number false (c :: cs) := by
  have hne : ∀ d : Char, d.isDigit = false → c ≠ d := fun d => ne_of_isDigit h
  unfold value
  split
  all_goals first
    | rfl
    | exact absurd (List.cons.inj ‹_›).1 (hne _ (by decide))

lemma value_minus : value (n + 1) ('-' :: cs) = number true cs := by
  simp [value]

lemma value_sign (i : Int) (rest : List Char) :
    value (n + 1) (intText i ++ rest) =
      number (decide (i < 0)) (Nat.toDigits 10 i.natAbs ++ rest) := by
  rw [intText_eq]
  split_ifs with h
  · rw [List.cons_append, value_minus, decide_eq_true h]
  · obtain ⟨d, ds, hds, hd⟩ := exists_toDigits i.natAbs
    rw [hds, List.cons_append, value_of_isDigit hd, decide_eq_false h]

lemma signed_natAbs (i : Int) : (if decide (i < 0) = true then -(i.natAbs : Int) else i.natAbs) = i := by
  split_ifs with h
  all_goals simp only [decide_eq_true_eq] at h; omega

lemma value_intText (h : EndsNumber rest) (i : Int) :
    value (n + 1) (intText i ++ rest) = some (.int i, rest) := by
  have hzero : (decide (i < 0) && i.natAbs == 0) = false := by
    rw [Bool.and_eq_false_iff, decide_eq_false_iff_not, beq_eq_false_iff_ne]
    omega
  rw [value_sign, number_toDigits _ _ (fun c hc => (h c hc).1) (fun c hc => (h c hc).2.1)
    (exponentPart_of_ends h), signed_natAbs, hzero]
  rfl

lemma value_decimalText (h : EndsNumber rest) (m e : Int) :
    value (n + 1) (decimalText m e ++ rest) = some (.decimal m e, rest) := by
  have hdigit : ∀ c, ('e' :: (intText e ++ rest)).head? = some c → c.isDigit = false := by
    rintro c ⟨⟩
    decide
  have hdot : ∀ c, ('e' :: (intText e ++ rest)).head? = some c → c ≠ '.' := by
    rintro c ⟨⟩
    decide
  rw [decimalText, List.append_assoc, List.cons_append, value_sign,
    number_toDigits _ _ hdigit hdot (exponentPart_intText h e), signed_natAbs]
  rfl

lemma EndsNumber.itemChars (js : List Json) (rest : List Char) : EndsNumber (itemChars js ++ rest) := by
  cases js <;> exact .cons (by decide)

lemma EndsNumber.fieldChars (fs : List (String × Json)) (rest : List Char) :
    EndsNumber (fieldChars fs ++ rest) := by
  cases fs <;> exact .cons (by decide)

lemma exists_chars (j : Json) : ∃ c cs, chars j = c :: cs ∧ isSpace c = false ∧ c ≠ ']' := by
  have hint (n : Int) : ∃ c cs, intText n = c :: cs ∧ isSpace c = false ∧ c ≠ ']' := by
    rw [intText_eq]
    split_ifs
    · exact ⟨'-', _, rfl, by decide, by decide⟩
    · obtain ⟨d, ds, hds, hd⟩ := exists_toDigits n.natAbs
      have hb := isDigit_iff.1 hd
      refine ⟨d, ds, hds, ?_, ne_of_isDigit hd (by decide)⟩
      simp [isSpace, ne_of_isDigit hd]
  match j with
  | .null => exact ⟨_, _, rfl, by decide, by decide⟩
  | .bool true => exact ⟨_, _, rfl, by decide, by decide⟩
  | .bool false => exact ⟨_, _, rfl, by decide, by decide⟩
  | .int n => exact hint n
  | .decimal m e =>
    obtain ⟨c, cs, h, hc⟩ := hint m
    exact ⟨c, cs ++ 'e' :: intText e, by rw [chars, decimalText, h, List.cons_append], hc⟩
  | .string s => exact ⟨_, _, rfl, by decide, by decide⟩
  | .halfPair => exact ⟨_, _, rfl, by decide, by decide⟩
  | .array [] => exact ⟨_, _, rfl, by decide, by decide⟩
  | .array (_ :: _) => exact ⟨_, _, rfl, by decide, by decide⟩
  | .object [] => exact ⟨_, _, rfl, by decide, by decide⟩
  | .object ((_, _) :: _) => exact ⟨_, _, rfl, by decide, by decide⟩

lemma skipSpace_of_head (h : ∀ c, cs.head? = some c → isSpace c = false) : skipSpace cs = cs := by
  cases cs with
  | nil => rfl
  | cons c cs => simp [skipSpace, h c rfl]

lemma skipSpace_chars (j : Json) (rest : List Char) : skipSpace (chars j ++ rest) = chars j ++ rest := by
  obtain ⟨c, cs, h, hspace, -⟩ := exists_chars j
  rw [h]
  exact skipSpace_of_head (by rintro d ⟨⟩; exact hspace)

lemma skipSpace_itemChars (js : List Json) (rest : List Char) :
    skipSpace (itemChars js ++ rest) = itemChars js ++ rest := by
  cases js <;> exact skipSpace_of_head (by rintro d ⟨⟩; decide)

lemma skipSpace_fieldChars (fs : List (String × Json)) (rest : List Char) :
    skipSpace (fieldChars fs ++ rest) = fieldChars fs ++ rest := by
  cases fs <;> exact skipSpace_of_head (by rintro d ⟨⟩; decide)

lemma value_array_cons {j : Json} {js : List Json} {after : List Char}
    (hj : value n (chars j ++ rest) = some (j, after))
    (hjs : items n (skipSpace after) = some (js, cs)) :
    value (n + 1) ('[' :: (chars j ++ rest)) = some (.array (j :: js), cs) := by
  obtain ⟨c, ds, h, -, hclose⟩ := exists_chars j
  rw [value, skipSpace_chars]
  rw [h] at hj ⊢
  split
  case h_1 heq => exact absurd (List.cons.inj heq).1 hclose
  case h_2 =>
    rw [hj]
    simp [hjs]

lemma member_quoted {j : Json} {after : List Char} (k : String)
    (hj : value n (chars j ++ rest) = some (j, after)) :
    member (n + 1) (quoted k ++ ':' :: (chars j ++ rest)) = some (some (k, j), after) := by
  have hcolon : skipSpace (':' :: (chars j ++ rest)) = ':' :: (chars j ++ rest) :=
    skipSpace_of_head (by rintro d ⟨⟩; decide)
  simp [quoted, member, stringBody_quoted, hcolon, skipSpace_chars, hj]

lemma value_object_cons {f : String × Json} {fs : List (String × Json)} {after : List Char}
    {k : String} (hf : member n (quoted k ++ rest) = some (some f, after))
    (hfs : members n (skipSpace after) = some (some fs, cs)) :
    value (n + 1) ('\x7b' :: (quoted k ++ rest)) = some (.object (f :: fs), cs) := by
  have hquote : skipSpace (quoted k ++ rest) = quoted k ++ rest :=
    skipSpace_of_head (by rintro d ⟨⟩; decide)
  rw [value, hquote]
  split
  case h_1 heq => exact absurd (List.cons.inj heq).1 (by decide)
  case h_2 =>
    rw [hf]
    simp [hfs]

mutual

theorem value_chars (j : Json) (n : Nat) (rest : List Char) (hn : (chars j).length < n)
    (hrest : EndsNumber rest) : value n (chars j ++ rest) = some (j, rest) := by
  obtain ⟨n, rfl⟩ := Nat.exists_eq_succ_of_ne_zero (Nat.ne_of_gt (Nat.zero_lt_of_lt hn))
  match j with
  | .null => rfl
  | .bool true => rfl
  | .bool false => rfl
  | .int i => exact value_intText hrest i
  | .decimal m e => exact value_decimalText hrest m e
  | .string s => simp [chars, quoted, value, stringBody_quoted]
  | .halfPair => rfl
  | .array [] => rfl
  | .array (j :: js) =>
    simp only [chars, List.length_cons, List.length_append] at hn
    have hj := value_chars j n (itemChars js ++ rest) (by omega) (.itemChars js rest)
    have hjs := items_itemChars js n rest (by omega)
    rw [← skipSpace_itemChars] at hjs
    rw [chars, List.cons_append, List.append_assoc]
    exact value_array_cons hj hjs
  | .object [] => rfl
  | .object ((k, j) :: fs) =>
    simp only [chars, List.length_cons, List.length_append] at hn
    obtain ⟨n, rfl⟩ := Nat.exists_eq_succ_of_ne_zero (n := n) (by omega)
    have hj := value_chars j n (fieldChars fs ++ rest) (by omega) (.fieldChars fs rest)
    have hfs := members_fieldChars fs (n + 1) rest (by omega)
    rw [← skipSpace_fieldChars] at hfs
    rw [chars, List.cons_append, List.append_assoc, List.cons_append, List.append_assoc]
    exact value_object_cons (member_quoted k hj) hfs

theorem items_itemChars (js : List Json) (n : Nat) (rest : List Char)
    (hn : (itemChars js).length < n) : items n (itemChars js ++ rest) = some (js, rest) := by
  obtain ⟨n, rfl⟩ := Nat.exists_eq_succ_of_ne_zero (Nat.ne_of_gt (Nat.zero_lt_of_lt hn))
  match js with
  | [] => rfl
  | j :: js =>
    simp only [itemChars, List.length_cons, List.length_append] at hn
    have hj := value_chars j n (itemChars js ++ rest) (by omega) (.itemChars js rest)
    have hjs := items_itemChars js n rest (by omega)
    simp [itemChars, items, skipSpace_chars, skipSpace_itemChars, hj, hjs]

theorem members_fieldChars (fs : List (String × Json)) (n : Nat) (rest : List Char)
    (hn : (fieldChars fs).length < n) : members n (fieldChars fs ++ rest) = some (some fs, rest) := by
  obtain ⟨n, rfl⟩ := Nat.exists_eq_succ_of_ne_zero (Nat.ne_of_gt (Nat.zero_lt_of_lt hn))
  match fs with
  | [] => rfl
  | (k, j) :: fs =>
    simp only [fieldChars, List.length_cons, List.length_append] at hn
    obtain ⟨n, rfl⟩ := Nat.exists_eq_succ_of_ne_zero (n := n) (by omega)
    have hj := value_chars j n (fieldChars fs ++ rest) (by omega) (.fieldChars fs rest)
    have hfs := members_fieldChars fs (n + 1) rest (by omega)
    have hquote : skipSpace (quoted k ++ ':' :: (chars j ++ (fieldChars fs ++ rest))) =
        quoted k ++ ':' :: (chars j ++ (fieldChars fs ++ rest)) :=
      skipSpace_of_head (by rintro d ⟨⟩; decide)
    rw [fieldChars, List.cons_append, List.append_assoc, List.cons_append, List.append_assoc,
      members, hquote, member_quoted k hj]
    simp [skipSpace_fieldChars, hfs]

end

theorem parse?_render (j : Json) : parse? j.render = some j := by
  have hread := value_chars j (2 * (chars j).length + 2) [] (by omega) (by rintro c ⟨⟩)
  rw [List.append_nil] at hread
  have hskip := skipSpace_chars j []
  rw [List.append_nil] at hskip
  simp only [parse?, render, String.toList_ofList, hskip, hread]
  rfl

def IsPrintable (cs : List Char) : Prop :=
  ∀ c ∈ cs, 32 ≤ c.toNat

instance (cs : List Char) : Decidable (IsPrintable cs) :=
  List.decidableBAll _ cs

lemma IsPrintable.append (h : IsPrintable cs) (k : IsPrintable rest) : IsPrintable (cs ++ rest) :=
  fun c hc => (List.mem_append.1 hc).elim (h c) (k c)

lemma IsPrintable.cons (h : 32 ≤ c.toNat) (k : IsPrintable cs) : IsPrintable (c :: cs) := by
  rintro d (_ | ⟨_, hd⟩)
  · exact h
  · exact k d hd

lemma printable_escape (c : Char) : IsPrintable (escape c) := by
  have hdigit (n : Nat) (hn : n < 16) : 32 ≤ (hexDigit n).toNat := by
    revert n
    decide
  unfold escape
  split_ifs
  case pos => exact .cons (by decide) (.cons (by decide) nofun)
  case pos => exact .cons (by decide) (.cons (by decide) nofun)
  case pos => exact .cons (by decide) (.cons (by decide) nofun)
  case pos => exact .cons (by decide) (.cons (by decide) nofun)
  case pos => exact .cons (by decide) (.cons (by decide) nofun)
  case pos => exact .cons (by decide) (.cons (by decide) nofun)
  case pos => exact .cons (by decide) (.cons (by decide) nofun)
  case pos hctl =>
    exact .cons (by decide) (.cons (by decide) (.cons (by decide) (.cons (by decide)
      (.cons (hdigit _ (by omega)) (.cons (hdigit _ (by omega)) nofun)))))
  case neg hctl => exact .cons (Nat.le_of_not_lt hctl) nofun

lemma printable_quoted (s : String) : IsPrintable (quoted s) := by
  refine .cons (by decide) (.append (fun c hc => ?_) (.cons (by decide) nofun))
  obtain ⟨d, -, hd⟩ := List.mem_flatMap.1 hc
  exact printable_escape d c hd

lemma printable_intText (n : Int) : IsPrintable (intText n) := by
  have hdigits : IsPrintable (Nat.toDigits 10 n.natAbs) := fun c hc =>
    Nat.le_trans (by decide) (isDigit_iff.1 (isDigit_of_mem_toDigits hc)).1
  rw [intText_eq]
  split_ifs
  · exact .cons (by decide) hdigits
  · exact hdigits

mutual

theorem printable_chars : ∀ j : Json, IsPrintable (chars j)
  | .null => by decide
  | .bool true => by decide
  | .bool false => by decide
  | .int n => printable_intText n
  | .decimal m e => (printable_intText m).append (.cons (by decide) (printable_intText e))
  | .string s => printable_quoted s
  | .halfPair => by decide
  | .array [] => by decide
  | .array (j :: js) => .cons (by decide) ((printable_chars j).append (printable_itemChars js))
  | .object [] => by decide
  | .object ((k, j) :: fs) => .cons (by decide)
      ((printable_quoted k).append (.cons (by decide)
        ((printable_chars j).append (printable_fieldChars fs))))

theorem printable_itemChars : ∀ js : List Json, IsPrintable (itemChars js)
  | [] => by decide
  | j :: js => .cons (by decide) ((printable_chars j).append (printable_itemChars js))

theorem printable_fieldChars : ∀ fs : List (String × Json), IsPrintable (fieldChars fs)
  | [] => by decide
  | (k, j) :: fs => .cons (by decide)
      ((printable_quoted k).append (.cons (by decide)
        ((printable_chars j).append (printable_fieldChars fs))))

end

lemma not_mem_render (h : c.toNat < 32) (j : Json) : c ∉ j.render.toList := by
  intro hc
  rw [render, String.toList_ofList] at hc
  exact Nat.not_lt.2 (printable_chars j c hc) h

end TlsTrust.Json
