import TlsTrust.Certificate
import TlsTrust.Proofs.Host.Spelling
import TlsTrust.Proofs.IpAddress.Literal

/-!
A certificate covers a host in all its spellings alike, addresses by its addresses only, and names
by the names on it.
-/

namespace TlsTrust

open Text

namespace Host

variable {cs : List Char} {name : String} {w : Spelling}

lemma withoutPortChars_eq_self (hbracket : cs.head? ≠ some '[') (hcount : cs.count ':' ≠ 1) :
    withoutPortChars cs = cs := by
  unfold withoutPortChars
  split
  case h_1 rest => exact absurd rfl hbracket
  case h_2 =>
    split
    case h_2 => rfl
    case h_1 before port hsplit =>
      obtain ⟨hcs, hport⟩ := splitLast?_eq_some_iff.1 hsplit
      have hbefore : before.contains ':' = true := by
        rw [List.contains_iff_mem, ← List.count_pos_iff]
        rw [hcs, List.count_append, List.count_cons_self, List.count_eq_zero.2 hport] at hcount
        omega
      simp only [hbefore, Bool.not_true, Bool.false_and, Bool.false_eq_true, if_false]

lemma withoutPortChars_of_no_colon (hbracket : cs.head? ≠ some '[') (hcolon : ':' ∉ cs) :
    withoutPortChars cs = cs := by
  apply withoutPortChars_eq_self hbracket
  rw [List.count_eq_zero.2 hcolon]
  decide

structure Spelling.Respells (w : Spelling) (name : String) : Prop where
  letters : lower w.name = lower name
  digits : ∀ p, w.port = some p → ∀ c ∈ p.toList, c.isDigit = true

lemma Spelling.Respells.map_name (h : w.Respells name) :
    w.name.toList.map Char.toLower = name.toList.map Char.toLower :=
  String.ofList_injective h.letters

lemma Spelling.Respells.colon_notMem (h : w.Respells name) (hcolon : ':' ∉ name.toList) :
    ':' ∉ w.name.toList := by
  rw [← mem_map_toLower_iff (by decide), h.map_name, mem_map_toLower_iff (by decide)]
  exact hcolon

lemma Spelling.Respells.head?_ne (h : w.Respells name) (hbracket : name.toList.head? ≠ some '[') :
    w.name.toList.head? ≠ some '[' := by
  intro hw
  have hhead : (name.toList.map Char.toLower).head? = some '[' := by
    rw [← h.map_name, List.head?_map, hw]
    rfl
  obtain ⟨c, hc, hlower⟩ := Option.map_eq_some_iff.1 (List.head?_map.symm.trans hhead)
  rw [(toLower_eq_iff (by decide)).1 hlower] at hc
  exact hbracket hc

lemma Spelling.Respells.withoutPortChars_text (h : w.Respells name) (hcolon : ':' ∉ name.toList)
    (hbracket : name.toList.head? ≠ some '[') :
    withoutPortChars w.text.toList = w.name.toList ++ List.replicate w.dots '.' := by
  have hcolon' : ':' ∉ w.name.toList ++ List.replicate w.dots '.' := by
    simp [h.colon_notMem hcolon, List.mem_replicate]
  have hbracket' : (w.name.toList ++ List.replicate w.dots '.').head? ≠ some '[' := by
    rw [List.head?_append, ne_eq, Option.or_eq_some_iff, not_or]
    refine ⟨h.head?_ne hbracket, fun ⟨_, hdots⟩ => ?_⟩
    cases List.eq_of_mem_replicate (List.mem_of_head? hdots)
  rw [text, String.toList_ofList, ← List.append_assoc]
  cases hport : w.port with
  | none =>
    rw [portChars, List.append_nil]
    exact withoutPortChars_of_no_colon hbracket' hcolon'
  | some p => exact withoutPortChars_of_name hcolon' hbracket' (h.digits p hport)

end Host

namespace Certificate

open Host

variable {c : Certificate} {host name s san : String} {w : Spelling} {as bs cs : List Char}

def nameChars (cs : List Char) : List Char :=
  (dropEndWhile (· == '.') cs).map Char.toLower

lemma nameChars_eq (cs : List Char) :
    nameChars cs = dropEndWhile (· == '.') (cs.map Char.toLower) := by
  have hdot : (fun c : Char => c == '.') ∘ Char.toLower = fun c => c == '.' := by
    funext c
    rw [Function.comp_apply, Bool.eq_iff_iff, beq_iff_eq, beq_iff_eq, toLower_eq_iff (by decide)]
  rw [nameChars, dropEndWhile_map, hdot]

lemma nameChars_append (h : dropEndWhile (· == '.') bs ≠ []) :
    nameChars (as ++ bs) = as.map Char.toLower ++ nameChars bs := by
  rw [nameChars, dropEndWhile_append h, List.map_append, nameChars]

lemma toList_comparedHost (host : String) :
    (comparedHost host).toList = nameChars (withoutPortChars host.toList) := by
  simp [comparedHost, lower, dropTrailingDots, withoutPort, nameChars]

lemma covers_congr {host' : String} (h : (comparedHost host).toList = (comparedHost host').toList) :
    c.covers host = c.covers host' := by
  unfold covers
  rw [String.toList_inj.1 h]

lemma covers_text (h : w.Respells name) (hcolon : ':' ∉ name.toList)
    (hbracket : name.toList.head? ≠ some '[') : c.covers w.text = c.covers name := by
  apply covers_congr
  rw [toList_comparedHost, toList_comparedHost, h.withoutPortChars_text hcolon hbracket,
    withoutPortChars_of_no_colon hbracket hcolon, nameChars, dropEndWhile_append_replicate (by decide), ← nameChars, nameChars_eq, h.map_name,
    ← nameChars_eq]

lemma withoutPortChars_of_parse? {ip : IpAddress} (h : IpAddress.parse? host = some ip) :
    withoutPortChars host.toList = host.toList := by
  obtain ⟨hpiece, hcount⟩ := IpAddress.isPiece_of_parse? h
  have hbracket : host.toList.head? ≠ some '[' := fun hhead =>
    hpiece.bracket_notMem.1 (List.mem_of_head? hhead)
  rcases hcount with ⟨-, htwo⟩ | ⟨-, hnone⟩
  · exact withoutPortChars_eq_self hbracket (by omega)
  · exact withoutPortChars_of_no_colon hbracket hnone

lemma covers_brackets {literal rest : String} {groups : Vector (Fin 65536) 8}
    (h : IpAddress.parse? literal = some (.v6 groups)) :
    c.covers ("[" ++ literal ++ "]" ++ rest) = c.covers literal := by
  apply covers_congr
  obtain ⟨hpiece, -⟩ := IpAddress.isPiece_of_parse? h
  have htext : ("[" ++ literal ++ "]" ++ rest).toList = '[' :: (literal.toList ++ ']' :: rest.toList) := by
    simp
  rw [toList_comparedHost, toList_comparedHost, htext, withoutPortChars_of_address hpiece.bracket_notMem.2,
    withoutPortChars_of_parse? h]

def bareName (host : String) : String :=
  dropTrailingDots (withoutPort host)

lemma bareName_of_parse? {ip : IpAddress} (h : IpAddress.parse? host = some ip) :
    bareName host = host := by
  obtain ⟨hpiece, -⟩ := IpAddress.isPiece_of_parse? h
  have hdots : dropEndWhile (· == '.') host.toList = host.toList :=
    dropEndWhile_eq_self fun c hc => beq_eq_false_iff_ne.2 (hpiece.last c hc)
  rw [bareName, withoutPort, withoutPortChars_of_parse? h, dropTrailingDots, String.toList_ofList, hdots,
    String.ofList_toList]

lemma comparedHost_eq (host : String) : comparedHost host = lower (bareName host) := by
  rw [comparedHost, bareName]

lemma covers_address_iff {ip : IpAddress} (h : IpAddress.parse? (bareName host) = some ip) :
    c.covers host = true ↔ ip ∈ c.ipAddresses := by
  unfold covers
  simp only [comparedHost_eq, IpAddress.parse?_lower, h]
  exact List.contains_iff_mem

/-- Names are the same up to the case of letters and the dots at their end. -/
def SameName (a b : String) : Prop :=
  lower (dropTrailingDots a) = lower (dropTrailingDots b)

/-- The names that a name on a certificate stands for: the ones with a label in place of its star,
or else only itself. -/
inductive Admits : String → String → Prop where
  | label {s label name : String} (hs : dropTrailingDots s ≠ "") (hne : label ≠ "")
    (hdot : '.' ∉ label.toList) (h : SameName name (label ++ "." ++ s)) : Admits ("*." ++ s) name
  | itself {san name : String} (hs : ∀ s, san = "*." ++ s → dropTrailingDots s = "")
    (h : SameName name san) : Admits san name

lemma toList_lower_dropTrailingDots (a : String) :
    (lower (dropTrailingDots a)).toList = nameChars a.toList := by
  simp [lower, dropTrailingDots, nameChars]

lemma sameName_iff {a b : String} : SameName a b ↔ nameChars a.toList = nameChars b.toList := by
  rw [SameName, ← String.toList_inj, toList_lower_dropTrailingDots, toList_lower_dropTrailingDots]

lemma dropTrailingDots_eq_empty_iff :
    dropTrailingDots s = "" ↔ dropEndWhile (· == '.') s.toList = [] := by
  rw [← String.toList_inj, dropTrailingDots, String.toList_ofList, String.toList_empty]

lemma nameChars_before (hs : dropTrailingDots s ≠ "") (before : String) :
    nameChars (before ++ s).toList = before.toList.map Char.toLower ++ nameChars s.toList := by
  rw [String.toList_append]
  exact nameChars_append fun hnil => hs (dropTrailingDots_eq_empty_iff.2 hnil)

lemma nameChars_label (hs : dropTrailingDots s ≠ "") (label : String) :
    nameChars (label ++ "." ++ s).toList =
      label.toList.map Char.toLower ++ '.' :: nameChars s.toList := by
  rw [nameChars_before hs, String.toList_append, List.map_append, List.append_assoc]
  rfl

lemma map_toLower_nameChars (cs : List Char) : (nameChars cs).map Char.toLower = nameChars cs := by
  rw [nameChars, List.map_map]
  exact List.map_congr_left fun c _ => toLower_toLower c

lemma stripStart?_of_label (hs : dropTrailingDots s ≠ "") :
    stripStart? ['*', '.'] (lower (dropTrailingDots ("*." ++ s))).toList =
      some (nameChars s.toList) := by
  rw [stripStart?_eq_some_iff, toList_lower_dropTrailingDots, nameChars_before hs]
  rfl

lemma nameCovers_label_iff (hs : dropTrailingDots s ≠ "") :
    nameCovers ("*." ++ s) (lower (dropTrailingDots name)) = true ↔
      ∃ label, label ≠ "" ∧ '.' ∉ label.toList ∧ SameName name (label ++ "." ++ s) := by
  unfold nameCovers
  dsimp only
  rw [stripStart?_of_label hs, toList_lower_dropTrailingDots]
  dsimp only
  constructor
  · intro h
    split at h
    case h_2 => cases h
    case h_1 label below hsplit =>
      rw [Bool.and_eq_true, Bool.not_eq_true', List.isEmpty_eq_false_iff, beq_iff_eq] at h
      obtain ⟨hne, rfl⟩ := h
      obtain ⟨hname, hdot⟩ := splitFirst?_eq_some_iff.1 hsplit
      -- the label is a part of small letters, so that it is its own small form
      have hsmall := map_toLower_nameChars name.toList
      rw [hname, List.map_append] at hsmall
      have hlabel := (List.append_inj hsmall (List.length_map _)).1
      refine ⟨String.ofList label, fun hempty => hne (by simpa using congrArg String.toList hempty),
        by rwa [String.toList_ofList], ?_⟩
      rw [sameName_iff, nameChars_label hs, String.toList_ofList, hlabel, hname]
  · rintro ⟨label, hne, hdot, h⟩
    rw [sameName_iff, nameChars_label hs] at h
    rw [h, splitFirst?_append ((mem_map_toLower_iff (by decide)).not.2 hdot)]
    simpa using hne

lemma stripStart?_of_itself (hs : ∀ s, san = "*." ++ s → dropTrailingDots s = "") :
    stripStart? ['*', '.'] (lower (dropTrailingDots san)).toList = none := by
  rw [Option.eq_none_iff_forall_ne_some]
  intro rest hrest
  rw [stripStart?_eq_some_iff, toList_lower_dropTrailingDots, nameChars] at hrest
  obtain ⟨a, as, hdrop, ha, has⟩ := List.map_eq_cons_iff.1 hrest
  obtain ⟨b, bs, rfl, hb, -⟩ := List.map_eq_cons_iff.1 has
  obtain rfl := (toLower_eq_iff (by decide)).1 ha
  obtain rfl := (toLower_eq_iff (by decide)).1 hb
  obtain ⟨dots, hsan⟩ := dropEndWhile_prefix (· == '.') san.toList
  rw [hdrop] at hsan
  -- what follows the star is dots only, so that its own dot has been cut off as well
  have hnil := dropTrailingDots_eq_empty_iff.1 (hs (String.ofList (bs ++ dots))
    (String.toList_inj.1 (by rw [← hsan]; simp)))
  rw [String.toList_ofList] at hnil
  have hstar : dropEndWhile (· == '.') ('*' :: '.' :: (bs ++ dots)) = ['*'] :=
    show dropEndWhile _ (['*', '.'] ++ (bs ++ dots)) = _ from dropEndWhile_append_of_nil hnil
  rw [← hsan, List.cons_append, List.cons_append, hstar] at hdrop
  cases hdrop

lemma nameCovers_itself_iff (hs : ∀ s, san = "*." ++ s → dropTrailingDots s = "") :
    nameCovers san (lower (dropTrailingDots name)) = true ↔ SameName name san := by
  unfold nameCovers
  dsimp only
  rw [stripStart?_of_itself hs]
  dsimp only
  rw [beq_iff_eq, SameName, eq_comm]

lemma dropTrailingDots_dropTrailingDots (a : String) :
    dropTrailingDots (dropTrailingDots a) = dropTrailingDots a := by
  simp only [dropTrailingDots, String.toList_ofList]
  congr 1
  exact List.rdropWhile_idempotent _ _

lemma nameCovers_iff : nameCovers san (lower (dropTrailingDots name)) = true ↔ Admits san name := by
  constructor
  · intro h
    by_cases hstar : ∃ s, san = "*." ++ s ∧ dropTrailingDots s ≠ ""
    · obtain ⟨s, rfl, hs⟩ := hstar
      obtain ⟨label, hne, hdot, hname⟩ := (nameCovers_label_iff hs).1 h
      exact .label hs hne hdot hname
    · have hs : ∀ s, san = "*." ++ s → dropTrailingDots s = "" := fun s hsan =>
        not_not.1 fun hs => hstar ⟨s, hsan, hs⟩
      exact .itself hs ((nameCovers_itself_iff hs).1 h)
  · intro h
    cases h with
    | label hs hne hdot hname => exact (nameCovers_label_iff hs).2 ⟨_, hne, hdot, hname⟩
    | itself hs hname => exact (nameCovers_itself_iff hs).2 hname

lemma covers_name_iff (h : IpAddress.parse? (bareName host) = none) : c.covers host = true ↔
    (∃ san ∈ c.dnsNames, Admits san (bareName host)) ∨
      c.dnsNames = [] ∧ ∃ cn, c.commonName = some cn ∧ Admits cn (bareName host) := by
  have hadmits : ∀ san, nameCovers san (lower (bareName host)) = true ↔ Admits san (bareName host) := by
    intro san
    rw [← nameCovers_iff, bareName, dropTrailingDots_dropTrailingDots]
  unfold covers
  simp only [comparedHost_eq, IpAddress.parse?_lower, h]
  cases hnames : c.dnsNames with
  | nil => simp [hadmits, Option.any_eq_true]
  | cons san sans => simp [hadmits]

lemma Admits.one_label (h : Admits ("*." ++ s) name) (hs : dropTrailingDots s ≠ "") :
    ¬ SameName name s ∧ ∀ x y, ¬ SameName name (x ++ "." ++ y ++ "." ++ s) := by
  obtain ⟨label, -, hdot, hname⟩ := (nameCovers_label_iff hs).1 (nameCovers_iff.2 h)
  rw [sameName_iff, nameChars_label hs] at hname
  constructor
  · intro hself
    rw [sameName_iff, hname] at hself
    have hlength := congrArg List.length hself
    simp only [List.length_append, List.length_cons] at hlength
    omega
  · intro x y hdeep
    rw [sameName_iff, hname, nameChars_label hs] at hdeep
    have hlabel := List.append_cancel_right hdeep
    apply hdot
    rw [← mem_map_toLower_iff (by decide), hlabel, mem_map_toLower_iff (by decide)]
    simp

/-- A certificate answers alike for all spellings of a host, for an address by its addresses only,
and for a name by its DNS names or, without any, by its common name. -/
theorem coverage_is_exact (c : Certificate) :
    (∀ (name : String) (w : Spelling), ':' ∉ name.toList → name.toList.head? ≠ some '[' →
      w.Respells name → c.covers w.text = c.covers name) ∧
    (∀ literal rest groups, IpAddress.parse? literal = some (.v6 groups) →
      c.covers ("[" ++ literal ++ "]" ++ rest) = c.covers literal) ∧
    (∀ host ip, IpAddress.parse? host = some ip ∨ IpAddress.parse? (bareName host) = some ip →
      (c.covers host = true ↔ ip ∈ c.ipAddresses)) ∧
    (∀ host, IpAddress.parse? (bareName host) = none → (c.covers host = true ↔
      (∃ san ∈ c.dnsNames, Admits san (bareName host)) ∨
        c.dnsNames = [] ∧ ∃ cn, c.commonName = some cn ∧ Admits cn (bareName host))) ∧
    (∀ s name, dropTrailingDots s ≠ "" → Admits ("*." ++ s) name →
      ¬ SameName name s ∧ ∀ x y, ¬ SameName name (x ++ "." ++ y ++ "." ++ s)) ∧
    (c.dnsNames ≠ [] → ∀ cn host, { c with commonName := cn }.covers host = c.covers host) := by
  refine ⟨fun name w hcolon hbracket h => covers_text h hcolon hbracket,
    fun literal rest groups h => covers_brackets h, fun host ip h => ?_,
    fun host h => covers_name_iff h, fun s name hs h => h.one_label hs, fun hne cn host => ?_⟩
  · apply covers_address_iff
    rcases h with h | h
    · rwa [bareName_of_parse? h]
    · exact h
  · unfold covers
    simp [List.isEmpty_iff, hne]

theorem star_covers_one_label :
    let c : Certificate :=
      { subject := "CN=mirror", issuer := "CN=Root", commonName := some "mirror.example.com"
        dnsNames := ["*.mirror.example.com"], ipAddresses := [.v4 127 0 0 1]
        notBefore := .atSecond 0, notAfter := .atSecond 1 }
    c.covers "EU.mirror.example.com.:443" = true ∧ c.covers "mirror.example.com" = false ∧
      { c with commonName := none }.covers "mirror.example.com" = c.covers "mirror.example.com" ∧
      c.covers "127.0.0.1:5000" = true ∧ c.covers "[::1]:5000" = c.covers "::1" := by
  intro c
  obtain ⟨hspelled, hbrackets, haddress, hname, hlabel, hcommon⟩ := coverage_is_exact c
  have hs : dropTrailingDots "mirror.example.com" ≠ "" := by decide +kernel
  refine ⟨?_, ?_, hcommon (by decide) none _, ?_, ?_⟩
  · let w : Spelling := ⟨"EU.mirror.example.com", 1, some "443"⟩
    have hw : w.Respells "eu.mirror.example.com" := by
      refine ⟨by decide +kernel, ?_⟩
      rintro p ⟨⟩
      exact List.all_eq_true.1 (by decide)
    have htext : w.text = "EU.mirror.example.com.:443" := by decide +kernel
    rw [← htext, hspelled _ w (by decide) (by decide) hw, hname _ (by decide +kernel)]
    exact .inl ⟨_, .head _, .label hs (show "eu" ≠ "" by decide) (by decide)
      (show lower _ = lower _ by decide +kernel)⟩
  · rw [Bool.eq_false_iff, ne_eq, hname _ (by decide +kernel)]
    rintro (⟨san, hsan, hadmits⟩ | ⟨hnone, -⟩)
    · obtain rfl := List.mem_singleton.1 hsan
      exact (hlabel "mirror.example.com" _ hs hadmits).1 (show lower _ = lower _ by decide +kernel)
    · cases hnone
  · exact (haddress _ (.v4 127 0 0 1) (.inr (by decide +kernel))).2 (.head _)
  · exact hbrackets "::1" ":5000" #v[0, 0, 0, 0, 0, 0, 0, 1] (by decide +kernel)

end Certificate
end TlsTrust
