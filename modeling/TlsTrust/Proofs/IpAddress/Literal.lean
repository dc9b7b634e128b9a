import TlsTrust.Proofs.IpAddress
import TlsTrust.Proofs.Text.Ascii

namespace TlsTrust

namespace Text

lemma hexDigit?_eq (c : Char) : hexDigit? c =
    if 48 ≤ c.toNat ∧ c.toNat ≤ 57 then some (c.toNat - 48)
    else if 97 ≤ c.toNat ∧ c.toNat ≤ 102 then some (c.toNat - 87)
    else if 65 ≤ c.toNat ∧ c.toNat ≤ 70 then some (c.toNat - 55) else none := by
  unfold hexDigit?
  simp only [isDigit_iff, Char.le_def, UInt32.le_iff_toNat_le, Char.toNat_val]
  have hbounds : '0'.toNat = 48 ∧ 'a'.toNat = 97 ∧ 'f'.toNat = 102 ∧ 'A'.toNat = 65 ∧ 'F'.toNat = 70 := by
    decide
  obtain ⟨h0, ha, hf, hA, hF⟩ := hbounds
  simp only [h0, ha, hf, hA, hF]
  grind

lemma hexDigit?_toLower (c : Char) : hexDigit? c.toLower = hexDigit? c := by
  simp only [hexDigit?_eq, toNat_toLower]
  grind

lemma isDigit_toLower (c : Char) : c.toLower.isDigit = c.isDigit := by
  rw [Bool.eq_iff_iff, isDigit_iff, isDigit_iff, toNat_toLower]
  split <;> omega

lemma splitOn_map_toLower {d : Char} (h : d.isAlpha = false) (cs : List Char) :
    (cs.map Char.toLower).splitOn d = (cs.splitOn d).map (List.map Char.toLower) := by
  induction cs with
  | nil => rfl
  | cons c cs ih =>
    have hc : (c.toLower == d) = (c == d) := by
      rw [Bool.eq_iff_iff, beq_iff_eq, beq_iff_eq, toLower_eq_iff h]
    rw [List.map_cons, List.splitOn_cons_eq_if_modifyHead, List.splitOn_cons_eq_if_modifyHead, hc, ih]
    split
    · rfl
    · cases cs.splitOn d <;> rfl

end Text

namespace IpAddress

open Text

lemma byte?_map_toLower (cs : List Char) : byte? (cs.map Char.toLower) = byte? cs := by
  cases hall : cs.all Char.isDigit with
  | true =>
    have hself : cs.map Char.toLower = cs :=
      (List.map_congr_left fun c hc => toLower_eq_self_of_isDigit (List.all_eq_true.1 hall c hc)).trans
        (List.map_id' cs)
    rw [hself]
  | false =>
    have hlower : (cs.map Char.toLower).all Char.isDigit = false := by
      rw [List.all_map, ← hall]
      congr 1
      funext c
      exact isDigit_toLower c
    simp [byte?, hall, hlower]

lemma bytes?_map_toLower (cs : List Char) : bytes? (cs.map Char.toLower) = bytes? cs := by
  unfold bytes?
  rw [splitOn_map_toLower (by decide)]
  rcases cs.splitOn '.' with _ | ⟨a, _ | ⟨b, _ | ⟨c, _ | ⟨d, _ | ⟨e, rest⟩⟩⟩⟩⟩
  all_goals simp [byte?_map_toLower]

lemma group?_map_toLower (cs : List Char) : group? (cs.map Char.toLower) = group? cs := by
  have hdigits : hexDigit? ∘ Char.toLower = hexDigit? := funext hexDigit?_toLower
  unfold group?
  rw [List.length_map, List.isEmpty_map, List.mapM_map, hdigits]

lemma groups?_map_toLower (parts : List (List Char)) :
    groups? (parts.map (List.map Char.toLower)) = groups? parts := by
  induction parts with
  | nil => rfl
  | cons g gs ih =>
    cases gs with
    | nil => simp [groups?, group?_map_toLower, bytes?_map_toLower]
    | cons g' gs =>
      simp only [List.map_cons] at ih ⊢
      simp [groups?, group?_map_toLower, ih]

lemma side?_map_toLower (cs : List Char) : side? (cs.map Char.toLower) = side? cs := by
  unfold side?
  rw [List.isEmpty_map, splitOn_map_toLower (by decide), groups?_map_toLower]

lemma frontSide?_map_toLower (cs : List Char) :
    frontSide? (cs.map Char.toLower) = frontSide? cs := by
  have hdot : (cs.map Char.toLower).contains '.' = cs.contains '.' := by
    rw [Bool.eq_iff_iff, List.contains_iff_mem, List.contains_iff_mem, mem_map_toLower_iff (by decide)]
  unfold frontSide?
  rw [hdot, side?_map_toLower]

lemma splitDouble?_map_toLower (cs : List Char) : splitDouble? (cs.map Char.toLower) =
    (splitDouble? cs).map fun p => (p.1.map Char.toLower, p.2.map Char.toLower) := by
  have hcolon : ∀ c : Char, c.toLower = ':' ↔ c = ':' := fun c => toLower_eq_iff (by decide)
  fun_induction splitDouble? cs with
  | case1 rest => rfl
  | case2 c rest hdouble ih =>
    have hhead : c.toLower = ':' → (rest.map Char.toLower).head? ≠ some ':' := by
      rintro hc hrest
      obtain ⟨d, hd, hlower⟩ := Option.map_eq_some_iff.1 (List.head?_map.symm.trans hrest)
      obtain ⟨rest', rfl⟩ := List.head?_eq_some_iff.1 hd
      exact hdouble rest' ((hcolon c).1 hc) (by rw [(hcolon d).1 hlower])
    rw [List.map_cons, splitDouble?_cons hhead, ih, Option.map_map, Option.map_map]
    rfl
  | case3 => rfl

lemma v6?_map_toLower (cs : List Char) : v6? (cs.map Char.toLower) = v6? cs := by
  unfold v6?
  rw [splitDouble?_map_toLower, splitOn_map_toLower (by decide), groups?_map_toLower]
  cases splitDouble? cs with
  | none => rfl
  | some p => simp [frontSide?_map_toLower, side?_map_toLower]

lemma parse?_lower (s : String) : parse? (lower s) = parse? s := by
  rw [parse?, parse?, lower, String.toList_ofList]
  simp only [bytes?_map_toLower, v6?_map_toLower]

structure IsPiece (cs : List Char) : Prop where
  chars : ∀ c ∈ cs, (hexDigit? c).isSome = true ∨ c = '.' ∨ c = ':'
  last : ∀ c, cs.getLast? = some c → c ≠ '.'

lemma isPiece_nil : IsPiece [] :=
  ⟨nofun, nofun⟩

lemma IsPiece.of_digits {cs : List Char} (h : ∀ c ∈ cs, (hexDigit? c).isSome = true) :
    IsPiece cs := by
  refine ⟨fun c hc => .inl (h c hc), fun c hc hdot => ?_⟩
  have hsome := h c (List.mem_of_getLast? hc)
  rw [hdot] at hsome
  cases hsome

lemma IsPiece.join {d : Char} {as bs : List Char} (hd : d = '.' ∨ d = ':') (ha : IsPiece as)
    (hb : IsPiece bs) (hend : d = '.' → bs ≠ []) : IsPiece (as ++ d :: bs) := by
  constructor
  · intro c hc
    rw [List.mem_append, List.mem_cons] at hc
    rcases hc with hc | rfl | hc
    · exact ha.chars c hc
    · exact .inr hd
    · exact hb.chars c hc
  · intro c hc
    rw [List.getLast?_append, List.getLast?_cons, Option.some_or, Option.some.injEq] at hc
    cases hlast : bs.getLast? with
    | none =>
      rw [hlast, Option.getD_none] at hc
      rw [List.getLast?_eq_none_iff] at hlast
      rintro rfl
      exact hend hc hlast
    | some b =>
      rw [hlast, Option.getD_some] at hc
      exact hc ▸ hb.last b hlast

lemma IsPiece.bracket_notMem {cs : List Char} (h : IsPiece cs) : '[' ∉ cs ∧ ']' ∉ cs := by
  constructor <;> intro hmem <;> rcases h.chars _ hmem with hhex | hdot | hcolon
  all_goals first | cases hhex | cases hdot | cases hcolon

lemma hexDigit?_of_isDigit {c : Char} (h : c.isDigit = true) : (hexDigit? c).isSome = true := by
  simp [hexDigit?, h]

lemma digits_of_byte? {cs : List Char} {n : Fin 256} (h : byte? cs = some n) :
    cs ≠ [] ∧ IsPiece cs ∧ ':' ∉ cs := by
  unfold byte? at h
  split at h
  case isTrue => cases h
  case isFalse hdigits =>
    simp only [Bool.or_eq_true, not_or, List.isEmpty_iff, Bool.not_eq_true', Bool.not_eq_false,
      List.all_eq_true] at hdigits
    have hall := hdigits.2
    refine ⟨hdigits.1.1, .of_digits fun c hc => hexDigit?_of_isDigit (hall c hc), fun hc => ?_⟩
    exact absurd (hall _ hc) (by decide)

lemma isPiece_of_bytes? {cs : List Char} {n : Fin 256 × Fin 256 × Fin 256 × Fin 256}
    (h : bytes? cs = some n) : IsPiece cs ∧ cs ≠ [] ∧ ':' ∉ cs := by
  unfold bytes? at h
  split at h
  case h_2 => cases h
  case h_1 a b c d hparts =>
    simp only [Option.bind_eq_bind, Option.bind_eq_some_iff] at h
    obtain ⟨_, ha, _, hb, _, hc, _, hd, -⟩ := h
    have hcs : cs = a ++ '.' :: (b ++ '.' :: (c ++ '.' :: d)) := by
      have hjoin : ['.'].intercalate (cs.splitOn '.') = cs := List.intercalate_splitOn '.'
      rw [← hjoin, hparts]
      simp [List.intercalate_cons_cons]
    obtain ⟨-, ha, hacolon⟩ := digits_of_byte? ha
    obtain ⟨-, hb, hbcolon⟩ := digits_of_byte? hb
    obtain ⟨-, hc, hccolon⟩ := digits_of_byte? hc
    obtain ⟨hne, hd, hdcolon⟩ := digits_of_byte? hd
    rw [hcs]
    refine ⟨?_, by simp, by simp [hacolon, hbcolon, hccolon, hdcolon]⟩
    apply ha.join (.inl rfl) _ (by simp)
    apply hb.join (.inl rfl) _ (by simp)
    exact hc.join (.inl rfl) hd fun _ => hne

lemma isSome_of_mapM {α β : Type} {f : α → Option β} {as : List α} {bs : List β}
    (h : as.mapM f = some bs) : ∀ a ∈ as, (f a).isSome = true := by
  induction as generalizing bs with
  | nil => nofun
  | cons a as ih =>
    simp only [List.mapM_cons, Option.bind_eq_bind, Option.bind_eq_some_iff] at h
    obtain ⟨b, ha, more, hmore, -⟩ := h
    rw [List.forall_mem_cons]
    exact ⟨Option.isSome_of_eq_some ha, ih hmore⟩

lemma isPiece_of_group? {cs : List Char} {g : Fin 65536} (h : group? cs = some g) : IsPiece cs := by
  unfold group? at h
  split at h
  case isTrue => cases h
  case isFalse =>
    simp only [Option.bind_eq_bind, Option.bind_eq_some_iff] at h
    obtain ⟨ds, hds, -⟩ := h
    exact .of_digits (isSome_of_mapM hds)

lemma isPiece_of_groups? {parts : List (List Char)} {gs : List (Fin 65536)}
    (h : groups? parts = some gs) :
    IsPiece ([':'].intercalate parts) ∧ gs.length ≤ parts.length + 1 := by
  fun_induction groups? parts generalizing gs with
  | case1 =>
    obtain rfl := Option.some.inj h
    exact ⟨isPiece_nil, Nat.zero_le _⟩
  | case2 last g hg =>
    obtain rfl := Option.some.inj h
    rw [List.intercalate_singleton]
    exact ⟨isPiece_of_group? hg, by simp⟩
  | case3 last hg =>
    obtain ⟨n, hn, rfl⟩ := Option.map_eq_some_iff.1 h
    rw [List.intercalate_singleton]
    exact ⟨(isPiece_of_bytes? hn).1, by simp⟩
  | case4 g rest hrest ih =>
    simp only [Option.bind_eq_bind, Option.bind_eq_some_iff] at h
    obtain ⟨first, hg, more, hmore, hgs⟩ := h
    obtain ⟨hpiece, hlength⟩ := ih hmore
    obtain rfl := Option.some.inj hgs
    obtain ⟨g', rest', rfl⟩ := List.exists_cons_of_ne_nil hrest
    rw [List.intercalate_cons_cons, List.append_assoc]
    exact ⟨(isPiece_of_group? hg).join (.inr rfl) hpiece (by simp), by simpa using hlength⟩

lemma isPiece_of_side? {cs : List Char} {gs : List (Fin 65536)} (h : side? cs = some gs) :
    IsPiece cs := by
  unfold side? at h
  split at h
  case isTrue hempty =>
    rw [List.isEmpty_iff.1 hempty]
    exact isPiece_nil
  case isFalse =>
    have hjoin : [':'].intercalate (cs.splitOn ':') = cs := List.intercalate_splitOn ':'
    exact hjoin ▸ (isPiece_of_groups? h).1

lemma eq_of_splitDouble? {cs front back : List Char} (h : splitDouble? cs = some (front, back)) :
    cs = front ++ ':' :: ':' :: back := by
  fun_induction splitDouble? cs generalizing front with
  | case1 rest =>
    obtain ⟨rfl, rfl⟩ := Prod.mk.inj (Option.some.inj h)
    rfl
  | case2 c rest _ ih =>
    obtain ⟨⟨front', back'⟩, hsplit, hparts⟩ := Option.map_eq_some_iff.1 h
    obtain ⟨rfl, rfl⟩ := Prod.mk.inj hparts
    rw [ih hsplit, List.cons_append]
  | case3 => cases h

lemma length_le_count_intercalate (parts : List (List Char)) :
    parts.length ≤ ([':'].intercalate parts).count ':' + 1 := by
  induction parts with
  | nil => simp
  | cons g gs ih =>
    cases gs with
    | nil => simp
    | cons g' gs =>
      rw [List.intercalate_cons_cons, List.count_append, List.count_append, List.count_singleton_self]
      simp only [List.length_cons] at ih ⊢
      omega

lemma of_ofGroups? {gs : List (Fin 65536)} {ip : IpAddress} (h : ofGroups? gs = some ip) :
    gs.length = 8 ∧ ∃ groups, ip = .v6 groups := by
  unfold ofGroups? at h
  split at h
  case isTrue hlength => exact ⟨hlength, _, (Option.some.inj h).symm⟩
  case isFalse => cases h

lemma isPiece_of_v6? {cs : List Char} {ip : IpAddress} (h : v6? cs = some ip) :
    IsPiece cs ∧ 2 ≤ cs.count ':' ∧ ∃ groups, ip = .v6 groups := by
  unfold v6? at h
  split at h
  case h_1 =>
    obtain ⟨gs, hgroups, haddress⟩ := Option.bind_eq_some_iff.1 h
    obtain ⟨hpiece, hlength⟩ := isPiece_of_groups? hgroups
    have hcount := length_le_count_intercalate (cs.splitOn ':')
    obtain ⟨height, hip⟩ := of_ofGroups? haddress
    rw [List.intercalate_splitOn] at hpiece hcount
    exact ⟨hpiece, by omega, hip⟩
  case h_2 front back hsplit =>
    simp only [Option.bind_eq_bind, Option.bind_eq_some_iff] at h
    obtain ⟨fs, hfront, bs, hback, haddress⟩ := h
    split at haddress
    case isFalse => cases haddress
    case isTrue =>
      have hfront' : IsPiece front := by
        unfold frontSide? at hfront
        split at hfront
        · cases hfront
        · exact isPiece_of_side? hfront
      rw [eq_of_splitDouble? hsplit]
      refine ⟨?_, by simp only [List.count_append, List.count_cons_self]; omega,
        (of_ofGroups? haddress).2⟩
      apply hfront'.join (.inr rfl) _ (by simp)
      exact isPiece_nil.join (.inr rfl) (isPiece_of_side? hback) (by simp)

lemma isPiece_of_parse? {s : String} {ip : IpAddress} (h : parse? s = some ip) :
    IsPiece s.toList ∧ ((∃ groups, ip = .v6 groups) ∧ 2 ≤ s.toList.count ':' ∨
      (∀ groups, ip ≠ .v6 groups) ∧ ':' ∉ s.toList) := by
  unfold parse? at h
  dsimp only at h
  split at h
  case h_1 a b c d hbytes =>
    obtain rfl := Option.some.inj h
    obtain ⟨hpiece, -, hcolon⟩ := isPiece_of_bytes? hbytes
    exact ⟨hpiece, .inr ⟨nofun, hcolon⟩⟩
  case h_2 =>
    obtain ⟨hpiece, hcount, hip⟩ := isPiece_of_v6? h
    exact ⟨hpiece, .inl ⟨hip, hcount⟩⟩

end IpAddress

end TlsTrust
