import TlsTrust.Failure
import TlsTrust.Proofs.Text.Search

/-!
Where the host that a mismatch names is read off its text, and which of the names quoted there is
missed.
-/

namespace TlsTrust

open Text

namespace CertificateFailure

variable {marker text host : String} {cs before after name : List Char}

def Marked (marker : String) (cs before after : List Char) : Prop :=
  ∃ mark, cs = before ++ (mark ++ after) ∧ mark.map Char.toLower = marker.toList

def FirstMarked (marker : String) (cs before after : List Char) : Prop :=
  Marked marker cs before after ∧
    ∀ before' after', Marked marker cs before' after' → before.length ≤ before'.length

def isQuote (c : Char) : Bool :=
  c == '\x27' || c == '\x22'

/-- A text that starts with a name in quotes, which the same quote closes. -/
def StartsQuoted (cs name : List Char) : Prop :=
  ∃ q rest, isQuote q = true ∧ q ∉ name ∧ cs = q :: (name ++ q :: rest)

/-- A text that is a name after a quote which nothing closes. -/
def StartsUnclosed (cs name : List Char) : Prop :=
  ∃ q, isQuote q = true ∧ q ∉ name ∧ cs = q :: name

def quotedAt : List Char → QuotedName
  | [] => .noQuote
  | q :: inner => if isQuote q then .name (inner.takeWhile (· != q)) else .noQuote

lemma takeWhile_append_of_notMem {q : Char} (h : q ∉ name) (rest : List Char) :
    (name ++ rest).takeWhile (· != q) = name ++ rest.takeWhile (· != q) :=
  List.takeWhile_append_of_pos fun _ hc => bne_iff_ne.2 fun he => h (he ▸ hc)

lemma quotedAt_of_startsQuoted (h : StartsQuoted cs name) : quotedAt cs = .name name := by
  obtain ⟨q, rest, hq, hname, rfl⟩ := h
  rw [quotedAt, if_pos hq, takeWhile_append_of_notMem hname]
  simp

lemma quotedAt_of_startsUnclosed (h : StartsUnclosed cs name) : quotedAt cs = .name name := by
  obtain ⟨q, hq, hname, rfl⟩ := h
  have hall := takeWhile_append_of_notMem hname []
  rw [List.append_nil, List.takeWhile_nil, List.append_nil] at hall
  rw [quotedAt, if_pos hq, hall]

lemma quotedAt_eq_name_iff :
    quotedAt cs = .name name ↔ StartsQuoted cs name ∨ StartsUnclosed cs name := by
  refine ⟨fun h => ?_, fun h => h.elim quotedAt_of_startsQuoted quotedAt_of_startsUnclosed⟩
  cases cs with
  | nil => cases h
  | cons q inner =>
    rw [quotedAt] at h
    split at h
    case isFalse => cases h
    case isTrue hq =>
      obtain rfl := QuotedName.name.inj h
      have hname : q ∉ inner.takeWhile (· != q) := fun hmem => by
        simpa using List.all_eq_true.1 List.all_takeWhile _ hmem
      have hinner : inner.takeWhile (· != q) ++ inner.dropWhile (· != q) = inner :=
        List.takeWhile_append_dropWhile
      -- what the name leaves is nothing, or starts with the quote that closes it
      cases hrest : inner.dropWhile (· != q) with
      | nil =>
        rw [hrest, List.append_nil] at hinner
        exact .inr ⟨q, hq, hname, by rw [hinner]⟩
      | cons r rest =>
        have hhead := List.head?_dropWhile_not (· != q) inner
        rw [hrest] at hhead
        obtain rfl : r = q := by simpa using hhead
        rw [hrest] at hinner
        exact .inl ⟨r, rest, hq, hname, by rw [hinner]⟩

lemma exists_firstMarked (h : Marked marker cs before after) :
    ∃ before after, FirstMarked marker cs before after := by
  induction hlength : before.length using Nat.strong_induction_on generalizing before after with
  | _ n ih =>
    by_cases hfirst : ∀ before' after', Marked marker cs before' after' →
        before.length ≤ before'.length
    · exact ⟨before, after, h, hfirst⟩
    · push Not at hfirst
      obtain ⟨before', after', h', hlt⟩ := hfirst
      exact ih _ (hlength ▸ hlt) h' rfl

lemma exists_marked {front rest : List Char}
    (h : cs.map Char.toLower = front ++ (marker.toList ++ rest)) :
    ∃ before after, Marked marker cs before after ∧ before.length = front.length ∧
      after.map Char.toLower = rest := by
  obtain ⟨before, tail, rfl, rfl, htail⟩ := List.map_eq_append_iff.1 h
  obtain ⟨mark, after, rfl, hmark, hafter⟩ := List.map_eq_append_iff.1 htail
  exact ⟨before, after, ⟨mark, rfl, hmark⟩, (List.length_map _).symm, hafter⟩

lemma quotedAfter_of_afterFirst? (h : Marked marker cs before after)
    (hfirst : afterFirst? marker.toList (cs.map Char.toLower) = some (after.map Char.toLower)) :
    quotedAfter marker cs = quotedAt after := by
  obtain ⟨mark, rfl, -⟩ := h
  have hlength : (before ++ (mark ++ after)).length - (after.map Char.toLower).length =
      (before ++ mark).length := by
    simp only [List.length_append, List.length_map]
    omega
  rw [quotedAfter]
  simp only [hfirst, hlength]
  rw [← List.append_assoc, List.drop_left]
  cases after <;> rfl

lemma quotedAfter_of_firstMarked (h : FirstMarked marker cs before after) :
    quotedAfter marker cs = quotedAt after := by
  obtain ⟨hmarked, hfirst⟩ := h
  apply quotedAfter_of_afterFirst? hmarked
  obtain ⟨mark, hcs, hmark⟩ := hmarked
  have hsmall : cs.map Char.toLower =
      before.map Char.toLower ++ (marker.toList ++ after.map Char.toLower) := by
    rw [hcs, List.map_append, List.map_append, hmark]
  rw [hsmall]
  apply afterFirst?_append
  intro front rest hsplit
  obtain ⟨before', after', hmarked', hlength, -⟩ := exists_marked (hsmall.trans hsplit)
  rw [List.length_map, ← hlength]
  exact hfirst before' after' hmarked'

lemma quotedAfter_of_not_marked (h : ∀ before after, ¬ Marked marker cs before after) :
    quotedAfter marker cs = .noMarker := by
  have hnone : afterFirst? marker.toList (cs.map Char.toLower) = none := by
    rw [afterFirst?_eq_none_iff]
    rintro ⟨front, rest, hsplit⟩
    rw [List.append_assoc] at hsplit
    obtain ⟨before, after, hmarked, -⟩ := exists_marked hsplit.symm
    exact h before after hmarked
  rw [quotedAfter]
  simp only [hnone]

lemma quotedAt_ne_noMarker (cs : List Char) : quotedAt cs ≠ .noMarker := by
  cases cs with
  | nil => simp [quotedAt]
  | cons q inner =>
    rw [quotedAt]
    split <;> simp

lemma quotedAfter_eq_noMarker_iff :
    quotedAfter marker cs = .noMarker ↔ ∀ before after, ¬ Marked marker cs before after := by
  refine ⟨fun h before after hmarked => ?_, quotedAfter_of_not_marked⟩
  obtain ⟨before', after', hfirst⟩ := exists_firstMarked hmarked
  exact quotedAt_ne_noMarker after' ((quotedAfter_of_firstMarked hfirst).symm.trans h)

lemma quotedAfter_eq_name_iff : quotedAfter marker cs = .name name ↔
    ∃ before after, FirstMarked marker cs before after ∧
      (StartsQuoted after name ∨ StartsUnclosed after name) := by
  constructor
  · intro h
    have hmarked : ¬ ∀ before after, ¬ Marked marker cs before after := by
      rw [← quotedAfter_eq_noMarker_iff, h]
      exact QuotedName.noConfusion
    push Not at hmarked
    obtain ⟨_, _, hmarked⟩ := hmarked
    obtain ⟨before, after, hfirst⟩ := exists_firstMarked hmarked
    exact ⟨before, after, hfirst,
      quotedAt_eq_name_iff.1 ((quotedAfter_of_firstMarked hfirst).symm.trans h)⟩
  · rintro ⟨before, after, hfirst, hquoted⟩
    rw [quotedAfter_of_firstMarked hfirst, quotedAt_eq_name_iff.2 hquoted]

def Names (marker text name : String) : Prop :=
  name ≠ "" ∧ ∃ before after, Marked marker text.toList before after ∧ StartsQuoted after name.toList

def NamesUnclosed (marker text name : String) : Prop :=
  name ≠ "" ∧ ∃ before after, Marked marker text.toList before after ∧ StartsUnclosed after name.toList

/-- The first marker of its kind in the text is directly followed by a quote, and the name goes up to
the next such quote or, without one, to the end of the text. -/
def FirstReads (marker text name : String) : Prop :=
  ∃ before after, FirstMarked marker text.toList before after ∧
    (StartsQuoted after name.toList ∨ StartsUnclosed after name.toList)

lemma firstReads_iff {name : String} :
    FirstReads marker text name ↔ quotedAfter marker text.toList = .name name.toList :=
  quotedAfter_eq_name_iff.symm

lemma FirstReads.names {name : String} (h : FirstReads marker text name) (hne : name ≠ "") :
    Names marker text name ∨ NamesUnclosed marker text name := by
  obtain ⟨before, after, ⟨hmarked, -⟩, hquoted | hunclosed⟩ := h
  · exact .inl ⟨hne, before, after, hmarked, hquoted⟩
  · exact .inr ⟨hne, before, after, hmarked, hunclosed⟩

lemma some_ofList_iff {inner : List Char} (h : inner ≠ []) :
    some (String.ofList inner) = some host ↔ host ≠ "" ∧ inner = host.toList := by
  rw [Option.some.injEq]
  constructor
  · rintro rfl
    rw [String.toList_ofList]
    exact ⟨fun hnil => h (by simpa using congrArg String.toList hnil), rfl⟩
  · rintro ⟨-, rfl⟩
    exact String.ofList_toList

lemma some_of_quoted_iff {found : QuotedName} :
    (match found with | .name (c :: inner) => some (String.ofList (c :: inner)) | _ => none) = some host ↔
      host ≠ "" ∧ found = .name host.toList := by
  split
  case h_1 c inner => rw [some_ofList_iff (List.cons_ne_nil c inner), QuotedName.name.injEq]
  case h_2 hempty =>
    refine ⟨fun h => (nomatch h), fun ⟨hne, hfound⟩ => ?_⟩
    obtain ⟨c, inner, hcs⟩ := List.exists_cons_of_ne_nil fun hnil => hne (String.toList_eq_nil_iff.1 hnil)
    exact absurd (hfound.trans (congrArg QuotedName.name hcs)) (hempty c inner)

lemma requestedHost?_eq_some_iff : requestedHost? text = some host ↔ host ≠ "" ∧
    (quotedAfter "hostname " text.toList = .name host.toList ∨
      (quotedAfter "hostname " text.toList = .noMarker ∨
        quotedAfter "hostname " text.toList = .name []) ∧
      quotedAfter "name " text.toList = .name host.toList) := by
  rw [requestedHost?]
  cases hfirst : quotedAfter "hostname " text.toList with
  | noMarker =>
    simp only [reduceCtorEq, false_or, true_or, true_and]
    exact some_of_quoted_iff
  | noQuote => simp only [reduceCtorEq, false_or, false_and, and_false]
  | name inner =>
    cases inner with
    | nil =>
      simp only [QuotedName.name.injEq, reduceCtorEq, false_or, true_and]
      refine some_of_quoted_iff.trans (and_congr_right fun hne => (or_iff_right fun hnil => ?_).symm)
      exact hne (String.toList_eq_nil_iff.1 hnil.symm)
    | cons c inner =>
      simp only [some_ofList_iff (List.cons_ne_nil c inner), QuotedName.name.injEq, reduceCtorEq,
        false_and, or_false]

lemma requestedHost?_iff_firstReads : requestedHost? text = some host ↔ host ≠ "" ∧
    (FirstReads "hostname " text host ∨
      ((∀ before after, ¬ Marked "hostname " text.toList before after) ∨ FirstReads "hostname " text "") ∧
      FirstReads "name " text host) := by
  rw [requestedHost?_eq_some_iff, firstReads_iff, firstReads_iff, firstReads_iff,
    ← quotedAfter_eq_noMarker_iff, String.toList_empty]

/-- The requested host of a mismatch without typed information is the name in quotes at the first
`hostname ` of its text; where no such marker stands in the text, or its quotes are empty, it is the
name in quotes at the first `name `. So it always stands in quotes behind a marker, though the text may
end before these are closed. -/
theorem first_quoted_name_is_requested (f : CertificateFailure) (host : String) (time : Instant)
    (hpayload : f.payload = none) (hkind : f.kind = .hostnameMismatch) :
    (∀ name, (ClassifiedFailure.classify f host time).requestedHost = some name ↔
      name ≠ "" ∧ (FirstReads "hostname " f.message name ∨
        ((∀ before after, ¬ Marked "hostname " f.message.toList before after) ∨
          FirstReads "hostname " f.message "") ∧
        FirstReads "name " f.message name)) ∧
    ∀ name, (ClassifiedFailure.classify f host time).requestedHost = some name →
      ∃ marker ∈ ["hostname ", "name "],
        Names marker f.message name ∨ NamesUnclosed marker f.message name := by
  have hrequested : (ClassifiedFailure.classify f host time).requestedHost =
      requestedHost? f.message := by
    simp [ClassifiedFailure.classify, hpayload, hkind]
  simp only [hrequested]
  refine ⟨fun name => requestedHost?_iff_firstReads, fun name hname => ?_⟩
  obtain ⟨hne, hread | ⟨-, hread⟩⟩ := requestedHost?_iff_firstReads.1 hname
  · exact ⟨"hostname ", by simp, hread.names hne⟩
  · exact ⟨"name ", by simp, hread.names hne⟩

theorem quoted_name_after_capitals_is_requested :
    let f : CertificateFailure := { message := "HOSTNAME 'Internal.corp' mismatch" }
    f.payload = none ∧ f.kind = .hostnameMismatch ∧
      (ClassifiedFailure.classify f "10.0.0.1:5000" (.atSecond 0)).requestedHost =
        some "Internal.corp" := by
  intro f
  have hkind : f.kind = .hostnameMismatch := by decide +kernel
  have hmarked : Marked "hostname " f.message.toList [] "'Internal.corp' mismatch".toList :=
    ⟨"HOSTNAME ".toList, by decide +kernel, by decide +kernel⟩
  have hquoted : StartsQuoted "'Internal.corp' mismatch".toList "Internal.corp".toList :=
    ⟨'\x27', " mismatch".toList, rfl, by decide +kernel, by decide +kernel⟩
  have hfirst : FirstReads "hostname " f.message "Internal.corp" :=
    ⟨_, _, ⟨hmarked, fun _ _ _ => Nat.zero_le _⟩, .inl hquoted⟩
  exact ⟨rfl, hkind, ((first_quoted_name_is_requested f _ _ rfl hkind).1 _).2 ⟨by decide, .inl hfirst⟩⟩

/-- A first `hostname ` without a quote hides the name in quotes that stands behind `name `. -/
theorem name_behind_bare_hostname_is_missed :
    let f : CertificateFailure :=
      { message := "hostname mismatch: certificate is not valid for name 'registry.example.com'" }
    f.payload = none ∧ f.kind = .hostnameMismatch ∧
      Names "name " f.message "registry.example.com" ∧
      ∀ host time, (ClassifiedFailure.classify f host time).requestedHost = none := by
  intro f
  have hkind : f.kind = .hostnameMismatch := by decide +kernel
  have hmarked : Marked "name " f.message.toList
      "hostname mismatch: certificate is not valid for ".toList "'registry.example.com'".toList :=
    ⟨"name ".toList, by decide +kernel, by decide +kernel⟩
  have hquoted : StartsQuoted "'registry.example.com'".toList "registry.example.com".toList :=
    ⟨'\x27', [], rfl, by decide +kernel, by decide +kernel⟩
  have hnone : requestedHost? f.message = none := by decide +kernel
  refine ⟨rfl, hkind, ⟨by decide, _, _, hmarked, hquoted⟩, fun host time => ?_⟩
  simp [ClassifiedFailure.classify, hkind, hnone, f]

end CertificateFailure

end TlsTrust
