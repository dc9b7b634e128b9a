import TlsTrust.Chain.Report
import TlsTrust.Proofs.Chain.BuiltPath

/-! Which failures of the validation of a presented chain the list of its problems shows as well. -/

namespace TlsTrust

namespace Chain

variable {v : Validator} {host : Option String} {store : RootStore}
  {pool path before chain rest : List Certificate} {current leaf c : Certificate} {i k : Nat}
  {err : ChainError} {p : Problem}

/-- Some problem is of the kind of a failure, at the position of a certificate. -/
def Reports (problems : List Problem) (i : Nat) (c : Certificate) (err : ChainError) : Prop :=
  ∃ p ∈ problems, p.position = i ∧ p.subject = c.subject ∧ err.kind? = some p.kind

lemma mem_of_search (h : Search store pool before current (.ok path)) :
    ∀ c ∈ path, c ∈ before ++ [current] ∨ c ∈ pool ∨ c ∈ store.roots := by
  induction h using Search.found_induction with
  | trusted before current _ => exact fun c hc => .inl hc
  | root before current root hroot =>
    intro c hc
    rw [List.append_cons, List.mem_append, List.mem_singleton] at hc
    rcases hc with hc | rfl
    · exact .inl hc
    · exact .inr (.inr hroot.issues.1)
  | next before current next path _ hnext _ ih =>
    intro c hc
    rcases ih c hc with hc | hgiven
    · rw [List.mem_append, List.mem_singleton] at hc
      rcases hc with hc | rfl
      · exact .inl hc
      · exact .inr (.inl (next?_eq_some hnext).1)
    · exact .inr hgiven

lemma mem_of_build (h : build leaf store pool = .ok path) :
    ∀ c ∈ path, c ∈ leaf :: pool ∨ c ∈ store.roots := by
  intro c hc
  rcases mem_of_search (search_build.2 h) c hc with hleaf | hpool | hroot
  · rw [List.mem_singleton.1 hleaf]
    exact .inl List.mem_cons_self
  · exact .inl (List.mem_cons_of_mem _ hpool)
  · exact .inr hroot

lemma mem_problemsFrom (hc : chain[k]? = some c) (hp : p ∈ windowProblems v (i + k) c) :
    p ∈ problemsFrom v host i chain := by
  induction chain generalizing i k with
  | nil => cases hc
  | cons d chain ih =>
    rw [problemsFrom, List.mem_append]
    cases k with
    | zero =>
      obtain rfl : d = c := Option.some.inj hc
      exact .inl (List.mem_append_left _ (List.mem_append_left _ hp))
    | succ k =>
      apply Or.inr
      apply ih hc
      rwa [Nat.add_right_comm, Nat.add_assoc]

end Chain

namespace Validator

open Chain

variable {v : Validator} {host : Option String} {store : RootStore} {roots : Option RootStore}
  {pool path chain rest cs : List Certificate} {leaf c : Certificate} {i : Nat} {t : Instant}
  {err : ChainError}

lemma eq_error_of_bind {α β : Type} {x : Except ChainError α} {f : α → Except ChainError β}
    (h : (x >>= f) = .error err) : x = .error err ∨ ∃ a, x = .ok a ∧ f a = .error err := by
  cases x with
  | ok a => exact .inr ⟨a, rfl, h⟩
  | error err' => exact .inl (congrArg _ (Except.error.inj h))

lemma exists_of_checkWindows (h : v.checkWindows t cs = .error err) :
    ∃ c ∈ cs, v.checkWindow c t = .error err := by
  induction cs with
  | nil => cases h
  | cons c cs ih =>
    rcases eq_error_of_bind h with hc | ⟨_, -, hrest⟩
    · exact ⟨c, List.mem_cons_self, hc⟩
    · obtain ⟨d, hd, hfails⟩ := ih hrest
      exact ⟨d, List.mem_cons_of_mem _ hd, hfails⟩

lemma kind?_of_checkWindow (h : v.checkWindow c t = .error err) :
    err.kind? = some .expired ∨ err.kind? = some .notYetValid := by
  unfold checkWindow at h
  split at h
  · rw [← Except.error.inj h]
    exact .inl rfl
  · split at h
    · rw [← Except.error.inj h]
      exact .inr rfl
    · cases h

lemma checkHost_eq_error (h : checkHost leaf host = .error err) :
    err.kind? = some .hostnameMismatch ∧ ∃ name, host = some name ∧ leaf.covers name = false := by
  cases host with
  | none => cases h
  | some name =>
    cases hcovers : leaf.covers name with
    | true => simp [checkHost, hcovers] at h
    | false =>
      rw [checkHost, hcovers] at h
      rw [← Except.error.inj h]
      exact ⟨rfl, name, rfl, hcovers⟩

lemma checkLeaf_eq_error (h : checkLeaf store leaf = .error err) :
    err.kind? = some .selfSigned ∧ leaf.isSelfSigned = true := by
  unfold checkLeaf at h
  split at h
  case isTrue hfails =>
    rw [← Except.error.inj h]
    exact ⟨rfl, (Bool.and_eq_true_iff.1 hfails).1⟩
  case isFalse => cases h

lemma check_eq_error (h : v.check leaf store pool t host = .error err) :
    (checkHost leaf host = .error err ∧ err.kind? = some .hostnameMismatch) ∨
      (checkLeaf store leaf = .error err ∧ err.kind? = some .selfSigned) ∨
      (build leaf store pool = .error err ∧
        (err.kind? = some .untrustedCA ∨ err.kind? = some .chainIncomplete)) ∨
      ∃ c, (c ∈ leaf :: pool ∨ c ∈ store.roots) ∧ v.checkWindow c t = .error err ∧
        (err.kind? = some .expired ∨ err.kind? = some .notYetValid) := by
  unfold check at h
  rcases eq_error_of_bind h with hwindow | ⟨_, -, h⟩
  · exact .inr (.inr (.inr ⟨leaf, .inl List.mem_cons_self, hwindow, kind?_of_checkWindow hwindow⟩))
  rcases eq_error_of_bind h with hhost | ⟨_, -, h⟩
  · exact .inl ⟨hhost, (checkHost_eq_error hhost).1⟩
  rcases eq_error_of_bind h with hleaf | ⟨_, -, h⟩
  · exact .inr (.inl ⟨hleaf, (checkLeaf_eq_error hleaf).1⟩)
  rcases eq_error_of_bind h with hbuild | ⟨path, hbuild, h⟩
  · exact .inr (.inr (.inl ⟨hbuild, (search_build.2 hbuild).kind?⟩))
  rcases eq_error_of_bind h with hwindows | ⟨_, -, h⟩
  · obtain ⟨c, hc, hfails⟩ := exists_of_checkWindows hwindows
    have hgiven := mem_of_build hbuild c (List.mem_of_mem_tail hc)
    exact .inr (.inr (.inr ⟨c, hgiven, hfails, kind?_of_checkWindow hfails⟩))
  · cases h

lemma checkHost_of_check (h : v.check leaf store pool t host = .error err)
    (hkind : err.kind? = some .hostnameMismatch) : checkHost leaf host = .error err := by
  rcases check_eq_error h with ⟨hhost, -⟩ | ⟨-, hother⟩ | ⟨-, hother⟩ | ⟨c, -, -, hother⟩
  · exact hhost
  all_goals simp [hkind] at hother

lemma checkLeaf_of_check (h : v.check leaf store pool t host = .error err)
    (hkind : err.kind? = some .selfSigned) : checkLeaf store leaf = .error err := by
  rcases check_eq_error h with ⟨-, hother⟩ | ⟨hleaf, -⟩ | ⟨-, hother⟩ | ⟨c, -, -, hother⟩
  · simp [hkind] at hother
  · exact hleaf
  all_goals simp [hkind] at hother

lemma checkWindow_of_check (h : v.check leaf store pool t host = .error err)
    (hkind : err.kind? = some .expired ∨ err.kind? = some .notYetValid) :
    ∃ c, (c ∈ leaf :: pool ∨ c ∈ store.roots) ∧ v.checkWindow c t = .error err := by
  rcases check_eq_error h with ⟨-, hother⟩ | ⟨-, hother⟩ | ⟨-, hother⟩ | ⟨c, hc, hwindow, -⟩
  · simp [hother] at hkind
  · simp [hother] at hkind
  · rcases hother with hother | hother
    all_goals simp [hother] at hkind
  · exact ⟨c, hc, hwindow⟩

lemma reports_of_checkWindow (hc : chain[i]? = some c) (h : v.checkWindow c v.now = .error err) :
    Reports (v.analyze chain host) i c err := by
  obtain ⟨kind, hkind⟩ : ∃ kind, err.kind? = some kind := by
    rcases kind?_of_checkWindow h with hkind | hkind
    all_goals exact ⟨_, hkind⟩
  refine ⟨⟨i, c.subject, kind, err.reason⟩, ?_, rfl, rfl, hkind⟩
  apply mem_problemsFrom hc
  simp [windowProblems, h, hkind]

lemma reports_of_checkHost (h : checkHost leaf (hostToCheck host) = .error err) :
    Reports (v.analyze (leaf :: rest) host) 0 leaf err := by
  obtain ⟨hkind, name, hname, hcovers⟩ := checkHost_eq_error h
  have hfound : hostProblems host 0 leaf =
      [⟨0, leaf.subject, .hostnameMismatch, s!"not valid for {name}"⟩] := by
    unfold hostProblems
    simp only [hname, hcovers, Bool.false_eq_true, if_false]
  have hmem : ⟨0, leaf.subject, .hostnameMismatch, s!"not valid for {name}"⟩ ∈
      v.analyze (leaf :: rest) host := by
    unfold analyze problemsFrom
    simp only [hfound, List.mem_append, List.mem_singleton, true_or, or_true]
  exact ⟨_, hmem, rfl, rfl, hkind⟩

lemma reports_of_checkLeaf (h : checkLeaf store leaf = .error err) :
    Reports (v.analyze [leaf] host) 0 leaf err := by
  obtain ⟨hkind, hsigned⟩ := checkLeaf_eq_error h
  refine ⟨⟨0, leaf.subject, .selfSigned, "leaf certificate is self-signed"⟩, ?_, rfl, rfl, hkind⟩
  simp [analyze, problemsFrom, linkProblems, hsigned]

/-- Where the validation of a presented chain fails at a certificate of the chain, for its window or its
names, the analysis shows a problem of that kind at its position; where it fails because the leaf is
signed by itself, the analysis does if nothing follows the leaf. -/
theorem validation_failures_are_analyzed (v : Validator) (chain : List Certificate)
    (roots : Option RootStore) (host : Option String) {err : ChainError}
    (h : v.validateChain chain roots host = .error err) :
    (err.kind? = some .expired ∨ err.kind? = some .notYetValid →
      (∃ c, (c ∈ chain ∨ c ∈ (v.store roots).roots) ∧ v.checkWindow c v.now = .error err) ∧
      ∀ i c, chain[i]? = some c → v.checkWindow c v.now = .error err →
        Reports (v.analyze chain host) i c err) ∧
    (err.kind? = some .hostnameMismatch →
      ∃ leaf rest, chain = leaf :: rest ∧ Reports (v.analyze chain host) 0 leaf err) ∧
    (err.kind? = some .selfSigned → ∃ leaf rest, chain = leaf :: rest ∧
      (rest = [] → Reports (v.analyze chain host) 0 leaf err)) ∧
    (v.analyze chain host = [] → err.kind? ≠ some .hostnameMismatch ∧
      (err.kind? = some .selfSigned → 2 ≤ chain.length) ∧
      ∀ c ∈ chain, v.checkWindow c v.now ≠ .error err) := by
  cases chain with
  | nil =>
    obtain rfl : ChainError.emptyChain = err := Except.error.inj h
    simp [ChainError.kind?]
  | cons leaf rest =>
    have hnone : v.analyze (leaf :: rest) host = [] →
        ∀ i c, ¬ Reports (v.analyze (leaf :: rest) host) i c err := by
      rintro hnil i c ⟨p, hp, -⟩
      rw [hnil] at hp
      cases hp
    have hhost : err.kind? = some .hostnameMismatch →
        Reports (v.analyze (leaf :: rest) host) 0 leaf err :=
      fun hkind => reports_of_checkHost (checkHost_of_check h hkind)
    have hself : err.kind? = some .selfSigned → rest = [] →
        Reports (v.analyze (leaf :: rest) host) 0 leaf err := by
      rintro hkind rfl
      exact reports_of_checkLeaf (checkLeaf_of_check h hkind)
    refine ⟨fun hkind => ⟨checkWindow_of_check h hkind, fun i c => reports_of_checkWindow⟩,
      fun hkind => ⟨leaf, rest, rfl, hhost hkind⟩, fun hkind => ⟨leaf, rest, rfl, hself hkind⟩,
      fun hnil => ⟨fun hkind => hnone hnil 0 leaf (hhost hkind), fun hkind => ?_, ?_⟩⟩
    · cases rest with
      | nil => exact absurd (hself hkind rfl) (hnone hnil 0 leaf)
      | cons c rest => simp
    · intro c hc hwindow
      obtain ⟨i, hi⟩ := List.mem_iff_getElem?.1 hc
      exact hnone hnil i c (reports_of_checkWindow hi hwindow)

theorem expired_authority_is_analyzed :
    let v : Validator := { now := .atSecond 900 }
    let chain := [deepLeaf, crossSigned "CN=Root" 500]
    let store : RootStore := ⟨[exampleRoot]⟩
    let lone := crossSigned "CN=CA" 1000
    (∃ err, v.validateChain chain (some store) none = .error err ∧ err.kind? = some .expired ∧
      Reports (v.analyze chain none) 1 (crossSigned "CN=Root" 500) err) ∧
    (∃ err, v.validateChain chain (some store) (some "example.com") = .error err ∧
      Reports (v.analyze chain (some "example.com")) 0 deepLeaf err) ∧
    ∃ err, v.validateChain [lone] (some store) none = .error err ∧
      Reports (v.analyze [lone] none) 0 lone err := by
  intro v chain store lone
  have hexpired : v.validateChain chain (some store) none =
      .error (.expired "CN=CA" (.atSecond 500)) := by decide +kernel
  have hmismatch : v.validateChain chain (some store) (some "example.com") =
      .error (.notForHost "CN=registry.local" "example.com") := by decide +kernel
  have hsigned : v.validateChain [lone] (some store) none = .error (.selfSignedLeaf "CN=CA") := by
    decide +kernel
  have hwindow := (v.validation_failures_are_analyzed chain (some store) none hexpired).1 (.inl rfl)
  obtain ⟨leaf, rest, hchain, hhost⟩ := (v.validation_failures_are_analyzed chain (some store)
    (some "example.com") hmismatch).2.1 rfl
  obtain rfl : deepLeaf = leaf := (List.cons.inj hchain).1
  obtain ⟨leaf, rest, hchain, hlone⟩ :=
    (v.validation_failures_are_analyzed [lone] (some store) none hsigned).2.2.1 rfl
  obtain ⟨rfl, rfl⟩ := List.cons.inj hchain
  exact ⟨⟨_, hexpired, rfl, hwindow.2 1 _ rfl (by decide +kernel)⟩, ⟨_, hmismatch, hhost⟩,
    _, hsigned, hlone rfl⟩

/-- A leaf signed by itself that another certificate of its name follows fails, and nothing shows in
the analysis. -/
theorem self_signed_leaf_goes_unlisted :
    let v : Validator := { now := .atSecond 500 }
    let leaf := { crossSigned "CN=CA" 1000 with dnsNames := ["dev.local"] }
    let chain := [leaf, crossSigned "CN=CA" 1000]
    ∃ err, v.validateChain chain (some ⟨[]⟩) (some "dev.local") = .error err ∧
      err.kind? = some .selfSigned ∧ v.analyze chain (some "dev.local") = [] :=
  ⟨.selfSignedLeaf "CN=CA", by decide +kernel, rfl, by decide +kernel⟩

end Validator

end TlsTrust
