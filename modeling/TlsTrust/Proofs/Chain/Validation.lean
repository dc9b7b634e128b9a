import TlsTrust.Chain.Validator
import TlsTrust.Proofs.Time.Shift

/-!
When the validation of a certificate succeeds, at which times, and with which kind of failure it
ends otherwise.
-/

namespace TlsTrust

namespace Chain

variable {store : RootStore} {pool path : List Certificate} {leaf : Certificate}

lemma extend_result (store : RootStore) (pool : List Certificate) (room : Nat)
    (before : List Certificate) (current : Certificate) :
    (∃ rest, extend store pool room before current = .ok (before ++ current :: rest)) ∨
      ∃ err kind, extend store pool room before current = .error err ∧ err.kind? = some kind := by
  induction room generalizing before current with
  | zero =>
    unfold extend
    dsimp only
    split
    · exact .inl ⟨[], rfl⟩
    · split
      case h_1 root _ => exact .inl ⟨[root], by simp⟩
      case h_2 =>
        split
        · exact .inr ⟨_, _, rfl, rfl⟩
        · exact .inr ⟨_, _, rfl, rfl⟩
  | succ room ih =>
    unfold extend
    dsimp only
    split
    · exact .inl ⟨[], rfl⟩
    · split
      case h_1 root _ => exact .inl ⟨[root], by simp⟩
      case h_2 =>
        split
        · exact .inr ⟨_, _, rfl, rfl⟩
        · split
          case h_1 next _ =>
            rcases ih (before ++ [current]) next with ⟨rest, h⟩ | h
            · exact .inl ⟨next :: rest, by simpa using h⟩
            · exact .inr h
          case h_2 => split <;> exact .inr ⟨_, _, rfl, rfl⟩

lemma eq_cons_of_build (h : build leaf store pool = .ok path) : ∃ rest, path = leaf :: rest := by
  rcases extend_result store pool (maxDepth - 1) [] leaf with ⟨rest, hrest⟩ | ⟨err, _, herr, -⟩
  · exact ⟨rest, Except.ok.inj (h.symm.trans hrest)⟩
  · cases herr.symm.trans h

lemma kind?_of_build_eq_error {err : ChainError} (h : build leaf store pool = .error err) :
    ∃ kind, err.kind? = some kind := by
  rcases extend_result store pool (maxDepth - 1) [] leaf with ⟨_, hrest⟩ | ⟨err', kind, herr, hkind⟩
  · cases hrest.symm.trans h
  · obtain rfl := Except.error.inj (herr.symm.trans h)
    exact ⟨kind, hkind⟩

end Chain

namespace Validator

variable {v : Validator} {leaf c : Certificate} {roots : Option RootStore} {store : RootStore}
  {pool path cs : List Certificate} {t : Instant} {host : Option String}

def answer (v : Validator) (leaf : Certificate) (roots : Option RootStore) (pool : List Certificate)
    (time : Option Instant) : Option String → Except ChainError (List Certificate)
  | none => v.validate leaf roots pool time
  | some host => v.validateForHost leaf roots pool time host

def InWindow (v : Validator) (c : Certificate) (t : Instant) : Prop :=
  c.notBefore.minus v.skew ≤ t ∧ t ≤ c.notAfter.plus v.skew

/-- What it takes for a leaf to be valid at a time on a path. -/
structure Accepts (v : Validator) (leaf : Certificate) (roots : Option RootStore)
    (pool : List Certificate) (t : Instant) (host : Option String) (path : List Certificate) :
    Prop where
  built : v.buildChain leaf roots pool = .ok path
  inWindow : ∀ c ∈ path, v.InWindow c t
  covers : ∀ h, host = some h → leaf.covers h = true
  anchored : leaf.isSelfSigned = false ∨ (v.store roots).isTrusted leaf = true

def windowFailures (v : Validator) (t : Instant) (c : Certificate) : List FailureKind :=
  (if c.notAfter.plus v.skew < t then [.expired] else [])
    ++ if t < c.notBefore.minus v.skew then [.notYetValid] else []

def hostFailures (leaf : Certificate) (host : Option String) : List FailureKind :=
  if host.all leaf.covers then [] else [.hostnameMismatch]

def leafFailures (store : RootStore) (leaf : Certificate) : List FailureKind :=
  if leaf.isSelfSigned ∧ store.isTrusted leaf = false then [.selfSigned] else []

def pathFailures (v : Validator) (t : Instant) :
    Except ChainError (List Certificate) → List FailureKind
  | .error err => err.kind?.toList
  | .ok path => path.tail.flatMap (v.windowFailures t)

/-- All failures of a leaf and of its path: the window of the leaf, the host, a leaf signed by itself,
the path, and the windows of the rest of the path upward. -/
def failures (v : Validator) (leaf : Certificate) (roots : Option RootStore)
    (pool : List Certificate) (t : Instant) (host : Option String) : List FailureKind :=
  v.windowFailures t leaf ++ hostFailures leaf host ++ leafFailures (v.store roots) leaf
    ++ v.pathFailures t (v.buildChain leaf roots pool)

def Finds {α : Type} (x : Except ChainError α) (kinds : List FailureKind) : Prop :=
  match x with
  | .ok _ => kinds = []
  | .error err => ∃ kind rest, err.kind? = some kind ∧ kinds = kind :: rest

lemma Finds.bind {α β : Type} {x : Except ChainError α} {f : α → Except ChainError β}
    {first rest : List FailureKind} (h : Finds x first)
    (k : ∀ a, x = .ok a → Finds (f a) rest) : Finds (x >>= f) (first ++ rest) := by
  cases x with
  | ok a =>
    have hnil : first = [] := h
    rw [hnil, List.nil_append]
    exact k a rfl
  | error err =>
    obtain ⟨kind, more, hkind, rfl⟩ := h
    exact ⟨kind, more ++ rest, hkind, rfl⟩

lemma finds_checkWindow (v : Validator) (c : Certificate) (t : Instant) :
    Finds (v.checkWindow c t) (v.windowFailures t c) := by
  unfold checkWindow windowFailures
  by_cases hafter : c.notAfter.plus v.skew < t
  · simp only [hafter, if_true]
    exact ⟨.expired, _, rfl, rfl⟩
  · by_cases hbefore : t < c.notBefore.minus v.skew
    · simp only [hafter, hbefore, if_false, if_true]
      exact ⟨.notYetValid, [], rfl, rfl⟩
    · simp only [hafter, hbefore, if_false]
      exact rfl

lemma finds_checkWindows (v : Validator) (t : Instant) (cs : List Certificate) :
    Finds (v.checkWindows t cs) (cs.flatMap (v.windowFailures t)) := by
  induction cs with
  | nil => exact rfl
  | cons c cs ih => exact (v.finds_checkWindow c t).bind fun _ _ => ih

lemma finds_checkHost (leaf : Certificate) (host : Option String) :
    Finds (checkHost leaf host) (hostFailures leaf host) := by
  cases host with
  | none => exact rfl
  | some h =>
    cases hc : leaf.covers h with
    | true => simp [checkHost, hostFailures, hc, Finds]
    | false => simp [checkHost, hostFailures, hc, Finds, ChainError.kind?]

lemma finds_checkLeaf (store : RootStore) (leaf : Certificate) :
    Finds (checkLeaf store leaf) (leafFailures store leaf) := by
  unfold checkLeaf leafFailures
  by_cases h : leaf.isSelfSigned = true ∧ store.isTrusted leaf = false
  · simp [h, Finds, ChainError.kind?]
  · have hpass : (leaf.isSelfSigned && !store.isTrusted leaf) = false := by simpa using h
    simp [h, hpass, Finds]

lemma finds_build (v : Validator) (leaf : Certificate) (store : RootStore)
    (pool : List Certificate) (t : Instant) :
    Finds (Chain.build leaf store pool >>= fun path => v.checkWindows t path.tail >>= fun _ => pure path)
      (v.pathFailures t (Chain.build leaf store pool)) := by
  cases hbuild : Chain.build leaf store pool with
  | error err =>
    obtain ⟨kind, hkind⟩ := Chain.kind?_of_build_eq_error hbuild
    exact ⟨kind, [], hkind, by simp [pathFailures, hkind]⟩
  | ok path =>
    have h : Finds (v.checkWindows t path.tail >>= fun _ => pure path)
        (path.tail.flatMap (v.windowFailures t) ++ []) :=
      (v.finds_checkWindows t path.tail).bind fun _ _ => rfl
    rwa [List.append_nil] at h

lemma finds_check (v : Validator) (leaf : Certificate) (roots : Option RootStore)
    (pool : List Certificate) (t : Instant) (host : Option String) :
    Finds (v.check leaf (v.store roots) pool t host) (v.failures leaf roots pool t host) := by
  unfold check failures
  simp only [List.append_assoc]
  refine (v.finds_checkWindow leaf t).bind fun _ _ => ?_
  refine (finds_checkHost leaf host).bind fun _ _ => ?_
  exact (finds_checkLeaf _ leaf).bind fun _ _ => v.finds_build leaf _ pool t

lemma windowFailures_eq_nil : v.windowFailures t c = [] ↔ v.InWindow c t := by
  simp only [windowFailures, InWindow, List.append_eq_nil_iff, ite_eq_right_iff, List.cons_ne_nil,
    imp_false, Instant.not_lt]
  exact and_comm

lemma hostFailures_eq_nil :
    hostFailures leaf host = [] ↔ ∀ h, host = some h → leaf.covers h = true := by
  cases host <;> simp [hostFailures]

lemma leafFailures_eq_nil :
    leafFailures store leaf = [] ↔ leaf.isSelfSigned = false ∨ store.isTrusted leaf = true := by
  simp only [leafFailures, ite_eq_right_iff, List.cons_ne_nil, imp_false]
  cases leaf.isSelfSigned <;> simp

lemma eq_ok_of_bind {α β : Type} {x : Except ChainError α} {f : α → Except ChainError β} {b : β}
    (h : (x >>= f) = .ok b) : ∃ a, x = .ok a ∧ f a = .ok b := by
  cases x with
  | ok a => exact ⟨a, rfl, h⟩
  | error err => cases h

lemma eq_ok_of_toOption {α : Type} {x : Except ChainError α} {a : α} (h : x.toOption = some a) :
    x = .ok a := by
  cases x with
  | ok b => exact congrArg _ (Option.some.inj h)
  | error err => cases h

lemma build_of_check (h : v.check leaf store pool t host = .ok path) :
    Chain.build leaf store pool = .ok path := by
  unfold check at h
  obtain ⟨_, -, h⟩ := eq_ok_of_bind h
  obtain ⟨_, -, h⟩ := eq_ok_of_bind h
  obtain ⟨_, -, h⟩ := eq_ok_of_bind h
  obtain ⟨built, hbuild, h⟩ := eq_ok_of_bind h
  obtain ⟨_, -, h⟩ := eq_ok_of_bind h
  obtain rfl : built = path := Except.ok.inj h
  exact hbuild

lemma failures_eq_nil (hbuild : v.buildChain leaf roots pool = .ok path) :
    v.failures leaf roots pool t host = [] ↔ v.Accepts leaf roots pool t host path := by
  obtain ⟨rest, rfl⟩ := Chain.eq_cons_of_build hbuild
  have hwindows : (∀ c ∈ leaf :: rest, v.InWindow c t) ↔
      v.InWindow leaf t ∧ ∀ c ∈ rest, v.InWindow c t := List.forall_mem_cons
  simp only [failures, hbuild, pathFailures, List.tail_cons, List.append_eq_nil_iff,
    List.flatMap_eq_nil_iff, windowFailures_eq_nil, hostFailures_eq_nil, leafFailures_eq_nil]
  constructor
  · rintro ⟨⟨⟨hleaf, hhost⟩, hanchor⟩, htail⟩
    exact ⟨hbuild, hwindows.2 ⟨hleaf, htail⟩, hhost, hanchor⟩
  · rintro ⟨-, hall, hhost, hanchor⟩
    exact ⟨⟨⟨(hwindows.1 hall).1, hhost⟩, hanchor⟩, (hwindows.1 hall).2⟩

lemma check_eq_ok :
    v.check leaf (v.store roots) pool t host = .ok path ↔ v.Accepts leaf roots pool t host path := by
  have hfinds := v.finds_check leaf roots pool t host
  constructor
  · intro h
    rw [h] at hfinds
    exact (failures_eq_nil (build_of_check h)).1 hfinds
  · intro h
    have hnil : v.failures leaf roots pool t host = [] := (failures_eq_nil h.built).2 h
    cases hcheck : v.check leaf (v.store roots) pool t host with
    | error err =>
      rw [hcheck, hnil] at hfinds
      obtain ⟨_, _, -, hcons⟩ := hfinds
      cases hcons
    | ok path' =>
      have hbuilt : Chain.build leaf (v.store roots) pool = .ok path := h.built
      rw [Except.ok.inj ((build_of_check hcheck).symm.trans hbuilt)]

lemma answer_eq_check (hhost : host ≠ some "") (time : Option Instant) :
    v.answer leaf roots pool time host =
      v.check leaf (v.store roots) pool (time.getD v.now) host := by
  cases host with
  | none => rfl
  | some h =>
    have hne : h.isEmpty = false := by simpa using hhost
    simp [answer, validateForHost, hne]

lemma exists_window (v : Validator) (c : Certificate) (cs : List Certificate) :
    ∃ first last : Instant, ∀ t, (∀ x ∈ c :: cs, v.InWindow x t) ↔ first ≤ t ∧ t ≤ last := by
  induction cs with
  | nil => exact ⟨c.notBefore.minus v.skew, c.notAfter.plus v.skew, fun t => by simp [InWindow]⟩
  | cons d cs ih =>
    obtain ⟨first, last, h⟩ := ih
    obtain ⟨first', hfirst⟩ := Instant.exists_max first (d.notBefore.minus v.skew)
    obtain ⟨last', hlast⟩ := Instant.exists_min last (d.notAfter.plus v.skew)
    refine ⟨first', last', fun t => ?_⟩
    have hsplit : (∀ x ∈ c :: d :: cs, v.InWindow x t) ↔
        (∀ x ∈ c :: cs, v.InWindow x t) ∧ v.InWindow d t := by
      simp only [List.forall_mem_cons]
      exact and_assoc.symm.trans and_right_comm
    rw [hsplit, h t, ← hfirst t, ← hlast t]
    exact and_and_and_comm

lemma InWindow.of_skew_le {skew : Duration} (hskew : v.skew ≤ skew) (h : v.InWindow c t) :
    { v with skew }.InWindow c t :=
  ⟨Instant.le_trans (c.notBefore.minus_le_minus hskew) h.1,
    Instant.le_trans h.2 (c.notAfter.plus_le_plus hskew)⟩

lemma Accepts.of_skew_le {skew : Duration} (hskew : v.skew ≤ skew)
    (h : v.Accepts leaf roots pool t host path) :
    { v with skew }.Accepts leaf roots pool t host path :=
  ⟨h.built, fun c hc => (h.inWindow c hc).of_skew_le hskew, h.covers, h.anchored⟩

lemma accepted_times (v : Validator) (leaf : Certificate) (roots : Option RootStore)
    (pool : List Certificate) (host : Option String) :
    (∀ t path, ¬ v.Accepts leaf roots pool t host path) ∨
      ∃ first last : Instant, first ≤ last ∧
        ∀ t, (∃ path, v.Accepts leaf roots pool t host path) ↔ first ≤ t ∧ t ≤ last := by
  by_cases hsome : ∃ t path, v.Accepts leaf roots pool t host path
  · obtain ⟨t₀, path, h₀⟩ := hsome
    obtain ⟨rest, rfl⟩ := Chain.eq_cons_of_build h₀.built
    obtain ⟨first, last, hwindow⟩ := v.exists_window leaf rest
    have hbounds := (hwindow t₀).1 h₀.inWindow
    refine .inr ⟨first, last, Instant.le_trans hbounds.1 hbounds.2, fun t => ?_⟩
    constructor
    · rintro ⟨path', h⟩
      obtain rfl : path' = leaf :: rest := Except.ok.inj (h.built.symm.trans h₀.built)
      exact (hwindow t).1 h.inWindow
    · intro ht
      exact ⟨_, h₀.built, (hwindow t).2 ht, h₀.covers, h₀.anchored⟩
  · exact .inl fun t path h => hsome ⟨t, path, h⟩

/-- Validation succeeds exactly on what is acceptable, with the path that is built. The times at which
it does are none or form one closed interval, which a greater tolerance of the clock only widens. A
failure is of the kind of the first check that fails. -/
theorem validation_is_exact (v : Validator) (leaf : Certificate) (roots : Option RootStore)
    (pool : List Certificate) (hhost : host ≠ some "") :
    (∀ time path, v.answer leaf roots pool time host = .ok path ↔
      v.Accepts leaf roots pool (time.getD v.now) host path) ∧
    ((∀ t path, v.answer leaf roots pool (some t) host ≠ .ok path) ∨
      ∃ first last : Instant, first ≤ last ∧ ∀ t,
        (∃ path, v.answer leaf roots pool (some t) host = .ok path) ↔ first ≤ t ∧ t ≤ last) ∧
    (∀ (skew : Duration) time path, v.skew ≤ skew → v.answer leaf roots pool time host = .ok path →
      { v with skew }.answer leaf roots pool time host = .ok path) ∧
    (∀ time err, v.answer leaf roots pool time host = .error err → ∃ kind rest,
      err.kind? = some kind ∧ v.failures leaf roots pool (time.getD v.now) host = kind :: rest) ∧
    v.validateChain (leaf :: pool) roots host = v.answer leaf roots pool none host := by
  have hexact : ∀ (v : Validator) time path, v.answer leaf roots pool time host = .ok path ↔
      v.Accepts leaf roots pool (time.getD v.now) host path := by
    intro v time path
    rw [answer_eq_check hhost, check_eq_ok]
  refine ⟨hexact v, ?_, ?_, ?_, ?_⟩
  · rcases v.accepted_times leaf roots pool host with hnone | ⟨first, last, hle, hall⟩
    · exact .inl fun t path h => hnone t path ((hexact v _ _).1 h)
    · refine .inr ⟨first, last, hle, fun t => ?_⟩
      simp only [hexact v, Option.getD_some]
      exact hall t
  · intro skew time path hskew h
    exact (hexact _ time path).2 (((hexact v time path).1 h).of_skew_le hskew)
  · intro time err h
    have hfinds := v.finds_check leaf roots pool (time.getD v.now) host
    rw [← answer_eq_check hhost, h] at hfinds
    exact hfinds
  · rw [answer_eq_check hhost]
    have hcheck : hostToCheck host = host := by
      cases host with
      | none => rfl
      | some h =>
        have hne : h ≠ "" := by simpa using hhost
        simp [hostToCheck, hne]
    simp only [validateChain, hcheck, Option.getD_none]

def exampleRoot : Certificate where
  subject := "CN=Root"
  issuer := "CN=Root"
  notBefore := .atSecond 0
  notAfter := .atSecond 1000
  isCA := true

def exampleLeaf : Certificate where
  subject := "CN=registry.local"
  issuer := "CN=Root"
  dnsNames := ["*.local"]
  notBefore := .atSecond 100
  notAfter := .atSecond 200

theorem leaf_expires_after_tolerance :
    let v : Validator := { now := { second := 0 } }
    let roots := some (RootStore.mk [exampleRoot])
    some "registry.local" ≠ some "" ∧
      v.Accepts exampleLeaf roots [] { second := 500 } (some "registry.local")
        [exampleLeaf, exampleRoot] ∧
      ∃ rest, v.failures exampleLeaf roots [] { second := 500, nano := 1 } (some "registry.local") =
        .expired :: rest := by
  intro v roots
  have hhost : some "registry.local" ≠ some "" := by decide
  obtain ⟨hexact, -, -, hfirst, -⟩ := v.validation_is_exact exampleLeaf roots [] hhost
  have hok : v.answer exampleLeaf roots [] (some { second := 500 }) (some "registry.local") =
      .ok [exampleLeaf, exampleRoot] := eq_ok_of_toOption (by decide +kernel)
  have hlate : (v.answer exampleLeaf roots [] (some { second := 500, nano := 1 })
      (some "registry.local")).toOption = none := by decide +kernel
  have hhead : (v.failures exampleLeaf roots [] { second := 500, nano := 1 }
      (some "registry.local")).head? = some .expired := by decide +kernel
  refine ⟨hhost, (hexact _ _).1 hok, ?_⟩
  cases herr : v.answer exampleLeaf roots [] (some { second := 500, nano := 1 })
      (some "registry.local") with
  | ok path => simp [herr, Except.toOption] at hlate
  | error err =>
    obtain ⟨kind, rest, -, hfailures⟩ := hfirst _ _ herr
    rw [Option.getD_some] at hfailures
    obtain rfl : kind = .expired := by simpa [hfailures] using hhead
    exact ⟨rest, hfailures⟩

end Validator

end TlsTrust
