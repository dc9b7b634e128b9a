import TlsTrust.Proofs.Chain.Validation
import Mathlib.Data.List.Chain

/-! The search finds the paths that its first choices follow, and tries no second one. -/

namespace TlsTrust

namespace Chain

variable {store : RootStore} {pool pool' path before after links : List Certificate}
  {current next root r : Certificate} {room : Nat}

/-- The root with which a path ends after `c`, where `c` is not trusted itself: the first in the store
with the name of its issuer. -/
def FirstRoot (store : RootStore) (c root : Certificate) : Prop :=
  store.isTrusted c = false ∧ store.findIssuer? c = some root

/-- Whether a path may end at a certificate, or at a root right after it. -/
def Anchored (store : RootStore) (c : Certificate) : Prop :=
  store.isTrusted c = true ∨ ∃ root, FirstRoot store c root

lemma anchored_iff {c : Certificate} : Anchored store c ↔
    store.isTrusted c = true ∨ ∃ root ∈ store.roots, root.subject = c.issuer := by
  have hfind : store.findIssuer? c ≠ none ↔ ∃ root ∈ store.roots, root.subject = c.issuer := by
    simp [RootStore.findIssuer?]
  rw [← hfind, Option.ne_none_iff_exists']
  unfold Anchored FirstRoot
  cases store.isTrusted c <;> simp

lemma extend_of_anchored (pool : List Certificate) (room : Nat) (before : List Certificate)
    (h : Anchored store current) :
    ∃ path, extend store pool room before current = .ok path ∧
      ∀ x ∈ path, x ∈ before ∨ x = current ∨ FirstRoot store current x := by
  unfold extend
  rcases h with htrusted | ⟨root, htrusted, hroot⟩
  · refine ⟨before ++ [current], by simp [htrusted], fun x hx => ?_⟩
    exact (List.mem_append.1 hx).imp_right fun h => .inl (List.mem_singleton.1 h)
  · refine ⟨before ++ [current, root], by simp [htrusted, hroot], fun x hx => ?_⟩
    simp only [List.mem_append, List.mem_cons, List.not_mem_nil, or_false] at hx
    rcases hx with hx | rfl | rfl
    · exact .inl hx
    · exact .inr (.inl rfl)
    · exact .inr (.inr ⟨htrusted, hroot⟩)

lemma not_anchored_iff {c : Certificate} : ¬ Anchored store c ↔
    store.isTrusted c = false ∧ store.findIssuer? c = none := by
  unfold Anchored FirstRoot
  cases store.isTrusted c <;> simp [Option.eq_none_iff_forall_ne_some]

lemma extend_of_next (hanchor : ¬ Anchored store current) (hsigned : current.isSelfSigned = false)
    (hnext : next? pool (before ++ [current]) current = some next) :
    extend store pool (room + 1) before current =
      extend store pool room (before ++ [current]) next := by
  obtain ⟨htrusted, hroot⟩ := not_anchored_iff.1 hanchor
  rw [extend]
  simp [htrusted, hroot, hsigned, hnext]

lemma next?_of_extend (hanchor : ¬ Anchored store current)
    (h : extend store pool room before current = .ok path) :
    current.isSelfSigned = false ∧ ∃ left next, room = left + 1 ∧
      next? pool (before ++ [current]) current = some next := by
  obtain ⟨htrusted, hroot⟩ := not_anchored_iff.1 hanchor
  unfold extend at h
  simp only [htrusted, hroot, Bool.false_eq_true, if_false] at h
  split at h
  case isTrue => cases h
  case isFalse hsigned =>
    refine ⟨by simpa using hsigned, ?_⟩
    cases room with
    | zero => cases h
    | succ room =>
      cases hnext : next? pool (before ++ [current]) current with
      | some next => exact ⟨room, next, rfl, rfl⟩
      | none =>
        simp only [hnext] at h
        split at h <;> cases h

lemma mem_of_extend (h : extend store pool room before current = .ok path) :
    (∀ x ∈ before, x ∈ path) ∧ current ∈ path ∧ ∀ x, FirstRoot store current x → x ∈ path := by
  obtain ⟨rest, hrest⟩ | ⟨err, _, herr, -⟩ := extend_result store pool room before current
  · obtain rfl := Except.ok.inj (hrest.symm.trans h)
    refine ⟨fun x hx => List.mem_append_left _ hx, by simp, ?_⟩
    rintro x ⟨htrusted, hroot⟩
    unfold extend at h
    simp only [htrusted, hroot, Bool.false_eq_true, if_false, Except.ok.injEq] at h
    rw [← h]
    simp
  · cases herr.symm.trans h

/-- Every step of a path, after those of `before`, is to the first certificate that it could be to. -/
def TakesFirst (pool before : List Certificate) : List Certificate → Prop
  | c :: d :: after =>
    next? pool (before ++ [c]) c = some d ∧ TakesFirst pool (before ++ [c]) (d :: after)
  | _ => True

lemma extend_of_takesFirst (hroom : links.length ≤ room)
    (hfirst : TakesFirst pool before (current :: links))
    (hsigned : ∀ c ∈ current :: links, c.isSelfSigned = false)
    (hlast : ∀ c, (current :: links).getLast? = some c → Anchored store c) :
    ∃ path, extend store pool room before current = .ok path ∧
      ∀ x ∈ path, x ∈ before ∨ ∃ c ∈ current :: links, x = c ∨ FirstRoot store c x := by
  induction links generalizing before current room with
  | nil =>
    obtain ⟨path, hpath, hmem⟩ := extend_of_anchored pool room before (hlast current rfl)
    exact ⟨path, hpath, fun x hx => (hmem x hx).imp_right fun h => ⟨current, .head _, h⟩⟩
  | cons next links ih =>
    -- The search does not go on where it may end, even if the path does.
    by_cases hanchor : Anchored store current
    · obtain ⟨path, hpath, hmem⟩ := extend_of_anchored pool room before hanchor
      exact ⟨path, hpath, fun x hx => (hmem x hx).imp_right fun h => ⟨current, .head _, h⟩⟩
    · cases room with
      | zero => cases hroom
      | succ room =>
        obtain ⟨hnext, hrest⟩ := hfirst
        rw [extend_of_next hanchor (hsigned current (.head _)) hnext]
        obtain ⟨path, hpath, hmem⟩ := ih (Nat.le_of_succ_le_succ hroom) hrest
          (fun c hc => hsigned c (.tail _ hc)) hlast
        refine ⟨path, hpath, fun x hx => ?_⟩
        rcases hmem x hx with hx | ⟨c, hc, hx⟩
        · rcases List.mem_append.1 hx with hx | hx
          · exact .inl hx
          · exact .inr ⟨current, .head _, .inl (List.mem_singleton.1 hx)⟩
        · exact .inr ⟨c, .tail _ hc, hx⟩

lemma next?_congr (h : ∀ name, pool.filter (·.subject == name) = pool'.filter (·.subject == name))
    (path : List Certificate) (current : Certificate) :
    next? pool' path current = next? pool path current := by
  have hfilter : ∀ pool : List Certificate, next? pool path current =
      (pool.filter (·.subject == current.issuer)).find? fun c => !path.contains c := by
    intro pool
    rw [next?, List.find?_filter]
    congr 1
    funext c
    rw [Bool.eq_iff_iff, Bool.and_eq_true, decide_eq_true_iff]
  rw [hfilter, hfilter, h]

lemma extend_congr (h : ∀ name, pool.filter (·.subject == name) = pool'.filter (·.subject == name))
    (room : Nat) (before : List Certificate) (current : Certificate) :
    extend store pool' room before current = extend store pool room before current := by
  induction room generalizing before current with
  | zero => rw [extend, extend]
  | succ room ih =>
    rw [extend, extend]
    simp only [next?_congr h, ih]

lemma filter_eq_of_perm (hperm : pool.Perm pool')
    (hsubject : ∀ c ∈ pool, ∀ d ∈ pool, c.subject = d.subject → c = d) (name : String) :
    pool.filter (·.subject == name) = pool'.filter (·.subject == name) := by
  have htrue : ∀ l : List Certificate, l.Pairwise fun _ _ => True := fun l =>
    List.pairwise_of_forall fun _ _ => trivial
  apply (hperm.filter _).eq_of_pairwise _ (htrue _) (htrue _)
  intro c d hc hd _ _
  obtain ⟨hc, hname⟩ := List.mem_filter.1 hc
  obtain ⟨hd, hname'⟩ := List.mem_filter.1 hd
  exact hsubject c hc d (hperm.mem_iff.2 hd) ((beq_iff_eq.1 hname).trans (beq_iff_eq.1 hname').symm)

lemma isTrusted_insert (before after : List Certificate) (r c : Certificate) :
    RootStore.isTrusted ⟨before ++ r :: after⟩ c =
      (RootStore.isTrusted ⟨[r]⟩ c || RootStore.isTrusted ⟨before ++ after⟩ c) := by
  simp only [RootStore.isTrusted, List.any_append, List.any_cons, List.any_nil, Bool.or_false]
  exact Bool.or_left_comm _ _ _

lemma findIssuer?_insert {before after : List Certificate} {r root c : Certificate}
    (h : RootStore.findIssuer? ⟨before ++ r :: after⟩ c = some root) :
    root = r ∨ RootStore.findIssuer? ⟨before ++ after⟩ c = some root := by
  simp only [RootStore.findIssuer?, List.find?_append, List.find?_cons] at h ⊢
  cases hbefore : before.find? fun root => root.subject == c.issuer with
  | some x =>
    rw [hbefore] at h
    exact .inr h
  | none =>
    cases hr : r.subject == c.issuer with
    | true =>
      rw [hbefore, hr] at h
      exact .inl (Option.some.inj h).symm
    | false =>
      rw [hbefore, hr] at h
      exact .inr h

lemma FirstRoot.of_insert {c : Certificate} (h : FirstRoot ⟨before ++ r :: after⟩ c root) :
    root = r ∨ FirstRoot ⟨before ++ after⟩ c root := by
  obtain ⟨htrusted, hroot⟩ := h
  rw [isTrusted_insert, Bool.or_eq_false_iff] at htrusted
  exact (findIssuer?_insert hroot).imp_right fun h => ⟨htrusted.2, h⟩

lemma Anchored.insert {c : Certificate} (r : Certificate) (h : Anchored ⟨before ++ after⟩ c) :
    Anchored ⟨before ++ r :: after⟩ c := by
  rw [anchored_iff] at h ⊢
  rcases h with htrusted | ⟨root, hroot, hname⟩
  · exact .inl (by rw [isTrusted_insert, htrusted, Bool.or_true])
  · refine .inr ⟨root, ?_, hname⟩
    exact (List.sublist_cons_self r after).append_left before |>.subset hroot

lemma extend_insert_of_anchored {front : List Certificate}
    (h : extend ⟨before ++ after⟩ pool room front current = .ok path)
    (hanchor : Anchored ⟨before ++ r :: after⟩ current) :
    ∃ path', extend ⟨before ++ r :: after⟩ pool room front current = .ok path' ∧
      ∀ x ∈ path', x ∈ path ∨ ∃ c ∈ path, x = r ∧ FirstRoot ⟨before ++ r :: after⟩ c r := by
  obtain ⟨hfront, hcurrent, hroots⟩ := mem_of_extend h
  obtain ⟨path', hpath', hmem⟩ := extend_of_anchored pool room front hanchor
  refine ⟨path', hpath', fun x hx => ?_⟩
  rcases hmem x hx with hx | rfl | hroot
  · exact .inl (hfront x hx)
  · exact .inl hcurrent
  · rcases hroot.of_insert with rfl | hold
    · exact .inr ⟨current, hcurrent, rfl, hroot⟩
    · exact .inl (hroots x hold)

lemma extend_insert (r : Certificate) {front : List Certificate}
    (h : extend ⟨before ++ after⟩ pool room front current = .ok path) :
    ∃ path', extend ⟨before ++ r :: after⟩ pool room front current = .ok path' ∧
      ∀ x ∈ path', x ∈ path ∨ ∃ c ∈ path, x = r ∧ FirstRoot ⟨before ++ r :: after⟩ c r := by
  induction room generalizing front current with
  | zero =>
    by_cases hanchor : Anchored ⟨before ++ r :: after⟩ current
    · exact extend_insert_of_anchored h hanchor
    · obtain ⟨-, _, _, hroom, -⟩ := next?_of_extend (mt (Anchored.insert r) hanchor) h
      cases hroom
  | succ room ih =>
    by_cases hanchor : Anchored ⟨before ++ r :: after⟩ current
    · exact extend_insert_of_anchored h hanchor
    · -- Where it may not end with the new root it could not without, and both go on alike.
      have hold := mt (Anchored.insert r) hanchor
      obtain ⟨hsigned, left, next, hroom, hnext⟩ := next?_of_extend hold h
      obtain rfl := Nat.succ.inj hroom
      rw [extend_of_next hold hsigned hnext] at h
      rw [extend_of_next hanchor hsigned hnext]
      exact ih h

end Chain

namespace Validator

variable {v : Validator} {leaf : Certificate} {store : RootStore} {pool links : List Certificate}
  {t : Instant}

/-- A path from a leaf over links of a pool to a root, by the names of the issuers, with all of it in
its window. -/
structure Route (v : Validator) (leaf : Certificate) (store : RootStore) (pool : List Certificate)
    (t : Instant) (links : List Certificate) : Prop where
  distinct : (leaf :: links).Nodup
  short : links.length < Chain.maxDepth
  given : ∀ c ∈ links, c ∈ pool
  signed : ∀ c ∈ leaf :: links, c.isSelfSigned = false
  linked : (leaf :: links).IsChain fun c d => c.issuer = d.subject
  inWindow : ∀ c ∈ leaf :: links, v.InWindow c t
  anchored : ∀ c, (leaf :: links).getLast? = some c →
    store.isTrusted c = true ∨ ∃ root ∈ store.roots, root.subject = c.issuer ∧ v.InWindow root t

lemma Route.anchored_last (h : v.Route leaf store pool t links) (c : Certificate)
    (hc : (leaf :: links).getLast? = some c) : Chain.Anchored store c := by
  refine Chain.anchored_iff.2 ((h.anchored c hc).imp_right ?_)
  rintro ⟨root, hroot, hname, -⟩
  exact ⟨root, hroot, hname⟩

lemma validate_eq_ok {path : List Certificate} :
    v.validate leaf (some store) pool (some t) = .ok path ↔
      v.Accepts leaf (some store) pool t none path :=
  check_eq_ok

/-- Validation succeeds where first choices make a path to a root, in whatever order certificates of
different subjects stand in the pool, and still does with one more root, unless a first choice is
outside its window. -/
theorem first_choices_validate (v : Validator) (leaf : Certificate) (store : RootStore)
    (pool : List Certificate) (t : Instant) :
    (∀ links, v.Route leaf store pool t links → Chain.TakesFirst pool [] (leaf :: links) →
      (∀ c ∈ leaf :: links, ∀ root, Chain.FirstRoot store c root → v.InWindow root t) →
      ∃ path, v.validate leaf (some store) pool (some t) = .ok path) ∧
    (∀ pool', (∀ name, pool.filter (·.subject == name) = pool'.filter (·.subject == name)) →
      v.validate leaf (some store) pool' (some t) = v.validate leaf (some store) pool (some t)) ∧
    (∀ pool' : List Certificate, pool.Perm pool' →
      (∀ c ∈ pool, ∀ d ∈ pool, c.subject = d.subject → c = d) →
      v.validate leaf (some store) pool' (some t) = v.validate leaf (some store) pool (some t)) ∧
    (∀ path before after r, v.validate leaf (some store) pool (some t) = .ok path →
      store.roots = before ++ after →
      (∀ c ∈ path, Chain.FirstRoot ⟨before ++ r :: after⟩ c r → v.InWindow r t) →
      ∃ path', v.validate leaf (some ⟨before ++ r :: after⟩) pool (some t) = .ok path') := by
  have hcongr : ∀ pool' : List Certificate,
      (∀ name, pool.filter (·.subject == name) = pool'.filter (·.subject == name)) →
      v.validate leaf (some store) pool' (some t) = v.validate leaf (some store) pool (some t) := by
    intro pool' h
    have hbuild : Chain.build leaf store pool' = Chain.build leaf store pool :=
      Chain.extend_congr h _ _ _
    simp only [validate, check, Validator.store, Option.getD_some, hbuild]
  refine ⟨?_, hcongr, ?_, ?_⟩
  · intro links hroute hfirst hroots
    obtain ⟨path, hpath, hmem⟩ : ∃ path, Chain.build leaf store pool = .ok path ∧
        ∀ x ∈ path, x ∈ [] ∨ ∃ c ∈ leaf :: links, x = c ∨ Chain.FirstRoot store c x :=
      Chain.extend_of_takesFirst (Nat.le_sub_one_of_lt hroute.short) hfirst hroute.signed
        hroute.anchored_last
    refine ⟨path, validate_eq_ok.2 ⟨hpath, fun x hx => ?_, nofun, ?_⟩⟩
    · rcases hmem x hx with hx | ⟨c, hc, rfl | hroot⟩
      · cases hx
      · exact hroute.inWindow x hc
      · exact hroots c hc x hroot
    · exact .inl (hroute.signed leaf (.head _))
  · intro pool' hperm hsubject
    exact hcongr pool' (Chain.filter_eq_of_perm hperm hsubject)
  · intro path before after r hvalid hstore hr
    obtain ⟨roots⟩ := store
    obtain rfl : roots = before ++ after := hstore
    have haccepts := validate_eq_ok.1 hvalid
    obtain ⟨path', hpath', hmem⟩ := Chain.extend_insert r haccepts.built
    refine ⟨path', validate_eq_ok.2 ⟨hpath', fun x hx => ?_, nofun, ?_⟩⟩
    · rcases hmem x hx with hx | ⟨c, hc, rfl, hroot⟩
      · exact haccepts.inWindow x hx
      · exact hr c hc hroot
    · refine haccepts.anchored.imp_right fun htrusted => ?_
      change RootStore.isTrusted ⟨before ++ after⟩ leaf = true at htrusted
      change RootStore.isTrusted ⟨before ++ r :: after⟩ leaf = true
      rw [Chain.isTrusted_insert, htrusted, Bool.or_true]

def crossSigned (issuer : String) (notAfter : Int) : Certificate where
  subject := "CN=CA"
  issuer
  notBefore := .atSecond 0
  notAfter := .atSecond notAfter
  isCA := true

def deepLeaf : Certificate :=
  { exampleLeaf with issuer := "CN=CA", notAfter := .atSecond 1000 }

lemma route_of_mem {pool : List Certificate} (h : crossSigned "CN=Root" 1000 ∈ pool) :
    Route { now := .atSecond 500 } deepLeaf ⟨[exampleRoot]⟩ pool (.atSecond 500)
      [crossSigned "CN=Root" 1000] := by
  refine ⟨?_, ?_, ?_, ?_, ?_, ?_, ?_⟩
  · decide +kernel
  · decide
  · simpa using h
  · decide +kernel
  · simp [deepLeaf, crossSigned]
  · unfold InWindow
    decide +kernel
  · rintro c hc
    obtain rfl := Option.some.inj hc
    refine .inr ⟨exampleRoot, .head _, rfl, ?_⟩
    unfold InWindow
    decide +kernel

theorem crossSigned_leaf_validates :
    let v : Validator := { now := .atSecond 500 }
    let good := crossSigned "CN=Root" 1000
    let t := Instant.atSecond 500
    (v.Route deepLeaf ⟨[exampleRoot]⟩ [good, exampleLeaf] t [good] ∧
      Chain.TakesFirst [good, exampleLeaf] [] [deepLeaf, good]) ∧
    (∃ path, v.validate deepLeaf (some ⟨[exampleRoot]⟩) [exampleLeaf, good] (some t) = .ok path) ∧
    v.validate deepLeaf (some ⟨[exampleRoot]⟩) [exampleLeaf, good] (some t) =
      v.validate deepLeaf (some ⟨[exampleRoot]⟩) [good, exampleLeaf] (some t) ∧
    ∃ path, v.validate deepLeaf (some ⟨[crossSigned "CN=CA" 1000, exampleRoot]⟩) [good, exampleLeaf]
      (some t) = .ok path := by
  intro v good t
  obtain ⟨hroutes, hfilter, hperm, hroots⟩ :=
    v.first_choices_validate deepLeaf ⟨[exampleRoot]⟩ [good, exampleLeaf] t
  have hroute : v.Route deepLeaf ⟨[exampleRoot]⟩ [good, exampleLeaf] t [good] :=
    route_of_mem (.head _)
  have hfirst : Chain.TakesFirst [good, exampleLeaf] [] [deepLeaf, good] := by
    unfold Chain.TakesFirst Chain.TakesFirst
    decide +kernel
  have hwindow : ∀ root : Certificate, (root = exampleRoot ∨ root = crossSigned "CN=CA" 1000) →
      v.InWindow root t := by
    unfold InWindow
    rintro root (rfl | rfl) <;> decide +kernel
  have hsubject : ∀ c ∈ [good, exampleLeaf], ∀ d ∈ [good, exampleLeaf],
      c.subject = d.subject → c = d := by decide +kernel
  have hswap : [good, exampleLeaf].Perm [exampleLeaf, good] := .swap _ _ _
  obtain ⟨path, hpath⟩ := hroutes [good] hroute hfirst fun c _ root hroot =>
    hwindow root (.inl (by simpa using List.mem_of_find?_eq_some hroot.2))
  have hsame := hfilter _ (Chain.filter_eq_of_perm hswap hsubject)
  refine ⟨⟨hroute, hfirst⟩, ⟨path, hsame.trans hpath⟩, hperm _ hswap hsubject, ?_⟩
  exact hroots path [] [exampleRoot] _ hpath rfl fun c _ _ => hwindow _ (.inr rfl)

/-- The search does not leave a dead end again, and the first root of a name hides all others. -/
theorem dead_end_hides_route :
    let v : Validator := { now := .atSecond 500 }
    let good := crossSigned "CN=Root" 1000
    let dead := crossSigned "CN=Gone" 1000
    let t := Instant.atSecond 500
    (v.Route deepLeaf ⟨[exampleRoot]⟩ [dead, good] t [good] ∧
      ∀ path, v.validate deepLeaf (some ⟨[exampleRoot]⟩) [dead, good] (some t) ≠ .ok path) ∧
    v.validate deepLeaf (some ⟨[exampleRoot]⟩) [good, dead] (some t) =
      .ok [deepLeaf, good, exampleRoot] ∧
    ∀ path, v.validate deepLeaf (some ⟨[exampleRoot, crossSigned "CN=CA" 100]⟩) [good, dead]
      (some t) ≠ .ok path := by
  intro v good dead t
  have hfails : ∀ x : Except ChainError (List Certificate), x.toOption = none →
      ∀ path, x ≠ .ok path := by
    rintro x hx path rfl
    cases hx
  exact ⟨⟨route_of_mem (.tail _ (.head _)), hfails _ (by decide +kernel)⟩,
    eq_ok_of_toOption (by decide +kernel), hfails _ (by decide +kernel)⟩

end Validator

end TlsTrust
