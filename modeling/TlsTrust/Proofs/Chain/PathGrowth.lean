import TlsTrust.Proofs.Chain.BuiltPath

/-!
A path that is built stays when more certificates are given: more in the pool change nothing, and
more roots only let it end earlier.
-/

namespace TlsTrust

namespace Chain

variable {store : RootStore} {pool path before : List Certificate} {current next c root : Certificate}

lemma next?_append (h : next? pool path current = some next) (more : List Certificate) :
    next? (pool ++ more) path current = some next := by
  unfold next? at h ⊢
  rw [List.find?_append, h, Option.some_or]

lemma isTrusted_append (h : store.isTrusted c = true) (more : List Certificate) :
    RootStore.isTrusted ⟨store.roots ++ more⟩ c = true := by
  unfold RootStore.isTrusted at h ⊢
  rw [List.any_append, h, Bool.true_or]

lemma findIssuer?_append (h : store.findIssuer? c = some root) (more : List Certificate) :
    RootStore.findIssuer? ⟨store.roots ++ more⟩ c = some root := by
  unfold RootStore.findIssuer? at h ⊢
  rw [List.find?_append, h, Option.some_or]

lemma Search.append_pool (h : Search store pool before current (.ok path)) (more : List Certificate) :
    Search store (pool ++ more) before current (.ok path) := by
  induction h using Search.found_induction with
  | trusted before current htrusted => exact .trusted htrusted
  | root before current root hroot => exact .root hroot
  | next before current next path hgo hnext _ ih => exact .next hgo (next?_append hnext more) ih

lemma Search.path_begins (h : Search store pool before current (.ok path)) :
    before ++ [current] <+: path := by
  induction h using Search.found_induction with
  | trusted before current _ => exact List.prefix_rfl
  | root before current root _ =>
    rw [List.append_cons before current [root]]
    exact List.prefix_append _ _
  | next before current next path _ _ _ ih => exact (List.prefix_append _ _).trans ih

lemma exists_search_of_anchored (h : Anchored store current) (pool before : List Certificate) :
    ∃ path, Search store pool before current (.ok path) ∧ path.length ≤ before.length + 2 ∧
      path.dropLast <+: before ++ [current] := by
  rcases h with htrusted | ⟨root, hroot⟩
  · refine ⟨before ++ [current], .trusted htrusted, by simp, List.dropLast_prefix _⟩
  · have hdrop : (before ++ [current, root]).dropLast = before ++ [current] := by
      rw [List.append_cons, List.dropLast_concat]
    exact ⟨before ++ [current, root], .root hroot, by simp, hdrop ▸ List.prefix_rfl⟩

lemma Search.append_roots (h : Search store pool before current (.ok path))
    (more : List Certificate) :
    ∃ path', Search ⟨store.roots ++ more⟩ pool before current (.ok path') ∧
      path'.length ≤ path.length ∧ path'.dropLast <+: path := by
  induction h using Search.found_induction with
  | trusted before current htrusted =>
    exact ⟨_, .trusted (isTrusted_append htrusted more), Nat.le_refl _, List.dropLast_prefix _⟩
  | root before current root hroot =>
    cases htrusted : RootStore.isTrusted ⟨store.roots ++ more⟩ current with
    | true =>
      refine ⟨before ++ [current], .trusted htrusted, by simp, ?_⟩
      rw [List.dropLast_concat]
      exact List.prefix_append _ _
    | false =>
      have hsame : FirstRoot ⟨store.roots ++ more⟩ current root :=
        ⟨htrusted, findIssuer?_append hroot.2 more⟩
      exact ⟨_, .root hsame, Nat.le_refl _, List.dropLast_prefix _⟩
  | next before current next path hgo hnext hrest ih =>
    by_cases hanchor : Anchored ⟨store.roots ++ more⟩ current
    · -- the longer search has come further than this
      have hprefix := hrest.path_begins
      have hlength := hprefix.length_le
      rw [List.length_append, List.length_append, List.length_singleton, List.length_singleton]
        at hlength
      obtain ⟨path', hsearch, hshort, hfront⟩ := exists_search_of_anchored hanchor pool before
      exact ⟨path', hsearch, hshort.trans hlength,
        hfront.trans ((List.prefix_append _ _).trans hprefix)⟩
    · obtain ⟨path', hsearch, hshort, hfront⟩ := ih
      exact ⟨path', .next ⟨hanchor, hgo.signed, hgo.short⟩ hnext hsearch, hshort, hfront⟩

end Chain

namespace Validator

lemma store_extraRoots (v : Validator) (more : List Certificate) :
    { v with extraRoots := v.extraRoots ++ more }.store none = ⟨(v.store none).roots ++ more⟩ := by
  simp [store]

/-- More certificates in the pool, behind those that are there, leave a path as it is. With more roots
behind the others there is still one, which has left the old one at its last certificate at most and
is no longer. -/
theorem built_path_stays (v : Validator) (leaf : Certificate) (roots : Option RootStore)
    (pool : List Certificate) {path : List Certificate}
    (h : v.buildChain leaf roots pool = .ok path) (moreRoots morePool : List Certificate) :
    v.buildChain leaf roots (pool ++ morePool) = .ok path ∧
    ∃ path', v.buildChain leaf (some ⟨(v.store roots).roots ++ moreRoots⟩) (pool ++ morePool) =
        .ok path' ∧
      (roots = none → { v with extraRoots := v.extraRoots ++ moreRoots }.buildChain leaf none
        (pool ++ morePool) = .ok path') ∧
      path'.length ≤ path.length ∧ path'.dropLast <+: path := by
  have hsearch : Chain.Search (v.store roots) pool [] leaf (.ok path) := Chain.search_build.2 h
  have hpool := hsearch.append_pool morePool
  obtain ⟨path', hroots, hlength, hfront⟩ := hpool.append_roots moreRoots
  have hbuild := Chain.search_build.1 hroots
  refine ⟨Chain.search_build.1 hpool, path', hbuild, ?_, hlength, hfront⟩
  rintro rfl
  rw [buildChain, store_extraRoots]
  exact hbuild

theorem new_root_shortens_path :
    let v : Validator := { now := .atSecond 500, platformRoots := ⟨[exampleRoot]⟩ }
    let good := crossSigned "CN=Root" 1000
    let authority := crossSigned "CN=CA" 1000
    v.buildChain deepLeaf none [good] = .ok [deepLeaf, good, exampleRoot] ∧
      v.buildChain deepLeaf none [good, authority] = .ok [deepLeaf, good, exampleRoot] ∧
      { v with extraRoots := [authority] }.buildChain deepLeaf none [good, authority] =
        .ok [deepLeaf, authority] := by
  intro v good authority
  have hbuild : v.buildChain deepLeaf none [good] = .ok [deepLeaf, good, exampleRoot] := by rfl
  obtain ⟨hpool, path', hroots, hdefault, -, -⟩ :=
    v.built_path_stays deepLeaf none [good] hbuild [authority] [authority]
  have hpath : v.buildChain deepLeaf (some ⟨[exampleRoot, authority]⟩) [good, authority] =
      .ok [deepLeaf, authority] := by rfl
  obtain rfl := Except.ok.inj (hroots.symm.trans hpath)
  exact ⟨hbuild, hpool, hdefault rfl⟩

end Validator

end TlsTrust
