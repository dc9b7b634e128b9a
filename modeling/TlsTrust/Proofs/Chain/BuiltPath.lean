import TlsTrust.Proofs.Chain.PathSearch
import Mathlib.Data.List.Nodup

/-! What a path consists of when one is built, and how the search for it ends. -/

namespace TlsTrust

namespace Chain

structure GoesOn (store : RootStore) (before : List Certificate) (current : Certificate) : Prop where
  unanchored : ¬ Anchored store current
  signed : current.isSelfSigned = false
  short : (before ++ [current]).length < maxDepth

/-- The search as a loop that nothing but its own exits ends, from a path that ends with `current`. -/
inductive Search (store : RootStore) (pool : List Certificate) :
    List Certificate → Certificate → Except ChainError (List Certificate) → Prop
  | trusted {before current} : store.isTrusted current = true →
      Search store pool before current (.ok (before ++ [current]))
  | root {before current root} : FirstRoot store current root →
      Search store pool before current (.ok (before ++ [current, root]))
  | untrustedRoot {before current} : ¬ Anchored store current → current.isSelfSigned = true →
      Search store pool before current (.error (.untrustedRoot current.subject))
  | tooDeep {before current} : ¬ Anchored store current → current.isSelfSigned = false →
      maxDepth ≤ (before ++ [current]).length → Search store pool before current (.error .tooDeep)
  | untrustedIssuer {before current} : GoesOn store before current →
      next? pool (before ++ [current]) current = none → before = [] →
      Search store pool before current (.error (.untrustedIssuer current.issuer current.subject))
  | missingIssuer {before current} : GoesOn store before current →
      next? pool (before ++ [current]) current = none → before ≠ [] →
      Search store pool before current (.error (.missingIssuer current.issuer))
  | next {before current next result} : GoesOn store before current →
      next? pool (before ++ [current]) current = some next →
      Search store pool (before ++ [current]) next result → Search store pool before current result

variable {store : RootStore} {pool path before : List Certificate}
  {leaf current next root c : Certificate} {err : ChainError}
  {result : Except ChainError (List Certificate)} {room : Nat}

lemma extend_of_trusted (h : store.isTrusted current = true) :
    extend store pool room before current = .ok (before ++ [current]) := by
  unfold extend
  simp [h]

lemma extend_of_firstRoot (h : FirstRoot store current root) :
    extend store pool room before current = .ok (before ++ [current, root]) := by
  obtain ⟨htrusted, hroot⟩ := h
  unfold extend
  simp [htrusted, hroot]

lemma extend_of_selfSigned (hanchor : ¬ Anchored store current) (h : current.isSelfSigned = true) :
    extend store pool room before current = .error (.untrustedRoot current.subject) := by
  obtain ⟨htrusted, hroot⟩ := not_anchored_iff.1 hanchor
  unfold extend
  simp [htrusted, hroot, h]

lemma extend_zero (hanchor : ¬ Anchored store current) (hsigned : current.isSelfSigned = false) :
    extend store pool 0 before current = .error .tooDeep := by
  obtain ⟨htrusted, hroot⟩ := not_anchored_iff.1 hanchor
  unfold extend
  simp [htrusted, hroot, hsigned]

lemma extend_of_lost (hanchor : ¬ Anchored store current) (hsigned : current.isSelfSigned = false)
    (hnext : next? pool (before ++ [current]) current = none) :
    extend store pool (room + 1) before current = .error (if before.isEmpty then
      .untrustedIssuer current.issuer current.subject else .missingIssuer current.issuer) := by
  obtain ⟨htrusted, hroot⟩ := not_anchored_iff.1 hanchor
  unfold extend
  simp only [htrusted, hroot, hsigned, hnext, Bool.false_eq_true, if_false]
  split <;> rfl

lemma search_of_stop (h : Anchored store current ∨ current.isSelfSigned = true) :
    Search store pool before current (extend store pool room before current) := by
  by_cases hanchor : Anchored store current
  · rcases hanchor with htrusted | ⟨root, hroot⟩
    · rw [extend_of_trusted htrusted]
      exact .trusted htrusted
    · rw [extend_of_firstRoot hroot]
      exact .root hroot
  · have hself := h.resolve_left hanchor
    rw [extend_of_selfSigned hanchor hself]
    exact .untrustedRoot hanchor hself

lemma search_extend (hroom : before.length + 1 + room = maxDepth) :
    Search store pool before current (extend store pool room before current) := by
  have hlength : (before ++ [current]).length = before.length + 1 := List.length_append
  induction room generalizing before current with
  | zero =>
    by_cases hstop : Anchored store current ∨ current.isSelfSigned = true
    · exact search_of_stop hstop
    · obtain ⟨hanchor, hsigned⟩ := not_or.1 hstop
      rw [Bool.not_eq_true] at hsigned
      rw [extend_zero hanchor hsigned]
      exact .tooDeep hanchor hsigned (by omega)
  | succ room ih =>
    by_cases hstop : Anchored store current ∨ current.isSelfSigned = true
    · exact search_of_stop hstop
    · obtain ⟨hanchor, hsigned⟩ := not_or.1 hstop
      rw [Bool.not_eq_true] at hsigned
      have hgo : GoesOn store before current := ⟨hanchor, hsigned, by omega⟩
      cases hnext : next? pool (before ++ [current]) current with
      | none =>
        rw [extend_of_lost hanchor hsigned hnext]
        cases before with
        | nil => exact .untrustedIssuer hgo hnext rfl
        | cons c cs => exact .missingIssuer hgo hnext nofun
      | some next =>
        rw [extend_of_next hanchor hsigned hnext]
        exact .next hgo hnext (ih (by omega) List.length_append)

lemma GoesOn.exists_room (h : GoesOn store before current)
    (hroom : before.length + 1 + room = maxDepth) :
    ∃ left, room = left + 1 ∧ (before ++ [current]).length + 1 + left = maxDepth := by
  have hshort := h.short
  rw [List.length_append, List.length_singleton] at hshort ⊢
  exact ⟨room - 1, by omega, by omega⟩

lemma search_iff (hroom : before.length + 1 + room = maxDepth) :
    Search store pool before current result ↔ extend store pool room before current = result := by
  refine ⟨fun h => ?_, fun h => h ▸ search_extend hroom⟩
  induction h generalizing room with
  | trusted htrusted => exact extend_of_trusted htrusted
  | root hroot => exact extend_of_firstRoot hroot
  | untrustedRoot hanchor hself => exact extend_of_selfSigned hanchor hself
  | tooDeep hanchor hsigned hdepth =>
    rw [List.length_append, List.length_singleton] at hdepth
    obtain rfl : room = 0 := by omega
    exact extend_zero hanchor hsigned
  | untrustedIssuer hgo hnext hbefore =>
    obtain ⟨left, rfl, -⟩ := hgo.exists_room hroom
    rw [extend_of_lost hgo.unanchored hgo.signed hnext, hbefore]
    rfl
  | missingIssuer hgo hnext hbefore =>
    obtain ⟨left, rfl, -⟩ := hgo.exists_room hroom
    rw [extend_of_lost hgo.unanchored hgo.signed hnext, List.isEmpty_eq_false_iff.2 hbefore]
    rfl
  | next hgo hnext _ ih =>
    obtain ⟨left, rfl, hleft⟩ := hgo.exists_room hroom
    rw [extend_of_next hgo.unanchored hgo.signed hnext]
    exact ih hleft

lemma search_build : Search store pool [] leaf result ↔ build leaf store pool = result :=
  search_iff rfl

@[elab_as_elim]
lemma Search.found_induction {before : List Certificate} {current : Certificate}
    {path : List Certificate}
    {motive : ∀ before current path, Search store pool before current (.ok path) → Prop}
    (h : Search store pool before current (.ok path))
    (trusted : ∀ before current (htrusted : store.isTrusted current = true),
      motive before current (before ++ [current]) (.trusted htrusted))
    (root : ∀ before current root (hroot : FirstRoot store current root),
      motive before current (before ++ [current, root]) (.root hroot))
    (next : ∀ before current next path (hgo : GoesOn store before current)
      (hnext : next? pool (before ++ [current]) current = some next)
      (hrest : Search store pool (before ++ [current]) next (.ok path)),
      motive (before ++ [current]) next path hrest →
        motive before current path (.next hgo hnext hrest)) :
    motive before current path h := by
  have hfound : ∀ before current result (h : Search store pool before current result) path
      (hresult : result = .ok path), motive before current path (hresult ▸ h) := by
    intro before current result h
    induction h with
    | trusted htrusted =>
      rintro path ⟨⟩
      exact trusted _ _ htrusted
    | root hroot =>
      rintro path ⟨⟩
      exact root _ _ _ hroot
    | next hgo hnext hrest ih =>
      rintro path rfl
      exact next _ _ _ _ hgo hnext hrest (ih path rfl)
    | _ => nofun
  exact hfound before current _ h path rfl

/-- A path from a leaf to a trusted certificate. A root that is put behind its last certificate does
not count for its length. -/
structure IsPath (leaf : Certificate) (store : RootStore) (pool path : List Certificate) : Prop where
  starts : path.head? = some leaf
  linked : path.IsChain fun c d => c.issuer = d.subject
  given : ∀ c ∈ path.tail.dropLast, c ∈ pool
  trusted : ∀ c, path.getLast? = some c → store.isTrusted c = true
  untrusted : ∀ c ∈ path.dropLast, store.isTrusted c = false
  unissued : ∀ c ∈ path.dropLast.dropLast, ∀ root ∈ store.roots, root.subject ≠ c.issuer
  distinct : path.Nodup
  short : ∃ front, front.length ≤ maxDepth ∧ (path = front ∨
    ∃ c root, front.getLast? = some c ∧ FirstRoot store c root ∧ path = front ++ [root])

structure Underway (leaf : Certificate) (store : RootStore) (pool : List Certificate)
    (before : List Certificate) (current : Certificate) : Prop where
  starts : (before ++ [current]).head? = some leaf
  linked : (before ++ [current]).IsChain fun c d => c.issuer = d.subject
  given : ∀ c ∈ (before ++ [current]).tail, c ∈ pool
  passed : ∀ c ∈ before, ¬ Anchored store c
  distinct : (before ++ [current]).Nodup
  short : (before ++ [current]).length ≤ maxDepth

lemma next?_eq_some (h : next? pool path current = some next) :
    next ∈ pool ∧ current.issuer = next.subject ∧ next ∉ path := by
  have hfound := List.find?_some h
  rw [Bool.and_eq_true, beq_iff_eq] at hfound
  exact ⟨List.mem_of_find?_eq_some h, hfound.1.symm, by simpa using hfound.2⟩

lemma FirstRoot.issues (h : FirstRoot store c root) : root ∈ store.roots ∧ c.issuer = root.subject :=
  ⟨List.mem_of_find?_eq_some h.2, (beq_iff_eq.1 (List.find?_some h.2 :)).symm⟩

lemma isTrusted_of_mem (h : root ∈ store.roots) : store.isTrusted root = true :=
  List.any_eq_true.2 ⟨root, h, by simp⟩

lemma linked_concat (h : (before ++ [current]).IsChain fun c d => c.issuer = d.subject)
    (hnext : current.issuer = next.subject) :
    (before ++ [current] ++ [next]).IsChain fun c d => c.issuer = d.subject := by
  apply h.append (List.isChain_singleton next)
  rintro c hc d hd
  rw [List.getLast?_concat, Option.mem_some_iff] at hc
  rw [List.head?_cons, Option.mem_some_iff] at hd
  rwa [← hc, ← hd]

lemma distinct_concat (h : path.Nodup) (hnext : next ∉ path) : (path ++ [next]).Nodup := by
  rw [List.nodup_append_comm]
  exact List.nodup_cons.2 ⟨hnext, h⟩

namespace Underway

lemma start (leaf : Certificate) (store : RootStore) (pool : List Certificate) :
    Underway leaf store pool [] leaf := by
  refine ⟨rfl, List.isChain_singleton leaf, nofun, nofun, List.nodup_cons.2 ⟨nofun, .nil⟩, ?_⟩
  exact Nat.le_of_ble_eq_true rfl

lemma step (h : Underway leaf store pool before current) (hgo : GoesOn store before current)
    (hnext : next? pool (before ++ [current]) current = some next) :
    Underway leaf store pool (before ++ [current]) next := by
  obtain ⟨hmem, hissuer, hfresh⟩ := next?_eq_some hnext
  refine ⟨?_, linked_concat h.linked hissuer, ?_, ?_, distinct_concat h.distinct hfresh, ?_⟩
  · rw [List.head?_append, h.starts]
    rfl
  · intro c hc
    rw [List.tail_append_of_ne_nil (by simp), List.mem_append, List.mem_singleton] at hc
    rcases hc with hc | rfl
    · exact h.given c hc
    · exact hmem
  · intro c hc
    rcases List.mem_append.1 hc with hc | hc
    · exact h.passed c hc
    · rw [List.mem_singleton.1 hc]
      exact hgo.unanchored
  · rw [List.length_append]
    exact hgo.short

lemma untrusted (h : Underway leaf store pool before current) :
    ∀ c ∈ before, store.isTrusted c = false :=
  fun c hc => (not_anchored_iff.1 (h.passed c hc)).1

lemma unissued (h : Underway leaf store pool before current) :
    ∀ c ∈ before, ∀ root ∈ store.roots, root.subject ≠ c.issuer :=
  fun c hc root hroot he => h.passed c hc (anchored_iff.2 (.inr ⟨root, hroot, he⟩))

lemma isPath_of_trusted (h : Underway leaf store pool before current)
    (htrusted : store.isTrusted current = true) :
    IsPath leaf store pool (before ++ [current]) := by
  refine ⟨h.starts, h.linked, ?_, ?_, ?_, ?_, h.distinct, ⟨_, h.short, .inl rfl⟩⟩
  · exact fun c hc => h.given c (List.dropLast_subset _ hc)
  · intro c hc
    rw [List.getLast?_concat, Option.some.injEq] at hc
    exact hc ▸ htrusted
  · rw [List.dropLast_concat]
    exact h.untrusted
  · rw [List.dropLast_concat]
    exact fun c hc => h.unissued c (List.dropLast_subset _ hc)

lemma isPath_of_root (h : Underway leaf store pool before current)
    (hroot : FirstRoot store current root) :
    IsPath leaf store pool (before ++ [current] ++ [root]) := by
  obtain ⟨hmem, hissuer⟩ := hroot.issues
  have hpassed : ∀ c ∈ before ++ [current], store.isTrusted c = false := by
    intro c hc
    rcases List.mem_append.1 hc with hc | hc
    · exact h.untrusted c hc
    · rw [List.mem_singleton.1 hc]
      exact hroot.1
  -- the root is trusted and nothing before it is, so it is new
  have hfresh : root ∉ before ++ [current] := fun hc =>
    absurd (isTrusted_of_mem hmem) (by simp [hpassed root hc])
  refine ⟨?_, linked_concat h.linked hissuer, ?_, ?_, ?_, ?_, distinct_concat h.distinct hfresh, ?_⟩
  · rw [List.head?_append, h.starts]
    rfl
  · rw [List.tail_append_of_ne_nil (by simp), List.dropLast_concat]
    exact h.given
  · intro c hc
    rw [List.getLast?_concat, Option.some.injEq] at hc
    exact hc ▸ isTrusted_of_mem hmem
  · rw [List.dropLast_concat]
    exact hpassed
  · rw [List.dropLast_concat, List.dropLast_concat]
    exact h.unissued
  · exact ⟨_, h.short, .inr ⟨current, root, List.getLast?_concat, hroot, rfl⟩⟩

end Underway

lemma Search.isPath (h : Search store pool before current (.ok path))
    (hpath : Underway leaf store pool before current) : IsPath leaf store pool path := by
  induction h using Search.found_induction with
  | trusted before current htrusted => exact hpath.isPath_of_trusted htrusted
  | root before current root hroot =>
    rw [List.append_cons]
    exact hpath.isPath_of_root hroot
  | next before current next path hgo hnext _ ih => exact ih (hpath.step hgo hnext)

lemma Search.kind? (h : Search store pool before current (.error err)) :
    err.kind? = some .untrustedCA ∨ err.kind? = some .chainIncomplete := by
  generalize hresult : Except.error err = result at h
  induction h with
  | trusted _ => cases hresult
  | root _ => cases hresult
  | untrustedRoot _ _ =>
    rw [Except.error.inj hresult]
    exact .inl rfl
  | tooDeep _ _ _ =>
    rw [Except.error.inj hresult]
    exact .inr rfl
  | untrustedIssuer _ _ _ =>
    rw [Except.error.inj hresult]
    exact .inl rfl
  | missingIssuer _ _ _ =>
    rw [Except.error.inj hresult]
    exact .inr rfl
  | next _ _ _ ih => exact ih hresult

end Chain

namespace Validator

/-- Building ends, however the certificates name each other, in a path that leads to a trusted
certificate or in a failure of one of two kinds. -/
theorem building_ends_in_path_or_failure (v : Validator) (leaf : Certificate)
    (roots : Option RootStore) (pool : List Certificate) :
    (∀ result, Chain.Search (v.store roots) pool [] leaf result ↔
      v.buildChain leaf roots pool = result) ∧
    ((∃ path, v.buildChain leaf roots pool = .ok path ∧
        Chain.IsPath leaf (v.store roots) pool path) ∨
      ∃ err, v.buildChain leaf roots pool = .error err ∧
        (err.kind? = some .untrustedCA ∨ err.kind? = some .chainIncomplete)) := by
  have hsearch : ∀ result, Chain.Search (v.store roots) pool [] leaf result ↔
      v.buildChain leaf roots pool = result := fun _ => Chain.search_build
  refine ⟨hsearch, ?_⟩
  cases hbuild : v.buildChain leaf roots pool with
  | ok path =>
    have hpath := ((hsearch _).2 hbuild).isPath (.start leaf (v.store roots) pool)
    exact .inl ⟨path, rfl, hpath⟩
  | error err => exact .inr ⟨err, rfl, ((hsearch _).2 hbuild).kind?⟩

example : Chain.build deepLeaf ⟨[exampleRoot]⟩
    [crossSigned "CN=registry.local" 1000, { exampleLeaf with issuer := "CN=CA" }] =
      .error (.missingIssuer "CN=CA") := by
  rfl

end Validator

end TlsTrust
