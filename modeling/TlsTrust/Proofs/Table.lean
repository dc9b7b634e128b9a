import TlsTrust.Table
import Mathlib.Data.List.Basic
import Mathlib.Data.List.Induction
import Mathlib.Data.List.Nodup
import Mathlib.Tactic.Lemma

namespace TlsTrust

namespace Table

variable {α : Type}

lemma insertEntry_of_forall_lt {k : String} {es : List (String × α)} (h : ∀ e ∈ es, e.1 < k)
    (v : α) : insertEntry k v es = es ++ [(k, v)] := by
  induction es with
  | nil => rfl
  | cons e es ih =>
    have hlt : e.1 < k := h e List.mem_cons_self
    have hne : k ≠ e.1 := fun he => String.lt_irrefl k (he ▸ hlt)
    rw [insertEntry, if_neg (fun hgt => String.lt_irrefl k (String.lt_trans hgt hlt)), if_neg hne,
      ih fun d hd => h d (List.mem_cons_of_mem _ hd)]
    rfl

lemma entries_ofList {es : List (String × α)} (h : es.Pairwise (fun a b => a.1 < b.1)) :
    (ofList es).entries = es := by
  induction es using List.reverseRecOn with
  | nil => rfl
  | append_singleton es e ih =>
    rw [List.pairwise_append] at h
    have hlt : ∀ d ∈ es, d.1 < e.1 := fun d hd => h.2.2 d hd e (by simp)
    have hinit := ih h.1
    simp only [ofList, List.foldl_append, List.foldl_cons, List.foldl_nil, insert] at hinit ⊢
    rw [hinit, insertEntry_of_forall_lt hlt]

theorem ofList_entries (t : Table α) : ofList t.entries = t :=
  ext (entries_ofList t.sorted)

lemma mem_entries {t : Table α} {k : String} {v : α} : (k, v) ∈ t.entries ↔ t.get? k = some v :=
  ⟨get?_of_mem_entries, mem_entries_of_get?⟩

lemma pairwise_keys (t : Table α) : t.keys.Pairwise (· < ·) :=
  List.pairwise_map.2 t.sorted

lemma mem_keys {t : Table α} {k : String} : k ∈ t.keys ↔ ∃ v, t.get? k = some v := by
  simp [keys, ← mem_entries]

lemma nodup_entries (t : Table α) : t.entries.Nodup := by
  apply t.sorted.imp
  rintro e _ hlt rfl
  exact String.lt_irrefl _ hlt

lemma eq_of_get? {s t : Table α} (h : ∀ k v, s.get? k = some v ↔ t.get? k = some v) : s = t := by
  have hmem : ∀ e, e ∈ s.entries ↔ e ∈ t.entries := by
    rintro ⟨k, v⟩
    rw [mem_entries, mem_entries, h]
  have hperm : s.entries.Perm t.entries :=
    (List.perm_ext_iff_of_nodup s.nodup_entries t.nodup_entries).2 hmem
  apply ext
  apply hperm.eq_of_pairwise _ s.sorted t.sorted
  intro a b _ _ hab hba
  exact absurd (String.lt_trans hab hba) (String.lt_irrefl _)

lemma get?_ofList_map (ks : List String) (f : String → α) (k : String) :
    (ofList (ks.map fun k => (k, f k))).get? k = if k ∈ ks then some (f k) else none := by
  induction ks using List.reverseRecOn with
  | nil => rfl
  | append_singleton ks k' ih =>
    simp only [ofList, List.map_append, List.map_cons, List.map_nil, List.foldl_append,
      List.foldl_cons, List.foldl_nil, List.mem_append, List.mem_singleton] at ih ⊢
    by_cases hk : k = k'
    · rw [hk, get?_insert_self, if_pos (.inr rfl)]
    · rw [get?_insert_of_ne _ hk, ih]
      simp only [hk, or_false]

lemma get?_ofList_of_nodup {es : List (String × α)} (h : (es.map (·.1)).Nodup) {k : String} {v : α} :
    (ofList es).get? k = some v ↔ (k, v) ∈ es := by
  induction es using List.reverseRecOn with
  | nil => simp [ofList]
  | append_singleton es e ih =>
    rw [List.map_append, List.nodup_append] at h
    simp only [ofList, List.foldl_append, List.foldl_cons, List.foldl_nil, List.mem_append,
      List.mem_singleton] at ih ⊢
    by_cases hk : k = e.1
    · have hfresh : (k, v) ∉ es := fun hmem =>
        h.2.2 k (List.mem_map_of_mem hmem) e.1 (by simp) hk
      rw [hk, get?_insert_self, ← hk, or_iff_right hfresh, Option.some_inj, Prod.ext_iff,
        and_iff_right hk, eq_comm]
    · have hne : (k, v) ≠ e := fun he => hk (congrArg Prod.fst he)
      rw [get?_insert_of_ne _ hk, ih h.1, or_iff_left hne]

lemma perm_entries_ofList {es : List (String × α)} (h : (es.map (·.1)).Nodup) :
    (ofList es).entries.Perm es := by
  refine (List.perm_ext_iff_of_nodup (ofList es).nodup_entries (List.Nodup.of_map _ h)).2 ?_
  rintro ⟨k, v⟩
  rw [mem_entries, get?_ofList_of_nodup h]

lemma ofList_of_perm {es : List (String × α)} {t : Table α} (h : es.Perm t.entries) :
    ofList es = t := by
  have hnodup : (es.map (·.1)).Nodup :=
    (h.map _).nodup_iff.2 (t.pairwise_keys.imp fun hlt => String.ne_of_lt hlt)
  refine eq_of_get? fun k v => ?_
  rw [get?_ofList_of_nodup hnodup, h.mem_iff, mem_entries]

lemma size_sub_filter (t : Table α) (p : String → α → Bool) :
    t.size - (t.filter fun k v => !p k v).size = (t.filter p).size := by
  rw [size, size, size, filter, filter, t.entries.length_eq_length_filter_add fun e => p e.1 e.2]
  exact Nat.add_sub_cancel ..

end Table

namespace NameSet

lemma contains_add {s : NameSet} {name other : String} :
    (s.add name).contains other = true ↔ other = name ∨ s.contains other = true := by
  rw [Table.contains_eq_isSome_get?, Table.contains_eq_isSome_get?, add]
  by_cases h : other = name
  · rw [h, Table.get?_insert_self]
    simp
  · rw [Table.get?_insert_of_ne _ h]
    simp [h]

lemma contains_foldl_add {α : Type} (f : α → String) (xs : List α) (s : NameSet) {name : String} :
    (xs.foldl (fun s x => s.add (f x)) s).contains name = true ↔
      (∃ x ∈ xs, f x = name) ∨ s.contains name = true := by
  induction xs generalizing s with
  | nil => simp
  | cons x xs ih =>
    simp only [List.foldl_cons, ih, contains_add, List.mem_cons, exists_eq_or_imp, or_assoc,
      eq_comm (a := name)]
    exact or_left_comm

lemma get?_eq_some_iff {s : NameSet} {name : String} {u : Unit} :
    s.get? name = some u ↔ s.contains name = true := by
  rw [Table.contains_eq_isSome_get?]
  cases s.get? name <;> simp

lemma foldl_add_of_perm {α : Type} {xs ys : List α} (h : xs.Perm ys) (f : α → String) (s : NameSet) :
    xs.foldl (fun s x => s.add (f x)) s = ys.foldl (fun s x => s.add (f x)) s := by
  refine Table.eq_of_get? fun name u => ?_
  simp only [get?_eq_some_iff, contains_foldl_add, h.mem_iff]

lemma ofNames_of_perm {names names' : List String} (h : names.Perm names') :
    ofNames names = ofNames names' :=
  foldl_add_of_perm h id Table.empty

lemma contains_ofNames {names : List String} {name : String} :
    (ofNames names).contains name = true ↔ name ∈ names := by
  refine (contains_foldl_add id names Table.empty).trans ?_
  simp [Table.contains_eq_isSome_get?]

end NameSet

end TlsTrust
