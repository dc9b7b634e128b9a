import TlsTrust.Text.Ascii

/-!
Finite tables from texts to values, kept in the order of the keys, so that equal look-ups give equal
tables.
-/

namespace TlsTrust

structure Table (α : Type) where
  entries : List (String × α)
  sorted : entries.Pairwise (fun a b => a.1 < b.1)
deriving Repr

namespace Table

variable {α β : Type}

instance [DecidableEq α] : DecidableEq (Table α) := fun s t =>
  if h : s.entries = t.entries then
    isTrue (by cases s; cases t; cases h; rfl)
  else
    isFalse (fun e => h (by rw [e]))

@[ext] theorem ext {s t : Table α} (h : s.entries = t.entries) : s = t := by
  cases s; cases t; cases h; rfl

def empty : Table α :=
  ⟨[], .nil⟩

instance : Inhabited (Table α) := ⟨empty⟩

def insertEntry (k : String) (v : α) : List (String × α) → List (String × α)
  | [] => [(k, v)]
  | e :: es =>
    if k < e.1 then (k, v) :: e :: es
    else if k = e.1 then (k, v) :: es
    else e :: insertEntry k v es

theorem mem_insertEntry {k : String} {v : α} {e : String × α} {es : List (String × α)}
    (h : e ∈ insertEntry k v es) : e = (k, v) ∨ e ∈ es := by
  induction es with
  | nil => simpa [insertEntry] using h
  | cons d ds ih =>
    unfold insertEntry at h
    split at h
    · simpa using h
    · split at h
      · grind
      · grind

theorem pairwise_insertEntry (k : String) (v : α) {es : List (String × α)}
    (h : es.Pairwise (fun a b => a.1 < b.1)) :
    (insertEntry k v es).Pairwise (fun a b => a.1 < b.1) := by
  induction es with
  | nil => simp [insertEntry]
  | cons d ds ih =>
    rw [List.pairwise_cons] at h
    unfold insertEntry
    split
    case isTrue hlt =>
      refine .cons (fun e he => ?_) (.cons h.1 h.2)
      rcases List.mem_cons.1 he with rfl | he
      · exact hlt
      · exact String.lt_trans hlt (h.1 e he)
    case isFalse hlt =>
      split
      case isTrue heq => exact .cons (fun e he => heq ▸ h.1 e he) h.2
      case isFalse hne =>
        refine .cons (fun e he => ?_) (ih h.2)
        rcases mem_insertEntry he with rfl | he
        · have hle := String.not_lt.1 hlt
          rcases Decidable.em (d.1 < k) with hl | hl
          · exact hl
          · exact absurd (String.le_antisymm (String.not_lt.1 hl) hle) hne
        · exact h.1 e he

def insert (t : Table α) (k : String) (v : α) : Table α :=
  ⟨insertEntry k v t.entries, pairwise_insertEntry k v t.sorted⟩

def get? (t : Table α) (k : String) : Option α :=
  (t.entries.find? (fun e => e.1 == k)).map (·.2)

def contains (t : Table α) (k : String) : Bool :=
  t.entries.any (fun e => e.1 == k)

def filter (t : Table α) (p : String → α → Bool) : Table α :=
  ⟨t.entries.filter (fun e => p e.1 e.2), t.sorted.filter _⟩

def erase (t : Table α) (k : String) : Table α :=
  t.filter (fun k' _ => k' != k)

def keys (t : Table α) : List String :=
  t.entries.map (·.1)

def size (t : Table α) : Nat :=
  t.entries.length

def isEmpty (t : Table α) : Bool :=
  t.entries.isEmpty

theorem find?_insertEntry_self (k : String) (v : α) (es : List (String × α)) :
    (insertEntry k v es).find? (fun e => e.1 == k) = some (k, v) := by
  induction es with
  | nil => simp [insertEntry]
  | cons e es ih =>
    unfold insertEntry
    split
    · simp
    · split
      · simp
      case isFalse hne => simpa [Ne.symm hne] using ih

theorem find?_insertEntry_of_ne {k k' : String} (h : k' ≠ k) (v : α) (es : List (String × α)) :
    (insertEntry k v es).find? (fun e => e.1 == k') = es.find? (fun e => e.1 == k') := by
  induction es with
  | nil => simp [insertEntry, Ne.symm h]
  | cons e es ih =>
    unfold insertEntry
    split
    · simp [Ne.symm h]
    · split
      case isTrue heq => simp [← heq, Ne.symm h]
      · simp only [List.find?_cons, ih]

@[simp] theorem get?_insert_self (t : Table α) (k : String) (v : α) :
    (t.insert k v).get? k = some v := by
  simp [get?, insert, find?_insertEntry_self]

theorem get?_insert_of_ne (t : Table α) {k k' : String} (h : k' ≠ k) (v : α) :
    (t.insert k v).get? k' = t.get? k' := by
  simp [get?, insert, find?_insertEntry_of_ne h]

@[simp] theorem get?_empty (k : String) : (empty : Table α).get? k = none := rfl

theorem contains_eq_isSome_get? (t : Table α) (k : String) :
    t.contains k = (t.get? k).isSome := by
  simp [contains, get?, List.isSome_find?]

theorem mem_entries_of_get? {t : Table α} {k : String} {v : α} (h : t.get? k = some v) :
    (k, v) ∈ t.entries := by
  obtain ⟨e, he, rfl⟩ := Option.map_eq_some_iff.1 h
  have hk : e.1 = k := by simpa using List.find?_some he
  exact hk ▸ List.mem_of_find?_eq_some he

theorem get?_of_mem_entries {t : Table α} {k : String} {v : α} (h : (k, v) ∈ t.entries) :
    t.get? k = some v := by
  obtain ⟨es, hs⟩ := t
  simp only [get?] at h ⊢
  induction es with
  | nil => cases h
  | cons e es ih =>
    rw [List.pairwise_cons] at hs
    rcases List.mem_cons.1 h with rfl | h
    · simp
    · have hlt : e.1 < k := hs.1 _ h
      have hne : e.1 ≠ k := fun he => String.lt_irrefl k (he ▸ hlt)
      simpa [hne] using ih hs.2 h

theorem get?_filter {t : Table α} {p : String → α → Bool} {k : String} {v : α} :
    (t.filter p).get? k = some v ↔ t.get? k = some v ∧ p k v = true := by
  constructor
  · intro h
    have hm := mem_entries_of_get? h
    simp only [filter, List.mem_filter] at hm
    exact ⟨get?_of_mem_entries hm.1, hm.2⟩
  · rintro ⟨h, hp⟩
    exact get?_of_mem_entries (List.mem_filter.2 ⟨mem_entries_of_get? h, hp⟩)

theorem get?_erase {t : Table α} {k k' : String} {v : α} :
    (t.erase k).get? k' = some v ↔ t.get? k' = some v ∧ k' ≠ k := by
  simp [erase, get?_filter]

def ofList (es : List (String × α)) : Table α :=
  es.foldl (fun t e => t.insert e.1 e.2) empty

end Table

abbrev NameSet := Table Unit

namespace NameSet

def add (s : NameSet) (name : String) : NameSet :=
  s.insert name ()

def ofNames (names : List String) : NameSet :=
  names.foldl add Table.empty

end NameSet

end TlsTrust
