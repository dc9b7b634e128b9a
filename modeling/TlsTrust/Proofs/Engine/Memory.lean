import TlsTrust.Engine.Memory
import Mathlib.Tactic.Lemma

namespace TlsTrust

namespace DecisionMemory

variable {m m₁ m₂ : DecisionMemory} {generation : Nat} {key : MemoryKey} {d : Decision}

lemma mem_entries_of_find? (h : m.find? key = some d) : (key, d) ∈ m.entries := by
  obtain ⟨generation, entries⟩ := m
  simp only [find?] at h ⊢
  induction entries with
  | nil => cases h
  | cons e es ih =>
    rw [List.lookup_cons] at h
    split at h
    case h_1 heq =>
      obtain rfl : key = e.1 := by simpa using heq
      obtain rfl := Option.some.inj h
      simp
    case h_2 => exact List.mem_cons_of_mem _ (ih h)

lemma mem_entries_insert_of_current {p : MemoryKey × Decision} (hg : generation = m.generation) :
    p ∈ (m.insert generation key d).entries ↔ p = (key, d) ∨ p ∈ m.entries ∧ p.1 ≠ key := by
  simp [insert, hg]

lemma find?_insert_self (hg : generation = m.generation) :
    (m.insert generation key d).find? key = some d := by
  simp [insert, hg, find?]

lemma find?_insert_of_ne {key' : MemoryKey} (h : key' ≠ key) :
    (m.insert generation key d).find? key' = m.find? key' := by
  have hskip : (key' == key) = false := beq_false_of_ne h
  have hrest (es : List (MemoryKey × Decision)) :
      (es.filter fun e => e.1 != key).lookup key' = es.lookup key' := by
    induction es with
    | nil => rfl
    | cons e es ih =>
      obtain ⟨k, d'⟩ := e
      by_cases hkey : k = key
      · simpa [hkey, List.lookup_cons, hskip] using ih
      · simp [hkey, List.lookup_cons, ih]
  unfold insert
  split
  · simp only [find?, List.lookup_cons, hskip, hrest]
  · rfl

lemma insert_of_outdated (hg : generation ≠ m.generation) : m.insert generation key d = m :=
  if_neg hg

lemma mem_entries_insert {p : MemoryKey × Decision} (h : p ∈ (m.insert generation key d).entries) :
    p = (key, d) ∧ generation = m.generation ∨ p ∈ m.entries := by
  by_cases hg : generation = m.generation
  · rcases (mem_entries_insert_of_current hg).1 h with rfl | ⟨h, -⟩
    · exact .inl ⟨rfl, hg⟩
    · exact .inr h
  · rw [insert_of_outdated hg] at h
    exact .inr h

@[simp] lemma insert_generation (m : DecisionMemory) (generation : Nat) (key : MemoryKey)
    (d : Decision) : (m.insert generation key d).generation = m.generation := by
  unfold insert
  split <;> rfl

def Renewed (m m₁ : DecisionMemory) : Prop :=
  m₁ = m ∨ m.generation < m₁.generation ∧ m₁.entries = []

lemma Renewed.refl (m : DecisionMemory) : m.Renewed m := .inl rfl

lemma Renewed.trans (h : m.Renewed m₁) (k : m₁.Renewed m₂) : m.Renewed m₂ := by
  rcases h with rfl | ⟨hg, he⟩
  · exact k
  · rcases k with rfl | ⟨hg', he'⟩
    · exact .inr ⟨hg, he⟩
    · exact .inr ⟨Nat.lt_trans hg hg', he'⟩

lemma renewed_invalidate (m : DecisionMemory) : m.Renewed m.invalidate :=
  .inr ⟨Nat.lt_succ_self _, rfl⟩

end DecisionMemory

end TlsTrust
