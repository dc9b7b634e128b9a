import TlsTrust.Json.Record
import TlsTrust.Proofs.Text.Digits

namespace TlsTrust.Json

open Text

variable {α : Type} {given : List (String × Option Json)} {name : String} {value : Option Json}

lemma filter_compact_eq_nil (h : name ∉ given.map (·.1)) :
    (given.filterMap fun f => f.2.map (f.1, ·)).filter (·.1 == name) = [] := by
  refine List.filter_eq_nil_iff.2 fun f hf => ?_
  obtain ⟨g, hg, hf⟩ := List.mem_filterMap.1 hf
  obtain ⟨j, -, rfl⟩ := Option.map_eq_some_iff.1 hf
  have hne : g.1 ≠ name := fun he => h (he ▸ List.mem_map_of_mem hg)
  simpa using hne

lemma uniqueField?_compact (hnodup : (given.map (·.1)).Nodup) (h : (name, value) ∈ given) :
    uniqueField? (given.filterMap fun f => f.2.map (f.1, ·)) name = some value := by
  suffices hfilter : (given.filterMap fun f => f.2.map (f.1, ·)).filter (·.1 == name) =
      (value.map (name, ·)).toList by
    rw [uniqueField?, hfilter]
    cases value <;> rfl
  induction given with
  | nil => cases h
  | cons f given ih =>
    rw [List.map_cons, List.nodup_cons] at hnodup
    rcases List.mem_cons.1 h with rfl | hmem
    · have hrest := filter_compact_eq_nil hnodup.1
      cases value with
      | none => simpa using hrest
      | some j => simpa using hrest
    · have hne : f.1 ≠ name := fun he => hnodup.1 (he ▸ List.mem_map_of_mem hmem)
      have hrest := ih hnodup.2 hmem
      cases hf : f.2 with
      | none => simpa [hf] using hrest
      | some j => simpa [hf, hne] using hrest

theorem recordValues?_compactObject {fields : List RecordField}
    (hnodup : (fields.map (·.name)).Nodup) (hnames : fields.map (·.name) = given.map (·.1)) :
    recordValues? fields (compactObject given) = some (given.map (·.2)) := by
  rw [hnames] at hnodup
  have hread : given.mapM (fun f => uniqueField? (given.filterMap fun f => f.2.map (f.1, ·)) f.1) =
      some (given.map (·.2)) :=
    mapM_eq_some_map fun f hf => uniqueField?_compact hnodup hf
  have hmap := List.mapM_map (f := RecordField.name) (l := fields)
    (g := uniqueField? (given.filterMap fun f => f.2.map (f.1, ·)))
  rw [hnames, List.mapM_map] at hmap
  exact hmap.symm.trans hread

lemma compact_readable {n : Nat}
    (h : ∀ f ∈ given, ∀ j, f.2 = some j → j.isReadable = true ∧ j.depth ≤ n) :
    haveReadable (given.filterMap fun f => f.2.map (f.1, ·)) = true ∧
      depthOfFields (given.filterMap fun f => f.2.map (f.1, ·)) ≤ n := by
  induction given with
  | nil => exact ⟨rfl, Nat.zero_le n⟩
  | cons f given ih =>
    rw [List.forall_mem_cons] at h
    obtain ⟨hread, hdepth⟩ := ih h.2
    cases hf : f.2 with
    | none => simpa [hf] using ih h.2
    | some j =>
      obtain ⟨hj, hn⟩ := h.1 j hf
      simpa [hf, haveReadable, depthOfFields, hj, hread] using Nat.max_le.2 ⟨hn, hdepth⟩

lemma isPlainValue_compactObject
    (h : ∀ f ∈ given, ∀ j, f.2 = some j → j.isReadable = true ∧ j.depth ≤ 1) :
    (compactObject given).isPlainValue = true := by
  obtain ⟨hread, hdepth⟩ := compact_readable h
  have hmax : depthOfFields (given.filterMap fun f => f.2.map (f.1, ·)) + 1 ≤ maxDepth :=
    Nat.le_trans (Nat.succ_le_succ hdepth) (by decide)
  simp [isPlainValue, compactObject, isReadable, depth, hread, hmax]

lemma exists_of_required {read : Json → Option α} {value : Option Json} {a : α}
    (h : required read value = some a) : ∃ j, value = some j ∧ read j = some a := by
  cases value with
  | none => cases h
  | some j => exact ⟨j, rfl, h⟩

lemma optionalField_string (text : Option String) :
    optionalField string? (text.map .string) = some text := by
  cases text <;> rfl

lemma strings?_string (texts : List String) : strings? (.array (texts.map .string)) = some texts := by
  exact mapM_map_eq_some fun _ _ => rfl

lemma word?_string {all : List α} {name : α → String} {a : α} (ha : a ∈ all)
    (hname : ∀ b ∈ all, name b = name a → b = a) : word? all name (.string (name a)) = some a := by
  rw [word?]
  obtain ⟨b, hb⟩ : ∃ b, all.find? (name · == name a) = some b := by
    rw [← Option.isSome_iff_exists, List.find?_isSome]
    exact ⟨a, ha, beq_self_eq_true _⟩
  have hbname : name b = name a := by simpa using List.find?_some hb
  rw [hb, hname b (List.mem_of_find?_eq_some hb) hbname]

end TlsTrust.Json
