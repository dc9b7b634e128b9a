import TlsTrust.Proofs.Json.Rendering
import TlsTrust.Proofs.Text.Digits
import TlsTrust.Yaml.Value
import Mathlib.Data.List.Forall2

namespace TlsTrust.Yaml

open Text

/-- A document shows texts in any style, switches and numbers without quotes. -/
inductive Node.Shows : Node → Json → Prop
  | text (style : ScalarStyle) (t : String) : Shows (.scalar { style, text := t }) (.string t)
  | switch (b : Bool) : Shows (.scalar { text := String.ofList (Json.bool b).chars }) (.bool b)
  | number (i : Int) : Shows (.scalar { text := String.ofList (Json.int i).chars }) (.int i)
  | sequence {items : List Node} {js : List Json} (h : List.Forall₂ Shows items js) :
      Shows (.sequence items) (.array js)
  | mapping {entries : List (Node × Node)} {fields : List (String × Json)}
      (names : List.Forall₂ Shows (entries.map (·.1)) (fields.map fun f => .string f.1))
      (values : List.Forall₂ Shows (entries.map (·.2)) (fields.map (·.2))) :
      Shows (.mapping entries) (.object fields)

variable {α β : Type} {n : Node} {ds : List Char}

namespace Scalar

lemma natOfChars?_toDigits {k : Nat} (h : k < UInt64.size) :
    natOfChars? (Nat.toDigits 10 k) = some k := by
  have hdigit : ∀ c ∈ Nat.toDigits 10 k, c.isDigit = true := fun c => isDigit_of_mem_toDigits
  have hlength := length_toDigits_of_head? (n := k)
  have hvalue := natOfDigits_toDigits k
  have hne : Nat.toDigits 10 k ≠ [] := Nat.toDigits_ne_nil
  generalize Nat.toDigits 10 k = ds at hdigit hlength hvalue hne
  have hsign : (ds.head? == some '+') = false := by
    rw [beq_eq_false_iff_ne]
    exact fun hplus => absurd (hdigit _ (List.mem_of_head? hplus)) (by decide)
  have hzero : (1 < ds.length && ds.head? == some '0') = false := by
    rw [Bool.and_eq_false_imp, decide_eq_true_iff, beq_eq_false_iff_ne]
    exact fun hlong hhead => absurd (hlength hhead) (Nat.ne_of_gt hlong)
  have hread : ds.mapM (digitBelow? 10) = some (ds.map fun c => c.toNat - '0'.toNat) := by
    refine mapM_eq_some_map fun c hc => ?_
    have hbound := isDigit_iff.1 (hdigit c hc)
    have hbase : '0'.toNat = 48 := rfl
    have hlow : c.toNat - '0'.toNat < 10 := by omega
    rw [digitBelow?, hexDigit?, if_pos (hdigit c hc), Option.filter_some, if_pos (by simpa using hlow)]
  have hdecimal : natInBase? 10 ds = some k := by
    have hfold : ds.foldl (fun n c => 10 * n + (c.toNat - '0'.toNat)) 0 = k := hvalue
    simp only [natInBase?, hread, Option.bind_eq_bind, Option.bind_some, List.foldl_map, hfold]
    rw [if_neg (by simpa [hne] using h)]
  have hsecond : ∀ c rest, ds = '0' :: c :: rest → c.isDigit = true :=
    fun c rest he => hdigit c (by simp [he])
  simp only [natOfChars?, hsign, hzero, Bool.false_eq_true, if_false]
  split
  case h_1 rest => exact absurd (hsecond 'x' rest rfl) (by decide)
  case h_2 rest => exact absurd (hsecond 'o' rest rfl) (by decide)
  case h_3 rest => exact absurd (hsecond 'b' rest rfl) (by decide)
  case h_4 => exact hdecimal

lemma text_of_isNothing {s : Scalar} (h : s.isNothing = true) :
    s.text ∈ ["", "~", "null", "Null", "NULL"] := by
  simp only [isNothing, isNullWord, Bool.and_eq_true, Bool.or_eq_true, String.isEmpty_iff,
    beq_iff_eq] at h
  simpa [or_assoc] using h.2

lemma optional?_eq_some {read : Scalar → Option α} {text : String} {a : α}
    (hnothing : ∀ w ∈ ["", "~", "null", "Null", "NULL"], read { text := w } = none)
    (hread : read { text } = some a) : optional? read { text } = some (some a) := by
  cases h : isNothing { text } with
  | false => simp only [optional?, h, Bool.false_eq_true, if_false, hread, Option.map_some]
  | true =>
    rw [hnothing text (text_of_isNothing h)] at hread
    cases hread

end Scalar

lemma exists_mapM_of_forall₂ {γ δ ε : Type} {R : γ → δ → Prop} {S : ε → δ → Prop} {f : γ → Option ε}
    {xs : List γ} {ys : List δ} (h : List.Forall₂ R xs ys)
    (hf : ∀ x y, R x y → ∃ z, f x = some z ∧ S z y) :
    ∃ zs, xs.mapM f = some zs ∧ List.Forall₂ S zs ys := by
  induction h with
  | nil => exact ⟨[], rfl, .nil⟩
  | cons hxy _ ih =>
    obtain ⟨z, hz, hzy⟩ := hf _ _ hxy
    obtain ⟨zs, hzs, hrest⟩ := ih
    exact ⟨z :: zs, by simp [List.mapM_cons, hz, hzs], .cons hzy hrest⟩

lemma mapM_of_forall₂ {γ δ : Type} {R : γ → δ → Prop} {f : γ → Option δ} {xs : List γ} {ys : List δ}
    (h : List.Forall₂ R xs ys) (hf : ∀ x y, R x y → f x = some y) : xs.mapM f = some ys := by
  obtain ⟨zs, hzs, heq⟩ := exists_mapM_of_forall₂ h fun x y hxy => ⟨y, hf x y hxy, rfl⟩
  rw [List.forall₂_eq_eq_eq] at heq
  rw [hzs, heq]

namespace Node.Shows

variable {js : List Json} {fields : List (String × Json)} {entries : List (Node × Node)} {t : String}

lemma text?_eq (h : n.Shows (.string t)) : n.text? = some t := by
  cases h
  rfl

lemma word?_eq {all : List α} {name : α → String} {a : α} (h : n.Shows (.string (name a)))
    (hmem : a ∈ all) (hinj : ∀ b ∈ all, name b = name a → b = a) : n.word? all name = some a := by
  generalize hword : name a = word at h
  cases h
  show all.find? (fun b => name b == word) = some a
  have hfound : all.find? (fun b => name b == word) ≠ none := by
    rw [ne_eq, List.find?_eq_none]
    exact fun hnone => hnone a hmem (by simpa using hword)
  obtain ⟨b, hb⟩ := Option.ne_none_iff_exists'.1 hfound
  have hname : name b = word := by simpa using List.find?_some hb
  rw [hb, hinj b (List.mem_of_find?_eq_some hb) (hname.trans hword.symm)]

lemma bool?_eq {b : Bool} (h : n.Shows (.bool b)) :
    n.scalar?.bind (Scalar.optional? Scalar.bool?) = some (some b) := by
  cases h
  cases b <;> decide +kernel

lemma number_eq {k : Nat} {read : Scalar → Option α} {a : α} (h : n.Shows (.int k))
    (hk : k < UInt64.size) (hvalue : ∀ s : Scalar, s.nat? = some k → read s = some a)
    (hnone : ∀ s : Scalar, s.nat? = none → read s = none) :
    n.scalar?.bind (Scalar.optional? read) = some (some a) := by
  generalize hi : (k : Int) = i at h
  cases h
  subst hi
  have hdigits : (Json.int k).chars = Nat.toDigits 10 k := Json.intText_eq k
  have hnothing : ∀ w ∈ ["", "~", "null", "Null", "NULL"], Scalar.nat? { text := w } = none := by
    decide +kernel
  rw [hdigits, scalar?, Option.bind_some]
  apply Scalar.optional?_eq_some
  · exact fun w hw => hnone _ (hnothing w hw)
  · apply hvalue
    rw [Scalar.nat?, if_pos (by rfl), String.toList_ofList, Scalar.natOfChars?_toDigits hk]

lemma items_read {as : List α} {toJson : α → Json} {read : Node → Option α}
    (h : n.Shows (.array (as.map toJson)))
    (hread : ∀ (m : Node) a, m.Shows (toJson a) → read m = some a) :
    n.items?.bind (·.mapM read) = some as := by
  cases h with
  | sequence h =>
    rw [List.forall₂_map_right_iff] at h
    exact mapM_of_forall₂ h hread

lemma entries?_eq (h : n.Shows (.object fields)) : ∃ entries, n.entries? = some entries ∧
    List.Forall₂ (fun e f => e.1.Shows (.string f.1) ∧ e.2.Shows f.2) entries fields := by
  cases h with
  | mapping names values =>
    refine ⟨_, rfl, ?_⟩
    rw [List.forall₂_map_left_iff, List.forall₂_map_right_iff] at names values
    rw [List.forall₂_iff_get] at names values ⊢
    exact ⟨names.1, fun i he hf => ⟨names.2 i he hf, values.2 i he hf⟩⟩

lemma table?_eq {es : List (α × β)} {name : α → String} {toJson : β → Json}
    {key : Node → Option α} {value : Node → Option β}
    (h : n.Shows (.object (es.map fun e => (name e.1, toJson e.2))))
    (hkey : ∀ (m : Node) a, m.Shows (.string (name a)) → key m = some a)
    (hvalue : ∀ (m : Node) b, m.Shows (toJson b) → value m = some b) :
    n.table? key value = some es := by
  obtain ⟨entries, hentries, hshown⟩ := h.entries?_eq
  rw [List.forall₂_map_right_iff] at hshown
  simp only [table?, hentries, Option.bind_eq_bind, Option.bind_some]
  refine mapM_of_forall₂ hshown fun e f he => ?_
  simp [hkey _ _ he.1, hvalue _ _ he.2]

lemma fields?_eq {names : List String} (h : n.Shows (.object fields))
    (hnames : fields.map (·.1) = names) (hnodup : names.Nodup) :
    ∃ read, n.fields? names = some read ∧
      List.Forall₂ (fun r f => r.1 = f.1 ∧ r.2.Shows f.2) read fields := by
  obtain ⟨entries, hentries, hshown⟩ := h.entries?_eq
  obtain ⟨read, hread, hvalues⟩ := exists_mapM_of_forall₂
    (f := fun e : Node × Node => do return (← e.1.text?, ← some e.2))
    (S := fun r f => r.1 = f.1 ∧ r.2.Shows f.2) hshown
    fun e f he => ⟨(f.1, e.2), by simp [he.1.text?_eq], rfl, he.2⟩
  replace hread : n.table? text? some = some read := by
    rw [table?, hentries]
    exact hread
  have hsame : read.map (·.1) = names := by
    rw [← hnames, ← List.forall₂_eq_eq_eq, List.forall₂_map_left_iff, List.forall₂_map_right_iff]
    exact hvalues.imp fun _ _ hr => hr.1
  have hall : (read.all fun r => names.contains r.1) = true := by
    rw [List.all_eq_true]
    exact fun r hr => List.contains_iff_mem.2 (hsame ▸ List.mem_map_of_mem hr)
  refine ⟨read, ?_, hvalues⟩
  simp only [fields?, hread, Option.bind_eq_bind, Option.bind_some, hall, hsame, hnodup]
  rfl

end Node.Shows

end TlsTrust.Yaml
