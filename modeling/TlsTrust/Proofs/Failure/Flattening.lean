import TlsTrust.Failure
import TlsTrust.Proofs.Failure.Phrase

/-!
The message of an error with its causes: which causes it takes up, and what that means for its kind.
-/

namespace TlsTrust

open Text PhraseRule FailureKind

namespace CertificateFailure

variable {t text : String} {causes : List String}

/-- The causes that a message takes up: those that it does not tell already when their turn comes. -/
def told (message : String) : List String → List String
  | [] => []
  | cause :: causes =>
    if includes message cause then told message causes
    else cause :: told (message ++ ": " ++ cause) causes

lemma flatten_append (text : String) (before after : List String) :
    flatten text (before ++ after) = flatten (flatten text before) after :=
  List.foldl_append

lemma flatten_singleton (text cause : String) :
    flatten text [cause] = if includes text cause then text else text ++ ": " ++ cause :=
  rfl

lemma told_sublist (text : String) (causes : List String) : (told text causes).Sublist causes := by
  induction causes generalizing text with
  | nil => exact List.Sublist.slnil
  | cons cause causes ih =>
    rw [told]
    split
    · exact (ih text).cons cause
    · exact (ih _).cons_cons cause

lemma flatten_eq_intercalate (text : String) (causes : List String) :
    flatten text causes = ": ".intercalate (text :: told text causes) := by
  induction causes generalizing text with
  | nil => rfl
  | cons cause causes ih =>
    rw [← List.singleton_append, flatten_append, flatten_singleton, List.singleton_append, told]
    split
    · exact ih text
    · exact ih _

lemma told_append (text : String) (before after : List String) :
    told text (before ++ after) = told text before ++ told (flatten text before) after := by
  induction before generalizing text with
  | nil => rfl
  | cons cause before ih =>
    rw [← List.singleton_append (l := before), flatten_append, flatten_singleton, List.singleton_append,
      List.cons_append, told, told]
    split
    · exact ih text
    · rw [ih, List.cons_append]

lemma told_singleton (text cause : String) :
    told text [cause] = if includes text cause then [] else [cause] :=
  rfl

lemma exists_flatten_eq (text : String) (causes : List String) :
    ∃ rest, flatten text causes = text ++ rest := by
  induction causes generalizing text with
  | nil => exact ⟨"", String.append_empty.symm⟩
  | cons cause causes ih =>
    rw [← List.singleton_append, flatten_append, flatten_singleton]
    split
    · exact ih text
    · obtain ⟨rest, hrest⟩ := ih (text ++ ": " ++ cause)
      exact ⟨": " ++ cause ++ rest, by rw [hrest]; simp only [String.append_assoc]⟩

lemma occurs_flatten_singleton (text cause : String) :
    cause.toList <:+: (flatten text [cause]).toList := by
  rw [flatten_singleton]
  split
  case isTrue h => exact includes_iff.1 h
  case isFalse =>
    rw [String.toList_append]
    exact (List.suffix_append _ _).isInfix

lemma occurs_flatten (h : t ∈ text :: causes) : t.toList <:+: (flatten text causes).toList := by
  rcases List.mem_cons.1 h with rfl | hcause
  · obtain ⟨rest, hrest⟩ := exists_flatten_eq t causes
    rw [hrest, String.toList_append]
    exact (List.prefix_append _ _).isInfix
  · -- the message has the cause after its turn, and only grows from then on
    obtain ⟨before, after, rfl⟩ := List.append_of_mem hcause
    obtain ⟨rest, hrest⟩ := exists_flatten_eq (flatten text (before ++ [t])) after
    have hturn : t.toList <:+: (flatten text (before ++ [t])).toList := by
      rw [flatten_append]
      exact occurs_flatten_singleton _ t
    rw [List.append_cons, flatten_append, hrest, String.toList_append]
    exact hturn.trans (List.prefix_append _ _).isInfix

/-- The message of an error starts with its own text and goes on with some of its causes, in their
order; a cause is left out exactly when the message up to it has it already. So every text of the error
stands in the message, and the rule that decides for the message comes no later than the rule for any of
them. -/
theorem message_tells_every_cause (text : String) (causes : List String) :
    (∃ rest, flatten text causes = text ++ rest) ∧
    (told text causes).Sublist causes ∧
    flatten text causes = ": ".intercalate (text :: told text causes) ∧
    (∀ before cause after, causes = before ++ cause :: after →
      told text causes = told text before ++
        (if includes (flatten text before) cause then [] else [cause]) ++
          told (flatten text (before ++ [cause])) after) ∧
    (∀ t ∈ text :: causes, ∃ before after, flatten text causes = before ++ t ++ after) ∧
    ∀ t ∈ text :: causes, rank (flatten text causes) ≤ rank t ∧
      (ofText t ≠ .unknown → ofText (flatten text causes) ≠ .unknown) := by
  refine ⟨exists_flatten_eq text causes, told_sublist text causes, flatten_eq_intercalate text causes,
    ?_, fun t ht => ?_, fun t ht => ?_⟩
  · rintro before cause after rfl
    rw [List.append_cons, told_append, told_append, told_singleton]
  · obtain ⟨before, after, h⟩ := occurs_flatten ht
    refine ⟨String.ofList before, String.ofList after, String.toList_inj.1 ?_⟩
    simp [h]
  · have hrank := rank_le_of_occurs (occurs_flatten ht)
    exact ⟨hrank, ofText_ne_unknown_of_rank_le hrank⟩

theorem nested_cause_is_told_once :
    let text := "request failed"
    let causes := ["bad certificate", "failed: bad", "certificate has expired"]
    told text causes = ["bad certificate", "certificate has expired"] ∧
      rank (flatten text causes) ≤ rank "certificate has expired" ∧
      ofText (flatten text causes) ≠ .unknown := by
  intro text causes
  obtain ⟨-, -, -, hturn, -, hkept⟩ := message_tells_every_cause text causes
  obtain ⟨hrank, hkind⟩ := hkept "certificate has expired" (by decide)
  refine ⟨?_, hrank, hkind (by decide +kernel)⟩
  rw [hturn ["bad certificate"] "failed: bad" ["certificate has expired"] rfl]
  decide +kernel

end CertificateFailure

end TlsTrust
